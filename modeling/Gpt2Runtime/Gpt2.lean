import Gpt2Runtime.Kernels
/-
# GPT-2 by index

What the runtime is for, stated without buffers: activations are functions of position and channel,
weights are functions of their tensor indices. `residual l t c` is channel `c` of position `t`
after `l` layers and `logit t v` the score of token `v` after position `t`. Sums are left folds in
ascending index order, from the bias where there is one.

The residual of a position is defined from the positions up to it, so causality (`residual_congr`,
`logit_congr`) is a plain induction on the layers.
-/

namespace Gpt2Runtime

open Loop

variable {α : Type} [Scalar α]

def sumFrom (init : α) (n : Nat) (f : Nat → α) : α := foldN n init fun i acc => acc + f i

/-! ## One row through each kernel -/

def layerNormRow (C : Nat) (x w b : Nat → α) (c : Nat) : α :=
  let mean := sumFrom 0 C x / Scalar.ofSize C
  let variance := sumFrom 0 C (fun i => (x i - mean) * (x i - mean)) / Scalar.ofSize C
  1 / Scalar.sqrt (variance + Scalar.epsilon) * (x c - mean) * w c + b c

/-- Output channel `o`: bias plus the dot product with row `o` of an output-major matrix. -/
def linearRow (n : Nat) (x : Nat → α) (w : Nat → Nat → α) (b : Nat → α) (o : Nat) : α :=
  sumFrom (b o) n fun i => x i * w o i

/-- The scaled dot product of one query and one key of `hs` channels. -/
def headScore (hs : Nat) (q k : Nat → α) : α :=
  sumFrom 0 hs (fun i => q i * k i) * (1 / Scalar.sqrt (Scalar.ofSize hs))

/-- The first of the largest among `n` scores; `lowest` where none is greater. -/
def scoreMax (n : Nat) (score : Nat → α) : α :=
  foldN n Scalar.lowest fun s m => if Scalar.lt m (score s) then score s else m

/-- The weight of source `s` among `n` scores. -/
def softmax (n : Nat) (score : Nat → α) (s : Nat) : α :=
  let m := scoreMax n score
  let z := sumFrom 0 n fun s => Scalar.exp (score s - m)
  Scalar.exp (score s - m) * (if Scalar.eq z 0 then 0 else 1 / z)

/-- One head: the first `n` values weighted by the softmax of their scores. -/
def attentionHead (n hs : Nat) (q : Nat → α) (k v : Nat → Nat → α) (i : Nat) : α :=
  sumFrom 0 n fun s => softmax n (fun s => headScore hs q (k s)) s * v s i

/-- Channel `c` belongs to head `c / (C / H)`, whose channels start at `c / (C / H) * (C / H)`. -/
def attentionRow (n C H : Nat) (q : Nat → α) (k v : Nat → Nat → α) (c : Nat) : α :=
  let hs := C / H
  let base := c / hs * hs
  attentionHead n hs (fun i => q (base + i)) (fun s i => k s (base + i)) (fun s i => v s (base + i)) (c % hs)

/-- `x / 2 * (1 + tanh(√(2 / π) * (x + 0.044715 * x³)))`. -/
def gelu (x : α) : α :=
  Scalar.half * x * (1 + Scalar.tanh (Scalar.sqrt Scalar.twoOverPi * (x + Scalar.geluCubic * x * x * x)))

/-! ## The network -/

structure LayerWeights (α : Type) where
  ln1w : Nat → α
  ln1b : Nat → α
  qkvw : Nat → Nat → α
  qkvb : Nat → α
  attprojw : Nat → Nat → α
  attprojb : Nat → α
  ln2w : Nat → α
  ln2b : Nat → α
  fcw : Nat → Nat → α
  fcb : Nat → α
  fcprojw : Nat → Nat → α
  fcprojb : Nat → α

/-- The weights by tensor index; the dimensions the computation depends on. -/
structure Network (α : Type) where
  layers : Nat
  heads : Nat
  channels : Nat
  wte : Nat → Nat → α
  wpe : Nat → Nat → α
  layer : Nat → LayerWeights α
  lnfw : Nat → α
  lnfb : Nat → α

/-- A row of the qkv activations: query, key and value blocks of `C` channels each. -/
def qkvRow (C : Nat) (w : LayerWeights α) (x : Nat → α) : Nat → α :=
  linearRow C (layerNormRow C x w.ln1w w.ln1b) w.qkvw w.qkvb

/-- The attention output of position `t` from the qkv rows of the positions up to `t`. -/
def attend (C H : Nat) (qkv : Nat → Nat → α) (t : Nat) : Nat → α :=
  attentionRow (t + 1) C H (qkv t) (fun s c => qkv s (C + c)) (fun s c => qkv s (2 * C + c))

/-- `x + AttProj(a)`. -/
def attResidual (C : Nat) (w : LayerWeights α) (x a : Nat → α) (c : Nat) : α :=
  x c + linearRow C a w.attprojw w.attprojb c

/-- `GELU(Fc(LN2(x)))`. -/
def mlpHidden (C : Nat) (w : LayerWeights α) (x : Nat → α) (o : Nat) : α :=
  gelu (linearRow C (layerNormRow C x w.ln2w w.ln2b) w.fcw w.fcb o)

/-- `x + FcProj(h)`. -/
def mlpResidual (C : Nat) (w : LayerWeights α) (x h : Nat → α) (c : Nat) : α :=
  x c + linearRow (4 * C) h w.fcprojw w.fcprojb c

/-- The end of a layer for one position, from its residual and its attention output. -/
def finishLayer (C : Nat) (w : LayerWeights α) (x a : Nat → α) : Nat → α :=
  let x' := attResidual C w x a
  mlpResidual C w x' (mlpHidden C w x')

/-- One pre-norm block on all positions. -/
def block (C H : Nat) (w : LayerWeights α) (x : Nat → Nat → α) (t : Nat) : Nat → α :=
  finishLayer C w (x t) (attend C H (fun s => qkvRow C w (x s)) t)

namespace Network

/-- Channel `c` of position `t` after `l` layers, for the token IDs `tok`. -/
def residual (N : Network α) (tok : Nat → Nat) : Nat → Nat → Nat → α
  | 0, t, c => N.wte (tok t) c + N.wpe t c
  | l + 1, t, c => block N.channels N.heads (N.layer l) (N.residual tok l) t c

/-- Row `t` of the qkv activations of layer `l`. -/
def qkv (N : Network α) (tok : Nat → Nat) (l t : Nat) : Nat → α :=
  qkvRow N.channels (N.layer l) (N.residual tok l t)

def logit (N : Network α) (tok : Nat → Nat) (t v : Nat) : α :=
  linearRow N.channels (layerNormRow N.channels (N.residual tok N.layers t) N.lnfw N.lnfb) N.wte (fun _ => 0) v

theorem residual_succ (N : Network α) (tok : Nat → Nat) (l t : Nat) :
    N.residual tok (l + 1) t =
      finishLayer N.channels (N.layer l) (N.residual tok l t) (attend N.channels N.heads (N.qkv tok l) t) := by
  funext c; rfl

end Network

/-! ## Congruence: what each row reads -/

theorem sumFrom_congr {a b : α} {n : Nat} {f g : Nat → α} (hab : a = b) (h : ∀ i, i < n → f i = g i) :
    sumFrom a n f = sumFrom b n g := by
  subst hab
  exact foldN_congr fun i s hi => by rw [h i hi]

theorem layerNormRow_congr {C : Nat} {x x' w w' b b' : Nat → α} (hx : ∀ i, i < C → x i = x' i)
    (hw : ∀ i, i < C → w i = w' i) (hb : ∀ i, i < C → b i = b' i) {c : Nat} (hc : c < C) :
    layerNormRow C x w b c = layerNormRow C x' w' b' c := by
  have hm : sumFrom 0 C x = sumFrom 0 C x' := sumFrom_congr rfl hx
  have hv : ∀ m : α, sumFrom 0 C (fun i => (x i - m) * (x i - m)) = sumFrom 0 C (fun i => (x' i - m) * (x' i - m)) :=
    fun m => sumFrom_congr rfl fun i hi => by rw [hx i hi]
  simp only [layerNormRow, hm, hv, hx c hc, hw c hc, hb c hc]

theorem linearRow_congr {n : Nat} {x x' : Nat → α} {w w' : Nat → Nat → α} {b b' : Nat → α} {o : Nat}
    (hx : ∀ i, i < n → x i = x' i) (hw : ∀ i, i < n → w o i = w' o i) (hb : b o = b' o) :
    linearRow n x w b o = linearRow n x' w' b' o :=
  sumFrom_congr hb fun i hi => by rw [hx i hi, hw i hi]

theorem softmax_congr {n : Nat} {f g : Nat → α} (h : ∀ s, s < n → f s = g s) {s : Nat} (hs : s < n) :
    softmax n f s = softmax n g s := by
  have hm : scoreMax n f = scoreMax n g := foldN_congr fun i m hi => by rw [h i hi]
  have hz : ∀ m : α, sumFrom 0 n (fun s => Scalar.exp (f s - m)) = sumFrom 0 n (fun s => Scalar.exp (g s - m)) :=
    fun m => sumFrom_congr rfl fun i hi => by rw [h i hi]
  simp only [softmax, hm, hz, h s hs]

theorem attentionHead_congr {n hs : Nat} {q q' : Nat → α} {k k' v v' : Nat → Nat → α} {i : Nat}
    (hq : ∀ i, i < hs → q i = q' i) (hk : ∀ s, s < n → ∀ i, i < hs → k s i = k' s i)
    (hv : ∀ s, s < n → v s i = v' s i) : attentionHead n hs q k v i = attentionHead n hs q' k' v' i := by
  apply sumFrom_congr rfl
  intro s hs'
  have hscore : ∀ s, s < n → headScore hs q (k s) = headScore hs q' (k' s) := by
    intro s hs'
    simp only [headScore]
    rw [sumFrom_congr rfl fun i hi => by rw [hq i hi, hk s hs' i hi]]
  rw [softmax_congr hscore hs', hv s hs']

/-- A channel of head `c / hs` stays inside the `C` channels of its row. -/
theorem head_channel_lt {C H c i : Nat} (hH : H ∣ C) (hc : c < C) (hi : i < C / H) :
    c / (C / H) * (C / H) + i < C := by
  obtain ⟨hs, rfl⟩ := hH
  have hH0 : 0 < H := by
    rcases Nat.eq_zero_or_pos H with rfl | h
    · simp at hc
    · exact h
  rw [Nat.mul_div_cancel_left _ hH0] at hi ⊢
  exact Flat.idx_lt (Nat.div_lt_of_lt_mul (by rwa [Nat.mul_comm] at hc)) hi

theorem attentionRow_congr {n C H : Nat} (hH : H ∣ C) {q q' : Nat → α} {k k' v v' : Nat → Nat → α} {c : Nat}
    (hc : c < C) (hq : ∀ i, i < C → q i = q' i) (hk : ∀ s, s < n → ∀ i, i < C → k s i = k' s i)
    (hv : ∀ s, s < n → ∀ i, i < C → v s i = v' s i) : attentionRow n C H q k v c = attentionRow n C H q' k' v' c := by
  have hpos : 0 < C / H := by
    obtain ⟨hs, rfl⟩ := hH
    rcases Nat.eq_zero_or_pos hs with rfl | h
    · simp at hc
    · rcases Nat.eq_zero_or_pos H with rfl | h'
      · simp at hc
      · rwa [Nat.mul_div_cancel_left _ h']
  apply attentionHead_congr
  · intro i hi; exact hq _ (head_channel_lt hH hc hi)
  · intro s hs i hi; exact hk s hs _ (head_channel_lt hH hc hi)
  · intro s hs; exact hv s hs _ (head_channel_lt hH hc (Nat.mod_lt _ hpos))

/-! ## Causality -/

namespace Network

/-- The residual of position `t` depends on the tokens at positions up to `t` only. -/
theorem residual_congr (N : Network α) {tok tok' : Nat → Nat} {t : Nat} (h : ∀ s, s ≤ t → tok s = tok' s) (l : Nat) :
    N.residual tok l t = N.residual tok' l t := by
  induction l generalizing t with
  | zero => funext c; simp only [residual, h t (Nat.le_refl t)]
  | succ l ih =>
    have hrow : ∀ s, s ≤ t → N.residual tok l s = N.residual tok' l s :=
      fun s hs => ih fun u hu => h u (Nat.le_trans hu hs)
    rw [residual_succ, residual_succ, hrow t (Nat.le_refl t)]
    have hatt : attend N.channels N.heads (N.qkv tok l) t = attend N.channels N.heads (N.qkv tok' l) t := by
      have hqkv : ∀ s, s ≤ t → N.qkv tok l s = N.qkv tok' l s := by
        intro s hs; unfold qkv; rw [hrow s hs]
      funext c
      apply attentionHead_congr
      · intro i _; simp only [hqkv t (Nat.le_refl t)]
      · intro s hs i _; simp only [hqkv s (by omega)]
      · intro s hs; simp only [hqkv s (by omega)]
    rw [hatt]

theorem qkv_congr (N : Network α) {tok tok' : Nat → Nat} {t : Nat} (h : ∀ s, s ≤ t → tok s = tok' s) (l : Nat) :
    N.qkv tok l t = N.qkv tok' l t := by
  unfold qkv; rw [N.residual_congr h]

theorem logit_congr (N : Network α) {tok tok' : Nat → Nat} {t : Nat} (h : ∀ s, s ≤ t → tok s = tok' s) (v : Nat) :
    N.logit tok t v = N.logit tok' t v := by
  unfold logit; rw [N.residual_congr h]

end Network

end Gpt2Runtime
