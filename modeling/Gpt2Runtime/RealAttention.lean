import Mathlib.Analysis.SpecialFunctions.Trigonometric.Basic
import Mathlib.Analysis.SpecialFunctions.Sqrt
import Gpt2Runtime.Lib.Softmax
import Gpt2Runtime.KernelBounds
/-
# Attention over the reals (`kernels.cpp:111-148`, `:172-207`)

The kernels read with exact arithmetic. A reading leaves open what real stands for a bit pattern and which one
stands for `lowest()`; the specs only ask that no visible score is below it. Each head is then the
softmax of its scores, and its exponentials are those of `Lib/Softmax.lean`: no exponent is positive, one is 0. The kernels
are written over their scores loops (`causalSelfAttention_eq`, `cachedSelfAttention_eq`) to say so of the runs themselves.
-/

namespace Gpt2Runtime

open Loop Flat Word Kernels Softmax

/-- What an exact reading of `float` leaves open. -/
class FloatReading where
  ofBits : BitVec 32 → ℝ
  /-- The real in the role of `std::numeric_limits<float>::lowest()`. -/
  lowest : ℝ

noncomputable instance [FloatReading] : Scalar ℝ where
  ofBits := FloatReading.ofBits
  ofSize n := n
  half := 1 / 2
  epsilon := 1 / 100000
  geluCubic := 44715 / 1000000
  twoOverPi := 2 / Real.pi
  lowest := FloatReading.lowest
  sqrt := Real.sqrt
  exp := Real.exp
  tanh := Real.tanh
  lt a b := decide (a < b)
  eq a b := decide (a = b)

/-! ## The mathematical attention -/

/-- `q · k / √head_size`. -/
noncomputable def dotScore (hs : Nat) (q k : Nat → ℝ) : ℝ := (∑ i ∈ Finset.range hs, q i * k i) / √(hs : ℝ)

/-- The first `n` values weighted by the softmax of their scores. -/
noncomputable def headAttention (n hs : Nat) (q : Nat → ℝ) (k v : Nat → Nat → ℝ) (i : Nat) : ℝ :=
  ∑ s ∈ Finset.range n, weight (Finset.range n) (fun t => dotScore hs q (k t)) s * v s i

/-- The channels of head `h`. -/
def headOf (hs h : Nat) (x : Nat → ℝ) (i : Nat) : ℝ := x (h * hs + i)

variable [FloatReading]

/-! ## The runtime's operations -/

theorem sumFrom_eq_sum (n : Nat) (f : Nat → ℝ) : sumFrom 0 n f = ∑ i ∈ Finset.range n, f i := by
  induction n with
  | zero => rfl
  | succ n ih => rw [Finset.sum_range_succ, ← ih]; rfl

theorem larger_eq_max (a b : ℝ) : (if Scalar.lt a b then b else a) = max a b := by
  show (if decide (a < b) = true then b else a) = max a b
  by_cases h : a < b
  · simp [h, h.le]
  · simp [h, not_lt.1 h]

theorem headScore_eq (hs : Nat) (q k : Nat → ℝ) : headScore hs q k = dotScore hs q k := by
  unfold headScore
  rw [sumFrom_eq_sum]
  exact mul_one_div _ _

/-- The running maximum of the scores loop. -/
theorem scoreMax_greatest {n : Nat} {x : Nat → ℝ} (hn : 0 < n) (hlow : ∀ s, s < n → FloatReading.lowest ≤ x s) :
    IsGreatest (x '' Finset.range n) (scoreMax n x) := by
  have hfold : scoreMax n x = foldN n FloatReading.lowest fun s m => max m (x s) :=
    foldN_congr fun s m _ => larger_eq_max m (x s)
  rw [hfold]
  exact isGreatest_foldN_max hn hlow

/-- The exponentials of a head add up to at least 1, and the zero-sum fallback is not taken. -/
theorem exponentialSum_pos {n : Nat} {x : Nat → ℝ} (hn : 0 < n) (hlow : ∀ s, s < n → FloatReading.lowest ≤ x s) :
    1 ≤ sumFrom 0 n (fun s => Scalar.exp (x s - scoreMax n x)) ∧
      Scalar.eq (sumFrom 0 n fun s => Scalar.exp (x s - scoreMax n x)) 0 = false := by
  have hone : 1 ≤ sumFrom 0 n fun s => Scalar.exp (x s - scoreMax n x) := by
    rw [sumFrom_eq_sum]
    exact one_le_sum_exp_sub (scoreMax_greatest hn hlow)
  exact ⟨hone, decide_eq_false (by linarith)⟩

theorem softmax_eq {n : Nat} {x : Nat → ℝ} (hn : 0 < n) (hlow : ∀ s, s < n → FloatReading.lowest ≤ x s) (s : Nat) :
    softmax n x s = weight (Finset.range n) x s := by
  obtain ⟨-, hzero⟩ := exponentialSum_pos hn hlow
  rw [← weight_sub (Finset.range n) x (scoreMax n x) s]
  unfold softmax
  simp only [hzero, Bool.false_eq_true, if_false]
  rw [sumFrom_eq_sum]
  exact mul_one_div _ _

theorem attentionHead_eq {n hs : Nat} {q : Nat → ℝ} {k : Nat → Nat → ℝ} (v : Nat → Nat → ℝ) (hn : 0 < n)
    (hlow : ∀ s, s < n → FloatReading.lowest ≤ dotScore hs q (k s)) (i : Nat) :
    attentionHead n hs q k v i = headAttention n hs q k v i := by
  unfold attentionHead headAttention
  rw [sumFrom_eq_sum]
  simp only [headScore_eq]
  refine Finset.sum_congr rfl fun s _ => ?_
  rw [softmax_eq hn hlow]

/-- Channel `i` of head `h` of an attention row. -/
theorem attentionRow_eq {n C H h i : Nat} {q : Nat → ℝ} {k : Nat → Nat → ℝ} (v : Nat → Nat → ℝ) (hn : 0 < n)
    (hlow : ∀ s, s < n → FloatReading.lowest ≤ dotScore (C / H) (headOf (C / H) h q) (headOf (C / H) h (k s)))
    (hi : i < C / H) : attentionRow n C H q k v (h * (C / H) + i) =
      headAttention n (C / H) (headOf (C / H) h q) (fun s => headOf (C / H) h (k s)) (fun s => headOf (C / H) h (v s)) i := by
  unfold attentionRow
  simp only [idx_div hi, idx_mod hi]
  exact attentionHead_eq _ hn hlow i

/-! ## The exponentials of one head -/

/-- The exponentials loop after a scores loop over `visible` sources: each entry it writes is the exponential of
a number that is at most 0, one of these numbers is 0, and their sum is not the one the fallback is for. -/
def Stable (visible : Nat) (scores : Except Exc (List ℝ × ℝ)) : Prop :=
  ∃ scratch maximum, scores = .ok (scratch, maximum) ∧
    ∃ scratch' exponentialSum, attendExponentials scratch visible maximum = .ok (scratch', exponentialSum) ∧
      (∀ s, s < visible → ∃ score, scratch[s]? = some score ∧ score - maximum ≤ 0 ∧
        scratch'[s]? = some (Real.exp (score - maximum))) ∧
      (∃ s score, s < visible ∧ scratch[s]? = some score ∧ score - maximum = 0) ∧
      1 ≤ exponentialSum ∧ Scalar.eq exponentialSum 0 = false

/-- The scores loop of a head leaves its exponentials stable, whatever the scratch held. -/
theorem attendScores_stable {query keys scoreScratch : List ℝ} {queryBase headSize : UInt64} {keyBase : UInt64 → UInt64}
    {n : Nat} {q : Nat → ℝ} {k : Nat → Nat → ℝ} (hpos : 0 < n) (hn : n ≤ scoreScratch.length) (hn64 : n < 2 ^ 64)
    (hq : ∀ i, i < headSize.toNat → read query (queryBase + UInt64.ofNat i) = .ok (q i))
    (hk : ∀ s, s < n → ∀ i, i < headSize.toNat → read keys (keyBase (UInt64.ofNat s) + UInt64.ofNat i) = .ok (k s i))
    (hlow : ∀ s, s < n → FloatReading.lowest ≤ dotScore headSize.toNat q (k s)) :
    Stable n (attendScores query keys scoreScratch queryBase keyBase n headSize
      (1 / Scalar.sqrt (Scalar.ofSize headSize.toNat))) := by
  obtain ⟨scratch, hok, hF⟩ := attendScores_ok hn hn64 hq hk
  simp only [headScore_eq] at hok hF
  have hget : ∀ s, s < n → scratch[s]? = some (dotScore headSize.toNat q (k s)) := fun s hs => by simpa using hF.get s hs
  have hgreatest := scoreMax_greatest hpos hlow
  obtain ⟨scratch', hok', hF'⟩ := attendExponentials_ok (scoreMax n fun s => dotScore headSize.toNat q (k s))
    (by rw [hF.length]; exact hn) hn64 hget
  obtain ⟨hone, hzero⟩ := exponentialSum_pos hpos hlow
  refine ⟨scratch, _, hok, scratch', _, hok', ?_, ?_, hone, hzero⟩
  · intro s hs
    have hentry := hF'.get s hs
    rw [Nat.zero_add] at hentry
    exact ⟨_, hget s hs, sub_nonpos_of_greatest hgreatest (by simpa using hs), hentry⟩
  · obtain ⟨s, hs, heq⟩ := sub_eq_zero_of_greatest hgreatest
    have hs' : s < n := by simpa using hs
    exact ⟨s, _, hs', hget s hs', heq⟩

/-! ## The kernels -/

/-- What a head does with the result of its scores loop: to the output, from the values, the output's base, the bases of
the values, the number of visible sources and the head size. -/
abbrev FromScores := Except Exc (List ℝ × ℝ) → List ℝ → List ℝ → UInt64 → (UInt64 → UInt64) → Nat → UInt64 →
  Except Exc (List ℝ × List ℝ)

/-- What `attendHead` goes on to do with the scratch and the maximum of its scores loop. -/
noncomputable def attendFrom (scores : Except Exc (List ℝ × ℝ)) (output values : List ℝ) (outputBase : UInt64)
    (valueBase : UInt64 → UInt64) (visible : Nat) (headSize : UInt64) : Except Exc (List ℝ × List ℝ) := do
  let (scoreScratch, maximum) ← scores
  let (scoreScratch, exponentialSum) ← attendExponentials scoreScratch visible maximum
  let inverseSum := if Scalar.eq exponentialSum 0 then 0 else 1 / exponentialSum
  let output ← attendValues output values scoreScratch outputBase valueBase visible headSize inverseSum
  pure (output, scoreScratch)

open Classical in
/-- The same, but no further than a head whose exponentials are not stable. -/
noncomputable def attendStably : FromScores := fun scores output values outputBase valueBase visible headSize => do
  throwIf (¬Stable visible scores) (.logicError "unstable exponentials")
  attendFrom scores output values outputBase valueBase visible headSize

/-- The scores loop of `causal_self_attention` for one position and head. -/
noncomputable def causalScores (qkv scoreScratch : List ℝ) (channels numHeads position head : UInt64) :
    Except Exc (List ℝ × ℝ) :=
  let headSize := channels / numHeads
  attendScores qkv qkv scoreScratch (position * 3 * channels + head * headSize)
    (fun source => source * 3 * channels + channels + head * headSize) (position.toNat + 1) headSize
    (1 / Scalar.sqrt (Scalar.ofSize headSize.toNat))

/-- The scores loop of `cached_self_attention` for one head. -/
noncomputable def cachedScores (query keyCache scoreScratch : List ℝ) (visibleLength channels numHeads head : UInt64) :
    Except Exc (List ℝ × ℝ) :=
  let headSize := channels / numHeads
  attendScores query keyCache scoreScratch (head * headSize) (fun source => source * channels + head * headSize)
    visibleLength.toNat headSize (1 / Scalar.sqrt (Scalar.ofSize headSize.toNat))

/-- `causal_self_attention` behind its checks, over its scores loops. -/
noncomputable def causalFromScores (rest : FromScores) (output qkv scoreScratch : List ℝ)
    (sequenceLength channels numHeads : UInt64) : Except Exc (List ℝ × List ℝ) :=
  forSize sequenceLength.toNat (List.replicate output.length 0, scoreScratch) fun position (output, scoreScratch) =>
    forSize numHeads.toNat (output, scoreScratch) fun head (output, scoreScratch) =>
      rest (causalScores qkv scoreScratch channels numHeads position head) output qkv
        (position * channels + head * (channels / numHeads))
        (fun source => source * 3 * channels + 2 * channels + head * (channels / numHeads)) (position.toNat + 1)
        (channels / numHeads)

/-- `cached_self_attention` behind its checks, over its scores loops. -/
noncomputable def cachedFromScores (rest : FromScores) (output query keyCache valueCache scoreScratch : List ℝ)
    (visibleLength channels numHeads : UInt64) : Except Exc (List ℝ × List ℝ) :=
  forSize numHeads.toNat (List.replicate output.length 0, scoreScratch) fun head (output, scoreScratch) =>
    rest (cachedScores query keyCache scoreScratch visibleLength channels numHeads head) output valueCache
      (head * (channels / numHeads)) (fun source => source * channels + head * (channels / numHeads))
      visibleLength.toNat (channels / numHeads)

/-- **The causal kernel is its checks and the loops over `causalScores`.** -/
theorem causalSelfAttention_eq (output qkv scoreScratch : List ℝ) (sequenceLength channels numHeads : UInt64) :
    causalSelfAttention output qkv scoreScratch sequenceLength channels numHeads = (do
      requireSize output (sequenceLength * channels) "attention output"
      requireSize qkv (sequenceLength * 3 * channels) "attention qkv"
      requireSize scoreScratch sequenceLength "attention scratch"
      throwIf (numHeads = 0 ∨ channels = 0 ∨ channels % numHeads ≠ 0) (.invalidArgument "invalid attention dimensions")
      causalFromScores attendFrom output qkv scoreScratch sequenceLength channels numHeads) := rfl

/-- **The cached kernel is its checks and the loop over `cachedScores`.** -/
theorem cachedSelfAttention_eq (output query keyCache valueCache scoreScratch : List ℝ)
    (visibleLength capacity channels numHeads : UInt64) :
    cachedSelfAttention output query keyCache valueCache scoreScratch visibleLength capacity channels numHeads = (do
      requireSize output channels "cached attention output"
      requireSize query channels "cached attention query"
      requireSize keyCache (capacity * channels) "cached attention keys"
      requireSize valueCache (capacity * channels) "cached attention values"
      requireSize scoreScratch capacity "cached attention scratch"
      throwIf (visibleLength = 0 ∨ capacity < visibleLength)
        (.invalidArgument "cached attention visible length is out of range")
      throwIf (numHeads = 0 ∨ channels = 0 ∨ channels % numHeads ≠ 0)
        (.invalidArgument "invalid cached attention dimensions")
      cachedFromScores attendFrom output query keyCache valueCache scoreScratch visibleLength channels numHeads) := rfl

/-- A call that returns is past its checks. -/
theorem causalSelfAttention_eq_of_ok {output qkv scoreScratch : List ℝ} {sequenceLength channels numHeads : UInt64}
    {r : List ℝ × List ℝ} (h : causalSelfAttention output qkv scoreScratch sequenceLength channels numHeads = .ok r) :
    causalSelfAttention output qkv scoreScratch sequenceLength channels numHeads =
      causalFromScores attendFrom output qkv scoreScratch sequenceLength channels numHeads := by
  have hrun := h
  rw [causalSelfAttention_eq] at hrun
  obtain ⟨-, -, hrun⟩ := bind_eq_ok.1 hrun
  obtain ⟨-, -, hrun⟩ := bind_eq_ok.1 hrun
  obtain ⟨-, -, hrun⟩ := bind_eq_ok.1 hrun
  obtain ⟨-, -, hrun⟩ := bind_eq_ok.1 hrun
  rw [h, hrun]

theorem cachedSelfAttention_eq_of_ok {output query keyCache valueCache scoreScratch : List ℝ}
    {visibleLength capacity channels numHeads : UInt64} {r : List ℝ × List ℝ}
    (h : cachedSelfAttention output query keyCache valueCache scoreScratch visibleLength capacity channels numHeads =
      .ok r) :
    cachedSelfAttention output query keyCache valueCache scoreScratch visibleLength capacity channels numHeads =
      cachedFromScores attendFrom output query keyCache valueCache scoreScratch visibleLength channels numHeads := by
  have hrun := h
  rw [cachedSelfAttention_eq] at hrun
  obtain ⟨-, -, hrun⟩ := bind_eq_ok.1 hrun
  obtain ⟨-, -, hrun⟩ := bind_eq_ok.1 hrun
  obtain ⟨-, -, hrun⟩ := bind_eq_ok.1 hrun
  obtain ⟨-, -, hrun⟩ := bind_eq_ok.1 hrun
  obtain ⟨-, -, hrun⟩ := bind_eq_ok.1 hrun
  obtain ⟨-, -, hrun⟩ := bind_eq_ok.1 hrun
  obtain ⟨-, -, hrun⟩ := bind_eq_ok.1 hrun
  rw [h, hrun]

section
variable {scores : Except Exc (List ℝ × ℝ)} {output values out scratch : List ℝ} {outputBase headSize : UInt64}
  {valueBase : UInt64 → UInt64} {visible : Nat}

/-- The loops of a head write to the scratch, but do not change its length. -/
theorem length_of_attendScores {query keys scoreScratch : List ℝ} {queryBase : UInt64} {keyBase : UInt64 → UInt64} {scale m : ℝ}
    (h : attendScores query keys scoreScratch queryBase keyBase visible headSize scale = .ok (scratch, m)) :
    scratch.length = scoreScratch.length := by
  refine (forN_ran (I := fun p : List ℝ × ℝ => p.1.length = scoreScratch.length) h rfl ?_).1
  rintro i ⟨scr, maximum⟩ p - hlength hbody
  obtain ⟨total, -, hbody⟩ := bind_eq_ok.1 hbody
  obtain ⟨scr', hwrite, hbody⟩ := bind_eq_ok.1 hbody
  obtain rfl := Except.ok.inj hbody
  exact (HasLength.write rfl _ _ _ hwrite).trans hlength

theorem length_of_attendExponentials {scoreScratch : List ℝ} {maximum sum : ℝ}
    (h : attendExponentials scoreScratch visible maximum = .ok (scratch, sum)) : scratch.length = scoreScratch.length := by
  refine (forN_ran (I := fun p : List ℝ × ℝ => p.1.length = scoreScratch.length) h rfl ?_).1
  rintro i ⟨scr, acc⟩ p - hlength hbody
  obtain ⟨score, -, hbody⟩ := bind_eq_ok.1 hbody
  obtain ⟨scr', hwrite, hbody⟩ := bind_eq_ok.1 hbody
  obtain rfl := Except.ok.inj hbody
  exact (HasLength.write rfl _ _ _ hwrite).trans hlength

theorem length_of_attendFrom {n : Nat} (hscores : ∀ scratch m, scores = .ok (scratch, m) → scratch.length = n)
    (h : attendFrom scores output values outputBase valueBase visible headSize = .ok (out, scratch)) : scratch.length = n := by
  obtain ⟨⟨scr, maximum⟩, hrun, h⟩ := bind_eq_ok.1 h
  obtain ⟨⟨scr', sum⟩, hexp, h⟩ := bind_eq_ok.1 h
  obtain ⟨out', -, h⟩ := bind_eq_ok.1 h
  obtain ⟨-, rfl⟩ := Prod.mk.inj (Except.ok.inj h)
  exact (length_of_attendExponentials hexp).trans (hscores scr maximum hrun)

theorem attendStably_of (hstable : Stable visible scores) :
    attendStably scores output values outputBase valueBase visible headSize =
      attendFrom scores output values outputBase valueBase visible headSize := by
  simp [attendStably, hstable]

end

/-- **Stable all along**, if every head is that starts from a scratch of the right length. -/
theorem causalFromScores_stably {output qkv scoreScratch : List ℝ} {sequenceLength channels numHeads : UInt64}
    {r : List ℝ × List ℝ}
    (hstable : ∀ (p h : UInt64) (scratch : List ℝ), p.toNat < sequenceLength.toNat → h.toNat < numHeads.toNat →
      scratch.length = scoreScratch.length → Stable (p.toNat + 1) (causalScores qkv scratch channels numHeads p h))
    (hrun : causalFromScores attendFrom output qkv scoreScratch sequenceLength channels numHeads = .ok r) :
    causalFromScores attendStably output qkv scoreScratch sequenceLength channels numHeads = .ok r := by
  have hT64 := toNat_lt sequenceLength
  have hH64 := toNat_lt numHeads
  refine (forN_congr_ok (I := fun p : List ℝ × List ℝ => p.2.length = scoreScratch.length) hrun rfl ?_).2
  rintro i ⟨out, scr⟩ s' hi hlength hrow
  refine forN_congr_ok (I := fun p : List ℝ × List ℝ => p.2.length = scoreScratch.length) hrow hlength ?_
  rintro j ⟨out', scr'⟩ ⟨out'', scr''⟩ hj hlength' hhead
  have hp : (UInt64.ofNat i).toNat < sequenceLength.toNat := by rwa [toNat_ofNat_of_lt (by omega)]
  have hh : (UInt64.ofNat j).toNat < numHeads.toNat := by rwa [toNat_ofNat_of_lt (by omega)]
  refine ⟨length_of_attendFrom (fun _ _ h => (length_of_attendScores h).trans hlength') hhead, ?_⟩
  exact (attendStably_of (hstable _ _ scr' hp hh hlength')).trans hhead

theorem cachedFromScores_stably {output query keyCache valueCache scoreScratch : List ℝ}
    {visibleLength channels numHeads : UInt64} {r : List ℝ × List ℝ}
    (hstable : ∀ (h : UInt64) (scratch : List ℝ), h.toNat < numHeads.toNat → scratch.length = scoreScratch.length →
      Stable visibleLength.toNat (cachedScores query keyCache scratch visibleLength channels numHeads h))
    (hrun : cachedFromScores attendFrom output query keyCache valueCache scoreScratch visibleLength channels numHeads = .ok r) :
    cachedFromScores attendStably output query keyCache valueCache scoreScratch visibleLength channels numHeads = .ok r := by
  have hH64 := toNat_lt numHeads
  refine (forN_congr_ok (I := fun p : List ℝ × List ℝ => p.2.length = scoreScratch.length) hrun rfl ?_).2
  rintro j ⟨out, scr⟩ ⟨out', scr'⟩ hj hlength hhead
  have hh : (UInt64.ofNat j).toNat < numHeads.toNat := by rwa [toNat_ofNat_of_lt (by omega)]
  refine ⟨length_of_attendFrom (fun _ _ h => (length_of_attendScores h).trans hlength) hhead, ?_⟩
  exact (attendStably_of (hstable _ scr hh hlength)).trans hhead

section
variable (C H : Nat)

/-- The score of source `s` for position `p` in head `h`, from the rows `f` of `qkv`. -/
noncomputable def causalScore (f : Nat → Nat → ℝ) (p h s : Nat) : ℝ :=
  dotScore (C / H) (headOf (C / H) h (f p)) (headOf (C / H) h fun c => f s (C + c))

/-- Every entry of `out` is the softmax attention of the positions up to its own. -/
def IsCausalAttention (T : Nat) (f : Nat → Nat → ℝ) (out : List ℝ) : Prop :=
  ∀ p h i, p < T → h < H → i < C / H → out[p * C + (h * (C / H) + i)]? =
    some (∑ s ∈ Finset.range (p + 1), weight (Finset.range (p + 1)) (causalScore C H f p h) s *
      f s (2 * C + (h * (C / H) + i)))

/-- The score of source `s` in head `h`, from the query and the rows of the key cache. -/
noncomputable def cachedScore (q : Nat → ℝ) (k : Nat → Nat → ℝ) (h s : Nat) : ℝ :=
  dotScore (C / H) (headOf (C / H) h q) (headOf (C / H) h (k s))

/-- Every entry of `out` is the softmax attention of the first `n` cache rows. -/
def IsCachedAttention (n : Nat) (q : Nat → ℝ) (k v : Nat → Nat → ℝ) (out : List ℝ) : Prop :=
  ∀ h i, h < H → i < C / H → out[h * (C / H) + i]? =
    some (∑ s ∈ Finset.range n, weight (Finset.range n) (cachedScore C H q k h) s * v s (h * (C / H) + i))

end

section
variable {sequenceLength channels numHeads : UInt64} {output qkv scoreScratch : List ℝ} {f : Nat → Nat → ℝ}
  (hC : 0 < channels.toNat) (hH : numHeads.toNat ∣ channels.toNat)
  (hfit : sequenceLength.toNat * (3 * channels.toNat) < 2 ^ 64)
  (hq : IsMat qkv sequenceLength.toNat (3 * channels.toNat) f) (hs : scoreScratch.length = sequenceLength.toNat)
  (hlow : ∀ p h s, p < sequenceLength.toNat → h < numHeads.toNat → s ≤ p →
    FloatReading.lowest ≤ causalScore channels.toNat numHeads.toNat f p h s)
include hC hH hfit hq hs hlow

theorem causal_is_softmax (ho : output.length = sequenceLength.toNat * channels.toNat) :
    ∃ out scratch, causalSelfAttention output qkv scoreScratch sequenceLength channels numHeads = .ok (out, scratch) ∧
      IsCausalAttention channels.toNat numHeads.toNat sequenceLength.toNat f out := by
  obtain ⟨out, scratch, hok, -, hmat⟩ := causalSelfAttention_ok hfit hC hH ho hq hs
  refine ⟨out, scratch, hok, fun p h i hp hh hi => ?_⟩
  have hlt := idx_lt hh hi
  rw [Nat.mul_div_cancel' hH] at hlt
  rw [hmat.2 p hp _ hlt]
  exact congrArg some (attentionRow_eq _ (Nat.succ_pos p) (fun s hs => hlow p h s hp hh (by omega)) hi)

theorem causal_is_stable {p h : UInt64} (hp : p.toNat < sequenceLength.toNat) (hh : h.toNat < numHeads.toNat) :
    Stable (p.toNat + 1) (causalScores qkv scoreScratch channels numHeads p h) := by
  have hT64 := toNat_lt sequenceLength
  have hsize : (channels / numHeads).toNat = channels.toNat / numHeads.toNat := UInt64.toNat_div _ _
  refine attendScores_stable (q := headOf (channels / numHeads).toNat h.toNat (f p.toNat))
    (k := fun s => headOf (channels / numHeads).toNat h.toNat fun c => f s (channels.toNat + c)) (Nat.succ_pos _)
    (by omega) (by omega) ?_ ?_ ?_
  · intro i hi
    have hread := read_query hfit hC hH hq hp hh hi
    rw [UInt64.ofNat_toNat, UInt64.ofNat_toNat] at hread
    exact hread
  · intro s hs i hi
    have hread := read_key hfit hC hH hq (show s < sequenceLength.toNat by omega) hh hi
    rw [UInt64.ofNat_toNat] at hread
    exact hread
  · intro s hs
    rw [hsize]
    exact hlow p.toNat h.toNat s hp hh (by omega)

end

section
variable {visibleLength capacity channels numHeads : UInt64} {output query keyCache valueCache scoreScratch : List ℝ}
  {q : Nat → ℝ} {k v : Nat → Nat → ℝ} (hC : 0 < channels.toNat) (hH : numHeads.toNat ∣ channels.toNat)
  (hfit : capacity.toNat * channels.toNat < 2 ^ 64) (hvis : 0 < visibleLength.toNat)
  (hcap : visibleLength.toNat ≤ capacity.toNat) (hq : IsVec query channels.toNat q)
  (hk : IsMat keyCache capacity.toNat channels.toNat k) (hs : scoreScratch.length = capacity.toNat)
  (hlow : ∀ h s, h < numHeads.toNat → s < visibleLength.toNat →
    FloatReading.lowest ≤ cachedScore channels.toNat numHeads.toNat q k h s)
include hC hH hfit hvis hcap hq hk hs hlow

theorem cached_is_softmax (ho : output.length = channels.toNat)
    (hv : IsMat valueCache capacity.toNat channels.toNat v) :
    ∃ out scratch, cachedSelfAttention output query keyCache valueCache scoreScratch visibleLength capacity channels
        numHeads = .ok (out, scratch) ∧
      IsCachedAttention channels.toNat numHeads.toNat visibleLength.toNat q k v out := by
  obtain ⟨out, scratch, hok, -, hvec⟩ := cachedSelfAttention_ok hfit hC hH hvis hcap ho hq hk hv hs
  refine ⟨out, scratch, hok, fun h i hh hi => ?_⟩
  have hlt := idx_lt hh hi
  rw [Nat.mul_div_cancel' hH] at hlt
  rw [hvec.2 _ hlt]
  exact congrArg some (attentionRow_eq _ hvis (fun s hs => hlow h s hh hs) hi)

theorem cached_is_stable {h : UInt64} (hh : h.toNat < numHeads.toNat) :
    Stable visibleLength.toNat (cachedScores query keyCache scoreScratch visibleLength channels numHeads h) := by
  obtain ⟨-, hHC, -⟩ := attention_dims hC hH
  have hC64 := toNat_lt channels
  have hV64 := toNat_lt visibleLength
  have hsize : (channels / numHeads).toNat = channels.toNat / numHeads.toNat := UInt64.toNat_div _ _
  refine attendScores_stable (q := headOf (channels / numHeads).toNat h.toNat q)
    (k := fun s => headOf (channels / numHeads).toNat h.toNat (k s)) hvis (by omega) hV64 ?_ ?_ ?_
  · intro i hi
    obtain ⟨e1, e2, hlt⟩ := head_idx hHC hh hi
    rw [UInt64.ofNat_toNat] at e1
    exact read_ok (toNat_add_eq e1 e2 (by omega)) (hq.2 _ hlt)
  · intro s hs i hi
    have hcache : keyCache.length = (capacity * channels).toNat := hk.1.trans (toNat_mul_of_lt hfit).symm
    have hread := read_cache hHC hV64 hcache (fun s hs c hc => hk.2 s (by omega) c hc) hs hh hi
    rw [UInt64.ofNat_toNat] at hread
    exact hread
  · intro s hs
    rw [hsize]
    exact hlow h.toNat s hh hs

end

/-- **The attention kernels compute a stable softmax.** Every output entry is the softmax attention of its head. A kernel is
the loops over its scores loops, and no different if these stop at the first head whose exponentials are not stable; they
are stable for every head, whatever the scratch holds. -/
theorem attention_is_stable_softmax :
    (∀ (sequenceLength channels numHeads : UInt64) (output qkv scoreScratch : List ℝ) (f : Nat → Nat → ℝ),
      0 < channels.toNat → numHeads.toNat ∣ channels.toNat → sequenceLength.toNat * (3 * channels.toNat) < 2 ^ 64 →
      output.length = sequenceLength.toNat * channels.toNat →
      IsMat qkv sequenceLength.toNat (3 * channels.toNat) f → scoreScratch.length = sequenceLength.toNat →
      (∀ p h s, p < sequenceLength.toNat → h < numHeads.toNat → s ≤ p →
        FloatReading.lowest ≤ causalScore channels.toNat numHeads.toNat f p h s) →
      (∃ out scratch, causalSelfAttention output qkv scoreScratch sequenceLength channels numHeads = .ok (out, scratch) ∧
        IsCausalAttention channels.toNat numHeads.toNat sequenceLength.toNat f out) ∧
      causalSelfAttention output qkv scoreScratch sequenceLength channels numHeads =
        causalFromScores attendFrom output qkv scoreScratch sequenceLength channels numHeads ∧
      causalSelfAttention output qkv scoreScratch sequenceLength channels numHeads =
        causalFromScores attendStably output qkv scoreScratch sequenceLength channels numHeads ∧
      ∀ (p h : UInt64) (scratch : List ℝ), p.toNat < sequenceLength.toNat → h.toNat < numHeads.toNat →
        scratch.length = sequenceLength.toNat →
        Stable (p.toNat + 1) (causalScores qkv scratch channels numHeads p h)) ∧
    (∀ (visibleLength capacity channels numHeads : UInt64) (output query keyCache valueCache scoreScratch : List ℝ)
      (q : Nat → ℝ) (k v : Nat → Nat → ℝ),
      0 < channels.toNat → numHeads.toNat ∣ channels.toNat → capacity.toNat * channels.toNat < 2 ^ 64 →
      0 < visibleLength.toNat → visibleLength.toNat ≤ capacity.toNat → output.length = channels.toNat →
      IsVec query channels.toNat q → IsMat keyCache capacity.toNat channels.toNat k →
      IsMat valueCache capacity.toNat channels.toNat v → scoreScratch.length = capacity.toNat →
      (∀ h s, h < numHeads.toNat → s < visibleLength.toNat →
        FloatReading.lowest ≤ cachedScore channels.toNat numHeads.toNat q k h s) →
      (∃ out scratch, cachedSelfAttention output query keyCache valueCache scoreScratch visibleLength capacity channels
          numHeads = .ok (out, scratch) ∧
        IsCachedAttention channels.toNat numHeads.toNat visibleLength.toNat q k v out) ∧
      cachedSelfAttention output query keyCache valueCache scoreScratch visibleLength capacity channels numHeads =
        cachedFromScores attendFrom output query keyCache valueCache scoreScratch visibleLength channels numHeads ∧
      cachedSelfAttention output query keyCache valueCache scoreScratch visibleLength capacity channels numHeads =
        cachedFromScores attendStably output query keyCache valueCache scoreScratch visibleLength channels numHeads ∧
      ∀ (h : UInt64) (scratch : List ℝ), h.toNat < numHeads.toNat → scratch.length = capacity.toNat →
        Stable visibleLength.toNat (cachedScores query keyCache scratch visibleLength channels numHeads h)) := by
  refine ⟨?_, ?_⟩
  · intro T channels numHeads output qkv scoreScratch f hC hH hfit ho hq hs hlow
    obtain ⟨out, scratch, hok, hout⟩ := causal_is_softmax hC hH hfit hq hs hlow ho
    have heq := causalSelfAttention_eq_of_ok hok
    have hstable : ∀ (p h : UInt64) (scratch : List ℝ), p.toNat < T.toNat → h.toNat < numHeads.toNat →
        scratch.length = T.toNat → Stable (p.toNat + 1) (causalScores qkv scratch channels numHeads p h) :=
      fun p h scratch hp hh hl => causal_is_stable hC hH hfit hq hl hlow hp hh
    have hstably := causalFromScores_stably (by rw [hs]; exact hstable) (heq.symm.trans hok)
    exact ⟨⟨out, scratch, hok, hout⟩, heq, hok.trans hstably.symm, hstable⟩
  · intro V capacity channels numHeads output query keyCache valueCache scoreScratch q k v hC hH hfit hvis hcap ho hq hk hv
      hs hlow
    obtain ⟨out, scratch, hok, hout⟩ := cached_is_softmax hC hH hfit hvis hcap hq hk hs hlow ho hv
    have heq := cachedSelfAttention_eq_of_ok hok
    have hstable : ∀ (h : UInt64) (scratch : List ℝ), h.toNat < numHeads.toNat → scratch.length = capacity.toNat →
        Stable V.toNat (cachedScores query keyCache scratch V channels numHeads h) :=
      fun h scratch hh hl => cached_is_stable hC hH hfit hvis hcap hq hk hl hlow hh
    have hstably := cachedFromScores_stably (by rw [hs]; exact hstable) (heq.symm.trans hok)
    exact ⟨⟨out, scratch, hok, hout⟩, heq, hok.trans hstably.symm, hstable⟩

omit [FloatReading] in
/-- Two sources of equal score, far below 0: each kernel returns the mean of the two values, by stable exponentials. -/
theorem attention_is_stable_softmax_two : ∃ _ : FloatReading,
    (∃ out scratch, causalSelfAttention ([5, 5] : List ℝ) [2, -300, 7, 3, -300, 9] [4, 4] 2 1 1 = .ok (out, scratch) ∧
      out[1]? = some 8 ∧ Stable 2 (causalScores [2, -300, 7, 3, -300, 9] [4, 4] 1 1 1 0)) ∧
    ∃ out scratch, cachedSelfAttention ([5] : List ℝ) [3] [-300, -300] [7, 9] [4, 4] 2 2 1 1 = .ok (out, scratch) ∧
      out[0]? = some 8 ∧ Stable 2 (cachedScores [3] [-300, -300] [4, 4] 2 1 1 0) := by
  have hone : (1 : UInt64).toNat = 1 := rfl
  have htwo : (2 : UInt64).toNat = 2 := rfl
  have hmean (e : ℝ) : Real.exp e / (Real.exp e + Real.exp e) * 7 + Real.exp e / (Real.exp e + Real.exp e) * 9 = 8 := by
    have he := Real.exp_pos e
    field_simp
    norm_num
  refine ⟨⟨fun _ => 0, -1000⟩, ?_, ?_⟩
  · have hq : IsMat ([2, -300, 7, 3, -300, 9] : List ℝ) 2 3 _ := (IsVec.of_length 0 rfl).toMat
    obtain ⟨⟨out, scratch, hok, hout⟩, -, -, hstable⟩ := (@attention_is_stable_softmax ⟨fun _ => 0, -1000⟩).1 2 1 1 [5, 5]
      [2, -300, 7, 3, -300, 9] [4, 4] _ (by decide) (by decide) (by decide) rfl hq rfl (by
        intro p h s hp hh hs
        obtain rfl : h = 0 := Nat.lt_one_iff.1 hh
        have hp2 : p < 2 := hp
        show (-1000 : ℝ) ≤ _
        obtain ⟨rfl, rfl⟩ | ⟨rfl, rfl⟩ | ⟨rfl, rfl⟩ : p = 0 ∧ s = 0 ∨ p = 1 ∧ s = 0 ∨ p = 1 ∧ s = 1 := by omega
        all_goals norm_num [causalScore, dotScore, headOf, hone])
    refine ⟨out, scratch, hok, ?_, hstable 1 0 [4, 4] (by decide) (by decide) rfl⟩
    have h1 := hout 1 0 0 (by decide) (by decide) (by decide)
    norm_num [Finset.sum_range_succ, weight, causalScore, dotScore, headOf, hone, hmean] at h1
    exact h1
  · have hk : IsMat ([-300, -300] : List ℝ) 2 1 _ := (IsVec.of_length 0 rfl).toMat
    have hv : IsMat ([7, 9] : List ℝ) 2 1 _ := (IsVec.of_length 0 rfl).toMat
    obtain ⟨⟨out, scratch, hok, hout⟩, -, -, hstable⟩ := (@attention_is_stable_softmax ⟨fun _ => 0, -1000⟩).2 2 2 1 1 [5] [3]
      [-300, -300] [7, 9] [4, 4] _ _ _ (by decide) (by decide) (by decide) (by decide) (by decide) rfl
      (IsVec.of_length 0 rfl) hk hv rfl (by
        intro h s hh hs
        obtain rfl : h = 0 := Nat.lt_one_iff.1 hh
        have hs2 : s < 2 := hs
        show (-1000 : ℝ) ≤ _
        obtain rfl | rfl : s = 0 ∨ s = 1 := by omega
        all_goals norm_num [cachedScore, dotScore, headOf, hone])
    refine ⟨out, scratch, hok, ?_, hstable 0 [4, 4] (by decide) rfl⟩
    have h0 := hout 0 0 (by decide) (by decide)
    norm_num [Finset.sum_range_succ, weight, cachedScore, dotScore, headOf, hone, htwo, hmean] at h0
    exact h0

end Gpt2Runtime
