import Gpt2Runtime.CacheInvariant
import Gpt2Runtime.RealNetwork
/-
# How large the numbers can get

Over the reals a standard score is at most the square root of the number of channels, an attention head averages its
values, and GELU does not enlarge. So every row a layer computes is bounded by its own weights, whatever it is given, and
a layer adds at most `layerBound` to the residual. The bounds hold of everything `forward` and sessions store, for every
prompt and every run (`activations_bounded`).
-/

namespace Gpt2Runtime

open Loop Flat Word Kernels Softmax Standardize

/-! ## Bounds -/

noncomputable def normBound (C : Nat) (w b : Nat → ℝ) (c : Nat) : ℝ := √C * |w c| + |b c|

/-- For inputs up to `x`. -/
noncomputable def linearBound (n : Nat) (x : Nat → ℝ) (w : Nat → Nat → ℝ) (b : Nat → ℝ) (o : Nat) : ℝ :=
  |b o| + ∑ i ∈ Finset.range n, x i * |w o i|

namespace LayerWeights

noncomputable def qkvBound (C : Nat) (w : LayerWeights ℝ) : Nat → ℝ := linearBound C (normBound C w.ln1w w.ln1b) w.qkvw w.qkvb

/-- The attention outputs are no larger than the values. -/
noncomputable def attprojBound (C : Nat) (w : LayerWeights ℝ) : Nat → ℝ :=
  linearBound C (fun c => w.qkvBound C (2 * C + c)) w.attprojw w.attprojb

noncomputable def fcBound (C : Nat) (w : LayerWeights ℝ) : Nat → ℝ := linearBound C (normBound C w.ln2w w.ln2b) w.fcw w.fcb

noncomputable def fcprojBound (C : Nat) (w : LayerWeights ℝ) : Nat → ℝ := linearBound (4 * C) (w.fcBound C) w.fcprojw w.fcprojb

/-- What a layer adds to the residual. -/
noncomputable def layerBound (C : Nat) (w : LayerWeights ℝ) (c : Nat) : ℝ := w.attprojBound C c + w.fcprojBound C c

end LayerWeights

namespace Network

noncomputable def residualBound (N : Network ℝ) (v t l c : Nat) : ℝ :=
  |N.wte v c| + |N.wpe t c| + ∑ k ∈ Finset.range l, (N.layer k).layerBound N.channels c

noncomputable def logitBound (N : Network ℝ) : Nat → ℝ :=
  linearBound N.channels (normBound N.channels N.lnfw N.lnfb) N.wte fun _ => 0

end Network

/-! ## Rows -/

section

variable [FloatReading]

theorem abs_layerNormRow_le (C : Nat) (x w b : Nat → ℝ) {c : Nat} (hc : c < C) : |layerNormRow C x w b c| ≤ normBound C w b c := by
  have hscore : |standardize (Finset.range C) (1 / 100000) x c| ≤ √C := by
    have hle : |standardize (Finset.range C) (1 / 100000) x c| ≤ √(Finset.range C).card :=
      abs_standardize_le (by norm_num) (Finset.mem_range.2 hc)
    rwa [Finset.card_range] at hle
  rw [layerNormRow_eq]
  calc _ ≤ |standardize (Finset.range C) (1 / 100000) x c * w c| + |b c| := abs_add_le _ _
    _ = |standardize (Finset.range C) (1 / 100000) x c| * |w c| + |b c| := by rw [abs_mul]
    _ ≤ √C * |w c| + |b c| := by gcongr

theorem abs_linearRow_le {n : Nat} {x bx : Nat → ℝ} (w : Nat → Nat → ℝ) (b : Nat → ℝ) (o : Nat) (hx : ∀ i, i < n → |x i| ≤ bx i) :
    |linearRow n x w b o| ≤ linearBound n bx w b o := by
  rw [linearRow_eq]
  calc _ ≤ |b o| + |∑ i ∈ Finset.range n, x i * w o i| := abs_add_le _ _
    _ ≤ |b o| + ∑ i ∈ Finset.range n, |x i * w o i| := by
      gcongr
      exact Finset.abs_sum_le_sum_abs _ _
    _ ≤ |b o| + ∑ i ∈ Finset.range n, bx i * |w o i| := by
      gcongr with i hi
      rw [abs_mul]
      exact mul_le_mul_of_nonneg_right (hx i (Finset.mem_range.1 hi)) (abs_nonneg _)

/-- An attention output is an average of the values of its channel. -/
theorem abs_attentionRow_le {n C H : Nat} (hn : 0 < n) (q : Nat → ℝ) (k : Nat → Nat → ℝ) {v : Nat → Nat → ℝ} {c : Nat} {b : ℝ}
    (hv : ∀ s, s < n → |v s c| ≤ b) : |attentionRow n C H q k v c| ≤ b := by
  unfold attentionRow
  simp only [attentionHead_eq_average hn, Nat.div_add_mod']
  exact abs_sum_weight_mul_le (Finset.nonempty_range_iff.2 (Nat.ne_of_gt hn)) fun s hs => hv s (Finset.mem_range.1 hs)

/-- The tanh approximation of GELU. -/
theorem gelu_eq_tanh (x : ℝ) :
    gelu x = x / 2 * (1 + Real.tanh (√(2 / Real.pi) * (x + 44715 / 1000000 * x ^ 3))) := by
  show 1 / 2 * x * (1 + Real.tanh (√(2 / Real.pi) * (x + 44715 / 1000000 * x * x * x))) = _
  rw [show 44715 / 1000000 * x * x * x = 44715 / 1000000 * x ^ 3 by ring]
  ring

theorem abs_gelu_le (x : ℝ) : |gelu x| ≤ |x| := by
  rw [gelu_eq_tanh]
  set y := √(2 / Real.pi) * (x + 44715 / 1000000 * x ^ 3)
  have hlow := Real.neg_one_lt_tanh y
  have hhigh := Real.tanh_lt_one y
  have hfactor : |1 / 2 * (1 + Real.tanh y)| ≤ 1 := abs_le.2 ⟨by linarith, by linarith⟩
  calc |x / 2 * (1 + Real.tanh y)| = |1 / 2 * (1 + Real.tanh y)| * |x| := by rw [← abs_mul]; ring_nf
    _ ≤ 1 * |x| := mul_le_mul_of_nonneg_right hfactor (abs_nonneg x)
    _ = |x| := one_mul _

/-! ## Layers -/

variable {C H : Nat} (w : LayerWeights ℝ)

theorem abs_qkvRow_le (x : Nat → ℝ) (o : Nat) : |qkvRow C w x o| ≤ w.qkvBound C o :=
  abs_linearRow_le _ _ o fun _ hi => abs_layerNormRow_le C x _ _ hi

/-- **What a layer adds** is bounded by its weights. -/
theorem abs_block_le (x : Nat → Nat → ℝ) (t c : Nat) : |block C H w x t c| ≤ |x t c| + w.layerBound C c := by
  have hattend : ∀ i, i < C → |attend C H (fun s => qkvRow C w (x s)) t i| ≤ w.qkvBound C (2 * C + i) :=
    fun i _ => abs_attentionRow_le (Nat.succ_pos t) _ _ fun s _ => abs_qkvRow_le w (x s) _
  have hhidden : ∀ x' : Nat → ℝ, ∀ o, o < 4 * C → |mlpHidden C w x' o| ≤ w.fcBound C o := fun x' o _ =>
    (abs_gelu_le _).trans (abs_linearRow_le _ _ o fun _ hi => abs_layerNormRow_le C x' _ _ hi)
  unfold block finishLayer
  calc _ ≤ |attResidual C w (x t) (attend C H (fun s => qkvRow C w (x s)) t) c| + w.fcprojBound C c :=
        (abs_add_le _ _).trans (add_le_add_right (abs_linearRow_le _ _ c (hhidden _)) _)
    _ ≤ |x t c| + w.attprojBound C c + w.fcprojBound C c := by
        gcongr
        exact (abs_add_le _ _).trans (add_le_add_right (abs_linearRow_le _ _ c hattend) _)
    _ = |x t c| + w.layerBound C c := add_assoc _ _ _

/-! ## The network -/

namespace Network

variable (N : Network ℝ) (tok : Nat → Nat)

theorem abs_residual_le (l t c : Nat) : |N.residual tok l t c| ≤ N.residualBound (tok t) t l c := by
  induction l with
  | zero =>
    simp only [residual, residualBound, Finset.range_zero, Finset.sum_empty, add_zero]
    exact abs_add_le _ _
  | succ l ih =>
    have hblock := abs_block_le (H := N.heads) (N.layer l) (N.residual tok l) t c (C := N.channels)
    rw [residualBound, Finset.sum_range_succ, ← add_assoc]
    exact hblock.trans (add_le_add_left ih _)

theorem abs_qkv_le (l t o : Nat) : |N.qkv tok l t o| ≤ (N.layer l).qkvBound N.channels o := abs_qkvRow_le _ _ o

theorem abs_logit_le (t v : Nat) : |N.logit tok t v| ≤ N.logitBound v :=
  abs_linearRow_le _ _ v fun _ hi => abs_layerNormRow_le _ _ _ _ hi

end Network

/-! ## The runtime -/

open InferenceSession

variable {model : GPT2Model ℝ}

omit [FloatReading] in
/-- A machine answers with the logits of the tokens it goes on with, or with nothing. -/
theorem TokenMachine.answer_of_step {α : Type} {m : TokenMachine α} {P : List Int32} {request : Request} {logits : List α}
    (h : (m.step P request).1 = .ok logits) : logits = [] ∨ logits = m.logits (m.step P request).2 := by
  have hcommit : ∀ {P'} {x : Except Exc Unit}, (m.commit P P' x).1 = .ok logits → logits = m.logits (m.commit P P' x).2 := by
    intro P' x hx
    cases x with
    | ok u => exact (Except.ok.inj hx).symm
    | error e => cases hx
  cases request with
  | prefill prompt plan => exact .inr (hcommit h)
  | decode token plan => exact .inr (hcommit h)
  | reset => exact .inl (Except.ok.inj h).symm

theorem abs_answer_le {capacity : UInt64} {s : InferenceSession model} {P : List Int32} (h : s.Holds capacity P) {call : Call ℝ}
    (hcall : call.Allows Planned) {logits : List ℝ} (hok : (s.step call).1 = .ok logits) {v : Nat} {x : ℝ}
    (hx : logits[v]? = some x) : |x| ≤ model.network.logitBound v := by
  obtain ⟨request, hreq⟩ := hcall.makes fun executor hA => hA
  rw [(step_refines h hreq).1] at hok
  rcases TokenMachine.answer_of_step hok with rfl | rfl
  · cases hx
  · obtain ⟨hv, hget⟩ := List.getElem?_eq_some_iff.1 hx
    simp only [GPT2Model.machine, List.getElem_map, List.getElem_range] at hget
    rw [← hget]
    exact model.network.abs_logit_le _ _ v

/-- **No number outgrows the weights.** Over the reals, whatever the prompt, the calls before and the executors: after
every layer of `forward` an entry of the residual is at most its embeddings and what the layers below may add; a cached
key or value of any reachable session is at most the bound of its layer and channel; and a logit, of `forward` or of a
session, is at most the bound of its token. The bounds are made of the weights alone. -/
theorem activations_bounded (model : GPT2Model ℝ) :
    (∀ tokens workspace result, model.forward tokens workspace = .ok result →
      (∀ count, count ≤ model.weights.config.numLayers.toNat → ∃ ws, model.forwardThrough tokens count workspace = .ok ws ∧
        ∀ t, t < tokens.length → ∀ c, c < model.weights.config.channels.toNat →
          ∃ x, ws.residual[t * model.weights.config.channels.toNat + c]? = some x ∧
            |x| ≤ model.network.residualBound (tokenAt tokens t) t count c) ∧
      ∀ t, t < tokens.length → ∀ v, v < model.weights.config.paddedVocabularySize.toNat →
        ∃ x, result.logits[t * model.weights.config.paddedVocabularySize.toNat + v]? = some x ∧
          |x| ≤ model.network.logitBound v) ∧
    ∀ (capacity : UInt64) (s : InferenceSession model) (P : List Int32), Reachable Planned capacity s P →
      (∀ l p : UInt64, l.toNat < model.weights.config.numLayers.toNat → p.toNat < s.size.toNat →
        ∃ key value, s.cache.key l p = .ok key ∧ s.cache.value l p = .ok value ∧
          ∀ c, c < model.weights.config.channels.toNat → ∃ x y, key[c]? = some x ∧ value[c]? = some y ∧
            |x| ≤ (model.network.layer l.toNat).qkvBound model.weights.config.channels.toNat
              (model.weights.config.channels.toNat + c) ∧
            |y| ≤ (model.network.layer l.toNat).qkvBound model.weights.config.channels.toNat
              (2 * model.weights.config.channels.toNat + c)) ∧
      ∀ call : Call ℝ, call.Allows Planned → ∀ logits, (s.step call).1 = .ok logits → ∀ v x, logits[v]? = some x →
        |x| ≤ model.network.logitBound v := by
  constructor
  · intro tokens workspace result hok
    have hacc := (forward_ok_iff model tokens workspace).1 ⟨result, hok⟩
    constructor
    · intro count hcount
      obtain ⟨ws, hthrough, hafter⟩ := forwardThrough_ok hacc workspace hcount
      exact ⟨ws, hthrough, fun t ht c hc => ⟨_, hafter.residual.2 t ht c hc, model.network.abs_residual_le _ _ _ _⟩⟩
    · intro t ht v hv
      obtain ⟨ws, hws, -, hlogits⟩ := forward_ok hacc workspace
      obtain rfl := Except.ok.inj (hok.symm.trans hws)
      exact ⟨_, hlogits.2 t ht v hv, model.network.abs_logit_le _ _ _⟩
  · intro capacity s P h
    have hh : s.Holds capacity P := h.holds fun executor hA => hA
    refine ⟨fun l p hl hp => ?_, fun call hcall logits hok v x hx => abs_answer_le hh hcall hok hx⟩
    rw [hh.size] at hp
    obtain ⟨key, value, hkey, hvalue, mkey, mvalue⟩ := hh.key_value hl hp
    exact ⟨key, value, hkey, hvalue, fun c hc => ⟨_, _, mkey.2 c hc, mvalue.2 c hc, model.network.abs_qkv_le _ _ _ _,
      model.network.abs_qkv_le _ _ _ _⟩⟩

end

end Gpt2Runtime
