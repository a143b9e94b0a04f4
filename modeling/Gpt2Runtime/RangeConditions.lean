import Gpt2Runtime.FloatArithmetic
/-
# How large the numbers of the network get

| here | there |
| --- | --- |
| `residualBound` | the residual after some layers of `forward` (`model.cpp:334-379`), with every operation rounded |
| `InRange`       | the largest numbers of each kernel are finite floats |
| `Binary32`      | single precision: GPT-2 124M and larger models are in range |

A normalized row is bounded by its weights, however large the residual is. So a layer adds no more than its weights allow,
and a few numbers made of the dimensions and the largest weight decide whether anything can overflow.
-/

namespace Gpt2Runtime

open Loop Kernels RoundedArithmetic

variable {α : Type} [Scalar α]

namespace FloatArithmetic

variable (A : FloatArithmetic α) (w : ℝ) (C H T : Nat)

/-! ## Bounds of the network -/

/-- Also of the rows behind `fcw`, and of the logits. -/
noncomputable def qkvBound : ℝ := A.linearBound w C (A.normBound w C)

noncomputable def attprojBound : ℝ := A.linearBound w C (7 * A.qkvBound w C)

noncomputable def hiddenBound : ℝ := A.geluBound (A.qkvBound w C)

noncomputable def fcprojBound : ℝ := A.linearBound w (4 * C) (A.hiddenBound w C)

/-- After some layers. -/
noncomputable def residualBound : Nat → ℝ
  | 0 => A.up (w + w)
  | l + 1 => A.up (A.up (residualBound l + A.attprojBound w C) + A.fcprojBound w C)

/-- `w` bounds the weights of `L` layers with `C` channels in `H` heads; prompts have up to `T` tokens. -/
structure InRange (L : Nat) : Prop where
  one_le : 1 ≤ w
  channels : (4 * C : Nat) * A.unit ≤ 1 / 2
  positions : T * A.unit ≤ 1 / 2
  count : 4 * (T : ℝ) ≤ A.largest
  score : 2 * A.scoreBound (C / H) (A.qkvBound w C) ≤ A.largest
  attproj : A.attprojBound w C ≤ A.largest
  cube : 2 * (A.qkvBound w C + A.cubeBound (A.qkvBound w C)) ≤ A.largest
  fcproj : A.fcprojBound w C ≤ A.largest
  square : 4 * A.squareBound C (A.residualBound w C L) ≤ A.largest

variable {A w C H T} {L : Nat}

theorem le_linearBound {n : Nat} {x : ℝ} (hn : 1 ≤ n) (hw : 1 ≤ w) (hx : 0 ≤ x) : x ≤ A.linearBound w n x :=
  (le_mul_of_one_le_right hx hw).trans (mul_le_linearBound hn (by linarith) hx)

theorem squareBound_mono {x y : ℝ} (hx : 0 ≤ x) (h : x ≤ y) : A.squareBound C x ≤ A.squareBound C y := by
  have hsum : A.sumBound 0 x C ≤ A.sumBound 0 y C := sumBound_mono le_rfl h le_rfl hx
  have hnonneg : 0 ≤ A.sumBound 0 x C := sumBound_nonneg le_rfl hx
  have hpos : 0 ≤ A.deviationBound C x := by
    rw [deviationBound_eq]
    refine up_nonneg (add_nonneg hx (up_nonneg ?_))
    positivity
  have hdeviation : A.deviationBound C x ≤ A.deviationBound C y := by
    rw [deviationBound_eq, deviationBound_eq]
    refine up_mono (add_le_add h (up_mono ?_))
    gcongr
  exact sumBound_mono le_rfl (up_mono (mul_self_le_mul_self hpos hdeviation)) le_rfl (up_nonneg (mul_self_nonneg _))

namespace InRange

variable (h : A.InRange w C H T L) (hC : 1 ≤ C)
include h

theorem norm_pos : 1 ≤ A.normBound w C := by
  have hone := h.one_le
  have hscore : 0 ≤ 2 * √(C : ℝ) * w := by positivity
  have hround : 2 * √(C : ℝ) * w ≤ A.up (2 * √C * w) := le_up hscore
  have hbias : A.up (2 * √C * w) + w ≤ A.normBound w C := by
    rw [normBound_eq]
    exact le_up (by linarith)
  linarith

theorem channels_le : (C : ℝ) * A.unit ≤ 1 / 2 := by
  refine le_trans (mul_le_mul_of_nonneg_right ?_ A.unit_nonneg) h.channels
  exact_mod_cast (by omega : C ≤ 4 * C)

theorem head_le : ((C / H : Nat) : ℝ) * A.unit ≤ 1 / 2 := by
  refine le_trans (mul_le_mul_of_nonneg_right ?_ A.unit_nonneg) h.channels_le
  exact_mod_cast Nat.div_le_self C H

theorem square_le {x : ℝ} (hx : 0 ≤ x) (hle : x ≤ A.residualBound w C L) : 4 * A.squareBound C x ≤ A.largest := by
  have hsquare := squareBound_mono (A := A) (C := C) hx hle
  linarith [h.square]

include hC

theorem norm_le : A.normBound w C ≤ A.qkvBound w C := le_linearBound hC h.one_le (by linarith [h.norm_pos])

theorem qkv_pos : 1 ≤ A.qkvBound w C := h.norm_pos.trans (h.norm_le hC)

theorem qkv_le : A.qkvBound w C ≤ A.largest := by
  have hpos := h.qkv_pos hC
  have hcube : 0 ≤ A.cubeBound (A.qkvBound w C) := by
    have hup : 0 ≤ A.up (A.qkvBound w C) := up_nonneg (by linarith)
    unfold cubeBound
    exact up_nonneg (mul_nonneg (up_nonneg (mul_nonneg hup (by linarith))) (by linarith))
  linarith [h.cube]

theorem attend_le : 7 * A.qkvBound w C ≤ A.attprojBound w C := le_linearBound hC h.one_le (by linarith [h.qkv_pos hC])

theorem attproj_pos : 1 ≤ A.attprojBound w C := by linarith [h.attend_le hC, h.qkv_pos hC]

theorem hidden_nonneg : 0 ≤ A.hiddenBound w C :=
  up_nonneg (mul_nonneg (up_nonneg (by linarith [h.qkv_pos hC])) (up_nonneg (by norm_num)))

theorem hidden_le : A.hiddenBound w C ≤ A.fcprojBound w C := le_linearBound (by omega) h.one_le (h.hidden_nonneg hC)

/-- The residual after a layer bounds what the layer goes through. -/
theorem layer_le {l : Nat} (hpos : 0 ≤ A.residualBound w C l) :
    A.residualBound w C l + A.attprojBound w C ≤ A.up (A.residualBound w C l + A.attprojBound w C) ∧
    A.up (A.residualBound w C l + A.attprojBound w C) + A.fcprojBound w C ≤ A.residualBound w C (l + 1) := by
  have hattproj := h.attproj_pos hC
  have hfcproj := (h.hidden_nonneg hC).trans (h.hidden_le hC)
  have hround : A.residualBound w C l + A.attprojBound w C ≤ A.up (A.residualBound w C l + A.attprojBound w C) :=
    le_up (by linarith)
  exact ⟨hround, le_up (by linarith)⟩

theorem residual_pos (l : Nat) : 1 ≤ A.residualBound w C l := by
  have hone := h.one_le
  have hattproj := h.attproj_pos hC
  have hfcproj := (h.hidden_nonneg hC).trans (h.hidden_le hC)
  induction l with
  | zero =>
    have hround : w + w ≤ A.up (w + w) := le_up (by linarith)
    show 1 ≤ A.up (w + w)
    linarith
  | succ l ih =>
    obtain ⟨hfirst, hsecond⟩ := h.layer_le hC (l := l) (by linarith)
    linarith

theorem residual_mono {l l' : Nat} (hl : l ≤ l') : A.residualBound w C l ≤ A.residualBound w C l' := by
  induction hl with
  | refl => exact le_rfl
  | @step k _ ih =>
    obtain ⟨hfirst, hsecond⟩ := h.layer_le hC (l := k) (by linarith [h.residual_pos hC k])
    have hattproj := h.attproj_pos hC
    have hfcproj := (h.hidden_nonneg hC).trans (h.hidden_le hC)
    exact ih.trans (by linarith)

theorem residual_le {l : Nat} (hl : l ≤ L) : A.residualBound w C l ≤ A.largest := by
  have hone := h.residual_pos hC l
  obtain ⟨-, -, hdeviation, -, -⟩ := le_squareBound (A := A) hC hone
  have hsquare := h.square_le (by linarith) (h.residual_mono hC hl)
  have hsum : 0 ≤ A.sumBound 0 (A.residualBound w C l) C := sumBound_nonneg le_rfl (by linarith)
  have hmean : 0 ≤ A.up (2 * A.sumBound 0 (A.residualBound w C l) C / C) := by
    refine up_nonneg ?_
    positivity
  have hround : A.residualBound w C l + A.up (2 * A.sumBound 0 (A.residualBound w C l) C / C) ≤
      A.deviationBound C (A.residualBound w C l) := by
    rw [deviationBound_eq]
    exact le_up (by linarith)
  linarith

end InRange

end FloatArithmetic

/-! ## Single precision -/

namespace FloatArithmetic.Binary32

variable {A : FloatArithmetic α} (h : A.Binary32)
include h

theorem up_le {x b : ℝ} (hx : 0 ≤ x) (hb : x ≤ b) : A.up x ≤ (1 + 1 / 10000000) * b + 1 / 1000000000 := by
  have hunit : A.unit ≤ 1 / 10000000 := by
    rw [h.unit]
    norm_num
  have htiny : A.tiny ≤ 1 / 1000000000 := by
    rw [h.tiny]
    norm_num
  unfold up
  gcongr

theorem sumBound_le {s t s' t' : ℝ} {n n' : Nat} (hs : s ≤ s') (ht : 0 ≤ t) (ht' : t ≤ t') (hn : n ≤ n') :
    A.sumBound s t n ≤ 2 * (s' + n' * (t' + 1 / 1000000000)) := by
  have htiny : A.tiny ≤ 1 / 1000000000 := by
    rw [h.tiny]
    norm_num
  refine (sumBound_mono (A := A.toRoundedArithmetic) hs ht' hn ht).trans ?_
  rw [sumBound_eq_two_mul]
  gcongr

theorem linearBound_le {x b w : ℝ} {n n' : Nat} (hx : 0 ≤ x) (hb : x ≤ b) (hw : 0 ≤ w) (hw' : w ≤ 32) (hn : n ≤ n') :
    A.linearBound w n x ≤ 2 * (32 + n' * ((1 + 1 / 10000000) * (b * 32) + 1 / 1000000000 + 1 / 1000000000)) := by
  have hproduct : x * w ≤ b * 32 := mul_le_mul hb hw' hw (hx.trans hb)
  exact h.sumBound_le hw' (up_nonneg (mul_nonneg hx hw)) (h.up_le (mul_nonneg hx hw) hproduct) hn

variable {w : ℝ} {C H T L : Nat} (hw : 1 ≤ w) (hw' : w ≤ 32) (hC : 1 ≤ C) (hC' : C ≤ 1600)
include hw hw' hC'

theorem normBound_le : 0 ≤ A.normBound w C ∧ A.normBound w C ≤ 2594 := by
  have hroot : √(C : ℝ) ≤ 40 := by
    rw [Real.sqrt_le_left (by norm_num)]
    have hcount : (C : ℝ) ≤ 1600 := by exact_mod_cast hC'
    linarith
  have hscore : 0 ≤ 2 * √(C : ℝ) * w := by positivity
  have hweighted : A.up (2 * √C * w) ≤ 2561 := by
    refine (h.up_le hscore (show 2 * √(C : ℝ) * w ≤ 2 * 40 * 32 by gcongr)).trans ?_
    norm_num
  have hpos : 0 ≤ A.up (2 * √C * w) + w := add_nonneg (up_nonneg hscore) (by linarith)
  rw [normBound_eq]
  refine ⟨up_nonneg hpos, (h.up_le hpos (show A.up (2 * √C * w) + w ≤ 2593 by linarith)).trans ?_⟩
  norm_num

theorem qkvBound_le : 0 ≤ A.qkvBound w C ∧ A.qkvBound w C ≤ 266000000 := by
  obtain ⟨hpos, hle⟩ := h.normBound_le hw hw' hC'
  refine ⟨linearBound_nonneg (by linarith) hpos, (h.linearBound_le hpos hle (by linarith) hw' hC').trans ?_⟩
  norm_num

theorem attprojBound_le : A.attprojBound w C ≤ 2 * 10 ^ 14 := by
  obtain ⟨hpos, hle⟩ := h.qkvBound_le hw hw' hC'
  refine (h.linearBound_le (by linarith) (show 7 * A.qkvBound w C ≤ 7 * 266000000 by linarith) (by linarith) hw' hC').trans ?_
  norm_num

theorem hiddenBound_le : 0 ≤ A.hiddenBound w C ∧ A.hiddenBound w C ≤ 540000000 := by
  obtain ⟨hpos, hle⟩ := h.qkvBound_le hw hw' hC'
  have hup : A.up (A.qkvBound w C) ≤ 266100000 := (h.up_le hpos hle).trans (by norm_num)
  have htwo : 0 ≤ A.up (1 + 1) := up_nonneg (by norm_num)
  have htwole : A.up (1 + 1) ≤ 2001 / 1000 := (h.up_le (by norm_num) le_rfl).trans (by norm_num)
  have hproduct : A.up (A.qkvBound w C) * A.up (1 + 1) ≤ 266100000 * (2001 / 1000) := mul_le_mul hup htwole htwo (by norm_num)
  have hnonneg : 0 ≤ A.up (A.qkvBound w C) * A.up (1 + 1) := mul_nonneg (up_nonneg hpos) htwo
  refine ⟨up_nonneg hnonneg, (h.up_le hnonneg hproduct).trans ?_⟩
  norm_num

theorem fcprojBound_le : A.fcprojBound w C ≤ 23 * 10 ^ 13 := by
  obtain ⟨hpos, hle⟩ := h.hiddenBound_le hw hw' hC'
  refine (h.linearBound_le hpos hle (by linarith) hw' (show 4 * C ≤ 6400 by omega)).trans ?_
  norm_num

theorem cubeBound_le : A.cubeBound (A.qkvBound w C) ≤ 10 ^ 26 := by
  obtain ⟨hpos, hle⟩ := h.qkvBound_le hw hw' hC'
  have hfirst : A.up (A.qkvBound w C) ≤ 266100000 := (h.up_le hpos hle).trans (by norm_num)
  have hpos1 : 0 ≤ A.up (A.qkvBound w C) := up_nonneg hpos
  have hsecond : A.up (A.up (A.qkvBound w C) * A.qkvBound w C) ≤ 10 ^ 17 :=
    (h.up_le (mul_nonneg hpos1 hpos) (mul_le_mul hfirst hle hpos (by norm_num))).trans (by norm_num)
  have hpos2 : 0 ≤ A.up (A.up (A.qkvBound w C) * A.qkvBound w C) := up_nonneg (mul_nonneg hpos1 hpos)
  exact (h.up_le (mul_nonneg hpos2 hpos) (mul_le_mul hsecond hle hpos (by norm_num))).trans (by norm_num)

theorem residualBound_le {l : Nat} (hl : l ≤ 48) : 0 ≤ A.residualBound w C l ∧ A.residualBound w C l ≤ (l + 1) * (5 * 10 ^ 14) := by
  have hattproj := h.attprojBound_le hw hw' hC'
  have hfcproj := h.fcprojBound_le hw hw' hC'
  have hattpos : 0 ≤ A.attprojBound w C := linearBound_nonneg (by linarith) (by linarith [(h.qkvBound_le hw hw' hC').1])
  have hfcpos : 0 ≤ A.fcprojBound w C := linearBound_nonneg (by linarith) (h.hiddenBound_le hw hw' hC').1
  induction l with
  | zero =>
    refine ⟨up_nonneg (by linarith), (h.up_le (by linarith) (show w + w ≤ 64 by linarith)).trans ?_⟩
    norm_num
  | succ l ih =>
    obtain ⟨hpos, hle⟩ := ih (by omega)
    have hcount : (l : ℝ) + 1 ≤ 49 := by exact_mod_cast (by omega : l + 1 ≤ 49)
    have hmid : 0 ≤ A.residualBound w C l + A.attprojBound w C := by linarith
    have hmidle := h.up_le hmid (show A.residualBound w C l + A.attprojBound w C ≤ (l + 1) * (5 * 10 ^ 14) + 2 * 10 ^ 14 by linarith)
    have hend : 0 ≤ A.up (A.residualBound w C l + A.attprojBound w C) + A.fcprojBound w C :=
      add_nonneg (up_nonneg hmid) hfcpos
    have hendle := h.up_le hend (show A.up (A.residualBound w C l + A.attprojBound w C) + A.fcprojBound w C ≤
      (1 + 1 / 10000000) * ((l + 1) * (5 * 10 ^ 14) + 2 * 10 ^ 14) + 1 / 1000000000 + 23 * 10 ^ 13 by linarith)
    refine ⟨up_nonneg hend, hendle.trans ?_⟩
    push_cast
    linarith

theorem squareBound_le {l : Nat} (hl : l ≤ 48) (hC : 1 ≤ C) : A.squareBound C (A.residualBound w C l) ≤ 5 * 10 ^ 37 := by
  obtain ⟨hpos, hle⟩ := h.residualBound_le hw hw' hC' hl
  have hcount : (l : ℝ) + 1 ≤ 49 := by exact_mod_cast (by omega : l + 1 ≤ 49)
  have hC0 : (0 : ℝ) < C := by exact_mod_cast hC
  have htiny := A.tiny_nonneg
  have htinyle : A.tiny ≤ 1 := by
    rw [h.tiny]
    norm_num
  have hsum : 0 ≤ A.sumBound 0 (A.residualBound w C l) C := sumBound_nonneg le_rfl hpos
  have hmean : 0 ≤ 2 * A.sumBound 0 (A.residualBound w C l) C / C := by positivity
  have hmeanle : 2 * A.sumBound 0 (A.residualBound w C l) C / C ≤ 99 * 10 ^ 15 := by
    have heq : 2 * A.sumBound 0 (A.residualBound w C l) C / C = 4 * (A.residualBound w C l + A.tiny) := by
      rw [sumBound_eq_two_mul]
      field_simp
      ring
    rw [heq]
    nlinarith
  have hup := h.up_le hmean hmeanle
  have hdeviation : 0 ≤ A.residualBound w C l + A.up (2 * A.sumBound 0 (A.residualBound w C l) C / C) :=
    add_nonneg hpos (up_nonneg hmean)
  have hdeviationpos : 0 ≤ A.deviationBound C (A.residualBound w C l) := by
    rw [deviationBound_eq]
    exact up_nonneg hdeviation
  have hdeviationle : A.deviationBound C (A.residualBound w C l) ≤ 124 * 10 ^ 15 := by
    rw [deviationBound_eq]
    refine (h.up_le hdeviation (show _ ≤ 1238 * 10 ^ 14 by nlinarith)).trans ?_
    norm_num
  have hsquare := mul_self_le_mul_self hdeviationpos hdeviationle
  refine (h.sumBound_le le_rfl (up_nonneg (mul_self_nonneg _)) (h.up_le (mul_self_nonneg _) hsquare) hC').trans ?_
  norm_num

/-- **In range**: up to 1600 channels, 48 layers and 1024 positions, with weights up to 32. The checkpoint of
`MILESTONE3_RESULTS.md` has 768 channels. -/
theorem inRange (hC : 1 ≤ C) (hT : T ≤ 1024) (hL : L ≤ 48) : A.InRange w C H T L := by
  have hlargest : 3 * 10 ^ 38 ≤ A.largest := by
    rw [h.largest]
    norm_num
  obtain ⟨hpos, hle⟩ := h.qkvBound_le hw hw' hC'
  have hhead : C / H ≤ 1600 := (Nat.div_le_self C H).trans hC'
  have hsq : A.qkvBound w C * A.qkvBound w C ≤ 266000000 * 266000000 := mul_self_le_mul_self hpos hle
  have hdot := h.sumBound_le (le_refl (0 : ℝ)) (up_nonneg (A := A.toRoundedArithmetic) (mul_self_nonneg (A.qkvBound w C)))
    (h.up_le (mul_self_nonneg _) hsq) hhead
  have hdotpos : 0 ≤ A.sumBound 0 (A.up (A.qkvBound w C * A.qkvBound w C)) (C / H) :=
    sumBound_nonneg le_rfl (up_nonneg (mul_self_nonneg _))
  have hscore := h.up_le hdotpos hdot
  have hchannels : ((4 * C : Nat) : ℝ) ≤ 6400 := by exact_mod_cast (by omega : 4 * C ≤ 6400)
  have hpositions : (T : ℝ) ≤ 1024 := by exact_mod_cast hT
  refine ⟨hw, ?_, ?_, by linarith, ?_, ?_, ?_, ?_, ?_⟩
  · rw [h.unit]
    linarith
  · rw [h.unit]
    linarith
  · refine le_trans (mul_le_mul_of_nonneg_left hscore zero_le_two) (le_trans ?_ hlargest)
    norm_num
  · exact (h.attprojBound_le hw hw' hC').trans (by linarith)
  · linarith [h.cubeBound_le hw hw' hC']
  · exact (h.fcprojBound_le hw hw' hC').trans (by linarith)
  · linarith [h.squareBound_le hw hw' hC' hL hC]

end FloatArithmetic.Binary32

end Gpt2Runtime
