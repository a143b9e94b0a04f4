import Mathlib.Analysis.SpecialFunctions.Sqrt
import Mathlib.Algebra.BigOperators.Field
import Mathlib.Algebra.Order.BigOperators.Group.Finset
/-
# Standard scores over the reals

`standardize S ε x i` is the distance of `x i` from the mean of `x` on the finite set `S`, in units of the standard
deviation, the variance being enlarged by `ε`. A shift of all values does not change it (`standardize_shift`), and it
never exceeds the square root of the number of values (`abs_standardize_le`).
-/

namespace Standardize

variable {ι : Type} {S : Finset ι} {x x' : ι → ℝ} {ε d : ℝ} {i : ι}

noncomputable def mean (S : Finset ι) (x : ι → ℝ) : ℝ := (∑ i ∈ S, x i) / S.card

noncomputable def variance (S : Finset ι) (x : ι → ℝ) : ℝ := (∑ i ∈ S, (x i - mean S x) * (x i - mean S x)) / S.card

noncomputable def standardize (S : Finset ι) (ε : ℝ) (x : ι → ℝ) (i : ι) : ℝ := (x i - mean S x) / √(variance S x + ε)

/-! ## Shifts -/

theorem mean_shift (hS : S.Nonempty) (h : ∀ i ∈ S, x' i = x i + d) : mean S x' = mean S x + d := by
  have hcard : (S.card : ℝ) ≠ 0 := Nat.cast_ne_zero.2 (Finset.card_ne_zero.2 hS)
  unfold mean
  rw [Finset.sum_congr rfl h, Finset.sum_add_distrib, Finset.sum_const, nsmul_eq_mul, add_div, mul_div_cancel_left₀ d hcard]

theorem sub_mean_shift (h : ∀ i ∈ S, x' i = x i + d) (hi : i ∈ S) : x' i - mean S x' = x i - mean S x := by
  rw [mean_shift ⟨i, hi⟩ h, h i hi]
  ring

theorem variance_shift (h : ∀ i ∈ S, x' i = x i + d) : variance S x' = variance S x := by
  unfold variance
  rw [Finset.sum_congr rfl fun i hi => by rw [sub_mean_shift h hi]]

/-- **Shift invariance.** -/
theorem standardize_shift (h : ∀ i ∈ S, x' i = x i + d) (hi : i ∈ S) : standardize S ε x' i = standardize S ε x i := by
  unfold standardize
  rw [sub_mean_shift h hi, variance_shift h]

/-! ## Size -/

theorem variance_nonneg : 0 ≤ variance S x :=
  div_nonneg (Finset.sum_nonneg fun _ _ => mul_self_nonneg _) (Nat.cast_nonneg _)

/-- One deviation is at most all of them. -/
theorem sq_sub_mean_le (hi : i ∈ S) : (x i - mean S x) * (x i - mean S x) ≤ S.card * variance S x := by
  have hcard : (S.card : ℝ) ≠ 0 := Nat.cast_ne_zero.2 (Finset.card_ne_zero.2 ⟨i, hi⟩)
  rw [variance, mul_div_cancel₀ _ hcard]
  exact Finset.single_le_sum (f := fun i => (x i - mean S x) * (x i - mean S x)) (fun _ _ => mul_self_nonneg _) hi

theorem abs_standardize_le (hε : 0 < ε) (hi : i ∈ S) : |standardize S ε x i| ≤ √S.card := by
  have hpos : 0 < variance S x + ε := add_pos_of_nonneg_of_pos variance_nonneg hε
  have hle : (x i - mean S x) * (x i - mean S x) ≤ S.card * (variance S x + ε) :=
    (sq_sub_mean_le hi).trans (mul_le_mul_of_nonneg_left (le_add_of_nonneg_right hε.le) (Nat.cast_nonneg _))
  unfold standardize
  rw [abs_div, abs_of_pos (Real.sqrt_pos.2 hpos), div_le_iff₀ (Real.sqrt_pos.2 hpos), ← Real.sqrt_mul (Nat.cast_nonneg _),
    ← Real.sqrt_mul_self_eq_abs]
  exact Real.sqrt_le_sqrt hle

end Standardize
