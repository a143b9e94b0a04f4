import Mathlib.Analysis.SpecialFunctions.Exp
import Mathlib.Algebra.BigOperators.Field
import Mathlib.Algebra.Order.BigOperators.Group.Finset
import Gpt2Runtime.Lib.Loop
/-
# Softmax over the reals

`weight S x i` is the softmax weight of `i` among the scores `x` on the finite set `S`. It does not change when
every score is shifted (`weight_sub`), and the weighted average of some values is no larger than they are
(`abs_sum_weight_mul_le`). Shifted by a greatest score, every exponent is at most 0, one of them is
0 (`sub_nonpos_of_greatest`, `sub_eq_zero_of_greatest`), so that the exponentials add up to at least 1
(`one_le_sum_exp_sub`). `isGreatest_foldN_max` finds the greatest score by a running maximum.
-/

open Loop

namespace Softmax

variable {ι : Type} {S : Finset ι} {x : ι → ℝ} {m : ℝ}

noncomputable def weight (S : Finset ι) (x : ι → ℝ) (i : ι) : ℝ := Real.exp (x i) / ∑ j ∈ S, Real.exp (x j)

/-- **Shift invariance.** -/
theorem weight_sub (S : Finset ι) (x : ι → ℝ) (m : ℝ) (i : ι) : weight S (fun j => x j - m) i = weight S x i := by
  have hsum : ∑ j ∈ S, Real.exp (x j - m) = (∑ j ∈ S, Real.exp (x j)) / Real.exp m := by
    rw [Finset.sum_div]
    exact Finset.sum_congr rfl fun j _ => Real.exp_sub (x j) m
  unfold weight
  rw [hsum, Real.exp_sub]
  exact div_div_div_cancel_right₀ (Real.exp_ne_zero m) _ _

/-- A shift of the scores on the set. -/
theorem weight_shift {x' : ι → ℝ} {d : ℝ} {i : ι} (h : ∀ j ∈ S, x' j = x j + d) (hi : i ∈ S) : weight S x' i = weight S x i := by
  have hback : ∀ j ∈ S, x' j - d = x j := fun j hj => by rw [h j hj, add_sub_cancel_right]
  rw [← weight_sub S x' d]
  show Real.exp (x' i - d) / ∑ j ∈ S, Real.exp (x' j - d) = _
  rw [hback i hi, Finset.sum_congr rfl fun j hj => congrArg Real.exp (hback j hj)]
  rfl

/-! ## Averages -/

theorem weight_nonneg (i : ι) : 0 ≤ weight S x i :=
  div_nonneg (Real.exp_pos _).le (Finset.sum_nonneg fun _ _ => (Real.exp_pos _).le)

theorem sum_weight (hS : S.Nonempty) : ∑ i ∈ S, weight S x i = 1 := by
  unfold weight
  rw [← Finset.sum_div]
  exact div_self (Finset.sum_pos (fun _ _ => Real.exp_pos _) hS).ne'

/-- **A weighted average** is no larger than the values. -/
theorem abs_sum_weight_mul_le {v : ι → ℝ} {b : ℝ} (hS : S.Nonempty) (h : ∀ i ∈ S, |v i| ≤ b) :
    |∑ i ∈ S, weight S x i * v i| ≤ b := by
  calc |∑ i ∈ S, weight S x i * v i| ≤ ∑ i ∈ S, |weight S x i * v i| := Finset.abs_sum_le_sum_abs _ _
    _ ≤ ∑ i ∈ S, weight S x i * b := by
      refine Finset.sum_le_sum fun i hi => ?_
      rw [abs_mul, abs_of_nonneg (weight_nonneg i)]
      exact mul_le_mul_of_nonneg_left (h i hi) (weight_nonneg i)
    _ = b := by rw [← Finset.sum_mul, sum_weight hS, one_mul]

/-! ## Shifted by a greatest score -/

theorem sub_nonpos_of_greatest (h : IsGreatest (x '' S) m) {i : ι} (hi : i ∈ S) : x i - m ≤ 0 :=
  sub_nonpos.2 (h.2 ⟨i, hi, rfl⟩)

theorem sub_eq_zero_of_greatest (h : IsGreatest (x '' S) m) : ∃ i ∈ S, x i - m = 0 := by
  obtain ⟨i, hi, hm⟩ := h.1
  exact ⟨i, hi, sub_eq_zero.2 hm⟩

/-- The exponent 0 alone contributes 1. -/
theorem one_le_sum_exp_sub (h : IsGreatest (x '' S) m) : 1 ≤ ∑ i ∈ S, Real.exp (x i - m) := by
  obtain ⟨i, hi, hzero⟩ := sub_eq_zero_of_greatest h
  calc (1 : ℝ) = Real.exp (x i - m) := by rw [hzero, Real.exp_zero]
    _ ≤ ∑ j ∈ S, Real.exp (x j - m) :=
      Finset.single_le_sum (f := fun j => Real.exp (x j - m)) (fun j _ => (Real.exp_pos _).le) hi

/-! ## The running maximum -/

/-- One more score: the maximum of the old greatest and the new one. -/
theorem isGreatest_max {n : ℕ} {x : ℕ → ℝ} (h : IsGreatest (x '' Finset.range n) m) :
    IsGreatest (x '' Finset.range (n + 1)) (max m (x n)) := by
  have hset : x '' Finset.range (n + 1) = insert (x n) (x '' Finset.range n) := by
    rw [Finset.range_add_one, Finset.coe_insert, Set.image_insert_eq]
  rw [hset, max_comm]
  exact h.insert (x n)

/-- A running maximum that starts at or below every score ends at the greatest one. -/
theorem isGreatest_foldN_max {x : ℕ → ℝ} {lowest : ℝ} :
    ∀ {n : ℕ}, 0 < n → (∀ i, i < n → lowest ≤ x i) →
      IsGreatest (x '' Finset.range n) (foldN n lowest fun i m => max m (x i))
  | 1, _, hlow => by
    have hzero := hlow 0 (by omega)
    simp [foldN, hzero]
  | n + 2, _, hlow => by
    have ih := isGreatest_foldN_max (n := n + 1) (by omega) fun i hi => hlow i (by omega)
    rw [foldN_succ]
    exact isGreatest_max ih

end Softmax
