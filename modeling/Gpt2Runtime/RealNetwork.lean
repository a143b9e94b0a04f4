import Gpt2Runtime.Lib.Standardize
import Gpt2Runtime.RealAttention
/-
# The network over the reals

Each row of `Gpt2.lean` read with exact arithmetic: a normalized row is made of standard scores (`layerNormRow_eq`), a
linear row of sums (`linearRow_eq`), and a head averages its values by the softmax of its scores, whatever stands for
`lowest()` (`softmax_eq_weight`).
-/

namespace Gpt2Runtime

open Loop Softmax Standardize Kernels

variable [FloatReading]

theorem sumFrom_eq_add_sum (b : ℝ) (n : Nat) (f : Nat → ℝ) : sumFrom b n f = b + ∑ i ∈ Finset.range n, f i := by
  induction n with
  | zero => exact (add_zero b).symm
  | succ n ih =>
    rw [Finset.sum_range_succ, ← add_assoc, ← ih]
    rfl

theorem linearRow_eq (n : Nat) (x : Nat → ℝ) (w : Nat → Nat → ℝ) (b : Nat → ℝ) (o : Nat) :
    linearRow n x w b o = b o + ∑ i ∈ Finset.range n, x i * w o i := sumFrom_eq_add_sum _ _ _

theorem layerNormRow_eq (C : Nat) (x w b : Nat → ℝ) (c : Nat) :
    layerNormRow C x w b c = standardize (Finset.range C) (1 / 100000) x c * w c + b c := by
  have hmean : sumFrom 0 C x / Scalar.ofSize C = mean (Finset.range C) x := by
    rw [sumFrom_eq_sum, mean, Finset.card_range]
    rfl
  have hvariance : ∀ m : ℝ, sumFrom 0 C (fun i => (x i - m) * (x i - m)) / Scalar.ofSize C =
      (∑ i ∈ Finset.range C, (x i - m) * (x i - m)) / (Finset.range C).card := by
    intro m
    rw [sumFrom_eq_sum, Finset.card_range]
    rfl
  unfold layerNormRow
  simp only [hmean, hvariance]
  show 1 / √(variance (Finset.range C) x + 1 / 100000) * (x c - mean (Finset.range C) x) * w c + b c = _
  rw [standardize, one_div_mul_eq_div]

/-- The exponentials of some scores never add up to 0. -/
theorem softmax_eq_weight {n : Nat} (hn : 0 < n) (x : Nat → ℝ) (s : Nat) : softmax n x s = weight (Finset.range n) x s := by
  have hpos : 0 < sumFrom 0 n fun s => Scalar.exp (x s - scoreMax n x) := by
    rw [sumFrom_eq_sum]
    exact Finset.sum_pos (fun _ _ => Real.exp_pos _) (Finset.nonempty_range_iff.2 (Nat.ne_of_gt hn))
  have hzero : Scalar.eq (sumFrom 0 n fun s => Scalar.exp (x s - scoreMax n x)) 0 = false := decide_eq_false hpos.ne'
  rw [← weight_sub (Finset.range n) x (scoreMax n x) s]
  unfold softmax
  simp only [hzero, Bool.false_eq_true, if_false]
  rw [sumFrom_eq_sum]
  exact mul_one_div _ _

theorem attentionHead_eq_average {n : Nat} (hn : 0 < n) (hs : Nat) (q : Nat → ℝ) (k v : Nat → Nat → ℝ) (i : Nat) :
    attentionHead n hs q k v i =
      ∑ s ∈ Finset.range n, weight (Finset.range n) (fun s => dotScore hs q (k s)) s * v s i := by
  unfold attentionHead
  rw [sumFrom_eq_sum]
  simp only [headScore_eq, softmax_eq_weight hn]

end Gpt2Runtime
