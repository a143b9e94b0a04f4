import Mathlib.Algebra.BigOperators.Group.List.Basic
import Mathlib.Algebra.GroupWithZero.Nat
/-
# Consecutive intervals

An interval is an offset and a count. `Tiles a xs b`: the intervals `xs` follow each other from `a` to `b`.
Then they lie between `a` and `b`, an earlier one ends before a later one starts, and every item is in one.
-/

namespace Intervals

inductive Tiles : Nat → List (Nat × Nat) → Nat → Prop
  | nil {a : Nat} : Tiles a [] a
  | cons {a n b : Nat} {xs : List (Nat × Nat)} (h : Tiles (a + n) xs b) : Tiles a ((a, n) :: xs) b

/-- Two intervals without a common item. -/
def Apart (x y : Nat × Nat) : Prop := x.1 + x.2 ≤ y.1 ∨ y.1 + y.2 ≤ x.1

theorem Apart.symm {x y : Nat × Nat} (h : Apart x y) : Apart y x := Or.symm h

namespace Tiles

variable {a b : Nat} {xs : List (Nat × Nat)} {x : Nat × Nat}

theorem append {c : Nat} {ys : List (Nat × Nat)} (h : Tiles a xs b) (h' : Tiles b ys c) : Tiles a (xs ++ ys) c := by
  induction h with
  | nil => exact h'
  | cons _ ih => exact .cons (ih h')

/-- One more interval at the end. -/
theorem concat (h : Tiles a xs b) (n : Nat) : Tiles a (xs ++ [(b, n)]) (b + n) := h.append (.cons .nil)

/-- The counts add up. -/
theorem sum_counts (h : Tiles a xs b) : a + (xs.map Prod.snd).sum = b := by
  induction h with
  | nil => simp
  | cons _ ih => simpa [Nat.add_assoc] using ih

theorem bounds (h : Tiles a xs b) (hx : x ∈ xs) : a ≤ x.1 ∧ x.1 + x.2 ≤ b := by
  induction h with
  | nil => simp at hx
  | cons h ih =>
    have hsum := h.sum_counts
    rcases List.mem_cons.1 hx with rfl | hx
    · exact ⟨Nat.le_refl _, by omega⟩
    · obtain ⟨hlo, hhi⟩ := ih hx
      exact ⟨by omega, hhi⟩

/-- **No overlap.** -/
theorem ordered (h : Tiles a xs b) : xs.Pairwise fun x y => x.1 + x.2 ≤ y.1 := by
  induction h with
  | nil => exact .nil
  | cons h ih =>
    refine List.pairwise_cons.2 ⟨?_, ih⟩
    intro y hy
    exact (h.bounds hy).1

theorem apart (h : Tiles a xs b) : xs.Pairwise Apart := h.ordered.imp .inl

/-- **No gap.** -/
theorem covers (h : Tiles a xs b) {i : Nat} (hlo : a ≤ i) (hhi : i < b) : ∃ x ∈ xs, x.1 ≤ i ∧ i < x.1 + x.2 := by
  induction h with
  | nil => omega
  | @cons a n b xs h ih =>
    by_cases hi : i < a + n
    · exact ⟨(a, n), by simp, hlo, hi⟩
    · obtain ⟨x, hx, hin⟩ := ih (by omega) hhi
      exact ⟨x, by simp [hx], hin⟩

end Tiles

end Intervals
