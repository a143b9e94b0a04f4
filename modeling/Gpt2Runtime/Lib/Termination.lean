import Gpt2Runtime.Lib.Lts
import Mathlib.Algebra.Order.BigOperators.Group.Finset
/-
# Runs that end

`Steps A s n s'` is a run of exactly `n` steps. A measure that every step lowers bounds the number of steps
(`Steps.le_measure`), and a run that goes on as long as it can ends in a state without a step (`exists_stuck`).
`Disturbed` is a run in which something else moves the state too: each time costs as much as it raises the measure
(`Disturbed.le_measure`). `sum_exchange` is for a measure that adds up over the threads: one thread moves, the others
stay.
-/

namespace Lts

variable {σ ε : Type} {A : System σ ε}

inductive Steps (A : System σ ε) (s : σ) : Nat → σ → Prop
  | refl : Steps A s 0 s
  | step {n : Nat} {s' s'' : σ} {l : Option ε} (h : Steps A s n s') (hl : A.step s' l s'') : Steps A s (n + 1) s''

/-- `n` steps of the system and `k` moves of something else, in any order. -/
inductive Disturbed (A : System σ ε) (D : σ → σ → Prop) (s : σ) : Nat → Nat → σ → Prop
  | refl : Disturbed A D s 0 0 s
  | step {n k : Nat} {s' s'' : σ} {l : Option ε} (h : Disturbed A D s n k s') (hl : A.step s' l s'') :
      Disturbed A D s (n + 1) k s''
  | disturb {n k : Nat} {s' s'' : σ} (h : Disturbed A D s n k s') (hd : D s' s'') : Disturbed A D s n (k + 1) s''

def Stuck (A : System σ ε) (s : σ) : Prop := ∀ l s', ¬A.step s l s'

theorem Steps.cons {s s' s'' : σ} {l : Option ε} {n : Nat} (hl : A.step s l s') (h : Steps A s' n s'') : Steps A s (n + 1) s'' := by
  induction h with
  | refl => exact .step .refl hl
  | step _ hl' ih => exact ih.step hl'

theorem Steps.disturbed {D : σ → σ → Prop} {s s' : σ} {n : Nat} (h : Steps A s n s') : Disturbed A D s n 0 s' := by
  induction h with
  | refl => exact .refl
  | step _ hl ih => exact ih.step hl

section

variable {I : σ → Prop} {μ : σ → Nat} (hstep : ∀ s l s', I s → A.step s l s' → I s' ∧ μ s' < μ s)

include hstep

/-- Each step costs one. -/
theorem Steps.le_measure {s s' : σ} {n : Nat} (h : Steps A s n s') (h0 : I s) : I s' ∧ n + μ s' ≤ μ s := by
  induction h with
  | refl => exact ⟨h0, by omega⟩
  | step _ hl ih =>
    obtain ⟨hI, hle⟩ := ih
    obtain ⟨hI', hlt⟩ := hstep _ _ _ hI hl
    exact ⟨hI', by omega⟩

/-- Each step costs one, and each disturbance allows for at most `c` more. -/
theorem Disturbed.le_measure {D : σ → σ → Prop} {c : Nat} (hdisturb : ∀ s s', I s → D s s' → I s' ∧ μ s' ≤ μ s + c)
    {s s' : σ} {n k : Nat} (h : Disturbed A D s n k s') (h0 : I s) : I s' ∧ n + μ s' ≤ μ s + c * k := by
  induction h with
  | refl => exact ⟨h0, by omega⟩
  | step _ hl ih =>
    obtain ⟨hI, hle⟩ := ih
    obtain ⟨hI', hlt⟩ := hstep _ _ _ hI hl
    exact ⟨hI', by omega⟩
  | disturb _ hd ih =>
    obtain ⟨hI, hle⟩ := ih
    obtain ⟨hI', hlt⟩ := hdisturb _ _ hI hd
    refine ⟨hI', ?_⟩
    rw [Nat.mul_succ]
    omega

theorem exists_stuck {s : σ} (h0 : I s) : ∃ n s', Steps A s n s' ∧ Stuck A s' := by
  induction hn : μ s using Nat.strong_induction_on generalizing s with
  | _ m ih =>
    by_cases hstuck : Stuck A s
    · exact ⟨0, s, .refl, hstuck⟩
    · simp only [Stuck, not_forall, not_not] at hstuck
      obtain ⟨l, s', hl⟩ := hstuck
      obtain ⟨hI', hlt⟩ := hstep _ _ _ h0 hl
      obtain ⟨n, s'', hsteps, hstuck'⟩ := ih (μ s') (hn ▸ hlt) hI' rfl
      exact ⟨n + 1, s'', hsteps.cons hl, hstuck'⟩

end

/-! ## Measures that add up -/

/-- Two sums that differ at one place. -/
theorem sum_exchange {f g : Nat → Nat} {n i : Nat} (hi : i < n) (h : ∀ j, j ≠ i → g j = f j) :
    (∑ j ∈ Finset.range n, g j) + f i = (∑ j ∈ Finset.range n, f j) + g i := by
  have hmem : i ∈ Finset.range n := Finset.mem_range.2 hi
  have hrest : ∑ j ∈ (Finset.range n).erase i, g j = ∑ j ∈ (Finset.range n).erase i, f j :=
    Finset.sum_congr rfl fun j hj => h j (Finset.ne_of_mem_erase hj)
  rw [← Finset.add_sum_erase _ f hmem, ← Finset.add_sum_erase _ g hmem, hrest]
  omega

/-- A sum whose summands each grow by at most `c`. -/
theorem sum_le_add {f g c : Nat → Nat} {n : Nat} (h : ∀ j, j < n → g j ≤ f j + c j) :
    ∑ j ∈ Finset.range n, g j ≤ (∑ j ∈ Finset.range n, f j) + ∑ j ∈ Finset.range n, c j := by
  rw [← Finset.sum_add_distrib]
  exact Finset.sum_le_sum fun j hj => h j (Finset.mem_range.1 hj)

end Lts
