import Gpt2Runtime.Lib.Loop
/-
# Simulation between two deterministic programs

`Agree E R x y`: two fallible computations both return, with results related by `R`, or both fail,
with errors related by `E`. The relation goes through binds and counting loops. A machine is a
function from a state and an input to an output and the next state; if one step of two machines
gives equal outputs and keeps a relation, so does every run (`run_sim`).
-/

namespace Refine

open Loop

variable {ε ε' σ τ σ' τ' : Type}

inductive Agree (E : ε → ε' → Prop) (R : σ → τ → Prop) : Except ε σ → Except ε' τ → Prop
  | ok {s : σ} {t : τ} (h : R s t) : Agree E R (.ok s) (.ok t)
  | error {e : ε} {e' : ε'} (h : E e e') : Agree E R (.error e) (.error e')

namespace Agree

variable {E : ε → ε' → Prop} {R : σ → τ → Prop} {R' : σ' → τ' → Prop}

theorem bind {x : Except ε σ} {y : Except ε' τ} {f : σ → Except ε σ'} {g : τ → Except ε' τ'} (h : Agree E R x y)
    (hf : ∀ s t, R s t → Agree E R' (f s) (g t)) : Agree E R' (x >>= f) (y >>= g) := by
  cases h with
  | ok h => exact hf _ _ h
  | error h => exact .error h

theorem imp {E₂ : ε → ε' → Prop} {R₂ : σ → τ → Prop} {x : Except ε σ} {y : Except ε' τ} (h : Agree E R x y)
    (hE : ∀ e e', E e e' → E₂ e e') (hR : ∀ s t, R s t → R₂ s t) : Agree E₂ R₂ x y := by
  cases h with
  | ok h => exact .ok (hR _ _ h)
  | error h => exact .error (hE _ _ h)

/-- Loops of the same length agree if their iterations do. -/
theorem forN {I : Nat → σ → τ → Prop} {body : Nat → σ → Except ε σ} {body' : Nat → τ → Except ε' τ} {s : σ} {t : τ}
    (h0 : I 0 s t) {n : Nat} (hstep : ∀ i s t, i < n → I i s t → Agree E (I (i + 1)) (body i s) (body' i t)) :
    Agree E (I n) (forN n s body) (forN n t body') := by
  induction n with
  | zero => exact .ok h0
  | succ n ih => exact (ih fun i s t hi => hstep i s t (by omega)).bind fun s t h => hstep n s t (by omega) h

/-- When the second computation returns, so does the first. -/
theorem of_ok {x : Except ε σ} {t : τ} (h : Agree E R x (.ok t)) : ∃ s, x = .ok s ∧ R s t := by
  cases h with
  | ok h => exact ⟨_, rfl, h⟩

theorem of_error {x : Except ε σ} {e' : ε'} (h : Agree E R x (.error e')) : ∃ e, x = .error e ∧ E e e' := by
  cases h with
  | error h => exact ⟨_, rfl, h⟩

end Agree

/-! ## Runs -/

variable {ι ο : Type}

/-- The outputs of a run and the state it ends in. -/
def run (step : σ → ι → ο × σ) : σ → List ι → List ο × σ
  | s, [] => ([], s)
  | s, i :: is =>
    let (o, s') := step s i
    let (os, t) := run step s' is
    (o :: os, t)

theorem run_cons (step : σ → ι → ο × σ) (s : σ) (i : ι) (is : List ι) :
    run step s (i :: is) = ((step s i).1 :: (run step (step s i).2 is).1, (run step (step s i).2 is).2) := rfl

/-- If each step of two machines, on related inputs, gives equal outputs and keeps a relation, then so
does every run. -/
theorem run_sim {κ : Type} {step : σ → ι → ο × σ} {step' : τ → κ → ο × τ} {R : σ → τ → Prop} {J : ι → κ → Prop}
    (hstep : ∀ s t i j, R s t → J i j → (step s i).1 = (step' t j).1 ∧ R (step s i).2 (step' t j).2)
    {is : List ι} {js : List κ} (hJ : List.Forall₂ J is js) :
    ∀ {s : σ} {t : τ}, R s t →
      (run step s is).1 = (run step' t js).1 ∧ R (run step s is).2 (run step' t js).2 := by
  induction hJ with
  | nil =>
    intro s t h
    exact ⟨rfl, h⟩
  | cons hj _ ih =>
    intro s t h
    obtain ⟨hout, hR⟩ := hstep s t _ _ h hj
    obtain ⟨houts, hR'⟩ := ih hR
    rw [run_cons, run_cons, hout, houts]
    exact ⟨rfl, hR'⟩

end Refine
