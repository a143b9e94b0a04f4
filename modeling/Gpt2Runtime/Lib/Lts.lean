import Mathlib.Data.List.Basic
/-
# Labelled transition systems with silent steps

A step carries the event it shows, or none. `Run` is a finite run with the list of its events. Three
rules: a simulation of the steps gives each run a run of the other system with the same events
(`Run.simulate`), an invariant that silences the steps silences the run (`Run.quiet`), and runs compose
and come apart (`Run.append`, `Run.split`). `Owned` is the bookkeeping of a lock: who is inside, and who the lock says is.
-/

namespace Lts

variable {σ τ ε : Type}

structure System (σ ε : Type) where
  step : σ → Option ε → σ → Prop

/-- `Run A s t s'`: some steps lead from `s` to `s'` and show the events `t`. -/
inductive Run (A : System σ ε) (s : σ) : List ε → σ → Prop
  | refl : Run A s [] s
  | step {t : List ε} {s' s'' : σ} {l : Option ε} (h : Run A s t s') (hl : A.step s' l s'') : Run A s (t ++ l.toList) s''

variable {A : System σ ε} {B : System τ ε}

namespace Run

theorem single {s s' : σ} {l : Option ε} (h : A.step s l s') : Run A s l.toList s' := .step .refl h

theorem append {s s' s'' : σ} {t t' : List ε} (h : Run A s t s') (h' : Run A s' t' s'') : Run A s (t ++ t') s'' := by
  induction h' with
  | refl => rwa [List.append_nil]
  | step _ hl ih =>
    rw [← List.append_assoc]
    exact ih.step hl

theorem cons {s s' s'' : σ} {t : List ε} {e : ε} (hl : A.step s (some e) s') (h : Run A s' t s'') : Run A s (e :: t) s'' :=
  (single hl).append h

theorem silent {s s' s'' : σ} {t : List ε} (h : Run A s t s') (hl : A.step s' none s'') : Run A s t s'' := by
  have := h.step hl
  rwa [Option.toList_none, List.append_nil] at this

theorem visible {s s' s'' : σ} {t : List ε} {e : ε} (h : Run A s t s') (hl : A.step s' (some e) s'') :
    Run A s (t ++ [e]) s'' := h.step hl

/-- A run that shows `t` and then `t'` passes through a state in which it has shown `t`. -/
theorem split {s s' : σ} {t t' : List ε} (h : Run A s (t ++ t') s') : ∃ m, Run A s t m ∧ Run A m t' s' := by
  generalize hu : t ++ t' = u at h
  induction h generalizing t' with
  | refl =>
    obtain ⟨rfl, rfl⟩ := List.append_eq_nil_iff.1 hu
    exact ⟨s, .refl, .refl⟩
  | @step u m m' l hrun hl ih =>
    cases l with
    | none =>
      rw [Option.toList_none, List.append_nil] at hu
      obtain ⟨n, h₁, h₂⟩ := ih hu
      exact ⟨n, h₁, h₂.silent hl⟩
    | some e =>
      -- the last event is in `t'`, or `t` is the whole list
      rcases List.eq_nil_or_concat t' with rfl | ⟨v, x, rfl⟩
      · rw [List.append_nil] at hu
        rw [hu]
        exact ⟨m', hrun.step hl, .refl⟩
      · rw [List.concat_eq_append, ← List.append_assoc] at hu
        obtain ⟨hv, hx⟩ := List.append_inj' hu rfl
        obtain rfl : x = e := List.head_eq_of_cons_eq hx
        obtain ⟨n, h₁, h₂⟩ := ih hv
        rw [List.concat_eq_append]
        exact ⟨n, h₁, h₂.visible hl⟩

/-- If an invariant keeps every step silent, nothing shows and the invariant stays. -/
theorem quiet {I : σ → Prop} (hstep : ∀ s l s', I s → A.step s l s' → l = none ∧ I s') {s s' : σ} {t : List ε}
    (h : Run A s t s') (h0 : I s) : t = [] ∧ I s' := by
  induction h with
  | refl => exact ⟨rfl, h0⟩
  | step _ hl ih =>
    obtain ⟨rfl, hI⟩ := ih
    obtain ⟨rfl, hI'⟩ := hstep _ _ _ hI hl
    exact ⟨rfl, hI'⟩

/-- **Simulation.** If every step is matched by a run with the same events, so is every run. -/
theorem simulate {R : σ → τ → Prop}
    (hstep : ∀ s a l s', R s a → A.step s l s' → ∃ a', Run B a l.toList a' ∧ R s' a')
    {s s' : σ} {t : List ε} (h : Run A s t s') {a : τ} (hR : R s a) : ∃ a', Run B a t a' ∧ R s' a' := by
  induction h with
  | refl => exact ⟨a, .refl, hR⟩
  | step _ hl ih =>
    obtain ⟨a', hrun, hR'⟩ := ih
    obtain ⟨a'', hrun', hR''⟩ := hstep _ _ _ _ hR' hl
    exact ⟨a'', hrun.append hrun', hR''⟩

/-- A run of a system whose steps all show something and that shows nothing does nothing. -/
theorem eq_of_nil (hvis : ∀ s s', ¬A.step s none s') {s s' : σ} {t : List ε} (h : Run A s t s') (ht : t = []) : s = s' := by
  induction h with
  | refl => rfl
  | @step t s' s'' l _ hl ih =>
    cases l with
    | none => exact absurd hl (hvis _ _)
    | some e => exact absurd (List.append_eq_nil_iff.1 ht).2 (List.cons_ne_nil _ _)

end Run

/-! ## Locks -/

/-- The threads inside the lock are the one that owns it. -/
def Owned (inside : τ → Prop) (owner : Option τ) : Prop := ∀ t, inside t ↔ owner = some t

namespace Owned

variable {inside inside' : τ → Prop} {owner : Option τ} {t : τ}

theorem acquire (h : Owned inside none) (hin : inside' t) (hframe : ∀ u, u ≠ t → (inside' u ↔ inside u)) :
    Owned inside' (some t) := by
  intro u
  by_cases hu : u = t
  · subst hu
    exact ⟨fun _ => rfl, fun _ => hin⟩
  · rw [hframe u hu, h u]
    refine ⟨fun h0 => (nomatch h0), fun h1 => absurd (Option.some.inj h1).symm hu⟩

theorem release (h : Owned inside owner) (ht : inside t) (hout : ¬inside' t) (hframe : ∀ u, u ≠ t → (inside' u ↔ inside u)) :
    Owned inside' none := by
  intro u
  by_cases hu : u = t
  · subst hu
    exact ⟨fun h1 => absurd h1 hout, fun h0 => nomatch h0⟩
  · rw [hframe u hu, h u, (h t).1 ht]
    exact ⟨fun h1 => absurd (Option.some.inj h1).symm hu, fun h0 => nomatch h0⟩

theorem keep (h : Owned inside owner) (hframe : ∀ u, inside' u ↔ inside u) : Owned inside' owner :=
  fun u => (hframe u).trans (h u)

end Owned

end Lts
