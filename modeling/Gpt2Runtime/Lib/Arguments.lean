import Mathlib.Data.List.Forall2
import Mathlib.Logic.Basic
/-
# Option loops

A program reads its arguments from the left. A word is an option whose value is the next word, an option that
stands alone, the request for help, which ends the loop, or unknown; an option that misses its value counts as
unknown. `Reads` is the grammar of what the loop has passed; the three `parse_*_iff` say that the loop stops
exactly at the end, at the first request for help or at the first word it rejects. `Spelling` gives the words of a
syntax a meaning of their own (`Spelling.reads_iff`).
-/

namespace Arguments

variable {ω σ ε ι : Type}

/-- What the words of a command line do to the options read so far. -/
structure Syntax (ω σ ε : Type) where
  valued : ω → Option (ω → σ → Except ε σ)
  single : ω → Option (σ → σ)
  help : ω → Bool
  unknown : ω → ε
  /-- No option both takes a value and stands alone. -/
  apart : ∀ word, (valued word).isSome = true → single word = none ∧ help word = false

namespace Syntax

variable {g : Syntax ω σ ε}

/-- A word that is not followed by its value. -/
def lone (g : Syntax ω σ ε) (s : σ) (word : ω) : Except ε (Option σ) :=
  match g.single word with
  | some set => .ok (some (set s))
  | none => if g.help word then .ok none else .error (g.unknown word)

/-- The loop; `none` is the request for help. -/
def parse (g : Syntax ω σ ε) : σ → List ω → Except ε (Option σ)
  | s, [] => .ok (some s)
  | s, [word] => g.lone s word
  | s, word :: value :: rest =>
    match g.valued word with
    | some set => do
      let s ← set value s
      parse g s rest
    | none => do
      match ← g.lone s word with
      | some s => parse g s (value :: rest)
      | none => .ok none

/-- The loop passes the words and takes the options from `s` to `s'`. -/
inductive Reads (g : Syntax ω σ ε) : σ → List ω → σ → Prop
  | nil {s : σ} : Reads g s [] s
  | valued {s s' s'' : σ} {word value : ω} {rest : List ω} {set : ω → σ → Except ε σ} (hword : g.valued word = some set)
      (hset : set value s = .ok s') (hrest : Reads g s' rest s'') : Reads g s (word :: value :: rest) s''
  | single {s s'' : σ} {word : ω} {rest : List ω} {set : σ → σ} (hword : g.single word = some set)
      (hrest : Reads g (set s) rest s'') : Reads g s (word :: rest) s''

/-- The loop stops at the front of the words. -/
inductive Stops (g : Syntax ω σ ε) (s : σ) : List ω → ε → Prop
  | value {word value : ω} {rest : List ω} {set : ω → σ → Except ε σ} {e : ε} (hword : g.valued word = some set)
      (hset : set value s = .error e) : Stops g s (word :: value :: rest) e
  | incomplete {word : ω} (hword : (g.valued word).isSome = true) : Stops g s [word] (g.unknown word)
  | unknown {word : ω} {rest : List ω} (hvalued : g.valued word = none) (hsingle : g.single word = none)
      (hhelp : g.help word = false) : Stops g s (word :: rest) (g.unknown word)

/-- The word is the request for help. -/
def Asks (g : Syntax ω σ ε) (word : ω) : Prop := g.single word = none ∧ g.help word = true

theorem valued_of_single {word : ω} {set : σ → σ} (h : g.single word = some set) : g.valued word = none := by
  by_contra hv
  rw [(g.apart word (Option.isSome_iff_ne_none.2 hv)).1] at h
  cases h

theorem Asks.valued {word : ω} (h : g.Asks word) : g.valued word = none := by
  by_contra hv
  have hhelp := h.2
  rw [(g.apart word (Option.isSome_iff_ne_none.2 hv)).2] at hhelp
  cases hhelp

/-! ## One pass of the loop -/

@[simp] theorem parse_nil (s : σ) : g.parse s [] = .ok (some s) := rfl

theorem parse_valued {s : σ} {word : ω} {set : ω → σ → Except ε σ} (h : g.valued word = some set) (value : ω) (rest : List ω) :
    g.parse s (word :: value :: rest) = set value s >>= fun s => g.parse s rest := by
  rw [parse, h]

/-- A word without a value behaves alike at the end and before it. -/
theorem parse_lone {s : σ} {word : ω} (h : g.valued word = none) (rest : List ω) :
    g.parse s (word :: rest) = g.lone s word >>= fun r =>
      match r with
      | some s => g.parse s rest
      | none => .ok none := by
  cases rest with
  | nil =>
    rw [parse]
    cases g.lone s word with
    | error e => rfl
    | ok r => cases r <;> rfl
  | cons value rest => rw [parse, h]

theorem parse_single {s : σ} {word : ω} {set : σ → σ} (h : g.single word = some set) (rest : List ω) :
    g.parse s (word :: rest) = g.parse (set s) rest := by
  rw [parse_lone (valued_of_single h), lone, h]
  rfl

theorem parse_asks {s : σ} {word : ω} (h : g.Asks word) (rest : List ω) : g.parse s (word :: rest) = .ok none := by
  rw [parse_lone h.valued, lone, h.1]
  simp only [h.2, if_true]
  rfl

theorem Stops.parse_eq {s : σ} {rest : List ω} {e : ε} (h : g.Stops s rest e) : g.parse s rest = .error e := by
  cases h with
  | value hword hset =>
    rw [parse_valued hword, hset]
    rfl
  | @incomplete word hword =>
    obtain ⟨hsingle, hhelp⟩ := g.apart word hword
    rw [parse, lone, hsingle]
    simp [hhelp]
  | unknown hvalued hsingle hhelp =>
    rw [parse_lone hvalued, lone, hsingle]
    simp only [hhelp, Bool.false_eq_true, if_false]
    rfl

/-! ## The whole loop -/

namespace Reads

theorem append {s s' s'' : σ} {before rest : List ω} (h : g.Reads s before s') (h' : g.Reads s' rest s'') :
    g.Reads s (before ++ rest) s'' := by
  induction h with
  | nil => exact h'
  | valued hword hset _ ih => exact .valued hword hset (ih h')
  | single hword _ ih => exact .single hword (ih h')

theorem parse_eq {s s' : σ} {before : List ω} (h : g.Reads s before s') (rest : List ω) :
    g.parse s (before ++ rest) = g.parse s' rest := by
  induction h with
  | nil => rfl
  | valued hword hset _ ih =>
    rw [List.cons_append, List.cons_append, parse_valued hword, hset]
    exact ih
  | single hword _ ih =>
    rw [List.cons_append, parse_single hword]
    exact ih

end Reads

/-- **Where the loop stops**: at the end, at a request for help or at a word it rejects. -/
theorem reads_until (s : σ) (args : List ω) : ∃ before rest s', args = before ++ rest ∧ g.Reads s before s' ∧
    (rest = [] ∨ (∃ word tail, rest = word :: tail ∧ g.Asks word) ∨ ∃ e, g.Stops s' rest e) := by
  induction hn : args.length using Nat.strongRecOn generalizing s args with
  | ind n ih =>
    cases args with
    | nil => exact ⟨[], [], s, rfl, .nil, .inl rfl⟩
    | cons word rest =>
      cases hvalued : g.valued word with
      | none =>
        cases hsingle : g.single word with
        | none =>
          refine ⟨[], word :: rest, s, rfl, .nil, .inr ?_⟩
          cases hhelp : g.help word with
          | true => exact .inl ⟨word, rest, rfl, hsingle, hhelp⟩
          | false => exact .inr ⟨_, .unknown hvalued hsingle hhelp⟩
        | some set =>
          obtain ⟨before, rest', s', rfl, hreads, hstop⟩ := ih rest.length (by rw [← hn, List.length_cons]; omega) (set s) rest rfl
          exact ⟨word :: before, rest', s', rfl, .single hsingle hreads, hstop⟩
      | some set =>
        cases rest with
        | nil => exact ⟨[], [word], s, rfl, .nil, .inr (.inr ⟨_, .incomplete (by rw [hvalued]; rfl)⟩)⟩
        | cons value rest =>
          cases hset : set value s with
          | error e => exact ⟨[], word :: value :: rest, s, rfl, .nil, .inr (.inr ⟨e, .value hvalued hset⟩)⟩
          | ok s₁ =>
            obtain ⟨before, rest', s', rfl, hreads, hstop⟩ :=
              ih rest.length (by rw [← hn, List.length_cons, List.length_cons]; omega) s₁ rest rfl
            exact ⟨word :: value :: before, rest', s', rfl, .valued hvalued hset hreads, hstop⟩

theorem parse_some_iff {s s' : σ} {args : List ω} : g.parse s args = .ok (some s') ↔ g.Reads s args s' := by
  constructor
  · intro h
    obtain ⟨before, rest, s₁, rfl, hreads, rfl | ⟨word, tail, rfl, hasks⟩ | ⟨e, hstops⟩⟩ := reads_until (g := g) s args
    · rw [hreads.parse_eq, parse_nil, Except.ok.injEq, Option.some.injEq] at h
      rwa [List.append_nil, ← h]
    · rw [hreads.parse_eq, parse_asks hasks] at h
      cases h
    · rw [hreads.parse_eq, hstops.parse_eq] at h
      cases h
  · intro h
    have hparse := h.parse_eq []
    rwa [List.append_nil] at hparse

theorem parse_none_iff {s : σ} {args : List ω} : g.parse s args = .ok none ↔
    ∃ before word tail s', args = before ++ word :: tail ∧ g.Reads s before s' ∧ g.Asks word := by
  constructor
  · intro h
    obtain ⟨before, rest, s₁, rfl, hreads, rfl | ⟨word, tail, rfl, hasks⟩ | ⟨e, hstops⟩⟩ := reads_until (g := g) s args
    · rw [hreads.parse_eq] at h
      cases h
    · exact ⟨before, word, tail, s₁, rfl, hreads, hasks⟩
    · rw [hreads.parse_eq, hstops.parse_eq] at h
      cases h
  · rintro ⟨before, word, tail, s', rfl, hreads, hasks⟩
    rw [hreads.parse_eq, parse_asks hasks]

theorem parse_error_iff {s : σ} {args : List ω} {e : ε} : g.parse s args = .error e ↔
    ∃ before rest s', args = before ++ rest ∧ g.Reads s before s' ∧ g.Stops s' rest e := by
  constructor
  · intro h
    obtain ⟨before, rest, s₁, rfl, hreads, rfl | ⟨word, tail, rfl, hasks⟩ | ⟨e', hstops⟩⟩ := reads_until (g := g) s args
    · rw [hreads.parse_eq] at h
      cases h
    · rw [hreads.parse_eq, parse_asks hasks] at h
      cases h
    · rw [hreads.parse_eq, hstops.parse_eq, Except.error.injEq] at h
      exact ⟨before, rest, s₁, rfl, hreads, h ▸ hstops⟩
  · rintro ⟨before, rest, s', rfl, hreads, hstops⟩
    rw [hreads.parse_eq, hstops.parse_eq]

end Syntax

/-! ## Spellings -/

/-- The settings a syntax spells, and what each does to the options. -/
structure Spelling (g : Syntax ω σ ε) (ι : Type) where
  Spells : ι → List ω → Prop
  apply : ι → σ → σ
  valued : ∀ {word value : ω} {set : ω → σ → Except ε σ} {s s' : σ}, g.valued word = some set → set value s = .ok s' →
    ∃ i, Spells i [word, value] ∧ s' = apply i s
  single : ∀ {word : ω} {set : σ → σ} (s : σ), g.single word = some set → ∃ i, Spells i [word] ∧ set s = apply i s
  reads : ∀ {i : ι} {words : List ω} (s : σ), Spells i words → g.Reads s words (apply i s)

/-- **The loop passes exactly the words that spell settings**, and applies them from the left. -/
theorem Spelling.reads_iff {g : Syntax ω σ ε} (spelling : Spelling g ι) {s s' : σ} {args : List ω} : g.Reads s args s' ↔
    ∃ settings words, List.Forall₂ spelling.Spells settings words ∧ words.flatten = args ∧
      s' = settings.foldl (fun s i => spelling.apply i s) s := by
  constructor
  · intro h
    induction h with
    | nil => exact ⟨[], [], .nil, rfl, rfl⟩
    | @valued s s₁ s'' word value rest set hword hset _ ih =>
      obtain ⟨settings, words, hspells, rfl, rfl⟩ := ih
      obtain ⟨i, hi, rfl⟩ := spelling.valued hword hset
      exact ⟨i :: settings, [word, value] :: words, .cons hi hspells, rfl, rfl⟩
    | @single s s'' word rest set hword _ ih =>
      obtain ⟨settings, words, hspells, rfl, rfl⟩ := ih
      obtain ⟨i, hi, hset⟩ := spelling.single s hword
      exact ⟨i :: settings, [word] :: words, .cons hi hspells, rfl, by rw [hset]; rfl⟩
  · rintro ⟨settings, words, hspells, rfl, rfl⟩
    induction hspells generalizing s with
    | nil => exact .nil
    | cons hi _ ih => exact (spelling.reads s hi).append ih

end Arguments
