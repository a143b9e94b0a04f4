import Mathlib.Data.List.Basic
/-
# Counting loops over `Except`

`forN n s body` is the C loop `for (i = 0; i < n; ++i) s = body(i, s)` with an error leaving the
loop at once; `foldN` is the same loop without errors, i.e. the left fold in ascending index order.
Forwards, a caller needs `forN_spec` (invariant; `forN_repeat` for a body that does not count),
`forN_eq_fold` (a body that never fails on the states it meets is a fold) and `forN_error` (the first
failing iteration); backwards, `forN_ran` (what a loop that returned went through), `forN_congr_ok` (another
body that agrees with it there) and `forN_error_of`.
-/

namespace Loop

variable {ε σ : Type}

/-- `for (i = 0; i < n; ++i) s = body(i, s)`. -/
def forN : Nat → σ → (Nat → σ → Except ε σ) → Except ε σ
  | 0, s, _ => .ok s
  | n + 1, s, body => do
    let s ← forN n s body
    body n s

/-- The left fold over `0, 1, …, n - 1`. -/
def foldN : Nat → σ → (Nat → σ → σ) → σ
  | 0, s, _ => s
  | n + 1, s, f => f n (foldN n s f)

@[simp] theorem forN_zero (s : σ) (body : Nat → σ → Except ε σ) : forN 0 s body = .ok s := rfl

theorem foldN_succ (n : Nat) (s : σ) (f : Nat → σ → σ) : foldN (n + 1) s f = f n (foldN n s f) := rfl

@[simp] theorem ok_bind {α β : Type} (a : α) (f : α → Except ε β) : (Except.ok a >>= f) = f a := (rfl)

@[simp] theorem error_bind {α β : Type} (e : ε) (f : α → Except ε β) :
    ((Except.error e : Except ε α) >>= f) = .error e := (rfl)

@[simp] theorem pure_ok {α : Type} (a : α) : (pure a : Except ε α) = .ok a := (rfl)

theorem forN_succ_ok {n : Nat} {s t : σ} {body : Nat → σ → Except ε σ} (h : forN n s body = .ok t) :
    forN (n + 1) s body = body n t := by
  simp [forN, h]

/-- A bind that returns came from a first computation that returned. -/
theorem bind_eq_ok {α β : Type} {x : Except ε α} {f : α → Except ε β} {b : β} :
    (x >>= f) = .ok b ↔ ∃ a, x = .ok a ∧ f a = .ok b := by
  cases x with
  | error e => simp
  | ok a => simp

/-- A bind fails in its first or in its second computation. -/
theorem bind_eq_error {α β : Type} {x : Except ε α} {f : α → Except ε β} {e : ε} :
    (x >>= f) = .error e ↔ x = .error e ∨ ∃ a, x = .ok a ∧ f a = .error e := by
  cases x with
  | error e' => simp
  | ok a => simp

/-- **Loop invariant.** If every iteration returns and takes `I i` to `I (i + 1)`, the loop
returns a state with `I n`. -/
theorem forN_spec {I : Nat → σ → Prop} {body : Nat → σ → Except ε σ} :
    ∀ {n : Nat} {s : σ}, I 0 s →
      (∀ i s, i < n → I i s → ∃ s', body i s = .ok s' ∧ I (i + 1) s') →
      ∃ s', forN n s body = .ok s' ∧ I n s'
  | 0, s, h0, _ => ⟨s, rfl, h0⟩
  | n + 1, s, h0, hstep => by
    obtain ⟨t, ht, hI⟩ := forN_spec (n := n) h0 (fun i s hi => hstep i s (by omega))
    obtain ⟨u, hu, hI'⟩ := hstep n t (by omega) hI
    exact ⟨u, by rw [forN_succ_ok ht, hu], hI'⟩

/-- Repeating a body that keeps `I` and leaves `J`. -/
theorem forN_repeat {I J : σ → Prop} {body : σ → Except ε σ} (hstep : ∀ s, I s → ∃ s', body s = .ok s' ∧ I s' ∧ J s')
    (n : Nat) {s : σ} (hs : I s) : ∃ s', forN n s (fun _ s => body s) = .ok s' ∧ I s' ∧ (0 < n → J s') := by
  refine forN_spec (I := fun i s => I s ∧ (0 < i → J s)) ⟨hs, fun h => absurd h (Nat.lt_irrefl 0)⟩ ?_
  rintro i s - ⟨hI, -⟩
  obtain ⟨s', hok, hI', hJ'⟩ := hstep s hI
  exact ⟨s', hok, hI', fun _ => hJ'⟩

/-- **What a loop that returned went through.** An invariant its iterations keep holds at the end, and
every iteration started from a state with the invariant and returned. -/
theorem forN_ran {I : σ → Prop} {body : Nat → σ → Except ε σ} :
    ∀ {n : Nat} {s t : σ}, forN n s body = .ok t → I s →
      (∀ i s s', i < n → I s → body i s = .ok s' → I s') →
      I t ∧ ∀ i, i < n → ∃ s s', I s ∧ body i s = .ok s'
  | 0, s, t, h, h0, _ => by
    obtain rfl : s = t := Except.ok.inj h
    exact ⟨h0, fun i hi => absurd hi (Nat.not_lt_zero i)⟩
  | n + 1, s, t, h, h0, hstep => by
    obtain ⟨m, hm, ht⟩ := bind_eq_ok.1 h
    obtain ⟨hI, hran⟩ := forN_ran hm h0 (fun i s s' hi => hstep i s s' (by omega))
    refine ⟨hstep n m t (by omega) hI ht, ?_⟩
    intro i hi
    by_cases hin : i < n
    · exact hran i hin
    · obtain rfl : i = n := by omega
      exact ⟨m, t, hI, ht⟩

/-- A body that agrees with the first on the states it goes through returns the same. -/
theorem forN_congr_ok {I : σ → Prop} {body body' : Nat → σ → Except ε σ} :
    ∀ {n : Nat} {s t : σ}, forN n s body = .ok t → I s →
      (∀ i s s', i < n → I s → body i s = .ok s' → I s' ∧ body' i s = .ok s') → I t ∧ forN n s body' = .ok t
  | 0, s, t, h, h0, _ => by
    obtain rfl : s = t := Except.ok.inj h
    exact ⟨h0, rfl⟩
  | n + 1, s, t, h, h0, hstep => by
    obtain ⟨m, hm, ht⟩ := bind_eq_ok.1 h
    obtain ⟨hI, hm'⟩ := forN_congr_ok hm h0 (fun i s s' hi => hstep i s s' (by omega))
    obtain ⟨hI', ht'⟩ := hstep n m t (by omega) hI ht
    exact ⟨hI', by rw [forN_succ_ok hm', ht']⟩

/-- An error of a loop is an error of one of its iterations. -/
theorem forN_error_of {body : Nat → σ → Except ε σ} {e : ε} :
    ∀ {n : Nat} {s : σ}, forN n s body = .error e → ∃ i s, i < n ∧ body i s = .error e
  | 0, _, h => by cases h
  | n + 1, s, h => by
    rcases bind_eq_error.1 h with h | ⟨m, _, h⟩
    · obtain ⟨i, s', hi, herr⟩ := forN_error_of h
      exact ⟨i, s', by omega, herr⟩
    · exact ⟨n, m, by omega, h⟩

/-- A body that is `f` on the states it meets makes the loop the fold of `f`. -/
theorem forN_eq_fold {body : Nat → σ → Except ε σ} {f : Nat → σ → σ} {n : Nat} (s : σ)
    (h : ∀ i s, i < n → body i s = .ok (f i s)) : forN n s body = .ok (foldN n s f) := by
  obtain ⟨t, ht, rfl⟩ := forN_spec (I := fun i t => t = foldN i s f) (n := n) (s := s) rfl
    (fun i t hi hI => ⟨f i t, h i t hi, by rw [hI]; rfl⟩)
  exact ht

/-- The first iteration's error is the loop's error. -/
theorem forN_error {body : Nat → σ → Except ε σ} {s : σ} {e : ε} (h : body 0 s = .error e) :
    ∀ {n : Nat}, 0 < n → forN n s body = .error e
  | 1, _ => by simp [forN, h]
  | n + 2, _ => by
    have ih := forN_error h (n := n + 1) (by omega)
    rw [forN, ih]; rfl

theorem foldN_congr {f g : Nat → σ → σ} {n : Nat} {s : σ} (h : ∀ i s, i < n → f i s = g i s) :
    foldN n s f = foldN n s g := by
  induction n with
  | zero => rfl
  | succ n ih => rw [foldN_succ, foldN_succ, ih (fun i s hi => h i s (by omega)), h n _ (by omega)]

end Loop
