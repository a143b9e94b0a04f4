import Mathlib.Data.List.Basic
/-
# The first largest element

A loop keeps the largest value so far with its position, and replaces both when a value is greater. If the values
it meets compare like numbers, it ends with the largest of them, at the first position that has it (`scan_cases`).
-/

namespace Maximum

variable {β : Type} {lt : β → β → Bool}

/-- The loop over the elements from position `i` on. -/
def scan (lt : β → β → Bool) : Nat × β → Nat → List β → Nat × β
  | best, _, [] => best
  | best, i, x :: xs => scan lt (if lt best.2 x then (i, x) else best) (i + 1) xs

/-- The elements compare like numbers. -/
structure Ordered (lt : β → β → Bool) (l : List β) : Prop where
  asymm : ∀ x ∈ l, ∀ y ∈ l, lt x y = true → lt y x = false
  trans : ∀ x ∈ l, ∀ y ∈ l, ∀ z ∈ l, lt x y = false → lt y z = false → lt x z = false

theorem Ordered.mono {l l' : List β} (h : Ordered lt l) (hsub : ∀ x ∈ l', x ∈ l) : Ordered lt l' where
  asymm x hx y hy := h.asymm x (hsub x hx) y (hsub y hy)
  trans x hx y hy z hz := h.trans x (hsub x hx) y (hsub y hy) z (hsub z hz)

theorem Ordered.irrefl {l : List β} (h : Ordered lt l) {x : β} (hx : x ∈ l) : lt x x = false := by
  cases hlt : lt x x with
  | false => rfl
  | true => exact hlt ▸ h.asymm x hx x hx hlt

/-- **Where the loop ends**: at the value it started with, if no element is greater, or else at the first of the
largest elements. -/
theorem scan_cases {xs : List β} {best : Nat × β} {i : Nat} (h : Ordered lt (best.2 :: xs)) :
    (scan lt best i xs = best ∧ ∀ x ∈ xs, lt best.2 x = false) ∨
    ∃ before x after, xs = before ++ x :: after ∧ scan lt best i xs = (i + before.length, x) ∧ lt best.2 x = true ∧
      (∀ y ∈ before, lt y x = true) ∧ ∀ y ∈ xs, lt x y = false := by
  induction xs generalizing best i with
  | nil => exact .inl ⟨rfl, fun x hx => by cases hx⟩
  | cons x xs ih =>
    have hbest : best.2 ∈ best.2 :: x :: xs := List.mem_cons_self
    have hx : x ∈ best.2 :: x :: xs := List.mem_cons_of_mem _ List.mem_cons_self
    have hxs : ∀ y ∈ xs, y ∈ best.2 :: x :: xs := fun y hy => List.mem_cons_of_mem _ (List.mem_cons_of_mem _ hy)
    rw [scan]
    cases hlt : lt best.2 x with
    | true =>
      rw [if_pos rfl]
      have hsub : Ordered lt (x :: xs) := h.mono fun y hy => List.mem_cons_of_mem _ hy
      rcases @ih (i, x) (i + 1) hsub with ⟨hscan, hle⟩ | ⟨before, y, after, rfl, hscan, hxy, hbefore, hle⟩
      · refine .inr ⟨[], x, xs, rfl, hscan, hlt, List.forall_mem_nil _, fun y hy => ?_⟩
        rcases List.mem_cons.1 hy with rfl | hy
        · exact h.irrefl hx
        · exact hle y hy
      · have hy : y ∈ best.2 :: x :: (before ++ y :: after) := hxs y (by simp)
        have hyx := h.asymm x hx y hy hxy
        refine .inr ⟨x :: before, y, after, rfl, ?_, ?_, ?_, ?_⟩
        · rw [hscan, List.length_cons]
          congr 1
          omega
        · by_contra hno
          have hbx := h.trans _ hbest _ hy _ hx (Bool.eq_false_iff.2 hno) hyx
          rw [hlt] at hbx
          cases hbx
        · exact List.forall_mem_cons.2 ⟨hxy, hbefore⟩
        · exact List.forall_mem_cons.2 ⟨hyx, hle⟩
    | false =>
      rw [if_neg Bool.false_ne_true]
      have hsub : Ordered lt (best.2 :: xs) := h.mono fun y hy => by
        rcases List.mem_cons.1 hy with rfl | hy
        · exact hbest
        · exact hxs y hy
      rcases @ih best (i + 1) hsub with ⟨hscan, hle⟩ | ⟨before, y, after, rfl, hscan, hby, hbefore, hle⟩
      · exact .inl ⟨hscan, List.forall_mem_cons.2 ⟨hlt, hle⟩⟩
      · have hy : y ∈ best.2 :: x :: (before ++ y :: after) := hxs y (by simp)
        have hxy : lt x y = true := by
          by_contra hno
          have hfalse := h.trans _ hbest _ hx _ hy hlt (Bool.eq_false_iff.2 hno)
          rw [hby] at hfalse
          cases hfalse
        refine .inr ⟨x :: before, y, after, rfl, ?_, hby, List.forall_mem_cons.2 ⟨hxy, hbefore⟩,
          List.forall_mem_cons.2 ⟨h.asymm x hx y hy hxy, hle⟩⟩
        rw [hscan, List.length_cons]
        congr 1
        omega

/-- The value is not below any element, and stands at the first position that has it, unless it is the one the loop
started with. -/
def FirstLargest (lt : β → β → Bool) (start : β) (l : List β) (best : Nat × β) : Prop :=
  (∀ x ∈ l, lt best.2 x = false) ∧
    (best = (0, start) ∨ l[best.1]? = some best.2 ∧ ∀ i < best.1, ∀ y, l[i]? = some y → lt y best.2 = true)

theorem firstLargest_scan {start : β} {l : List β} (h : Ordered lt (start :: l)) :
    FirstLargest lt start l (scan lt (0, start) 0 l) := by
  rcases @scan_cases β lt l (0, start) 0 h with ⟨hscan, hle⟩ | ⟨before, x, after, rfl, hscan, -, hbefore, hle⟩
  · rw [hscan]
    exact ⟨hle, .inl rfl⟩
  · rw [hscan, Nat.zero_add]
    refine ⟨hle, .inr ⟨by simp, fun i hi y hy => ?_⟩⟩
    rw [List.getElem?_append_left hi] at hy
    exact hbefore y (List.mem_of_getElem? hy)

/-- The first position of a largest element. -/
def position (lt : β → β → Bool) : List β → Nat
  | [] => 0
  | x :: xs => (scan lt (0, x) 1 xs).1

/-- **The first largest element** of a list that is not empty. -/
theorem position_spec {l : List β} (h : Ordered lt l) (hne : l ≠ []) : ∃ x, l[position lt l]? = some x ∧
    (∀ y ∈ l, lt x y = false) ∧ ∀ i < position lt l, ∀ y, l[i]? = some y → lt y x = true := by
  cases l with
  | nil => exact absurd rfl hne
  | cons x xs =>
    rcases @scan_cases β lt xs (0, x) 1 h with ⟨hscan, hle⟩ | ⟨before, y, after, rfl, hscan, hxy, hbefore, hle⟩
    · rw [position, hscan]
      exact ⟨x, rfl, List.forall_mem_cons.2 ⟨h.irrefl List.mem_cons_self, hle⟩, fun i hi => absurd hi (Nat.not_lt_zero i)⟩
    · have hy : y ∈ x :: (before ++ y :: after) := by simp
      rw [position, hscan, Nat.add_comm]
      refine ⟨y, by simp, List.forall_mem_cons.2 ⟨h.asymm x List.mem_cons_self y hy hxy, hle⟩, fun i hi z hz => ?_⟩
      cases i with
      | zero =>
        obtain rfl := Option.some.inj hz
        exact hxy
      | succ i =>
        rw [List.getElem?_cons_succ, List.getElem?_append_left (by omega)] at hz
        exact hbefore z (List.mem_of_getElem? hz)

theorem scan_map {γ : Type} {lt' : γ → γ → Bool} {f : β → γ} (h : ∀ x y, lt' (f x) (f y) = lt x y) (best : Nat × β) (i : Nat)
    (xs : List β) : scan lt' (best.1, f best.2) i (xs.map f) = ((scan lt best i xs).1, f (scan lt best i xs).2) := by
  induction xs generalizing best i with
  | nil => rfl
  | cons x xs ih =>
    rw [List.map_cons, scan, scan, h]
    cases lt best.2 x with
    | true => exact ih (i, x) (i + 1)
    | false => exact ih best (i + 1)

/-- Reading the elements through an order embedding does not move the largest. -/
theorem position_map {γ : Type} {lt' : γ → γ → Bool} {f : β → γ} (h : ∀ x y, lt' (f x) (f y) = lt x y) (l : List β) :
    position lt' (l.map f) = position lt l := by
  cases l with
  | nil => rfl
  | cons x xs => exact congrArg Prod.fst (scan_map h (0, x) 1 xs)

end Maximum
