import Gpt2Runtime.Lib.Flat
import Mathlib.Logic.Function.Basic
/-
# A map kept in the slots of one array

A key has a slot, all slots have one width and no two overlap. `Stores`: each slot of the array holds the
row the map gives its key. Filling one slot is updating the map at one key (`Stores.update`), a slice at
a slot is that row (`Stores.row`) and a slice over consecutive slots is their rows one after the other
(`Stores.rows`).
-/

namespace SlotMap

open Flat

structure Slots (κ : Type) (size : Nat) where
  valid : κ → Prop
  base : κ → Nat
  width : Nat
  base_le : ∀ k, valid k → base k + width ≤ size
  disjoint : ∀ k k', valid k → valid k' → k' ≠ k → base k' + width ≤ base k ∨ base k + width ≤ base k'

variable {κ α : Type} {size : Nat}

structure Stores (s : Slots κ size) (storage : List α) (m : κ → List α) : Prop where
  length : storage.length = size
  row_length : ∀ k, s.valid k → (m k).length = s.width
  get : ∀ k, s.valid k → ∀ c, c < s.width → storage[s.base k + c]? = (m k)[c]?

namespace Stores

variable {s : Slots κ size} {storage new : List α} {m : κ → List α} {k : κ}

/-- **One slot written is one key updated.** -/
theorem update [DecidableEq κ] (h : Stores s storage m) (hk : s.valid k) {row : List α} {f : Nat → α}
    (hrow : IsVec row s.width f) (hfill : Fills storage new (s.base k) s.width f) :
    Stores s new (Function.update m k row) := by
  refine ⟨hfill.length.trans h.length, ?_, ?_⟩
  · intro k' hk'
    by_cases heq : k' = k
    · subst heq
      rw [Function.update_self]
      exact hrow.1
    · rw [Function.update_of_ne heq]
      exact h.row_length k' hk'
  · intro k' hk' c hc
    by_cases heq : k' = k
    · subst heq
      rw [Function.update_self, hfill.get c hc, hrow.2 c hc]
    · have houtside : s.base k' + c < s.base k ∨ s.base k + s.width ≤ s.base k' + c := by
        rcases s.disjoint k k' hk hk' heq with hlt | hge
        · exact .inl (by omega)
        · exact .inr (by omega)
      rw [Function.update_of_ne heq, hfill.frame _ houtside]
      exact h.get k' hk' c hc

theorem row (h : Stores s storage m) (hk : s.valid k) : (storage.drop (s.base k)).take s.width = m k := by
  apply List.ext_getElem?
  intro c
  by_cases hc : c < s.width
  · rw [List.getElem?_take_of_lt hc, List.getElem?_drop]
    exact h.get k hk c hc
  · have hlen := h.row_length k hk
    rw [List.getElem?_eq_none (by rw [List.length_take]; omega), List.getElem?_eq_none (by omega)]

/-- **Consecutive slots.** -/
theorem rows (h : Stores s storage m) {b : Nat} {key : Nat → κ} :
    ∀ {n : Nat}, (∀ i, i < n → s.valid (key i) ∧ s.base (key i) = b + i * s.width) →
      (storage.drop b).take (n * s.width) = (List.range n).flatMap fun i => m (key i)
  | 0, _ => by simp
  | n + 1, hkey => by
    obtain ⟨hv, hb⟩ := hkey n (by omega)
    have ih := rows h (n := n) fun i hi => hkey i (by omega)
    have hrow := h.row hv
    rw [Nat.add_mul, Nat.one_mul, List.take_add, ih, List.drop_drop, ← hb, hrow, List.range_succ, List.flatMap_append]
    simp

end Stores

end SlotMap
