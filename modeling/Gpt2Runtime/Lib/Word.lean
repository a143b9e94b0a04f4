import Gpt2Runtime.Lib.Loop
import Mathlib.Data.UInt
import Mathlib.Tactic.Ring
/-
# `std::size_t` arithmetic

A `size_t` is a `UInt64`: `+` and `*` wrap modulo `2 ^ 64`, `/` and `%` are the C ones on nonzero
divisors. The lemmas say when an expression does not wrap, and that the two overflow guards
`right > max - left` and `left != 0 && right > max / left` are exact.
-/

namespace Word

open Loop

/-- `std::numeric_limits<std::size_t>::max()`. -/
def sizeMax : UInt64 := 18446744073709551615

@[simp] theorem toNat_sizeMax : sizeMax.toNat = 2 ^ 64 - 1 := rfl

theorem toNat_lt (a : UInt64) : a.toNat < 2 ^ 64 := UInt64.toNat_lt a

theorem toNat_add_of_lt {a b : UInt64} (h : a.toNat + b.toNat < 2 ^ 64) : (a + b).toNat = a.toNat + b.toNat := by
  rw [UInt64.toNat_add, Nat.mod_eq_of_lt h]

theorem toNat_mul_of_lt {a b : UInt64} (h : a.toNat * b.toNat < 2 ^ 64) : (a * b).toNat = a.toNat * b.toNat := by
  rw [UInt64.toNat_mul, Nat.mod_eq_of_lt h]

theorem toNat_ofNat_of_lt {n : Nat} (h : n < 2 ^ 64) : (UInt64.ofNat n).toNat = n :=
  UInt64.toNat_ofNat_of_lt' h

theorem toNat_add_eq {a b : UInt64} {x y : Nat} (ha : a.toNat = x) (hb : b.toNat = y) (h : x + y < 2 ^ 64) :
    (a + b).toNat = x + y := by
  subst ha hb; exact toNat_add_of_lt h

theorem toNat_mul_eq {a b : UInt64} {x y : Nat} (ha : a.toNat = x) (hb : b.toNat = y) (h : x * y < 2 ^ 64) :
    (a * b).toNat = x * y := by
  subst ha hb; exact toNat_mul_of_lt h

theorem pos_of_ne_zero {a : UInt64} (h : a ≠ 0) : 0 < a.toNat := by
  rcases Nat.eq_zero_or_pos a.toNat with h0 | h0
  · exact absurd (UInt64.toNat_inj.1 h0) h
  · exact h0

theorem eq_zero_iff {a : UInt64} : a = 0 ↔ a.toNat = 0 := UInt64.toNat_inj.symm

theorem lt_iff {a b : UInt64} : a < b ↔ a.toNat < b.toNat := UInt64.lt_iff_toNat_lt

theorem le_iff {a b : UInt64} : a ≤ b ↔ a.toNat ≤ b.toNat := UInt64.le_iff_toNat_le

/-- The addition guard fires exactly when the sum does not fit. -/
theorem add_guard_iff (a b : UInt64) : sizeMax - a < b ↔ 2 ^ 64 ≤ a.toNat + b.toNat := by
  have ha := toNat_lt a
  rw [lt_iff, UInt64.toNat_sub_of_le _ _ (by rw [le_iff, toNat_sizeMax]; omega), toNat_sizeMax]
  omega

/-- The multiplication guard fires exactly when the product does not fit. -/
theorem mul_guard_iff (a b : UInt64) : (a ≠ 0 ∧ sizeMax / a < b) ↔ 2 ^ 64 ≤ a.toNat * b.toNat := by
  by_cases h : a = 0
  · subst h; simp
  · have ha := pos_of_ne_zero h
    rw [lt_iff, UInt64.toNat_div, toNat_sizeMax, Nat.div_lt_iff_lt_mul ha, Nat.mul_comm b.toNat]
    constructor
    · rintro ⟨_, h⟩; omega
    · intro h'; exact ⟨h, by omega⟩

variable {ε σ : Type}

/-- `for (std::size_t i = 0; i < n; ++i)`: the loop counter as a `size_t`. -/
def forSize (n : Nat) (s : σ) (body : UInt64 → σ → Except ε σ) : Except ε σ :=
  forN n s fun i => body (UInt64.ofNat i)

end Word
