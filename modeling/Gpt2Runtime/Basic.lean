import Gpt2Runtime.Lib.Flat
import Gpt2Runtime.Lib.Word
/-
# Scalars, exceptions and spans

| here | there |
| --- | --- |
| `Scalar`                | `float` with the literals, operators and `<cmath>` functions the runtime applies to it, all uninterpreted |
| `Exc`                   | the `<stdexcept>` classes thrown under `src/`, with their `what()` text, and what the host throws: `bad_alloc`, `system_error` as a `runtimeError` |
| `Exc.undefined`         | not an exception: an element or subspan access outside its span, which C++ leaves undefined |
| `keep`                  | an exception passing through a function that owns state: the state at the throw stays |
| `read`, `write`         | `span[i]`, `span[i] = x` |
| `subspan`, `first`, `last` | `std::span::subspan`, `first`, `last` |
| `checkedMultiply`       | `checked_multiply` (`model.cpp:31-38`, `session.cpp:15-22`) |
| `checkedAdd`            | `checked_add` (`model.cpp:22-29`) |

A span or a vector is a list; `size_t` is `UInt64`, so every index expression wraps as in the source.
-/

namespace Gpt2Runtime

open Loop Flat Word

/-- The scalar type of the runtime. Nothing is assumed about the operations. -/
class Scalar (α : Type) extends Zero α, One α, Add α, Sub α, Mul α, Div α where
  /-- The value with a given bit pattern. -/
  ofBits : BitVec 32 → α
  /-- `static_cast<float>` of a `std::size_t`. -/
  ofSize : Nat → α
  /-- `0.5F`. -/
  half : α
  /-- `1.0e-5F`. -/
  epsilon : α
  /-- `0.044715F`. -/
  geluCubic : α
  /-- `static_cast<float>(2.0 / std::numbers::pi)`. -/
  twoOverPi : α
  /-- `std::numeric_limits<float>::lowest()`. -/
  lowest : α
  sqrt : α → α
  exp : α → α
  tanh : α → α
  /-- `a < b`. -/
  lt : α → α → Bool
  /-- `a == b`. -/
  eq : α → α → Bool

/-- Integers in place of floats, to evaluate the model on a concrete input. -/
instance : Scalar Int where
  ofBits b := b.toInt
  ofSize n := n
  half := 0
  epsilon := 1
  geluCubic := 1
  twoOverPi := 1
  lowest := -1000
  sqrt x := x
  exp x := x
  tanh x := x
  lt a b := decide (a < b)
  eq a b := decide (a = b)

inductive Exc where
  | invalidArgument (what : String)
  | lengthError (what : String)
  | logicError (what : String)
  | outOfRange (what : String)
  | overflowError (what : String)
  | runtimeError (what : String)
  | badAlloc
  | undefined
deriving DecidableEq, Repr

section
variable {α : Type}

/-- `std::max(a, b)`: the first argument unless it is smaller. -/
def stdMax [Scalar α] (a b : α) : α := if Scalar.lt a b then b else a

/-- `if (c) throw e;` -/
def throwIf (c : Prop) [Decidable c] (e : Exc) : Except Exc Unit := if c then .error e else .ok ()

@[simp] theorem throwIf_of_not {c : Prop} [Decidable c] {e : Exc} (h : ¬c) : throwIf c e = .ok () := if_neg h

@[simp] theorem throwIf_of {c : Prop} [Decidable c] {e : Exc} (h : c) : throwIf c e = .error e := if_pos h

theorem throwIf_ok_iff {c : Prop} [Decidable c] {e : Exc} {u : Unit} : throwIf c e = .ok u ↔ ¬c := by
  by_cases h : c <;> simp [h]

theorem throwIf_error {c : Prop} [Decidable c] {e e' : Exc} (h : throwIf c e = .error e') : e' = e := by
  by_cases hc : c
  · rw [throwIf_of hc] at h
    exact (Except.error.inj h).symm
  · simp [hc] at h

theorem throwIf_bind_ok {β : Type} {c : Prop} [Decidable c] {e : Exc} {f : Unit → Except Exc β} {b : β} :
    (throwIf c e >>= f) = .ok b ↔ ¬c ∧ f () = .ok b := by
  by_cases h : c <;> simp [h]

/-- An operation that leaves the state `s` alone: its exception leaves with `s`. -/
def keep {σ β : Type} (s : σ) : Except Exc β → Except (Exc × σ) β
  | .ok b => .ok b
  | .error e => .error (e, s)

@[simp] theorem keep_ok {σ β : Type} (s : σ) (b : β) : keep s (.ok b) = .ok b := (rfl)

@[simp] theorem keep_error {σ β : Type} (s : σ) (e : Exc) : keep s (.error e : Except Exc β) = .error (e, s) := (rfl)

def read (span : List α) (index : UInt64) : Except Exc α :=
  match span[index.toNat]? with
  | some x => .ok x
  | none => .error .undefined

def write (span : List α) (index : UInt64) (value : α) : Except Exc (List α) :=
  if index.toNat < span.length then .ok (span.set index.toNat value) else .error .undefined

def subspan (span : List α) (offset count : UInt64) : Except Exc (List α) :=
  if offset.toNat + count.toNat ≤ span.length then .ok ((span.drop offset.toNat).take count.toNat)
  else .error .undefined

def first (span : List α) (count : UInt64) : Except Exc (List α) :=
  if count.toNat ≤ span.length then .ok (span.take count.toNat) else .error .undefined

def last (span : List α) (count : UInt64) : Except Exc (List α) :=
  if count.toNat ≤ span.length then .ok (span.drop (span.length - count.toNat)) else .error .undefined

theorem read_ok {span : List α} {index : UInt64} {i : Nat} {x : α} (hi : index.toNat = i)
    (h : span[i]? = some x) : read span index = .ok x := by
  simp [read, hi, h]

theorem write_ok {span : List α} {index : UInt64} {i : Nat} (x : α) (hi : index.toNat = i)
    (h : i < span.length) : write span index x = .ok (span.set i x) := by
  simp [write, hi, h]

theorem subspan_ok {span : List α} {offset count : UInt64} (h : offset.toNat + count.toNat ≤ span.length) :
    subspan span offset count = .ok ((span.drop offset.toNat).take count.toNat) := if_pos h

theorem first_ok {span : List α} {count : UInt64} (h : count.toNat ≤ span.length) :
    first span count = .ok (span.take count.toNat) := if_pos h

theorem last_ok {span : List α} {count : UInt64} (h : count.toNat ≤ span.length) :
    last span count = .ok (span.drop (span.length - count.toNat)) := if_pos h

end

/-! ## Checked size arithmetic -/

def overflow (context : String) : Exc := .overflowError ("size overflow while computing " ++ context)

def checkedAdd (left right : UInt64) (context : String) : Except Exc UInt64 :=
  if sizeMax - left < right then .error (overflow context) else .ok (left + right)

def checkedMultiply (left right : UInt64) (context : String) : Except Exc UInt64 :=
  if left ≠ 0 ∧ sizeMax / left < right then .error (overflow context) else .ok (left * right)

theorem checkedAdd_ok_iff {left right r : UInt64} {context : String} :
    checkedAdd left right context = .ok r ↔ r.toNat = left.toNat + right.toNat := by
  unfold checkedAdd
  by_cases h : sizeMax - left < right
  · have := (add_guard_iff left right).1 h
    have := toNat_lt r
    simp only [h, if_true, reduceCtorEq, false_iff]; omega
  · have hlt : left.toNat + right.toNat < 2 ^ 64 := by
      have := mt (add_guard_iff left right).2 h; omega
    simp only [h, if_false, Except.ok.injEq]
    rw [← UInt64.toNat_inj, toNat_add_of_lt hlt]
    exact eq_comm

theorem checkedMultiply_ok_iff {left right r : UInt64} {context : String} :
    checkedMultiply left right context = .ok r ↔ r.toNat = left.toNat * right.toNat := by
  unfold checkedMultiply
  by_cases h : left ≠ 0 ∧ sizeMax / left < right
  · have := (mul_guard_iff left right).1 h
    have := toNat_lt r
    rw [if_pos h]
    simp only [reduceCtorEq, false_iff]; omega
  · have hlt : left.toNat * right.toNat < 2 ^ 64 := by
      have := mt (mul_guard_iff left right).2 h; omega
    rw [if_neg h, Except.ok.injEq, ← UInt64.toNat_inj, toNat_mul_of_lt hlt]
    exact eq_comm

theorem checkedAdd_of_lt {left right : UInt64} (h : left.toNat + right.toNat < 2 ^ 64) (context : String) :
    checkedAdd left right context = .ok (left + right) :=
  checkedAdd_ok_iff.2 (toNat_add_of_lt h)

theorem checkedMultiply_of_lt {left right : UInt64} (h : left.toNat * right.toNat < 2 ^ 64) (context : String) :
    checkedMultiply left right context = .ok (left * right) :=
  checkedMultiply_ok_iff.2 (toNat_mul_of_lt h)

theorem checkedAdd_of_ge {left right : UInt64} (h : 2 ^ 64 ≤ left.toNat + right.toNat) (context : String) :
    checkedAdd left right context = .error (overflow context) :=
  if_pos ((add_guard_iff left right).2 h)

theorem checkedMultiply_of_ge {left right : UInt64} (h : 2 ^ 64 ≤ left.toNat * right.toNat) (context : String) :
    checkedMultiply left right context = .error (overflow context) :=
  if_pos ((mul_guard_iff left right).2 h)

end Gpt2Runtime
