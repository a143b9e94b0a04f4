import Mathlib.Tactic.Ring
/-
# Little-endian 32-bit words in a byte string

`wordAt` reads the four bytes at an offset, `encodeWords` writes a list of words; reading word `i`
of what was written gives word `i` back (`wordAt_encodeWords`).
-/

namespace LittleEndian

/-- The bytes at `offset … offset + 3`, least significant first. -/
def wordAt (bytes : List UInt8) (offset : Nat) : BitVec 32 :=
  BitVec.ofNat 32 ((bytes.getD offset 0).toNat + 2 ^ 8 * (bytes.getD (offset + 1) 0).toNat +
    2 ^ 16 * (bytes.getD (offset + 2) 0).toNat + 2 ^ 24 * (bytes.getD (offset + 3) 0).toNat)

def encodeWord (w : BitVec 32) : List UInt8 :=
  [UInt8.ofNat w.toNat, UInt8.ofNat (w.toNat / 2 ^ 8), UInt8.ofNat (w.toNat / 2 ^ 16), UInt8.ofNat (w.toNat / 2 ^ 24)]

def encodeWords (words : List (BitVec 32)) : List UInt8 := words.flatMap encodeWord

theorem wordAt_encodeWord (w : BitVec 32) (rest : List UInt8) : wordAt (encodeWord w ++ rest) 0 = w := by
  have hw := w.isLt
  apply BitVec.eq_of_toNat_eq
  simp only [wordAt, encodeWord, List.cons_append, List.getD_cons_zero, List.getD_cons_succ, Nat.zero_add,
    BitVec.toNat_ofNat, UInt8.toNat_ofNat']
  omega

theorem length_encodeWords (words : List (BitVec 32)) : (encodeWords words).length = 4 * words.length := by
  induction words with
  | nil => rfl
  | cons w ws ih =>
    simp only [encodeWords, List.flatMap_cons, List.length_append, List.length_cons] at ih ⊢
    rw [ih]; simp [encodeWord]; omega

theorem wordAt_append (xs ys : List UInt8) (offset : Nat) : wordAt (xs ++ ys) (xs.length + offset) = wordAt ys offset := by
  simp only [wordAt, Nat.add_assoc, List.getD_eq_getElem?_getD]
  simp only [List.getElem?_append_right (Nat.le_add_right _ _), Nat.add_sub_cancel_left]

theorem wordAt_encodeWords {words : List (BitVec 32)} {i : Nat} (hi : i < words.length) (rest : List UInt8) :
    wordAt (encodeWords words ++ rest) (4 * i) = words[i] := by
  induction words generalizing i with
  | nil => simp at hi
  | cons w ws ih =>
    have hcons : encodeWords (w :: ws) ++ rest = encodeWord w ++ (encodeWords ws ++ rest) := by
      simp [encodeWords, List.flatMap_cons]
    rw [hcons]
    cases i with
    | zero => exact wordAt_encodeWord w _
    | succ j =>
      have h4 : 4 * (j + 1) = (encodeWord w).length + 4 * j := by simp [encodeWord]; omega
      rw [h4, wordAt_append]
      exact ih (by simpa using hi)

/-- The words of a byte string, read one after the other. -/
def decodeWords (bytes : List UInt8) : List (BitVec 32) := (List.range (bytes.length / 4)).map fun i => wordAt bytes (4 * i)

@[simp] theorem length_decodeWords (bytes : List UInt8) : (decodeWords bytes).length = bytes.length / 4 := by
  rw [decodeWords, List.length_map, List.length_range]

theorem encodeWords_append (ws vs : List (BitVec 32)) : encodeWords (ws ++ vs) = encodeWords ws ++ encodeWords vs :=
  List.flatMap_append

/-- **Reading what was written.** -/
theorem decodeWords_encodeWords (words : List (BitVec 32)) : decodeWords (encodeWords words) = words := by
  have hlength : (encodeWords words).length / 4 = words.length := by rw [length_encodeWords]; omega
  refine List.ext_getElem (by rw [length_decodeWords, hlength]) fun i hi hi' => ?_
  have hword := wordAt_encodeWords hi' []
  rw [List.append_nil] at hword
  simpa [decodeWords] using hword

/-- The bytes of the first words. -/
theorem take_encodeWords (words : List (BitVec 32)) (n : Nat) : (encodeWords words).take (4 * n) = encodeWords (words.take n) := by
  by_cases hle : n ≤ words.length
  · conv => lhs; rw [← List.take_append_drop n words, encodeWords_append]
    rw [List.take_left']
    rw [length_encodeWords, List.length_take, Nat.min_eq_left hle]
  · rw [List.take_of_length_le (by rw [length_encodeWords]; omega), List.take_of_length_le (by omega)]

end LittleEndian
