import Mathlib.Analysis.SpecialFunctions.Sqrt
import Mathlib.Analysis.SpecialFunctions.Trigonometric.Basic
import Gpt2Runtime.Lib.Loop
/-
# Arithmetic that rounds

A machine number has a real value, or none if it is an infinity or not a number. An operation whose exact result is in
range returns that result rounded. Rounding is monotone, keeps the values of machine numbers, and is off by at most the
relative error `unit` and the absolute error `tiny`. Binary32 has `unit = 2 ^ -24`, `tiny = 2 ^ -150` and
`largest = (2 - 2 ^ -23) * 2 ^ 127`; exact arithmetic has no error at all.

`Within b a` says that `a` has a value and how large it may be. There is a rule for each operation and one for a sum of
many terms (`within_foldN`); a sum of terms that are not negative is at least each of them (`foldN_nonneg`).
-/

open Loop

structure RoundedArithmetic (α : Type) [Zero α] [One α] [Add α] [Sub α] [Mul α] [Div α] where
  value : α → Option ℝ
  round : ℝ → ℝ
  unit : ℝ
  tiny : ℝ
  largest : ℝ
  unit_nonneg : 0 ≤ unit
  tiny_nonneg : 0 ≤ tiny
  monotone_round : Monotone round
  abs_round_sub_le : ∀ x, |round x - x| ≤ unit * |x| + tiny
  round_value : ∀ {a x}, value a = some x → round x = x
  value_zero : value 0 = some 0
  value_one : value 1 = some 1
  value_add : ∀ {a b x y}, value a = some x → value b = some y → |x + y| ≤ largest → value (a + b) = some (round (x + y))
  value_sub : ∀ {a b x y}, value a = some x → value b = some y → |x - y| ≤ largest → value (a - b) = some (round (x - y))
  value_mul : ∀ {a b x y}, value a = some x → value b = some y → |x * y| ≤ largest → value (a * b) = some (round (x * y))
  value_div : ∀ {a b x y}, value a = some x → value b = some y → y ≠ 0 → |x / y| ≤ largest →
    value (a / b) = some (round (x / y))

namespace RoundedArithmetic

variable {α : Type} [Zero α] [One α] [Add α] [Sub α] [Mul α] [Div α] (A : RoundedArithmetic α)

/-! ## Rounding -/

/-- How large a result may become by rounding. -/
def up (x : ℝ) : ℝ := (1 + A.unit) * x + A.tiny

variable {A} {a b : α} {x y s t : ℝ}

theorem le_up (hx : 0 ≤ x) : x ≤ A.up x := by
  have hunit := mul_nonneg A.unit_nonneg hx
  have htiny := A.tiny_nonneg
  unfold up
  linarith

theorem up_mono (h : x ≤ y) : A.up x ≤ A.up y := by
  have hunit := A.unit_nonneg
  unfold up
  gcongr

theorem up_nonneg (hx : 0 ≤ x) : 0 ≤ A.up x := hx.trans (le_up hx)

theorem round_zero : A.round 0 = 0 := A.round_value A.value_zero

theorem round_one : A.round 1 = 1 := A.round_value A.value_one

theorem round_nonneg (h : 0 ≤ x) : 0 ≤ A.round x := by
  rw [← A.round_zero]
  exact A.monotone_round h

theorem round_nonpos (h : x ≤ 0) : A.round x ≤ 0 := by
  rw [← A.round_zero]
  exact A.monotone_round h

theorem round_le_one (h : x ≤ 1) : A.round x ≤ 1 := by
  rw [← A.round_one]
  exact A.monotone_round h

theorem one_le_round (h : 1 ≤ x) : 1 ≤ A.round x := by
  rw [← A.round_one]
  exact A.monotone_round h

theorem abs_round_le (h : |x| ≤ s) : |A.round x| ≤ A.up s := by
  have hunit := mul_le_mul_of_nonneg_left h A.unit_nonneg
  calc |A.round x| = |x + (A.round x - x)| := by rw [add_sub_cancel]
    _ ≤ |x| + (A.unit * |x| + A.tiny) := (abs_add_le _ _).trans (add_le_add_right (A.abs_round_sub_le x) _)
    _ ≤ A.up s := by
      unfold up
      linarith

/-- A result that is not negative loses little. -/
theorem le_round (h : 0 ≤ x) : (1 - A.unit) * x - A.tiny ≤ A.round x := by
  have herror := (abs_le.1 (A.abs_round_sub_le x)).1
  rw [abs_of_nonneg h] at herror
  linarith

theorem round_le_up (h : 0 ≤ x) : A.round x ≤ A.up x := (le_abs_self _).trans (abs_round_le (abs_of_nonneg h).le)

/-! ## Sizes -/

variable (A)

def Within (s : ℝ) (a : α) : Prop := ∃ x, A.value a = some x ∧ |x| ≤ s

variable {A}

theorem Within.mono (h : A.Within s a) (hle : s ≤ t) : A.Within t a := by
  obtain ⟨x, hx, hsize⟩ := h
  exact ⟨x, hx, hsize.trans hle⟩

theorem Within.nonneg (h : A.Within s a) : 0 ≤ s := by
  obtain ⟨x, -, hsize⟩ := h
  exact (abs_nonneg x).trans hsize

theorem within_zero (hs : 0 ≤ s) : A.Within s 0 := ⟨0, A.value_zero, by rwa [abs_zero]⟩

theorem Within.add (ha : A.Within s a) (hb : A.Within t b) (hfits : s + t ≤ A.largest) : A.Within (A.up (s + t)) (a + b) := by
  obtain ⟨x, hx, hsx⟩ := ha
  obtain ⟨y, hy, hsy⟩ := hb
  have hsize := (abs_add_le x y).trans (add_le_add hsx hsy)
  exact ⟨_, A.value_add hx hy (hsize.trans hfits), abs_round_le hsize⟩

theorem Within.sub (ha : A.Within s a) (hb : A.Within t b) (hfits : s + t ≤ A.largest) : A.Within (A.up (s + t)) (a - b) := by
  obtain ⟨x, hx, hsx⟩ := ha
  obtain ⟨y, hy, hsy⟩ := hb
  have hsize := (abs_sub x y).trans (add_le_add hsx hsy)
  exact ⟨_, A.value_sub hx hy (hsize.trans hfits), abs_round_le hsize⟩

theorem Within.mul (ha : A.Within s a) (hb : A.Within t b) (hfits : s * t ≤ A.largest) : A.Within (A.up (s * t)) (a * b) := by
  have hs := ha.nonneg
  obtain ⟨x, hx, hsx⟩ := ha
  obtain ⟨y, hy, hsy⟩ := hb
  have hsize : |x * y| ≤ s * t := by
    rw [abs_mul]
    exact mul_le_mul hsx hsy (abs_nonneg y) hs
  exact ⟨_, A.value_mul hx hy (hsize.trans hfits), abs_round_le hsize⟩

/-- The divisor is at least `t`. -/
theorem Within.div (ha : A.Within s a) (hb : A.value b = some y) (ht : 0 < t) (hy : t ≤ y) (hfits : s / t ≤ A.largest) :
    A.Within (A.up (s / t)) (a / b) := by
  have hs := ha.nonneg
  obtain ⟨x, hx, hsx⟩ := ha
  have hpos := ht.trans_le hy
  have hsize : |x / y| ≤ s / t := by
    rw [abs_div, abs_of_pos hpos]
    exact div_le_div₀ hs hsx ht hy
  exact ⟨_, A.value_div hx hb hpos.ne' (hsize.trans hfits), abs_round_le hsize⟩

/-! ## Sums -/

variable (A)

/-- A sum of `n` terms up to `t` that starts from `s`. -/
def sumBound (s t : ℝ) (n : ℕ) : ℝ := 2 • (s + n * (t + A.tiny))

variable {A} {n : ℕ} {f : ℕ → α}

theorem sumBound_eq_two_mul (s t : ℝ) (n : ℕ) : A.sumBound s t n = 2 * (s + n * (t + A.tiny)) := by
  unfold sumBound
  rw [two_nsmul, two_mul]

theorem sumBound_nonneg (hs : 0 ≤ s) (ht : 0 ≤ t) : 0 ≤ A.sumBound s t n := by
  have htiny := A.tiny_nonneg
  rw [sumBound_eq_two_mul]
  positivity

theorem sumBound_mono {s' t' : ℝ} {n' : ℕ} (hs : s ≤ s') (ht : t ≤ t') (hn : n ≤ n') (htpos : 0 ≤ t) :
    A.sumBound s t n ≤ A.sumBound s' t' n' := by
  have htiny := A.tiny_nonneg
  have hcount : (n : ℝ) ≤ n' := by exact_mod_cast hn
  rw [sumBound_eq_two_mul, sumBound_eq_two_mul]
  gcongr

/-- Few roundings do not double a number. -/
theorem one_add_unit_pow_le (hn : n * A.unit ≤ 1 / 2) : (1 + A.unit) ^ n ≤ 2 := by
  have hunit := A.unit_nonneg
  have hlinear : ∀ k, k ≤ n → (1 + A.unit) ^ k ≤ 1 + 2 * (k * A.unit) := by
    intro k hk
    induction k with
    | zero => simp
    | succ k ih =>
      have hcount : (k : ℝ) ≤ n := by exact_mod_cast (by omega : k ≤ n)
      have hfew : k * A.unit ≤ 1 / 2 := (mul_le_mul_of_nonneg_right hcount hunit).trans hn
      have hsecond : 2 * (k * A.unit) * A.unit ≤ A.unit := mul_le_of_le_one_left hunit (by linarith)
      calc (1 + A.unit) ^ (k + 1) = (1 + A.unit) ^ k * (1 + A.unit) := pow_succ _ _
        _ ≤ (1 + 2 * (k * A.unit)) * (1 + A.unit) := mul_le_mul_of_nonneg_right (ih (by omega)) (by linarith)
        _ = 1 + 2 * (k * A.unit) + A.unit + 2 * (k * A.unit) * A.unit := by ring
        _ ≤ 1 + 2 * ((k + 1 : ℕ) * A.unit) := by
          push_cast
          linarith
  linarith [hlinear n le_rfl]

/-! Terms of different sizes -/

variable (A)

/-- A sum of `n` terms, the `i`-th up to `u i`, that starts from `s`. -/
def totalBound (s : ℝ) (u : ℕ → ℝ) (n : ℕ) : ℝ := 2 • (s + ∑ i ∈ Finset.range n, (u i + A.tiny))

variable {A} {u : ℕ → ℝ}

theorem totalBound_eq_two_mul (s : ℝ) (u : ℕ → ℝ) (n : ℕ) :
    A.totalBound s u n = 2 * (s + ∑ i ∈ Finset.range n, (u i + A.tiny)) := by
  unfold totalBound
  rw [two_nsmul, two_mul]

theorem sumBound_eq (s t : ℝ) (n : ℕ) : A.sumBound s t n = A.totalBound s (fun _ => t) n := by
  rw [totalBound_eq_two_mul, sumBound_eq_two_mul, Finset.sum_const, Finset.card_range, nsmul_eq_mul]

/-- What a running sum has reached after one more term. -/
theorem up_runningSum_le {k : ℕ} (ht : 0 ≤ u k) :
    A.up ((1 + A.unit) ^ k * (s + ∑ i ∈ Finset.range k, (u i + A.tiny)) + u k) ≤
      (1 + A.unit) ^ (k + 1) * (s + ∑ i ∈ Finset.range (k + 1), (u i + A.tiny)) := by
  have hunit := A.unit_nonneg
  have htiny := A.tiny_nonneg
  have hpow : 1 ≤ (1 + A.unit) ^ (k + 1) := one_le_pow₀ (by linarith)
  have hpow' : 1 + A.unit ≤ (1 + A.unit) ^ (k + 1) := le_self_pow₀ (by linarith) (Nat.succ_ne_zero k)
  have hterm : (1 + A.unit) * u k + A.tiny ≤ (1 + A.unit) ^ (k + 1) * (u k + A.tiny) := by
    rw [mul_add]
    exact add_le_add (mul_le_mul_of_nonneg_right hpow' ht) (le_mul_of_one_le_left htiny hpow)
  rw [Finset.sum_range_succ]
  calc A.up ((1 + A.unit) ^ k * (s + ∑ i ∈ Finset.range k, (u i + A.tiny)) + u k)
      = (1 + A.unit) ^ (k + 1) * (s + ∑ i ∈ Finset.range k, (u i + A.tiny)) + ((1 + A.unit) * u k + A.tiny) := by
        unfold up
        ring
    _ ≤ (1 + A.unit) ^ (k + 1) * (s + ∑ i ∈ Finset.range k, (u i + A.tiny)) + (1 + A.unit) ^ (k + 1) * (u k + A.tiny) := by gcongr
    _ = (1 + A.unit) ^ (k + 1) * (s + (∑ i ∈ Finset.range k, (u i + A.tiny) + (u k + A.tiny))) := by ring

section

variable {init : α} (hinit : A.Within s init) (hf : ∀ i, i < n → A.Within (u i) (f i)) (hn : n * A.unit ≤ 1 / 2)
  (hfits : A.totalBound s u n ≤ A.largest)
include hinit hf hn

/-- Up to the end a running sum stays within the bound of the whole. -/
theorem runningSum_le {k : ℕ} (hk : k ≤ n) :
    (1 + A.unit) ^ k * (s + ∑ i ∈ Finset.range k, (u i + A.tiny)) ≤ A.totalBound s u n := by
  have hs := hinit.nonneg
  have hcount : (k : ℝ) ≤ n := by exact_mod_cast hk
  have hpow : (1 + A.unit) ^ k ≤ 2 := one_add_unit_pow_le ((mul_le_mul_of_nonneg_right hcount A.unit_nonneg).trans hn)
  have hterm : ∀ i, i < n → 0 ≤ u i + A.tiny := fun i hi => add_nonneg (hf i hi).nonneg A.tiny_nonneg
  have hsum : 0 ≤ ∑ i ∈ Finset.range k, (u i + A.tiny) :=
    Finset.sum_nonneg fun i hi => hterm i (lt_of_lt_of_le (Finset.mem_range.1 hi) hk)
  have hmore : ∑ i ∈ Finset.range k, (u i + A.tiny) ≤ ∑ i ∈ Finset.range n, (u i + A.tiny) :=
    Finset.sum_le_sum_of_subset_of_nonneg (Finset.range_mono hk) fun i hi _ => hterm i (Finset.mem_range.1 hi)
  rw [totalBound_eq_two_mul]
  exact mul_le_mul hpow (by linarith) (by linarith) zero_le_two

include hfits

theorem room_of_lt {k : ℕ} (hk : k < n) :
    (1 + A.unit) ^ k * (s + ∑ i ∈ Finset.range k, (u i + A.tiny)) + u k ≤ A.largest := by
  have hs := hinit.nonneg
  have hunit := A.unit_nonneg
  have hterm := (hf k hk).nonneg
  have hsum : 0 ≤ ∑ i ∈ Finset.range k, (u i + A.tiny) := Finset.sum_nonneg fun i hi =>
    add_nonneg (hf i ((Finset.mem_range.1 hi).trans hk)).nonneg A.tiny_nonneg
  have hpos : 0 ≤ (1 + A.unit) ^ k * (s + ∑ i ∈ Finset.range k, (u i + A.tiny)) + u k := by positivity
  exact (le_up hpos).trans ((up_runningSum_le hterm).trans ((runningSum_le hinit hf hn hk).trans hfits))

theorem within_runningSum {k : ℕ} (hk : k ≤ n) :
    A.Within ((1 + A.unit) ^ k * (s + ∑ i ∈ Finset.range k, (u i + A.tiny))) (foldN k init fun i acc => acc + f i) := by
  induction k with
  | zero =>
    rw [pow_zero, one_mul, Finset.sum_range_zero, add_zero]
    exact hinit
  | succ k ih => exact ((ih (by omega)).add (hf k hk) (room_of_lt hinit hf hn hfits hk)).mono (up_runningSum_le (hf k hk).nonneg)

/-- **A sum of many terms**, added one after the other. -/
theorem within_foldN : A.Within (A.totalBound s u n) (foldN n init fun i acc => acc + f i) :=
  (within_runningSum hinit hf hn hfits le_rfl).mono (runningSum_le hinit hf hn le_rfl)

end

/-! Terms that are not negative -/

section

variable {y : ℕ → ℝ} (hf : ∀ i, i < n → A.value (f i) = some (y i) ∧ 0 ≤ y i ∧ y i ≤ t) (hn : n * A.unit ≤ 1 / 2)
  (hfits : A.sumBound 0 t n ≤ A.largest)
include hf hn hfits

/-- Rounding loses neither the sum so far nor the new term, and little of both. -/
theorem runningSum_nonneg {k : ℕ} (hk : k ≤ n) : ∃ z, A.value (foldN k 0 fun i acc => acc + f i) = some z ∧ 0 ≤ z ∧
    (∀ i, i < k → y i ≤ z) ∧ (1 - k * A.unit) * ∑ i ∈ Finset.range k, y i - k * A.tiny ≤ z := by
  have hzero : A.Within 0 0 := within_zero le_rfl
  have hwithin : ∀ i, i < n → A.Within t (f i) := by
    intro i hi
    obtain ⟨hy, hpos, hle⟩ := hf i hi
    exact ⟨y i, hy, by rwa [abs_of_nonneg hpos]⟩
  rw [sumBound_eq] at hfits
  have hunit := A.unit_nonneg
  have htiny := A.tiny_nonneg
  induction k with
  | zero => exact ⟨0, A.value_zero, le_rfl, fun i hi => absurd hi (Nat.not_lt_zero i), by simp⟩
  | succ k ih =>
    obtain ⟨z, hz, hpos, hterms, hsum⟩ := ih (by omega)
    obtain ⟨hy, hypos, hyle⟩ := hf k hk
    obtain ⟨z', hz', hsize⟩ := within_runningSum hzero hwithin hn hfits (show k ≤ n by omega)
    obtain rfl := Option.some.inj (hz.symm.trans hz')
    have hroom : |z + y k| ≤ A.largest := by
      rw [abs_of_nonneg (add_nonneg hpos hypos)]
      exact (add_le_add ((le_abs_self z).trans hsize) hyle).trans (room_of_lt hzero hwithin hn hfits hk)
    have hold : z ≤ A.round (z + y k) := (A.round_value hz).symm.le.trans (A.monotone_round (le_add_of_nonneg_right hypos))
    have hnew : y k ≤ A.round (z + y k) := (A.round_value hy).symm.le.trans (A.monotone_round (le_add_of_nonneg_left hpos))
    refine ⟨A.round (z + y k), A.value_add hz hy hroom, hpos.trans hold, fun i hi => ?_, ?_⟩
    · by_cases hik : i < k
      · exact (hterms i hik).trans hold
      · obtain rfl : i = k := by omega
        exact hnew
    · have hcount : ((k + 1 : ℕ) : ℝ) ≤ n := by exact_mod_cast hk
      have hfew : (k + 1 : ℕ) * A.unit ≤ 1 / 2 := (mul_le_mul_of_nonneg_right hcount hunit).trans hn
      have htotal : 0 ≤ ∑ i ∈ Finset.range k, y i := Finset.sum_nonneg fun i hi =>
        (hf i ((Finset.mem_range.1 hi).trans hk)).2.1
      have hround : (1 - A.unit) * (z + y k) - A.tiny ≤ A.round (z + y k) := le_round (add_nonneg hpos hypos)
      rw [Finset.sum_range_succ]
      push_cast at hfew ⊢
      have hk0 : (0 : ℝ) ≤ k := Nat.cast_nonneg k
      have hku : 0 ≤ k * A.unit := mul_nonneg hk0 hunit
      have hscaled : (1 - A.unit) * ((1 - k * A.unit) * ∑ i ∈ Finset.range k, y i - k * A.tiny) ≤ (1 - A.unit) * z :=
        mul_le_mul_of_nonneg_left hsum (by linarith)
      nlinarith [mul_nonneg (mul_nonneg hku hunit) htotal, mul_nonneg hku hypos, mul_nonneg hku htiny]

/-- A sum of numbers that are not negative is at least each of them, and about their sum. -/
theorem foldN_nonneg : ∃ z, A.value (foldN n 0 fun i acc => acc + f i) = some z ∧ 0 ≤ z ∧ z ≤ A.sumBound 0 t n ∧
    (∀ i, i < n → y i ≤ z) ∧ ∑ i ∈ Finset.range n, y i ≤ 2 * (z + n * A.tiny) := by
  obtain ⟨z, hz, hpos, hterms, hsum⟩ := runningSum_nonneg hf hn hfits le_rfl
  have hwithin : ∀ i, i < n → A.Within t (f i) := by
    intro i hi
    obtain ⟨hy, hpos, hle⟩ := hf i hi
    exact ⟨y i, hy, by rwa [abs_of_nonneg hpos]⟩
  rw [sumBound_eq] at hfits ⊢
  obtain ⟨z', hz', hsize⟩ := within_foldN (within_zero le_rfl) hwithin hn hfits
  obtain rfl := Option.some.inj (hz.symm.trans hz')
  have htotal : 0 ≤ ∑ i ∈ Finset.range n, y i := Finset.sum_nonneg fun i hi => (hf i (Finset.mem_range.1 hi)).2.1
  refine ⟨z, hz, hpos, (le_abs_self z).trans hsize, hterms, ?_⟩
  nlinarith

end

end RoundedArithmetic
