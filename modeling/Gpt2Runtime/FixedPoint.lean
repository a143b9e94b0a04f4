import Gpt2Runtime.FloatArithmetic
/-
# A reference arithmetic

| here | there |
| --- | --- |
| `Fixed.ofBits`  | the bytes of a checkpoint read as floats (`model.cpp:252-253`), decoded exactly |
| `Fixed.largest` | `std::numeric_limits<float>::max()` |

Multiples of `2 ^ -150`, among them every finite float. An operation rounds its exact result down to a multiple. It has no
value where its result is out of range or undefined, or where an operand has none. These are the promises of
`FloatArithmetic`, with the constants of binary32 (`arithmetic`, `binary32`).
-/

namespace Gpt2Runtime

open RoundedArithmetic

/-- Units in 1. -/
def Fixed.scale : Nat := 2 ^ 150

/-- `std::numeric_limits<float>::max()`. -/
def Fixed.maxUnits : Int := (2 ^ 24 - 1) * 2 ^ 254

/-- `none` is an infinity or not a number. -/
structure Fixed where
  units : Option Int
  inRange : ∀ n ∈ units, |n| ≤ Fixed.maxUnits

namespace Fixed

noncomputable def value (a : Fixed) : Option ℝ := a.units.map fun n : Int => (n : ℝ) / scale

noncomputable def largest : ℝ := maxUnits / scale

noncomputable def round (x : ℝ) : ℝ := ⌊x * scale⌋ / scale

theorem scale_pos : (0 : ℝ) < scale := by
  unfold scale
  positivity

theorem cast_scale : (scale : ℝ) = 2 ^ 150 := by
  unfold scale
  norm_num

theorem abs_floor_le {x : ℝ} (h : |x| ≤ largest) : |⌊x * scale⌋| ≤ maxUnits := by
  obtain ⟨hlow, hhigh⟩ := abs_le.1 h
  unfold largest at hlow hhigh
  rw [le_div_iff₀ scale_pos] at hhigh
  rw [← neg_div, div_le_iff₀ scale_pos] at hlow
  rw [abs_le]
  constructor
  · rw [Int.le_floor]
    push_cast
    exact hlow
  · exact_mod_cast (Int.floor_le _).trans hhigh

open Classical in
/-- A result that is not there, or out of range, has no value. -/
noncomputable def ofResult (result : Option ℝ) : Fixed where
  units := (result.filter fun x => |x| ≤ largest).map fun x : ℝ => ⌊x * scale⌋
  inRange := by
    intro n hn
    obtain ⟨x, hx, rfl⟩ := Option.map_eq_some_iff.1 hn
    rw [Option.filter_eq_some_iff, decide_eq_true_iff] at hx
    exact abs_floor_le hx.2

/-- An operation with one operand; `f` is `none` where it is undefined. -/
noncomputable def lift (f : ℝ → Option ℝ) (a : Fixed) : Fixed := ofResult (do f (← a.value))

noncomputable def lift₂ (f : ℝ → ℝ → Option ℝ) (a b : Fixed) : Fixed := ofResult (do f (← a.value) (← b.value))

/-- A comparison with something that is not a number is false. -/
noncomputable def compare (p : ℝ → ℝ → Bool) (a b : Fixed) : Bool :=
  match a.value, b.value with
  | some x, some y => p x y
  | _, _ => false

/-! ## Bit patterns -/

def exponentOf (b : BitVec 32) : Nat := b.toNat / 2 ^ 23 % 2 ^ 8

def sizeOf (b : BitVec 32) : Nat :=
  if exponentOf b = 0 then 2 * (b.toNat % 2 ^ 23) else (2 ^ 23 + b.toNat % 2 ^ 23) * 2 ^ exponentOf b

theorem sizeOf_le {b : BitVec 32} (h : exponentOf b ≠ 255) : (sizeOf b : Int) ≤ maxUnits := by
  have hexponent : exponentOf b ≤ 254 := by
    have hlt : exponentOf b < 2 ^ 8 := Nat.mod_lt _ (by decide)
    omega
  have hfraction : b.toNat % 2 ^ 23 < 2 ^ 23 := Nat.mod_lt _ (by decide)
  have hpower : 2 ^ exponentOf b ≤ 2 ^ 254 := Nat.pow_le_pow_right (by decide) hexponent
  have hsize : sizeOf b ≤ (2 ^ 24 - 1) * 2 ^ 254 := by
    unfold sizeOf
    split
    · omega
    · exact Nat.mul_le_mul (by omega) hpower
  calc (sizeOf b : Int) ≤ ((2 ^ 24 - 1) * 2 ^ 254 : Nat) := Int.ofNat_le.2 hsize
    _ = maxUnits := by decide

/-- Sign, exponent and fraction of a binary32. -/
def ofBits (b : BitVec 32) : Fixed where
  units := if exponentOf b = 255 then none else some (if b.msb then -(sizeOf b : Int) else sizeOf b)
  inRange := by
    intro n hn
    split at hn
    · cases hn
    · rename_i h
      obtain rfl := Option.some.inj hn
      have hsize := sizeOf_le h
      split
      · rwa [abs_neg, Nat.abs_cast]
      · rwa [Nat.abs_cast]

noncomputable instance : Scalar Fixed where
  zero := ⟨some 0, by decide⟩
  one := ⟨some scale, by decide⟩
  add := lift₂ fun x y => some (x + y)
  sub := lift₂ fun x y => some (x - y)
  mul := lift₂ fun x y => some (x * y)
  div := lift₂ fun x y => if y = 0 then none else some (x / y)
  ofBits := ofBits
  ofSize n := ofResult (some n)
  half := ⟨some (2 ^ 149), by decide⟩
  epsilon := ofResult (some (1 / 100000 : ℚ))
  geluCubic := ofResult (some (44715 / 1000000 : ℚ))
  twoOverPi := ofResult (some ((2 : ℚ) / Real.pi))
  lowest := ⟨some (-maxUnits), by decide⟩
  sqrt := lift fun x => if x < 0 then none else some √x
  exp := lift fun x => some (Real.exp x)
  tanh := lift fun x => some (Real.tanh x)
  lt := compare fun x y => decide (x < y)
  eq := compare fun x y => decide (x = y)

/-! ## Rounding down -/

variable {a b : Fixed} {x y z : ℝ}

theorem le_largest : 400 ≤ largest := by
  unfold largest maxUnits
  rw [cast_scale]
  norm_num

theorem round_grid (n : Int) : round (n / scale) = n / scale := by
  unfold round
  rw [div_mul_cancel₀ _ scale_pos.ne', Int.floor_intCast]

theorem round_of_value (h : a.value = some x) : round x = x := by
  obtain ⟨n, -, rfl⟩ := Option.map_eq_some_iff.1 h
  exact round_grid n

theorem round_zero : round 0 = 0 := by
  have h := round_grid 0
  rwa [Int.cast_zero, zero_div] at h

theorem round_one : round 1 = 1 := by
  have h := round_grid scale
  rwa [Int.cast_natCast, div_self scale_pos.ne'] at h

theorem round_neg_one : round (-1) = -1 := by
  have h := round_grid (-scale)
  rwa [Int.cast_neg, Int.cast_natCast, neg_div, div_self scale_pos.ne'] at h

theorem monotone_round : Monotone round := by
  intro x y h
  have hscale := scale_pos
  unfold round
  gcongr

theorem round_le (x : ℝ) : round x ≤ x := by
  unfold round
  rw [div_le_iff₀ scale_pos]
  exact Int.floor_le _

theorem sub_round_lt (x : ℝ) : x - round x < (scale : ℝ)⁻¹ := by
  unfold round
  rw [sub_lt_iff_lt_add', ← one_div, ← add_div, lt_div_iff₀ scale_pos]
  exact Int.lt_floor_add_one _

theorem abs_round_sub_le {u : ℝ} (hu : 0 ≤ u) (x : ℝ) : |round x - x| ≤ u * |x| + (scale : ℝ)⁻¹ := by
  rw [abs_sub_comm, abs_of_nonneg (sub_nonneg.2 (round_le x))]
  linarith [sub_round_lt x, mul_nonneg hu (abs_nonneg x)]

/-- Numbers of size 1 stay so. -/
theorem abs_round_le_one (h : |x| ≤ 1) : |round x| ≤ 1 := by
  obtain ⟨hlow, hhigh⟩ := abs_le.1 h
  have hlow' := monotone_round hlow
  have hhigh' := monotone_round hhigh
  rw [round_neg_one] at hlow'
  rw [round_one] at hhigh'
  exact abs_le.2 ⟨hlow', hhigh'⟩

theorem round_nonneg (h : 0 ≤ x) : 0 ≤ round x := by
  rw [← round_zero]
  exact monotone_round h

/-! ## Operations -/

theorem in_range (h : |x| ≤ 1) : |x| ≤ largest := by linarith [le_largest]

theorem abs_le_largest (h : a.value = some x) : |x| ≤ largest := by
  obtain ⟨n, hn, rfl⟩ := Option.map_eq_some_iff.1 h
  have hrange : |(n : ℝ)| ≤ maxUnits := by exact_mod_cast a.inRange n hn
  unfold largest
  rw [abs_div, abs_of_pos scale_pos]
  exact div_le_div_of_nonneg_right hrange scale_pos.le

theorem value_ofResult (h : |x| ≤ largest) : (ofResult (some x)).value = some (round x) := by
  have hkept : (some x).filter (fun x => decide (|x| ≤ largest)) = some x := by simp [h]
  unfold value
  simp only [ofResult, hkept]
  rfl

theorem value_lift {f : ℝ → Option ℝ} (ha : a.value = some x) (hf : f x = some z) (h : |z| ≤ largest) :
    (lift f a).value = some (round z) := by
  have hresult : lift f a = ofResult (some z) := by
    unfold lift
    rw [ha, ← hf]
    rfl
  rw [hresult]
  exact value_ofResult h

theorem value_lift₂ {f : ℝ → ℝ → Option ℝ} (ha : a.value = some x) (hb : b.value = some y) (hf : f x y = some z)
    (h : |z| ≤ largest) : (lift₂ f a b).value = some (round z) := by
  have hresult : lift₂ f a b = ofResult (some z) := by
    unfold lift₂
    rw [ha, hb, ← hf]
    rfl
  rw [hresult]
  exact value_ofResult h

theorem compare_eq {p : ℝ → ℝ → Bool} (ha : a.value = some x) (hb : b.value = some y) : compare p a b = p x y := by
  unfold compare
  rw [ha, hb]

theorem value_units {n : Int} (h : a.units = some n) : a.value = some ((n : ℝ) / scale) := by
  unfold value
  rw [h]
  rfl

theorem value_one : (1 : Fixed).value = some 1 := by
  rw [value_units rfl, Int.cast_natCast, div_self scale_pos.ne']

theorem value_half : (Scalar.half : Fixed).value = some (1 / 2) := by
  rw [value_units rfl, cast_scale]
  norm_num

/-- A constant between 0 and 1. -/
theorem value_constant {q : ℚ} (h : |(q : ℝ)| ≤ 1) (hx : (q : ℝ) = x) : (ofResult (some (q : ℝ))).value = some (round x) := by
  rw [← hx]
  exact value_ofResult (in_range h)

theorem value_epsilon : (Scalar.epsilon : Fixed).value = some (round (1 / 100000)) :=
  value_constant (by norm_num [abs_le]) (by norm_num)

theorem value_geluCubic : (Scalar.geluCubic : Fixed).value = some (round (44715 / 1000000)) :=
  value_constant (by norm_num [abs_le]) (by norm_num)

theorem value_sqrt (ha : a.value = some x) (hx : 0 ≤ x) : (Scalar.sqrt a).value = some (round √x) := by
  have hsize := (le_abs_self x).trans (abs_le_largest ha)
  refine value_lift ha (if_neg (not_lt.2 hx)) ?_
  rw [abs_of_nonneg (Real.sqrt_nonneg x), Real.sqrt_le_left (by linarith [le_largest])]
  nlinarith [le_largest]

theorem value_exp (ha : a.value = some x) (hx : x ≤ 0) :
    ∃ y, (Scalar.exp a).value = some y ∧ 0 ≤ y ∧ y ≤ 1 ∧ (x = 0 → y = 1) := by
  have hle : Real.exp x ≤ 1 := Real.exp_le_one_iff.2 hx
  have hpos := Real.exp_nonneg x
  refine ⟨_, value_lift ha rfl (in_range (by rwa [abs_of_nonneg hpos])), round_nonneg hpos, (round_le _).trans hle, ?_⟩
  rintro rfl
  rw [Real.exp_zero, round_one]

theorem value_tanh (ha : a.value = some x) : ∃ y, (Scalar.tanh a).value = some y ∧ |y| ≤ 1 := by
  have hle : |Real.tanh x| ≤ 1 := abs_le.2 ⟨(Real.neg_one_lt_tanh x).le, (Real.tanh_lt_one x).le⟩
  exact ⟨_, value_lift ha rfl (in_range hle), abs_round_le_one hle⟩

theorem value_twoOverPi : ∃ x, (Scalar.twoOverPi : Fixed).value = some x ∧ 0 ≤ x ∧ x ≤ 1 := by
  have hpi := Real.two_le_pi
  have hpos : 0 ≤ ((2 : ℚ) : ℝ) / Real.pi := by
    push_cast
    positivity
  have hle : ((2 : ℚ) : ℝ) / Real.pi ≤ 1 := by
    push_cast
    rwa [div_le_one (by linarith)]
  exact ⟨_, value_ofResult (in_range (by rwa [abs_of_nonneg hpos])), round_nonneg hpos, (round_le _).trans hle⟩

/-- **The promises are kept**, with the constants of binary32. -/
noncomputable def arithmetic : FloatArithmetic Fixed where
  value := value
  round := round
  unit := (2 ^ 24 : Nat)⁻¹
  tiny := (scale : ℝ)⁻¹
  largest := largest
  unit_nonneg := by positivity
  tiny_nonneg := by positivity
  monotone_round := monotone_round
  abs_round_sub_le := abs_round_sub_le (by positivity)
  round_value := round_of_value
  value_zero := by rw [value_units rfl, Int.cast_zero, zero_div]
  value_one := value_one
  value_add ha hb h := value_lift₂ ha hb rfl h
  value_sub ha hb h := value_lift₂ ha hb rfl h
  value_mul ha hb h := value_lift₂ ha hb rfl h
  value_div ha hb hy h := value_lift₂ ha hb (if_neg hy) h
  unit_le := by norm_num
  tiny_le := by
    rw [cast_scale]
    norm_num
  tiny_mul_largest := by
    unfold largest maxUnits
    rw [cast_scale]
    norm_num
  le_largest := le_largest
  value_ofSize h := value_ofResult (by rwa [abs_of_nonneg (Nat.cast_nonneg _)])
  value_half := value_half
  value_epsilon := value_epsilon
  value_geluCubic := value_geluCubic
  value_twoOverPi := value_twoOverPi
  value_lowest := by
    rw [value_units rfl, Int.cast_neg, neg_div]
    rfl
  value_sqrt := value_sqrt
  value_exp := value_exp
  value_tanh := value_tanh
  lt_iff ha hb := by
    rw [show Scalar.lt _ _ = _ from compare_eq ha hb, decide_eq_true_iff]
  eq_iff ha hb := by
    rw [show Scalar.eq _ _ = _ from compare_eq ha hb, decide_eq_true_iff]

theorem binary32 : arithmetic.Binary32 := by
  refine ⟨?_, ?_, ?_⟩
  · show ((2 ^ 24 : Nat) : ℝ)⁻¹ = _
    norm_num
  · show (scale : ℝ)⁻¹ = _
    rw [cast_scale]
    norm_num
  · show largest = _
    unfold largest maxUnits
    rw [cast_scale]
    norm_num

/-- Patterns with an exponent below that of 1 stand for numbers between -1 and 1. -/
theorem value_ofBits {b : BitVec 32} (h : exponentOf b < 127) : ∃ x, (ofBits b).value = some x ∧ |x| ≤ 1 := by
  have hfraction : b.toNat % 2 ^ 23 < 2 ^ 23 := Nat.mod_lt _ (by decide)
  have hpower : 2 ^ exponentOf b ≤ 2 ^ 126 := Nat.pow_le_pow_right (by decide) (by omega)
  have hsize : sizeOf b ≤ scale := by
    unfold sizeOf scale
    split
    · omega
    · calc (2 ^ 23 + b.toNat % 2 ^ 23) * 2 ^ exponentOf b ≤ 2 ^ 24 * 2 ^ 126 := Nat.mul_le_mul (by omega) hpower
        _ = 2 ^ 150 := by norm_num
  have hunits : (ofBits b).units = some (if b.msb then -(sizeOf b : Int) else sizeOf b) := if_neg (by omega)
  refine ⟨_, value_units hunits, ?_⟩
  have habs : |((if b.msb then -(sizeOf b : Int) else sizeOf b : Int) : ℝ)| = sizeOf b := by
    split <;> simp
  rw [abs_div, habs, Nat.abs_cast, div_le_one scale_pos]
  exact_mod_cast hsize

end Fixed

end Gpt2Runtime
