import Gpt2Runtime.Lib.RoundedArithmetic
import Gpt2Runtime.Gpt2
/-
# The kernels with rounding (`kernels.cpp`)

| here | there |
| --- | --- |
| `FloatArithmetic`       | what IEEE 754 and `<cmath>` promise of `float`: in range an operation is the exact one, rounded; none are contracted (`CMakeLists.txt:26`) |
| `within_layerNormRow`   | `layer_norm` (`kernels.cpp:33-69`): a rounded standard score is at most twice the square root of the channels |
| `within_linearRow`      | `linear` (`:71-96`) |
| `within_attentionRow`   | one position of the attention kernels (`:98-208`): no exponent is positive, the exponentials add up to at least 1 |
| `within_gelu`           | `gelu_in_place` (`:210-216`) |

Nothing is exact here, and nothing is assumed to be: the rows stay in range although every operation is rounded.
-/

namespace Gpt2Runtime

open Loop Kernels

/-- The scalar type as a floating-point format. Binary32 meets the bounds on the constants with much to spare. -/
structure FloatArithmetic (α : Type) [Scalar α] extends RoundedArithmetic α where
  unit_le : unit ≤ 1 / 16
  tiny_le : tiny ≤ 1 / 100000000
  tiny_mul_largest : tiny * largest ≤ 1 / 16
  le_largest : 400 ≤ largest
  value_ofSize : ∀ {n : Nat}, (n : ℝ) ≤ largest → value (Scalar.ofSize n) = some (round n)
  value_half : value Scalar.half = some (1 / 2)
  value_epsilon : value Scalar.epsilon = some (round (1 / 100000))
  value_geluCubic : value Scalar.geluCubic = some (round (44715 / 1000000))
  value_twoOverPi : ∃ x, value Scalar.twoOverPi = some x ∧ 0 ≤ x ∧ x ≤ 1
  value_lowest : value Scalar.lowest = some (-largest)
  value_sqrt : ∀ {a x}, value a = some x → 0 ≤ x → value (Scalar.sqrt a) = some (round √x)
  value_exp : ∀ {a x}, value a = some x → x ≤ 0 → ∃ y, value (Scalar.exp a) = some y ∧ 0 ≤ y ∧ y ≤ 1 ∧ (x = 0 → y = 1)
  value_tanh : ∀ {a x}, value a = some x → ∃ y, value (Scalar.tanh a) = some y ∧ |y| ≤ 1
  lt_iff : ∀ {a b x y}, value a = some x → value b = some y → (Scalar.lt a b = true ↔ x < y)
  eq_iff : ∀ {a b x y}, value a = some x → value b = some y → (Scalar.eq a b = true ↔ x = y)

/-- The constants of binary32. -/
structure FloatArithmetic.Binary32 {α : Type} [Scalar α] (A : FloatArithmetic α) : Prop where
  unit : A.unit = (1 / 2) ^ 24
  tiny : A.tiny = (1 / 2) ^ 150
  largest : A.largest = (2 - (1 / 2) ^ 23) * 2 ^ 127

namespace FloatArithmetic

open RoundedArithmetic

variable {α : Type} [Scalar α] (A : FloatArithmetic α)

/-! ## Bounds -/

/-- A linear row of `n` inputs up to `x`; the weights are up to `w`. -/
def linearBound (w : ℝ) (n : Nat) (x : ℝ) : ℝ := A.sumBound w (A.up (x * w)) n

noncomputable def normBound (w : ℝ) (C : Nat) : ℝ := A.up (A.up (2 • √C * w) + w)

/-- The distance of an input from the mean. -/
noncomputable def deviationBound (C : Nat) (x : ℝ) : ℝ := A.up (x + A.up (2 • A.sumBound 0 x C / C))

/-- The sum of the squared distances. -/
noncomputable def squareBound (C : Nat) (x : ℝ) : ℝ :=
  A.sumBound 0 (A.up (A.deviationBound C x * A.deviationBound C x)) C

/-- A score of `hs` channels up to `x`. -/
def scoreBound (hs : Nat) (x : ℝ) : ℝ := A.up (A.sumBound 0 (A.up (x * x)) hs)

def cubeBound (x : ℝ) : ℝ := A.up (A.up (A.up x * x) * x)

def geluBound (x : ℝ) : ℝ := A.up (A.up x * A.up (1 + 1))

variable {A} {w x s : ℝ} {C n : Nat}

theorem normBound_eq (w : ℝ) (C : Nat) : A.normBound w C = A.up (A.up (2 * √C * w) + w) := by
  unfold normBound
  rw [two_nsmul, two_mul]

theorem deviationBound_eq (C : Nat) (x : ℝ) : A.deviationBound C x = A.up (x + A.up (2 * A.sumBound 0 x C / C)) := by
  unfold deviationBound
  rw [two_nsmul, two_mul]

theorem linearBound_nonneg (hw : 0 ≤ w) (hx : 0 ≤ x) : 0 ≤ A.linearBound w n x :=
  sumBound_nonneg hw (up_nonneg (mul_nonneg hx hw))

theorem within_sumFrom {init : α} {f : Nat → α} {t : ℝ} (hinit : A.Within s init) (hf : ∀ i, i < n → A.Within t (f i))
    (hn : n * A.unit ≤ 1 / 2) (hfits : A.sumBound s t n ≤ A.largest) : A.Within (A.sumBound s t n) (sumFrom init n f) := by
  rw [sumBound_eq] at hfits ⊢
  exact within_foldN hinit hf hn hfits

/-! ## Linear rows -/

/-- No product is larger than the bound of the row. -/
theorem mul_le_linearBound (hn : 1 ≤ n) (hw : 0 ≤ w) (hx : 0 ≤ x) : x * w ≤ A.linearBound w n x := by
  have hcount : (1 : ℝ) ≤ n := by exact_mod_cast hn
  have htiny := A.tiny_nonneg
  have hround : x * w ≤ A.up (x * w) := le_up (mul_nonneg hx hw)
  have hscaled : A.up (x * w) + A.tiny ≤ n * (A.up (x * w) + A.tiny) :=
    le_mul_of_one_le_left (add_nonneg (up_nonneg (mul_nonneg hx hw)) htiny) hcount
  unfold linearBound
  rw [sumBound_eq_two_mul]
  linarith [mul_nonneg hx hw]

theorem within_linearRow {xs b : Nat → α} {ws : Nat → Nat → α} (o : Nat) (hx : ∀ i, i < n → A.Within x (xs i))
    (hw : ∀ i, A.Within w (ws o i)) (hb : A.Within w (b o)) (hxpos : 0 ≤ x) (hn : n * A.unit ≤ 1 / 2)
    (hfits : A.linearBound w n x ≤ A.largest) : A.Within (A.linearBound w n x) (linearRow n xs ws b o) := by
  have hterm : ∀ i, i < n → A.Within (A.up (x * w)) (xs i * ws o i) := by
    intro i hi
    have hroom : x * w ≤ A.linearBound w n x := mul_le_linearBound (by omega) hb.nonneg hxpos
    exact (hx i hi).mul (hw i) (hroom.trans hfits)
  exact within_sumFrom hb hterm hn hfits

/-! ## Normalized rows -/

/-- The float of `1.0e-5F`. -/
theorem epsilon_bounds : 9 / 1000000 ≤ A.round (1 / 100000) ∧ A.round (1 / 100000) ≤ 1 := by
  have hlow : (1 - A.unit) * (1 / 100000) - A.tiny ≤ A.round (1 / 100000) := le_round (by norm_num)
  have hhigh : A.round (1 / 100000) ≤ 1 := round_le_one (by norm_num)
  have hunit := A.unit_le
  have htiny := A.tiny_le
  exact ⟨by linarith, hhigh⟩

/-- A number of channels as a float. -/
theorem round_count (hC : 1 ≤ C) : (C : ℝ) / 2 ≤ A.round C ∧ A.round C ≤ 9 / 8 * C := by
  have hcount : (1 : ℝ) ≤ C := by exact_mod_cast hC
  have hlow : (1 - A.unit) * C - A.tiny ≤ A.round C := le_round (by linarith)
  have hhigh : A.round C ≤ A.up C := round_le_up (by linarith)
  have hunit := mul_le_mul_of_nonneg_right A.unit_le (show (0 : ℝ) ≤ C by linarith)
  have htiny := A.tiny_le
  unfold up at hhigh
  constructor <;> linarith

/-- What rounding leaves of a number that is not negative. -/
theorem le_round_of_nonneg (hx : 0 ≤ x) : 15 / 16 * x - 1 / 100000000 ≤ A.round x := by
  have hlow : (1 - A.unit) * x - A.tiny ≤ A.round x := le_round hx
  have hunit := mul_le_mul_of_nonneg_right A.unit_le hx
  have htiny := A.tiny_le
  linarith

theorem up_le (hx : 0 ≤ x) : A.up x ≤ 17 / 16 * x + 1 / 100000000 := by
  have hunit := mul_le_mul_of_nonneg_right A.unit_le hx
  have htiny := A.tiny_le
  unfold up
  linarith

/-- The computed variance is not much less than one squared distance divided by the channels. -/
theorem variance_ge (hC : 1 ≤ C) {d z y : ℝ} (hz : A.round (d * d) ≤ z) (hy : (C : ℝ) / 2 ≤ y) (hy' : y ≤ 9 / 8 * C) :
    73 / 100 * (d * d / C) + 8 / 1000000 ≤ A.round (A.round (z / y) + A.round (1 / 100000)) := by
  have hcount : (1 : ℝ) ≤ C := by exact_mod_cast hC
  have hpos : 0 < y := by linarith
  have hsquare : 15 / 16 * (d * d) - 1 / 100000000 ≤ z := (le_round_of_nonneg (mul_self_nonneg d)).trans hz
  have hznonneg : 0 ≤ z := (round_nonneg (mul_self_nonneg d)).trans hz
  have hmean : 5 / 6 * (d * d / C) - 2 / 100000000 ≤ z / y := by
    have hscaled : d * d / (9 / 8 * C) ≤ d * d / y := div_le_div_of_nonneg_left (mul_self_nonneg d) hpos hy'
    have hsmall : 1 / 100000000 / y ≤ 2 / 100000000 := by
      rw [div_le_iff₀ hpos]
      linarith
    calc 5 / 6 * (d * d / C) - 2 / 100000000 = 15 / 16 * (d * d / (9 / 8 * C)) - 2 / 100000000 := by
          field_simp
          ring
      _ ≤ 15 / 16 * (d * d / y) - 1 / 100000000 / y := by gcongr
      _ = (15 / 16 * (d * d) - 1 / 100000000) / y := by ring
      _ ≤ z / y := by gcongr
  have hvariance := le_round_of_nonneg (A := A) (div_nonneg hznonneg hpos.le)
  have hepsilon := (epsilon_bounds (A := A)).1
  have hratio : 0 ≤ d * d / C := div_nonneg (mul_self_nonneg d) (by linarith)
  have hsum : 25 / 32 * (d * d / C) + 897 / 100000000 ≤ A.round (z / y) + A.round (1 / 100000) := by linarith
  have hrounded := le_round_of_nonneg (A := A) (show 0 ≤ A.round (z / y) + A.round (1 / 100000) by linarith)
  linarith

/-- Nor is the computed deviation. -/
theorem deviation_ge (hC : 1 ≤ C) {d a : ℝ} (ha : 73 / 100 * (d * d / C) + 8 / 1000000 ≤ a) :
    1 / 400 ≤ A.round √a ∧ 79 / 100 * |d| ≤ A.round √a * √C := by
  have hcount : (1 : ℝ) ≤ C := by exact_mod_cast hC
  have hroot : 0 < √(C : ℝ) := Real.sqrt_pos.2 (by linarith)
  have hratio : 0 ≤ d * d / C := div_nonneg (mul_self_nonneg d) (by linarith)
  have hfloor : 28 / 10000 ≤ √a := by
    apply Real.le_sqrt_of_sq_le
    linarith
  have hscaled : 85 / 100 * |d| ≤ √a * √C := by
    rw [← Real.sqrt_mul (by linarith)]
    apply Real.le_sqrt_of_sq_le
    rw [mul_pow, sq_abs]
    calc (85 / 100) ^ 2 * d ^ 2 ≤ 73 / 100 * (d * d / C) * C := by
          rw [mul_assoc, div_mul_cancel₀ _ (by linarith)]
          nlinarith [sq_nonneg d]
      _ ≤ a * C := by
          gcongr
          linarith
  have hrounded := le_round_of_nonneg (A := A) (Real.sqrt_nonneg a)
  have hkept : 93 / 100 * √a ≤ A.round √a := by linarith
  refine ⟨by linarith, ?_⟩
  calc 79 / 100 * |d| ≤ 93 / 100 * (85 / 100 * |d|) := by linarith [abs_nonneg d]
    _ ≤ 93 / 100 * (√a * √C) := by gcongr
    _ = 93 / 100 * √a * √C := by ring
    _ ≤ A.round √a * √C := by gcongr

/-- **A rounded standard score** is at most twice the square root of the channels. -/
theorem abs_score_le (hC : 1 ≤ C) {d q : ℝ} (hd : |d| ≤ A.largest) (hq : 1 / 400 ≤ q) (hdq : 79 / 100 * |d| ≤ q * √C) :
    |A.round (1 / q) * d| ≤ 3 / 2 * √C ∧ |A.round (A.round (1 / q) * d)| ≤ 2 * √C := by
  have hcount : (1 : ℝ) ≤ √(C : ℝ) := by
    apply Real.le_sqrt_of_sq_le
    rw [one_pow]
    exact_mod_cast hC
  have hpos : 0 < q := by linarith
  have hinverse : 0 ≤ 1 / q := by positivity
  have hround : A.round (1 / q) ≤ 17 / 16 * (1 / q) + A.tiny := by
    have h : A.round (1 / q) ≤ A.up (1 / q) := round_le_up hinverse
    have hunit := mul_le_mul_of_nonneg_right A.unit_le hinverse
    unfold up at h
    linarith
  have hratio : 1 / q * |d| ≤ 100 / 79 * √C := by
    rw [one_div_mul_eq_div, div_le_iff₀ hpos]
    linarith
  have hlast : A.tiny * |d| ≤ 1 / 16 := (mul_le_mul_of_nonneg_left hd A.tiny_nonneg).trans A.tiny_mul_largest
  have hproduct : |A.round (1 / q) * d| ≤ 3 / 2 * √C := by
    rw [abs_mul, abs_of_nonneg (round_nonneg hinverse)]
    calc A.round (1 / q) * |d| ≤ (17 / 16 * (1 / q) + A.tiny) * |d| := by gcongr
      _ = 17 / 16 * (1 / q * |d|) + A.tiny * |d| := by ring
      _ ≤ 17 / 16 * (100 / 79 * √C) + 1 / 16 := by gcongr
      _ ≤ 3 / 2 * √C := by linarith
  refine ⟨hproduct, (abs_round_le hproduct).trans ((up_le (by positivity)).trans ?_)⟩
  linarith

/-- The bound of the squares is the largest of the numbers a normalized row goes through. -/
theorem le_squareBound (hC : 1 ≤ C) (hx : 1 ≤ x) : 1 ≤ A.deviationBound C x ∧ 2 * A.sumBound 0 x C / C ≤ A.deviationBound C x ∧
    A.deviationBound C x ≤ A.squareBound C x ∧ A.sumBound 0 x C ≤ A.squareBound C x ∧
    2 * (C * A.up (A.deviationBound C x * A.deviationBound C x)) ≤ A.squareBound C x := by
  have hcount : (1 : ℝ) ≤ C := by exact_mod_cast hC
  have htiny := A.tiny_nonneg
  have hsum : 0 ≤ A.sumBound 0 x C := sumBound_nonneg le_rfl (by linarith)
  have hmean : 0 ≤ 2 * A.sumBound 0 x C / C := by positivity
  have hupmean : 2 * A.sumBound 0 x C / C ≤ A.up (2 * A.sumBound 0 x C / C) := le_up hmean
  have hdeviation : x + A.up (2 * A.sumBound 0 x C / C) ≤ A.deviationBound C x := by
    rw [deviationBound_eq]
    exact le_up (by linarith)
  have hone : 1 ≤ A.deviationBound C x := by linarith
  have hsq : A.deviationBound C x * A.deviationBound C x ≤ A.up (A.deviationBound C x * A.deviationBound C x) :=
    le_up (mul_self_nonneg _)
  have hself : A.deviationBound C x ≤ A.deviationBound C x * A.deviationBound C x := le_mul_of_one_le_left (by linarith) hone
  have hsquare : 2 * (C * A.up (A.deviationBound C x * A.deviationBound C x)) ≤ A.squareBound C x := by
    unfold squareBound
    rw [sumBound_eq_two_mul, zero_add]
    gcongr
    linarith
  have hscaled : C * A.deviationBound C x ≤ C * A.up (A.deviationBound C x * A.deviationBound C x) := by
    gcongr
    linarith
  have hC' : A.deviationBound C x ≤ C * A.deviationBound C x := le_mul_of_one_le_left (by linarith) hcount
  refine ⟨hone, by linarith, by linarith, ?_, hsquare⟩
  have htotal : A.sumBound 0 x C = C * (2 * A.sumBound 0 x C / C) / 2 := by
    field_simp
  rw [htotal]
  have hle : C * (2 * A.sumBound 0 x C / C) ≤ C * A.deviationBound C x := by
    gcongr
    linarith
  linarith

theorem square_le_squareBound (hC : 1 ≤ C) (hx : 1 ≤ x) : 1 ≤ A.squareBound C x ∧ (C : ℝ) ≤ A.squareBound C x ∧
    A.deviationBound C x * A.deviationBound C x ≤ A.squareBound C x := by
  have hcount : (1 : ℝ) ≤ C := by exact_mod_cast hC
  obtain ⟨hone, -, -, -, hsquare⟩ := le_squareBound (A := A) hC hx
  have hself : 1 ≤ A.deviationBound C x * A.deviationBound C x := one_le_mul_of_one_le_of_one_le hone hone
  have hround : A.deviationBound C x * A.deviationBound C x ≤ A.up (A.deviationBound C x * A.deviationBound C x) :=
    le_up (mul_self_nonneg _)
  have hscaled : A.up (A.deviationBound C x * A.deviationBound C x) ≤
      C * A.up (A.deviationBound C x * A.deviationBound C x) := le_mul_of_one_le_left (by linarith) hcount
  have hmany : (C : ℝ) ≤ C * A.up (A.deviationBound C x * A.deviationBound C x) :=
    le_mul_of_one_le_right (by linarith) (by linarith)
  exact ⟨by linarith, by linarith, by linarith⟩

section

variable {xs : Nat → α} (hx : ∀ i, i < C → A.Within x (xs i)) (hxone : 1 ≤ x) (hC : 1 ≤ C) (hn : C * A.unit ≤ 1 / 2)
  (hfits : 4 * A.squareBound C x ≤ A.largest)

include hxone hC hfits in
theorem value_channels : A.value (Scalar.ofSize C) = some (A.round C) := by
  obtain ⟨hone, hcount, -⟩ := square_le_squareBound (A := A) hC hxone
  exact A.value_ofSize (by linarith)

include hx hxone hC hn hfits

theorem within_mean : A.Within (A.up (2 * A.sumBound 0 x C / C)) (sumFrom 0 C xs / Scalar.ofSize C) := by
  have hcount : (1 : ℝ) ≤ C := by exact_mod_cast hC
  obtain ⟨hone, hmean, hdeviation, hsum, -⟩ := le_squareBound (A := A) hC hxone
  have htotal : A.Within (A.sumBound 0 x C) (sumFrom 0 C xs) := within_sumFrom (within_zero le_rfl) hx hn (by linarith)
  have hratio : A.sumBound 0 x C / ((C : ℝ) / 2) = 2 * A.sumBound 0 x C / C := by
    field_simp
  have h := htotal.div (value_channels hxone hC hfits) (by linarith) (round_count hC).1 (by rw [hratio]; linarith)
  rwa [hratio] at h

theorem within_distance {i : Nat} (hi : i < C) : A.Within (A.deviationBound C x) (xs i - sumFrom 0 C xs / Scalar.ofSize C) := by
  obtain ⟨hone, -, hdeviation, -, -⟩ := le_squareBound (A := A) hC hxone
  have hmean := within_mean hx hxone hC hn hfits
  have hroom : x + A.up (2 * A.sumBound 0 x C / C) ≤ A.deviationBound C x := by
    rw [deviationBound_eq]
    exact le_up (add_nonneg (by linarith) hmean.nonneg)
  have h := (hx i hi).sub hmean (by linarith)
  rwa [← deviationBound_eq] at h

/-- The variance, and what is under the root. -/
theorem value_variance : ∃ v, A.value (sumFrom 0 C (fun i => (xs i - sumFrom 0 C xs / Scalar.ofSize C) *
      (xs i - sumFrom 0 C xs / Scalar.ofSize C)) / Scalar.ofSize C + Scalar.epsilon) = some v ∧ 0 ≤ v ∧
    ∀ c, c < C → ∀ d, A.value (xs c - sumFrom 0 C xs / Scalar.ofSize C) = some d → 73 / 100 * (d * d / C) + 8 / 1000000 ≤ v := by
  have hcount : (1 : ℝ) ≤ C := by exact_mod_cast hC
  obtain ⟨hone, hmany, hsquare⟩ := square_le_squareBound (A := A) hC hxone
  obtain ⟨hsize, hsize'⟩ := round_count (A := A) hC
  have hy := value_channels hxone hC hfits
  have hdistance : ∀ i, i < C → A.Within (A.deviationBound C x) (xs i - sumFrom 0 C xs / Scalar.ofSize C) :=
    fun i hi => within_distance hx hxone hC hn hfits hi
  generalize sumFrom 0 C xs / Scalar.ofSize C = mean at hdistance ⊢
  choose! d hd hdle using hdistance
  have hsquares : ∀ i, i < C → A.value ((xs i - mean) * (xs i - mean)) = some (A.round (d i * d i)) ∧ 0 ≤ A.round (d i * d i) ∧
      A.round (d i * d i) ≤ A.up (A.deviationBound C x * A.deviationBound C x) := by
    intro i hi
    have hdd : d i * d i ≤ A.deviationBound C x * A.deviationBound C x := by
      rw [← abs_mul_abs_self (d i)]
      exact mul_self_le_mul_self (abs_nonneg (d i)) (hdle i hi)
    have hrange : |d i * d i| ≤ A.largest := by
      rw [abs_of_nonneg (mul_self_nonneg (d i))]
      linarith
    exact ⟨A.value_mul (hd i hi) (hd i hi) hrange, round_nonneg (mul_self_nonneg (d i)),
      (round_le_up (mul_self_nonneg (d i))).trans (up_mono hdd)⟩
  have hrange : A.squareBound C x ≤ A.largest := by linarith
  obtain ⟨z, hz, hzpos, hzle, hzterms, -⟩ := foldN_nonneg hsquares hn hrange
  have hzle : z ≤ A.squareBound C x := hzle
  have hratio : 0 ≤ z / A.round C := div_nonneg hzpos (by linarith)
  have hratiole : z / A.round C ≤ 2 * A.squareBound C x := by
    rw [div_le_iff₀ (by linarith)]
    have hhalf : 2 * A.squareBound C x * (1 / 2) ≤ 2 * A.squareBound C x * A.round C :=
      mul_le_mul_of_nonneg_left (by linarith) (by linarith)
    linarith
  have hvariance : A.value (sumFrom 0 C (fun i => (xs i - mean) * (xs i - mean)) / Scalar.ofSize C) =
      some (A.round (z / A.round C)) := A.value_div hz hy (by linarith) (by rw [abs_of_nonneg hratio]; linarith)
  have hvariancele : A.round (z / A.round C) ≤ 17 / 16 * (2 * A.squareBound C x) + 1 / 100000000 :=
    (round_le_up hratio).trans ((up_mono hratiole).trans (up_le (by linarith)))
  obtain ⟨hepsilon, hepsilon'⟩ := epsilon_bounds (A := A)
  have hpos : 0 ≤ A.round (z / A.round C) + A.round (1 / 100000) := add_nonneg (round_nonneg hratio) (by linarith)
  refine ⟨_, A.value_add hvariance A.value_epsilon (by rw [abs_of_nonneg hpos]; linarith), round_nonneg hpos, ?_⟩
  intro c hc d' hd'
  obtain rfl := Option.some.inj ((hd c hc).symm.trans hd')
  exact variance_ge hC (hzterms c hc) hsize hsize'

/-- The reciprocal of the deviation. -/
theorem value_reciprocal : ∃ q, A.value (1 / Scalar.sqrt (sumFrom 0 C (fun i => (xs i - sumFrom 0 C xs / Scalar.ofSize C) *
      (xs i - sumFrom 0 C xs / Scalar.ofSize C)) / Scalar.ofSize C + Scalar.epsilon)) = some (A.round (1 / q)) ∧ 1 / 400 ≤ q ∧
    ∀ c, c < C → ∀ d, A.value (xs c - sumFrom 0 C xs / Scalar.ofSize C) = some d → 79 / 100 * |d| ≤ q * √C := by
  obtain ⟨v, hv, hpos, hlow⟩ := value_variance hx hxone hC hn hfits
  obtain ⟨d, hd, -⟩ := within_distance hx hxone hC hn hfits hC
  have hq := (deviation_ge (A := A) hC (hlow 0 hC d hd)).1
  refine ⟨A.round √v, A.value_div A.value_one (A.value_sqrt hv hpos) (by linarith) ?_, hq, fun c hc d hd =>
    (deviation_ge hC (hlow c hc d hd)).2⟩
  have hinverse : 1 / A.round √v ≤ 1 / (1 / 400) := one_div_le_one_div_of_le (by norm_num) hq
  rw [abs_of_nonneg (by positivity)]
  linarith [A.le_largest]

/-- **A normalized row** stays in range, and its size does not depend on the row. -/
theorem within_layerNormRow {ws bs : Nat → α} {c : Nat} (hc : c < C) (hw : A.Within w (ws c)) (hb : A.Within w (bs c))
    (hnorm : A.normBound w C ≤ A.largest) : A.Within (A.normBound w C) (layerNormRow C xs ws bs c) := by
  have hcount : (1 : ℝ) ≤ C := by exact_mod_cast hC
  obtain ⟨-, -, hdeviation, -, -⟩ := le_squareBound (A := A) hC hxone
  obtain ⟨hone, hmany, -⟩ := square_le_squareBound (A := A) hC hxone
  obtain ⟨q, hinverse, hq, hdq⟩ := value_reciprocal hx hxone hC hn hfits
  obtain ⟨d, hd, hdle⟩ := within_distance hx hxone hC hn hfits hc
  obtain ⟨hproduct, hscore⟩ := abs_score_le hC (hdle.trans (by linarith)) hq (hdq c hc d hd)
  have hroot : √(C : ℝ) ≤ C := by
    rw [Real.sqrt_le_left (by linarith)]
    exact le_self_pow₀ hcount two_ne_zero
  have hnormalized : A.Within (2 * √C) _ := ⟨_, A.value_mul hinverse hd (hproduct.trans (by linarith)), hscore⟩
  have hwpos := hw.nonneg
  have hweighted : 2 * √C * w ≤ A.up (2 * √C * w) := le_up (mul_nonneg hnormalized.nonneg hwpos)
  have hbiased : A.up (2 * √C * w) + w ≤ A.normBound w C := by
    rw [normBound_eq]
    exact le_up (add_nonneg ((mul_nonneg hnormalized.nonneg hwpos).trans hweighted) hwpos)
  unfold layerNormRow
  rw [normBound_eq]
  exact (hnormalized.mul hw (by linarith)).add hb (by linarith)

end

/-! ## Attention -/

theorem value_larger {a b : α} {y : ℝ} (ha : A.value a = some x) (hb : A.value b = some y) :
    A.value (if Scalar.lt a b then b else a) = some (max x y) := by
  by_cases h : x < y
  · rw [if_pos ((A.lt_iff ha hb).2 h), hb, max_eq_right h.le]
  · rw [if_neg (mt (A.lt_iff ha hb).1 h), ha, max_eq_left (not_lt.1 h)]

/-- The loop for the maximum finds the largest score. -/
theorem value_scoreMax {score : Nat → α} (hn : 0 < n) (hscore : ∀ s, s < n → A.Within x (score s)) (hx : x ≤ A.largest) :
    ∃ m, A.value (scoreMax n score) = some m ∧ (∀ s, s < n → ∀ y, A.value (score s) = some y → y ≤ m) ∧
      ∃ s, s < n ∧ A.value (score s) = some m := by
  have hprefix : ∀ k, k ≤ n → ∃ m, A.value (scoreMax k score) = some m ∧
      (∀ s, s < k → ∀ y, A.value (score s) = some y → y ≤ m) ∧
      ((k = 0 ∧ m = -A.largest) ∨ ∃ s, s < k ∧ A.value (score s) = some m) := by
    intro k
    induction k with
    | zero => exact fun _ => ⟨_, A.value_lowest, fun s hs => absurd hs (Nat.not_lt_zero s), .inl ⟨rfl, rfl⟩⟩
    | succ k ih =>
      intro hk
      obtain ⟨m, hm, hge, hmax⟩ := ih (by omega)
      obtain ⟨y, hy, hsize⟩ := hscore k hk
      refine ⟨max m y, value_larger hm hy, ?_, .inr ?_⟩
      · intro s hs y' hy'
        by_cases hsk : s < k
        · exact (hge s hsk y' hy').trans (le_max_left m y)
        · obtain rfl : s = k := by omega
          obtain rfl := Option.some.inj (hy.symm.trans hy')
          exact le_max_right m y
      · rcases hmax with ⟨-, rfl⟩ | ⟨s, hs, hms⟩
        · exact ⟨k, by omega, by rw [hy, max_eq_right (by linarith [(abs_le.1 hsize).1])]⟩
        · rcases le_total m y with hle | hle
          · exact ⟨k, by omega, by rw [hy, max_eq_right hle]⟩
          · exact ⟨s, by omega, by rw [hms, max_eq_left hle]⟩
  obtain ⟨m, hm, hge, ⟨hzero, -⟩ | hmax⟩ := hprefix n le_rfl
  · omega
  · exact ⟨m, hm, hge, hmax⟩

/-- The exponentials of a head: numbers between 0 and 1, one of which is 1. -/
theorem value_exponentials {score : Nat → α} (hn : 0 < n) (hscore : ∀ s, s < n → A.Within x (score s)) (hx : 2 * x ≤ A.largest) :
    ∃ e : Nat → ℝ, (∀ s, s < n → A.value (Scalar.exp (score s - scoreMax n score)) = some (e s) ∧ 0 ≤ e s ∧ e s ≤ 1) ∧
      ∃ s, s < n ∧ e s = 1 := by
  have hxpos := (hscore 0 hn).nonneg
  obtain ⟨m, hm, hge, smax, hsmax, hmax⟩ := value_scoreMax hn hscore (by linarith)
  obtain ⟨m', hm', hmsize⟩ := hscore smax hsmax
  obtain rfl := Option.some.inj (hmax.symm.trans hm')
  have hexp : ∀ s, s < n → ∃ e, A.value (Scalar.exp (score s - scoreMax n score)) = some e ∧ 0 ≤ e ∧ e ≤ 1 ∧
      (s = smax → e = 1) := by
    intro s hs
    obtain ⟨y, hy, hsize⟩ := hscore s hs
    have hrange : |y - m| ≤ A.largest := (abs_sub y m).trans (by linarith)
    obtain ⟨e, he, hpos, hle, hone⟩ := A.value_exp (A.value_sub hy hm hrange) (round_nonpos (sub_nonpos.2 (hge s hs y hy)))
    refine ⟨e, he, hpos, hle, ?_⟩
    rintro rfl
    obtain rfl := Option.some.inj (hy.symm.trans hmax)
    exact hone (by rw [sub_self, A.round_zero])
  choose! e he using hexp
  exact ⟨e, fun s hs => ⟨(he s hs).1, (he s hs).2.1, (he s hs).2.2.1⟩, smax, hsmax, (he smax hsmax).2.2.2 rfl⟩

theorem count_mul_tiny_le (hcount : 4 * (n : ℝ) ≤ A.largest) : n * A.tiny ≤ 1 / 64 := by
  have h := mul_le_mul_of_nonneg_left hcount A.tiny_nonneg
  linarith [A.tiny_mul_largest]

section

variable {score : Nat → α} (hn : 0 < n) (hscore : ∀ s, s < n → A.Within x (score s)) (hx : 2 * x ≤ A.largest)
  (hunits : n * A.unit ≤ 1 / 2) (hcount : 4 * (n : ℝ) ≤ A.largest)
include hn hscore hx hunits hcount

/-- The exponentials add up to at least 1. -/
theorem value_exponentialSum : ∃ (e : Nat → ℝ) (z : ℝ),
    (∀ s, s < n → A.value (Scalar.exp (score s - scoreMax n score)) = some (e s) ∧ 0 ≤ e s ∧ e s ≤ 1) ∧
    A.value (sumFrom 0 n fun s => Scalar.exp (score s - scoreMax n score)) = some z ∧ 1 ≤ z ∧ z ≤ A.largest ∧
    ∑ s ∈ Finset.range n, e s ≤ 2 * (z + 1 / 64) := by
  obtain ⟨e, he, smax, hsmax, hone⟩ := value_exponentials hn hscore hx
  have hntiny := count_mul_tiny_le hcount
  have hnpos : (1 : ℝ) ≤ n := by exact_mod_cast hn
  have hfits : A.sumBound 0 1 n ≤ A.largest := by
    rw [sumBound_eq_two_mul]
    linarith
  obtain ⟨z, hz, -, hzle, hterms, hsum⟩ := foldN_nonneg he hunits hfits
  exact ⟨e, z, he, hz, hone.symm.le.trans (hterms smax hsmax), hzle.trans hfits, hsum.trans (by linarith)⟩

omit hn hscore hx hunits hcount in
/-- A rounded reciprocal. -/
theorem round_reciprocal {z : ℝ} (hz : 1 ≤ z) (hle : z ≤ A.largest) :
    0 ≤ A.round (1 / z) ∧ A.round (1 / z) ≤ 1 ∧ A.round (1 / z) * z ≤ 9 / 8 := by
  have hpos : 0 ≤ 1 / z := by positivity
  have hround : A.round (1 / z) ≤ (1 + A.unit) * (1 / z) + A.tiny := round_le_up hpos
  have hlast : A.tiny * z ≤ 1 / 16 := (mul_le_mul_of_nonneg_left hle A.tiny_nonneg).trans A.tiny_mul_largest
  have hunit := A.unit_le
  refine ⟨round_nonneg hpos, round_le_one (by rwa [div_le_one (by linarith)]), ?_⟩
  calc A.round (1 / z) * z ≤ ((1 + A.unit) * (1 / z) + A.tiny) * z := by gcongr
    _ = 1 + A.unit + A.tiny * z := by field_simp
    _ ≤ 9 / 8 := by linarith

/-- **The softmax weights** are numbers between 0 and 1 that add up to about 1: nothing overflows, and nothing is divided
by 0. -/
theorem value_softmax :
    ∃ p : Nat → ℝ, (∀ s, s < n → A.value (softmax n score s) = some (p s) ∧ 0 ≤ p s) ∧ ∑ s ∈ Finset.range n, p s ≤ 3 := by
  obtain ⟨e, z, he, hz, hone, hzle, hsum⟩ := value_exponentialSum hn hscore hx hunits hcount
  obtain ⟨hrpos, hrone, hrz⟩ := round_reciprocal hone hzle
  have hne : Scalar.eq (sumFrom 0 n fun s => Scalar.exp (score s - scoreMax n score)) 0 ≠ true := by
    rw [ne_eq, A.eq_iff hz A.value_zero]
    linarith
  have hinverse : A.value (1 / sumFrom 0 n fun s => Scalar.exp (score s - scoreMax n score)) = some (A.round (1 / z)) := by
    refine A.value_div A.value_one hz (by linarith) ?_
    have hle : 1 / z ≤ 1 := by rwa [div_le_one (by linarith)]
    rw [abs_of_nonneg (by positivity)]
    linarith [A.le_largest]
  have hproduct : ∀ s, s < n → 0 ≤ e s * A.round (1 / z) ∧ e s * A.round (1 / z) ≤ 1 := fun s hs =>
    ⟨mul_nonneg (he s hs).2.1 hrpos, mul_le_one₀ (he s hs).2.2 hrpos hrone⟩
  refine ⟨fun s => A.round (e s * A.round (1 / z)), fun s hs => ⟨?_, round_nonneg (hproduct s hs).1⟩, ?_⟩
  · unfold softmax
    simp only [if_neg hne]
    refine A.value_mul (he s hs).1 hinverse ?_
    rw [abs_of_nonneg (hproduct s hs).1]
    linarith [(hproduct s hs).2, A.le_largest]
  · have hweights : A.round (1 / z) * ∑ s ∈ Finset.range n, e s ≤ 9 / 4 + 1 / 32 := by
      calc A.round (1 / z) * ∑ s ∈ Finset.range n, e s ≤ A.round (1 / z) * (2 * (z + 1 / 64)) := by gcongr
        _ = 2 * (A.round (1 / z) * z) + 2 * (A.round (1 / z) * (1 / 64)) := by ring
        _ ≤ 2 * (9 / 8) + 2 * (1 * (1 / 64)) := by gcongr
        _ = 9 / 4 + 1 / 32 := by norm_num
    have hnonneg : 0 ≤ ∑ s ∈ Finset.range n, e s := Finset.sum_nonneg fun s hs => (he s (Finset.mem_range.1 hs)).2.1
    have hunit := A.unit_le
    have hntiny := count_mul_tiny_le hcount
    calc ∑ s ∈ Finset.range n, A.round (e s * A.round (1 / z))
        ≤ ∑ s ∈ Finset.range n, ((1 + A.unit) * (e s * A.round (1 / z)) + A.tiny) :=
          Finset.sum_le_sum fun s hs => round_le_up (hproduct s (Finset.mem_range.1 hs)).1
      _ = (1 + A.unit) * (A.round (1 / z) * ∑ s ∈ Finset.range n, e s) + n * A.tiny := by
          rw [Finset.sum_add_distrib, Finset.sum_const, Finset.card_range, nsmul_eq_mul, ← Finset.mul_sum, ← Finset.sum_mul]
          ring
      _ ≤ (1 + 1 / 16) * (9 / 4 + 1 / 32) + 1 / 64 := by gcongr
      _ ≤ 3 := by norm_num

end

/-- `1.0F / std::sqrt(head_size)`. -/
theorem value_scale {hs : Nat} (hhs : 1 ≤ hs) (hsize : (hs : ℝ) ≤ A.largest) : A.Within 1 (1 / Scalar.sqrt (Scalar.ofSize hs : α)) := by
  have hcount : (1 : ℝ) ≤ hs := by exact_mod_cast hhs
  have hroot : 1 ≤ √(A.round hs) := by
    rw [Real.one_le_sqrt]
    exact one_le_round hcount
  have hq : 1 ≤ A.round √(A.round hs) := one_le_round hroot
  have hinverse : 0 ≤ 1 / A.round √(A.round hs) ∧ 1 / A.round √(A.round hs) ≤ 1 :=
    ⟨by positivity, by rwa [div_le_one (by linarith)]⟩
  have hpos : 0 ≤ A.round hs := round_nonneg (by linarith)
  refine ⟨_, A.value_div A.value_one (A.value_sqrt (A.value_ofSize hsize) hpos) (by linarith) ?_, ?_⟩
  · rw [abs_of_nonneg hinverse.1]
    linarith [A.le_largest]
  · rw [abs_of_nonneg (round_nonneg hinverse.1)]
    exact round_le_one hinverse.2

theorem within_headScore {hs : Nat} {q k : Nat → α} (hhs : 1 ≤ hs) (hq : ∀ i, A.Within x (q i)) (hk : ∀ i, A.Within x (k i))
    (hxone : 1 ≤ x) (hn : hs * A.unit ≤ 1 / 2) (hfits : A.scoreBound hs x ≤ A.largest) :
    A.Within (A.scoreBound hs x) (headScore hs q k) := by
  have hcount : (1 : ℝ) ≤ hs := by exact_mod_cast hhs
  have htiny := A.tiny_nonneg
  have hsq : 1 ≤ x * x := by nlinarith
  have hupsq : x * x ≤ A.up (x * x) := le_up (by linarith)
  have hscaled : A.up (x * x) ≤ hs * A.up (x * x) := le_mul_of_one_le_left (by linarith) hcount
  have hsum : 2 * (hs * A.up (x * x)) ≤ A.sumBound 0 (A.up (x * x)) hs := by
    rw [sumBound_eq_two_mul, zero_add]
    gcongr
    linarith
  have hround : A.sumBound 0 (A.up (x * x)) hs ≤ A.scoreBound hs x := le_up (by linarith)
  have hsize : (hs : ℝ) ≤ hs * A.up (x * x) := le_mul_of_one_le_right (by linarith) (by linarith)
  have hdot : A.Within (A.sumBound 0 (A.up (x * x)) hs) (sumFrom 0 hs fun i => q i * k i) :=
    within_sumFrom (within_zero le_rfl) (fun i _ => (hq i).mul (hk i) (by linarith)) hn (by linarith)
  have h := hdot.mul (value_scale hhs (by linarith)) (by rw [mul_one]; linarith)
  rwa [mul_one] at h

/-- **A row of attention** stays in range: the head still averages its values. -/
theorem within_attentionRow {C H : Nat} {q : Nat → α} {k v : Nat → Nat → α} (hH : 1 ≤ C / H) (hn : 0 < n)
    (hq : ∀ i, A.Within x (q i)) (hk : ∀ s, s < n → ∀ i, A.Within x (k s i)) (hv : ∀ s, s < n → ∀ i, A.Within x (v s i))
    (hxone : 1 ≤ x) (hhs : (C / H : Nat) * A.unit ≤ 1 / 2) (hunits : n * A.unit ≤ 1 / 2) (hcount : 4 * (n : ℝ) ≤ A.largest)
    (hscore : 2 * A.scoreBound (C / H) x ≤ A.largest) (hfits : 7 * x ≤ A.largest) (c : Nat) :
    A.Within (7 * x) (attentionRow n C H q k v c) := by
  have hntiny := count_mul_tiny_le hcount
  have hscores : ∀ s, s < n → A.Within (A.scoreBound (C / H) x)
      (headScore (C / H) (fun i => q (c / (C / H) * (C / H) + i)) fun i => k s (c / (C / H) * (C / H) + i)) := by
    intro s hs
    refine within_headScore hH (fun i => hq _) (fun i => hk s hs _) hxone hhs ?_
    have hnonneg : 0 ≤ A.scoreBound (C / H) x := up_nonneg (sumBound_nonneg le_rfl (up_nonneg (mul_self_nonneg x)))
    linarith
  obtain ⟨p, hp, hpsum⟩ := value_softmax hn hscores hscore hunits hcount
  have hppos : 0 ≤ ∑ s ∈ Finset.range n, p s := Finset.sum_nonneg fun s hs => (hp s (Finset.mem_range.1 hs)).2
  have hple : ∀ s, s < n → p s * x ≤ 3 * x := by
    intro s hs
    have hle : p s ≤ ∑ s ∈ Finset.range n, p s :=
      Finset.single_le_sum (fun s hs => (hp s (Finset.mem_range.1 hs)).2) (Finset.mem_range.2 hs)
    exact mul_le_mul_of_nonneg_right (hle.trans hpsum) (by linarith)
  have hbound : A.totalBound 0 (fun s => A.up (p s * x)) n ≤ 7 * x := by
    have hunit := A.unit_le
    have hsum : ∑ s ∈ Finset.range n, (A.up (p s * x) + A.tiny) =
        (1 + A.unit) * ((∑ s ∈ Finset.range n, p s) * x) + 2 * (n * A.tiny) := by
      unfold up
      rw [Finset.sum_add_distrib, Finset.sum_add_distrib, Finset.sum_const, Finset.card_range, nsmul_eq_mul, ← Finset.mul_sum,
        ← Finset.sum_mul]
      ring
    calc A.totalBound 0 (fun s => A.up (p s * x)) n
        = 2 * ((1 + A.unit) * ((∑ s ∈ Finset.range n, p s) * x) + 2 * (n * A.tiny)) := by rw [totalBound_eq_two_mul, hsum, zero_add]
      _ ≤ 2 * ((1 + 1 / 16) * (3 * x) + 2 * (1 / 64)) := by gcongr
      _ ≤ 7 * x := by linarith
  have hterm : ∀ s, s < n → A.Within (A.up (p s * x)) (softmax n (fun s => headScore (C / H)
      (fun i => q (c / (C / H) * (C / H) + i)) fun i => k s (c / (C / H) * (C / H) + i)) s *
        v s (c / (C / H) * (C / H) + c % (C / H))) := by
    intro s hs
    obtain ⟨hvalue, hpos⟩ := hp s hs
    have hweight : A.Within (p s) _ := ⟨p s, hvalue, (abs_of_nonneg hpos).le⟩
    exact hweight.mul (hv s hs _) (by linarith [hple s hs])
  exact (within_foldN (within_zero le_rfl) hterm hunits (hbound.trans hfits)).mono hbound

/-! ## GELU -/

/-- **GELU** stays in range where the cube of its argument does. -/
theorem within_gelu {a : α} (ha : A.Within x a) (hxone : 1 ≤ x) (hcube : 2 * (x + A.cubeBound x) ≤ A.largest)
    (hgelu : A.geluBound x ≤ A.largest) : A.Within (A.geluBound x) (gelu a) := by
  have hup : x ≤ A.up x := le_up (by linarith)
  have hsq : A.up x * x ≤ A.up (A.up x * x) := le_up (by nlinarith)
  have hsqge : A.up x ≤ A.up x * x := le_mul_of_one_le_right (by linarith) hxone
  have hcb : A.up (A.up x * x) * x ≤ A.cubeBound x := le_up (by nlinarith)
  have hcbge : A.up (A.up x * x) ≤ A.up (A.up x * x) * x := le_mul_of_one_le_right (by linarith) hxone
  -- the argument of the hyperbolic tangent
  have hcubic : A.Within 1 Scalar.geluCubic := by
    refine ⟨_, A.value_geluCubic, ?_⟩
    rw [abs_of_nonneg (round_nonneg (by norm_num))]
    exact round_le_one (by norm_num)
  have hscaling : A.Within 1 (Scalar.sqrt Scalar.twoOverPi) := by
    obtain ⟨t, ht, hpos, hle⟩ := A.value_twoOverPi
    refine ⟨_, A.value_sqrt ht hpos, ?_⟩
    rw [abs_of_nonneg (round_nonneg (Real.sqrt_nonneg t))]
    exact round_le_one (Real.sqrt_le_one.2 hle)
  have hfirst : A.Within (A.up x) (Scalar.geluCubic * a) := by
    have h := hcubic.mul ha (by linarith)
    rwa [one_mul] at h
  have hterm : A.Within (A.cubeBound x) (Scalar.geluCubic * a * a * a) :=
    (hfirst.mul ha (by linarith)).mul ha (by linarith)
  have hargument : A.Within (A.up (x + A.cubeBound x)) (a + Scalar.geluCubic * a * a * a) := ha.add hterm (by linarith)
  have hargle : A.up (x + A.cubeBound x) ≤ A.largest := by
    have h := up_le (A := A) (show 0 ≤ x + A.cubeBound x by linarith)
    linarith
  have hscaled : A.Within (A.up (1 * A.up (x + A.cubeBound x)))
      (Scalar.sqrt Scalar.twoOverPi * (a + Scalar.geluCubic * a * a * a)) := hscaling.mul hargument (by rwa [one_mul])
  have htanh : A.Within 1 (Scalar.tanh (Scalar.sqrt Scalar.twoOverPi * (a + Scalar.geluCubic * a * a * a))) := by
    obtain ⟨y, hy, -⟩ := hscaled
    exact A.value_tanh hy
  -- the two factors
  have hone : A.Within 1 (1 : α) := ⟨1, A.value_one, abs_one.le⟩
  have hfactor : A.Within (A.up (1 + 1)) (1 + Scalar.tanh (Scalar.sqrt Scalar.twoOverPi * (a + Scalar.geluCubic * a * a * a))) :=
    hone.add htanh (by linarith [A.le_largest])
  have hhalf : A.Within (A.up x) (Scalar.half * a) := by
    have hhalf : A.Within 1 Scalar.half := ⟨1 / 2, A.value_half, by norm_num⟩
    have h := hhalf.mul ha (by linarith)
    rwa [one_mul] at h
  have hproduct : A.up x * A.up (1 + 1) ≤ A.geluBound x := le_up (mul_nonneg hhalf.nonneg hfactor.nonneg)
  exact hhalf.mul hfactor (by linarith)

end FloatArithmetic

end Gpt2Runtime
