import Mathlib.Tactic
import Mathlib.Data.Int.Log

/-!
# Arithmetic in binary64

The numbers of `double` as rational numbers, and its operations: the exact result is rounded to the
nearest number with 53 bits, of two that are as near to the one whose last bit is zero. No bit is
below the least one of the subnormal numbers. Results that are too large to be finite are left out.

## Main definitions

* `Binary64.nearest`: the nearest number
* `Binary64.Close f`: `f` is off by no more than rounding is
* `Binary64.Converts f`: `f` is a conversion to the format, exact or rounded

## Main results

* `Binary64.close_nearest`: rounding is close
* `Binary64.converts_id`, `Binary64.converts_nearest`: the two conversions
-/

namespace Binary64

/-- The nearest integer, of two that are as near the even one. -/
def roundEven (x : ℚ) : ℤ :=
  if x - ⌊x⌋ < 1 / 2 then ⌊x⌋
  else if 1 / 2 < x - ⌊x⌋ then ⌊x⌋ + 1
  else if ⌊x⌋ % 2 = 0 then ⌊x⌋
  else ⌊x⌋ + 1

/-- The exponent of the last bit. -/
def lastBit (x : ℚ) : ℤ := max (Int.log 2 |x| - 52) (-1074)

/-- The nearest number. -/
def nearest (x : ℚ) : ℚ := roundEven (x / 2 ^ lastBit x) * 2 ^ lastBit x

/-- Multiplication. -/
def mul (x y : ℚ) : ℚ := nearest (x * y)

/-- Addition. -/
def add (x y : ℚ) : ℚ := nearest (x + y)

/-! ## Rounding -/

theorem roundEven_nonneg {x : ℚ} (h : 0 ≤ x) : 0 ≤ roundEven x := by
  have hfloor : 0 ≤ ⌊x⌋ := Int.floor_nonneg.mpr h
  unfold roundEven
  split_ifs <;> omega

theorem abs_roundEven_sub_le (x : ℚ) : |roundEven x - x| ≤ 1 / 2 := by
  have hle := Int.floor_le x
  have hlt := Int.lt_floor_add_one x
  rw [abs_le]
  unfold roundEven
  split_ifs with hlow hhigh heven
  · constructor <;> linarith
  · push_cast
    constructor <;> linarith
  · constructor <;> linarith
  · push_cast
    constructor <;> linarith

theorem nearest_nonneg {x : ℚ} (h : 0 ≤ x) : 0 ≤ nearest x := by
  have hbit : (0 : ℚ) < 2 ^ lastBit x := by positivity
  have hround : (0 : ℚ) ≤ roundEven (x / 2 ^ lastBit x) := by
    exact_mod_cast roundEven_nonneg (div_nonneg h hbit.le)
  exact mul_nonneg hround hbit.le

/-- A number is rounded by at most half of its last bit. -/
theorem abs_nearest_sub_le (x : ℚ) : |nearest x - x| ≤ 2 ^ lastBit x / 2 := by
  have hbit : (0 : ℚ) < 2 ^ lastBit x := by positivity
  have hscaled : nearest x - x =
      (roundEven (x / 2 ^ lastBit x) - x / 2 ^ lastBit x) * 2 ^ lastBit x := by
    rw [nearest, sub_mul, div_mul_cancel₀ _ hbit.ne']
  rw [hscaled, abs_mul, abs_of_pos hbit]
  have hround := mul_le_mul_of_nonneg_right (abs_roundEven_sub_le (x / 2 ^ lastBit x)) hbit.le
  linarith

/-- The last bit of a number, by its size. -/
theorem zpow_lastBit_le (x : ℚ) : (2 : ℚ) ^ lastBit x / 2 ≤ (|x| + 1) / 2 ^ 53 := by
  have habs := abs_nonneg x
  unfold lastBit
  rcases max_cases (Int.log 2 |x| - 52) (-1074) with ⟨heq, -⟩ | ⟨heq, -⟩ <;> rw [heq]
  · by_cases hzero : x = 0
    · rw [hzero, abs_zero, Int.log_zero_right]
      norm_num
    have hlog : (2 : ℚ) ^ Int.log 2 |x| ≤ |x| :=
      Int.zpow_log_le_self one_lt_two (abs_pos.mpr hzero)
    rw [zpow_sub₀ two_ne_zero]
    norm_num
    linarith
  · have hleast : (2 : ℚ) ^ (-1074 : ℤ) ≤ 2 ^ (-52 : ℤ) :=
      zpow_le_zpow_right₀ one_le_two (by norm_num)
    have hbit : (2 : ℚ) ^ (-52 : ℤ) / 2 = 1 / 2 ^ 53 := by norm_num
    have hone : (1 : ℚ) / 2 ^ 53 ≤ (|x| + 1) / 2 ^ 53 := by
      gcongr
      linarith
    exact (div_le_div_of_nonneg_right hleast zero_le_two).trans (hbit.le.trans hone)

/-- The function is off by no more than rounding is. -/
def Close (f : ℚ → ℚ) : Prop := ∀ x, |f x - x| ≤ (|x| + 1) / 2 ^ 53

/-- **Rounding is close.** -/
theorem close_nearest : Close nearest := fun x =>
  (abs_nearest_sub_le x).trans (zpow_lastBit_le x)

/-- A close function, between bounds. -/
theorem Close.bounds {f : ℚ → ℚ} (h : Close f) {x : ℚ} (hx : 0 ≤ x) :
    x - (x + 1) / 2 ^ 53 ≤ f x ∧ f x ≤ x + (x + 1) / 2 ^ 53 := by
  have hclose := h x
  rw [abs_of_nonneg hx, abs_le] at hclose
  constructor <;> linarith [hclose.1, hclose.2]

/-- What a conversion to a number of the format does: it is close, and it keeps zero and one. -/
structure Converts (f : ℚ → ℚ) : Prop where
  close : Close f
  zero : f 0 = 0
  one : f 1 = 1

/-- The conversion that is exact. -/
theorem converts_id : Converts id where
  close := by
    intro x
    rw [id, sub_self, abs_zero]
    positivity
  zero := rfl
  one := rfl

/-- The conversion that rounds. -/
theorem converts_nearest : Converts nearest where
  close := close_nearest
  zero := by decide +kernel
  one := by decide +kernel

end Binary64
