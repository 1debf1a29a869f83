import Mathlib.Tactic.Positivity
import TrueAlpha.Lib.Decimal

/-!
# Rounding half to even over an ordered field

`halfEven` is the nearest integer, half to even, and `quantize` the nearest value with some decimal places.  Over the rationals
this is the rounding of decimal arithmetic.
-/

namespace TrueAlpha

variable {K : Type*} [Field K] [LinearOrder K] [IsStrictOrderedRing K] [FloorRing K]

def halfEven (x : K) : ℤ :=
  let rest := x - ⌊x⌋
  if rest < 1 / 2 then ⌊x⌋
  else if 1 / 2 < rest then ⌊x⌋ + 1
  else if ⌊x⌋ % 2 = 0 then ⌊x⌋ else ⌊x⌋ + 1

theorem halfEven_eq_roundHalfEven (x : ℚ) : halfEven x = roundHalfEven x := rfl

omit [IsStrictOrderedRing K] in
theorem floor_le_halfEven (x : K) : ⌊x⌋ ≤ halfEven x := by
  simp only [halfEven]
  split_ifs <;> omega

omit [IsStrictOrderedRing K] in
theorem halfEven_le_floor_add_one (x : K) : halfEven x ≤ ⌊x⌋ + 1 := by
  simp only [halfEven]
  split_ifs <;> omega

/-- Values with one whole part: the larger one is rounded up where the smaller one is. -/
theorem halfEven_le_of_floor_eq {x y : K} (hfloor : ⌊x⌋ = ⌊y⌋) (h : x ≤ y) : halfEven x ≤ halfEven y := by
  have hrest : x - ⌊x⌋ ≤ y - ⌊x⌋ := sub_le_sub_right h _
  simp only [halfEven]
  rw [← hfloor]
  by_cases hdown : y - (⌊x⌋ : K) < 1 / 2
  · rw [if_pos hdown, if_pos (hrest.trans_lt hdown)]
  · rw [if_neg hdown]
    by_cases hup : 1 / 2 < y - (⌊x⌋ : K)
    · rw [if_pos hup]
      split_ifs <;> omega
    · have hnot : ¬ 1 / 2 < x - (⌊x⌋ : K) := fun hlt => hup (hlt.trans_le hrest)
      rw [if_neg hup, if_neg hnot]
      split_ifs <;> omega

theorem halfEven_mono {x y : K} (h : x ≤ y) : halfEven x ≤ halfEven y := by
  rcases (Int.floor_le_floor h).lt_or_eq with hlt | heq
  · calc halfEven x ≤ ⌊x⌋ + 1 := halfEven_le_floor_add_one x
      _ ≤ ⌊y⌋ := hlt
      _ ≤ halfEven y := floor_le_halfEven y
  · exact halfEven_le_of_floor_eq heq h

theorem halfEven_intCast (n : ℤ) : halfEven (n : K) = n := by
  simp only [halfEven]
  rw [Int.floor_intCast, sub_self, if_pos (by norm_num)]

/-- The nearest value with some decimal places, half to even. -/
def quantize (places : ℕ) (x : K) : K := halfEven (x * 10 ^ places) / 10 ^ places

variable (places : ℕ)

theorem quantize_mono {x y : K} (h : x ≤ y) : quantize places x ≤ quantize places y := by
  have hpow : (0 : K) < 10 ^ places := by positivity
  have hscaled : x * 10 ^ places ≤ y * 10 ^ places := mul_le_mul_of_nonneg_right h hpow.le
  exact div_le_div_of_nonneg_right (Int.cast_le.mpr (halfEven_mono hscaled)) hpow.le

/-- A value with at most as many decimal places is kept. -/
theorem quantize_div_pow (n : ℤ) : quantize places ((n : K) / 10 ^ places) = n / 10 ^ places := by
  have hpow : (10 : K) ^ places ≠ 0 := by positivity
  rw [quantize, div_mul_cancel₀ _ hpow, halfEven_intCast]

/-- A whole number is kept. -/
theorem quantize_intCast (n : ℤ) : quantize places (n : K) = n := by
  have hpow : (10 : K) ^ places ≠ 0 := by positivity
  have hscaled : (n : K) * 10 ^ places = ((n * 10 ^ places : ℤ) : K) := by push_cast; rfl
  rw [quantize, hscaled, halfEven_intCast, ← hscaled, mul_div_cancel_right₀ _ hpow]

theorem quantize_nonneg {x : K} (h : 0 ≤ x) : 0 ≤ quantize places x := by
  have hzero := quantize_intCast (K := K) places 0
  rw [Int.cast_zero] at hzero
  calc 0 = quantize places 0 := hzero.symm
    _ ≤ quantize places x := quantize_mono places h

theorem quantize_le_one {x : K} (h : x ≤ 1) : quantize places x ≤ 1 := by
  have hone := quantize_intCast (K := K) places 1
  rw [Int.cast_one] at hone
  calc quantize places x ≤ quantize places 1 := quantize_mono places h
    _ = 1 := hone

end TrueAlpha
