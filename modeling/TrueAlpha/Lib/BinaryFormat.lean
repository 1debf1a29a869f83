import Mathlib.Tactic.LinearCombination
import Mathlib.Tactic.Positivity
import TrueAlpha.Lib.Decimal

/-!
# Binary floating-point formats

A finite number of a format is a whole number of at most `precision` binary digits times a power of two.  A nearest number of a
value is one that no other number is closer to.
-/

namespace TrueAlpha

structure BinaryFormat where
  precision : ℕ
  minExponent : ℤ
  maxExponent : ℤ
  deriving DecidableEq, Repr

namespace BinaryFormat

/-- The format of `float32`. -/
def binary32 : BinaryFormat := ⟨24, -149, 104⟩

/-- A value is a finite number of the format. -/
def Holds (format : BinaryFormat) (x : ℚ) : Prop :=
  ∃ m e : ℤ, |m| < 2 ^ format.precision ∧ format.minExponent ≤ e ∧ e ≤ format.maxExponent ∧ x = m * 2 ^ e

/-- A number of the format that is nearest to a value. -/
structure Nearest (format : BinaryFormat) (x v : ℚ) : Prop where
  holds : format.Holds v
  le : ∀ w, format.Holds w → |v - x| ≤ |w - x|

variable {format : BinaryFormat} {x v : ℚ} {e m : ℤ}

/-- The power of two just above an exponent's numbers is one of the next exponent. -/
theorem holds_of_abs_le (hprecision : 1 ≤ format.precision) (hm : |m| ≤ 2 ^ format.precision)
    (hmin : format.minExponent ≤ e) (hmax : e < format.maxExponent) : format.Holds (m * 2 ^ e) := by
  rcases hm.lt_or_eq with hlt | heq
  · exact ⟨m, e, hlt, hmin, hmax.le, rfl⟩
  obtain ⟨digits, hdigits⟩ := Nat.exists_eq_succ_of_ne_zero (Nat.ne_of_gt hprecision)
  have htwo : (2 : ℤ) ^ format.precision = 2 * 2 ^ digits := by
    rw [hdigits, pow_succ]
    ring
  have hpos : (0 : ℤ) < 2 ^ digits := by positivity
  have hhalf : ∃ k : ℤ, m = 2 * k ∧ |k| = 2 ^ digits := by
    rcases abs_choice m with habs | habs
    · exact ⟨2 ^ digits, by rw [← htwo, ← heq, habs], abs_of_pos hpos⟩
    · refine ⟨-2 ^ digits, ?_, by rw [abs_neg, abs_of_pos hpos]⟩
      rw [mul_neg, ← htwo, ← heq, habs, neg_neg]
  obtain ⟨k, rfl, hk⟩ := hhalf
  refine ⟨k, e + 1, ?_, by omega, by omega, ?_⟩
  · rw [hk, htwo]
    omega
  · rw [zpow_add_one₀ (by norm_num)]
    push_cast
    ring

/-- Some number lies within half a unit of its last digit. -/
theorem exists_near (hprecision : 1 ≤ format.precision) (hmin : format.minExponent ≤ e) (hmax : e < format.maxExponent)
    (hx : |x| ≤ 2 ^ format.precision * 2 ^ e) : ∃ w, format.Holds w ∧ |w - x| ≤ 2 ^ e / 2 := by
  have hunit : (0 : ℚ) < 2 ^ e := zpow_pos (by norm_num) e
  have herror := abs_roundTo_sub_le hunit x
  refine ⟨roundTo (2 ^ e) x, holds_of_abs_le hprecision ?_ hmin hmax, herror⟩
  have hscaled : |x / 2 ^ e| ≤ 2 ^ format.precision := by
    rwa [abs_div, abs_of_pos hunit, div_le_iff₀ hunit]
  have hround := abs_roundHalfEven_sub_le (x / 2 ^ e)
  have hlt : |(roundHalfEven (x / 2 ^ e) : ℚ)| < 2 ^ format.precision + 1 := by
    have htriangle := abs_sub_abs_le_abs_sub (roundHalfEven (x / 2 ^ e) : ℚ) (x / 2 ^ e)
    linarith
  exact Int.lt_add_one_iff.mp (by exact_mod_cast hlt)

/-- So a nearest number lies within half of a unit. -/
theorem Nearest.abs_sub_le (h : format.Nearest x v) (hprecision : 1 ≤ format.precision)
    (hmin : format.minExponent ≤ e) (hmax : e < format.maxExponent) (hx : |x| ≤ 2 ^ format.precision * 2 ^ e) :
    |v - x| ≤ 2 ^ e / 2 := by
  obtain ⟨w, hw, hnear⟩ := exists_near hprecision hmin hmax hx
  exact (h.le w hw).trans hnear

/-- A nearest number of a value above a number of the format is not below that number. -/
theorem Nearest.le_of_lt (h : format.Nearest x v) {w : ℚ} (hw : format.Holds w) (hlt : w < x) : w ≤ v := by
  by_contra hbelow
  have hle := h.le w hw
  rw [abs_of_neg (sub_neg.mpr hlt), abs_of_neg (by linarith)] at hle
  linarith

theorem Holds.neg (h : format.Holds x) : format.Holds (-x) := by
  obtain ⟨m, e, hm, hmin, hmax, rfl⟩ := h
  exact ⟨-m, e, by rwa [abs_neg], hmin, hmax, by push_cast; ring⟩

theorem Nearest.neg (h : format.Nearest x v) : format.Nearest (-x) (-v) where
  holds := h.holds.neg
  le w hw := by
    have hle := h.le (-w) hw.neg
    rwa [show -v - -x = -(v - x) by ring, abs_neg, show w - -x = -(-w - x) by ring, abs_neg]

/-- The nearest multiple of a unit is the nearest number where the unit's numbers start. -/
theorem nearest_of_grid (hprecision : 1 ≤ format.precision) (hm : |m| < 2 ^ format.precision) (hmin : format.minExponent ≤ e)
    (hmax : e ≤ format.maxExponent) (hx : 2 ^ format.precision * 2 ^ e ≤ 2 * x)
    (hnear : |m * 2 ^ e - x| ≤ 2 ^ e / 2) : format.Nearest x (m * 2 ^ e) := by
  have hunit : (0 : ℚ) < 2 ^ e := zpow_pos (by norm_num) e
  -- every other multiple of the unit is half of a unit away or more
  have hgrid : ∀ k : ℤ, |(m : ℚ) * 2 ^ e - x| ≤ |(k : ℚ) * 2 ^ e - x| := by
    intro k
    rcases eq_or_ne k m with rfl | hne
    · exact le_rfl
    have hone : (1 : ℚ) ≤ |(k : ℚ) - m| := by exact_mod_cast Int.one_le_abs (sub_ne_zero.mpr hne)
    have hstep : (2 : ℚ) ^ e ≤ |(k : ℚ) * 2 ^ e - m * 2 ^ e| := by
      rw [← sub_mul, abs_mul, abs_of_pos hunit]
      exact le_mul_of_one_le_left hunit.le hone
    have htriangle := abs_sub_le ((k : ℚ) * 2 ^ e) x (m * 2 ^ e)
    rw [abs_sub_comm x] at htriangle
    linarith
  refine ⟨⟨m, e, hm, hmin, hmax, rfl⟩, ?_⟩
  rintro w ⟨k, exponent, hk, -, -, rfl⟩
  rcases le_or_gt e exponent with hle | hlt
  · obtain ⟨more, rfl⟩ := Int.le.dest hle
    have hsplit : (k : ℚ) * 2 ^ (e + more) = ((k * 2 ^ more : ℤ) : ℚ) * 2 ^ e := by
      rw [zpow_add₀ (by norm_num), zpow_natCast]
      push_cast
      ring
    rw [hsplit]
    exact hgrid _
  · -- a number of a smaller exponent stays below the first multiple of the unit that has all the digits
    obtain ⟨digits, hdigits⟩ := Nat.exists_eq_succ_of_ne_zero (Nat.ne_of_gt hprecision)
    have hfirst := hgrid (2 ^ digits)
    push_cast at hfirst
    have hdouble : (2 : ℚ) ^ format.precision = 2 * 2 ^ digits := by
      rw [hdigits, pow_succ]
      ring
    have hle : (2 : ℚ) ^ digits * 2 ^ e ≤ x := by
      rw [hdouble] at hx
      linarith
    have hbelow : (k : ℚ) * 2 ^ exponent ≤ 2 ^ digits * 2 ^ e := by
      have hkle : (k : ℚ) ≤ 2 ^ format.precision := by exact_mod_cast (le_abs_self k).trans hk.le
      calc (k : ℚ) * 2 ^ exponent ≤ 2 ^ format.precision * 2 ^ exponent :=
            mul_le_mul_of_nonneg_right hkle (zpow_pos (by norm_num) _).le
        _ ≤ 2 ^ format.precision * 2 ^ (e - 1) := by
          gcongr
          · norm_num
          · omega
        _ = 2 ^ digits * 2 ^ e := by
          rw [hdouble, zpow_sub_one₀ (by norm_num)]
          ring
    refine hfirst.trans ?_
    rw [abs_of_nonpos (by linarith), abs_of_nonpos (by linarith)]
    linarith

end BinaryFormat

end TrueAlpha
