import TrueAlpha.Lib.BinaryFormat

/-!
# Quoted prices behind binary numbers

`data_engine.sources.yahoo` gets a price as a nearest binary32 number.  Below `2 ^ 16` these lie within less than half a cent of
every value, so the rounding to cents gives the price back.
-/

namespace TrueAlpha.Sources

def exactCentRecoveryBelow : ℚ := 2 ^ 16

/-- The `InvalidOperation` of a `quantize` without enough digits. -/
inductive PriceError where
  | invalidOperation
  deriving DecidableEq, Repr

def recoverQuotedPrice : Option ℚ → Except PriceError (Option ℚ)
  | none => .ok none
  | some value =>
    if exactCentRecoveryBelow ≤ |value| then .ok (some value)
    else
      match Context.default.quantize 2 value with
      | some price => .ok (some price)
      | none => .error .invalidOperation

def TwoDecimals (price : ℚ) : Prop := ∃ cents : ℤ, price = cents / 100

variable {price value : ℚ}

theorem roundTo_cent (hprice : TwoDecimals price) (hnear : |value - price| < 1 / 200) :
    roundTo ((10 : ℚ) ^ (-(2 : ℕ) : ℤ)) value = price := by
  obtain ⟨cents, rfl⟩ := hprice
  have hcent : (10 : ℚ) ^ (-(2 : ℕ) : ℤ) = 1 / 100 := by norm_num
  have herror := abs_roundHalfEven_sub_le (value / (1 / 100))
  have hscaled : |value / (1 / 100) - cents| < 1 / 2 := by
    have hfactor : value / (1 / 100) - cents = (value - cents / 100) * 100 := by ring
    rw [hfactor, abs_mul, abs_of_pos (show (0 : ℚ) < 100 by norm_num)]
    linarith
  have hsame : roundHalfEven (value / (1 / 100)) = cents := by
    have hlt : |(roundHalfEven (value / (1 / 100)) : ℚ) - cents| < 1 := by
      have htriangle := abs_sub_le (roundHalfEven (value / (1 / 100)) : ℚ) (value / (1 / 100)) cents
      linarith
    have hzero : |roundHalfEven (value / (1 / 100)) - cents| < 1 := by exact_mod_cast hlt
    exact sub_eq_zero.mp (Int.abs_lt_one_iff.mp hzero)
  rw [hcent, roundTo, hsame, mul_one_div]

theorem abs_sub_lt_half_cent (hvalue : BinaryFormat.binary32.Nearest price value) (hlow : |value| < exactCentRecoveryBelow) :
    |value - price| < 1 / 200 := by
  have hbound : ∀ {x v : ℚ}, BinaryFormat.binary32.Nearest x v → v < exactCentRecoveryBelow → x ≤ 2 ^ 16 := by
    intro x v hnearest hlt
    by_contra hhigh
    have hholds : BinaryFormat.binary32.Holds (2 ^ 16) :=
      ⟨2 ^ 16, 0, by simp [BinaryFormat.binary32], by decide, by decide, by norm_num⟩
    exact absurd (hnearest.le_of_lt hholds (not_le.mp hhigh)) (not_le.mpr hlt)
  have hprice : |price| ≤ 2 ^ 16 := by
    rw [abs_lt] at hlow
    rw [abs_le]
    have hneg := hbound hvalue.neg (by linarith)
    exact ⟨by linarith, hbound hvalue hlow.2⟩
  have hunit : |price| ≤ 2 ^ BinaryFormat.binary32.precision * 2 ^ (-8 : ℤ) := by
    rw [show (2 : ℚ) ^ BinaryFormat.binary32.precision * 2 ^ (-8 : ℤ) = 2 ^ 16 by norm_num [BinaryFormat.binary32]]
    exact hprice
  have hle := hvalue.abs_sub_le (by decide) (by decide) (by decide) hunit
  exact hle.trans_lt (by norm_num)

/-- A price of two decimals is recovered from each of its nearest binary32 numbers below `2 ^ 16`, so two prices share none; from
there on a number returns as it came. -/
theorem recoverQuotedPrice_exact (hprice : TwoDecimals price) (hvalue : BinaryFormat.binary32.Nearest price value) :
    (|value| < 2 ^ 16 → recoverQuotedPrice (some value) = .ok (some price) ∧
      ∀ other, TwoDecimals other → BinaryFormat.binary32.Nearest other value → other = price) ∧
    (2 ^ 16 ≤ |value| → recoverQuotedPrice (some value) = .ok (some value)) := by
  refine ⟨fun hlow => ⟨?_, fun other hother hnearest => ?_⟩, fun hhigh => if_pos hhigh⟩
  · have hnear := abs_sub_lt_half_cent hvalue hlow
    have hround := roundTo_cent hprice hnear
    have hsmall : |price| < 2 ^ 16 + 1 := by
      have htriangle := abs_sub_abs_le_abs_sub price value
      rw [abs_sub_comm] at htriangle
      linarith
    have hquantize : Context.default.quantize 2 value = some price := by
      rw [Context.quantize, hround, if_neg]
      rw [not_le]
      calc |price| * 10 ^ 2 < (2 ^ 16 + 1) * 10 ^ 2 := by gcongr
        _ ≤ 10 ^ Context.default.precision := by norm_num [Context.default]
    have hbelow : ¬ exactCentRecoveryBelow ≤ |value| := not_le.mpr hlow
    rw [recoverQuotedPrice, if_neg hbelow, hquantize]
  · rw [← roundTo_cent hother (abs_sub_lt_half_cent hnearest hlow), roundTo_cent hprice (abs_sub_lt_half_cent hvalue hlow)]

/-- The vendor's number for 326.59 is a nearest one, and the price is recovered. -/
theorem recoverQuotedPrice_sample : recoverQuotedPrice (some (10701701 / 32768)) = .ok (some (32659 / 100)) := by
  have hgrid : BinaryFormat.binary32.Nearest (32659 / 100) (((10701701 : ℤ) : ℚ) * 2 ^ (-15 : ℤ)) := by
    refine BinaryFormat.nearest_of_grid (by decide) (by decide) (by decide) (by decide) ?_ ?_
    · norm_num [BinaryFormat.binary32]
    · norm_num [abs_le]
  have hvalue : ((10701701 : ℤ) : ℚ) * 2 ^ (-15 : ℤ) = 10701701 / 32768 := by norm_num
  rw [hvalue] at hgrid
  exact ((recoverQuotedPrice_exact ⟨32659, by norm_num⟩ hgrid).1 (by norm_num [abs_lt])).1

end TrueAlpha.Sources
