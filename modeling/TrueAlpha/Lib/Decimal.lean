import Mathlib.Data.Int.Log
import Mathlib.Data.Rat.Floor

/-!
# Decimal arithmetic

A finite decimal is its value.  An operation in a context is the exact one followed by `Context.round`, half to even; `roundTo
quantum` is the nearest multiple of a quantum.  The bounds of the exponent are not modelled.
-/

namespace TrueAlpha

def roundHalfEven (x : ℚ) : ℤ :=
  let rest := x - ⌊x⌋
  if rest < 1 / 2 then ⌊x⌋
  else if 1 / 2 < rest then ⌊x⌋ + 1
  else if ⌊x⌋ % 2 = 0 then ⌊x⌋ else ⌊x⌋ + 1

/-- The nearest multiple of a quantum, half to even. -/
def roundTo (quantum x : ℚ) : ℚ := roundHalfEven (x / quantum) * quantum

/-- A decimal context that rounds half to even. -/
structure Context where
  precision : ℕ
  deriving DecidableEq, Repr

def Context.default : Context := ⟨28⟩

def Context.round (context : Context) (x : ℚ) : ℚ :=
  if x = 0 then 0 else roundTo ((10 : ℚ) ^ (Int.log 10 |x| + 1 - context.precision)) x

def Context.add (context : Context) (x y : ℚ) : ℚ := context.round (x + y)

def Context.sub (context : Context) (x y : ℚ) : ℚ := context.round (x - y)

def Context.mul (context : Context) (x y : ℚ) : ℚ := context.round (x * y)

/-- Division, which raises at a zero divisor (`none`). -/
def Context.div (context : Context) (x y : ℚ) : Option ℚ :=
  if y = 0 then none else some (context.round (x / y))

/-- The value at some decimal places; more digits than the context has raise (`none`). -/
def Context.quantize (context : Context) (places : ℕ) (x : ℚ) : Option ℚ :=
  let rounded := roundTo ((10 : ℚ) ^ (-(places : ℤ))) x
  if 10 ^ context.precision ≤ |rounded| * 10 ^ places then none else some rounded

theorem abs_roundHalfEven_sub_le (x : ℚ) : |(roundHalfEven x : ℚ) - x| ≤ 1 / 2 := by
  have hlow := Int.floor_le x
  have hhigh := Int.lt_floor_add_one x
  simp only [roundHalfEven]
  by_cases hdown : x - ⌊x⌋ < 1 / 2
  · rw [if_pos hdown, abs_le]
    constructor <;> linarith
  · rw [if_neg hdown]
    by_cases hup : 1 / 2 < x - ⌊x⌋
    · rw [if_pos hup, abs_le]
      push_cast
      constructor <;> linarith
    · rw [if_neg hup, abs_le]
      split_ifs
      · constructor <;> linarith
      · push_cast
        constructor <;> linarith

theorem abs_roundTo_sub_le {quantum : ℚ} (hquantum : 0 < quantum) (x : ℚ) :
    |roundTo quantum x - x| ≤ quantum / 2 := by
  have hscale : roundTo quantum x - x = ((roundHalfEven (x / quantum) : ℚ) - x / quantum) * quantum := by
    rw [roundTo]
    field_simp
  rw [hscale, abs_mul, abs_of_pos hquantum]
  calc |(roundHalfEven (x / quantum) : ℚ) - x / quantum| * quantum ≤ 1 / 2 * quantum :=
        mul_le_mul_of_nonneg_right (abs_roundHalfEven_sub_le _) hquantum.le
    _ = quantum / 2 := by ring

variable {context : Context} {x : ℚ}

/-- A value of at most one stays below two in a context with a digit. -/
theorem Context.abs_round_le (h : 1 ≤ context.precision) (hx : |x| ≤ 1) :
    |context.round x| ≤ 2 := by
  unfold Context.round
  split_ifs with hzero
  · norm_num
  · have hlog : Int.log 10 |x| ≤ 0 := by
      have hmono := Int.log_mono_right (b := 10) (abs_pos.mpr hzero) hx
      rwa [Int.log_one_right] at hmono
    have hpow : (10 : ℚ) ^ (Int.log 10 |x| + 1 - context.precision) ≤ 1 :=
      zpow_le_one_of_nonpos₀ (by norm_num) (by omega)
    have herror := abs_roundTo_sub_le
      (zpow_pos (show (0 : ℚ) < 10 by norm_num) (Int.log 10 |x| + 1 - context.precision)) x
    have htriangle := abs_sub_abs_le_abs_sub (roundTo (10 ^ (Int.log 10 |x| + 1 - context.precision)) x) x
    linarith

/-- A small value has a result at few decimal places. -/
theorem Context.exists_quantize {places : ℕ} (hplaces : places < context.precision) (hx : |x| ≤ 2) :
    ∃ rounded, context.quantize places x = some rounded := by
  have hpow : (0 : ℚ) < 10 ^ places := by positivity
  have hle : (1 : ℚ) ≤ 10 ^ places := one_le_pow₀ (by norm_num)
  have herror := abs_roundTo_sub_le (zpow_pos (show (0 : ℚ) < 10 by norm_num) (-(places : ℤ))) x
  have hquantum : (10 : ℚ) ^ (-(places : ℤ)) ≤ 1 := zpow_le_one_of_nonpos₀ (by norm_num) (by omega)
  have htriangle := abs_sub_abs_le_abs_sub (roundTo (10 ^ (-(places : ℤ))) x) x
  have hrounded : |roundTo (10 ^ (-(places : ℤ))) x| < 10 := by linarith
  refine ⟨_, if_neg (not_le.mpr ?_)⟩
  calc |roundTo (10 ^ (-(places : ℤ))) x| * 10 ^ places < 10 * 10 ^ places := mul_lt_mul_of_pos_right hrounded hpow
    _ = 10 ^ (places + 1) := by ring
    _ ≤ 10 ^ context.precision := pow_le_pow_right₀ (by norm_num) hplaces

theorem floor_le_roundHalfEven (x : ℚ) : ⌊x⌋ ≤ roundHalfEven x := by
  simp only [roundHalfEven]
  split_ifs <;> omega

/-- A positive value stays positive in a context with a digit. -/
theorem Context.round_pos (h : 1 ≤ context.precision) (hx : 0 < x) : 0 < context.round x := by
  have hquantum : (0 : ℚ) < 10 ^ (Int.log 10 |x| + 1 - context.precision) := zpow_pos (by norm_num) _
  have hle : (10 : ℚ) ^ (Int.log 10 |x| + 1 - context.precision) ≤ x := by
    rw [abs_of_pos hx]
    calc (10 : ℚ) ^ (Int.log 10 x + 1 - context.precision) ≤ 10 ^ Int.log 10 x :=
          zpow_le_zpow_right₀ (by norm_num) (by omega)
      _ ≤ x := by exact_mod_cast Int.zpow_log_le_self (by norm_num) hx
  have hone : 1 ≤ roundHalfEven (x / 10 ^ (Int.log 10 |x| + 1 - context.precision)) := by
    refine le_trans ?_ (floor_le_roundHalfEven _)
    rw [Int.le_floor, Int.cast_one, one_le_div hquantum]
    exact hle
  rw [Context.round, if_neg hx.ne', roundTo]
  have hcast : (0 : ℚ) < (roundHalfEven (x / 10 ^ (Int.log 10 |x| + 1 - context.precision)) : ℚ) := by
    exact_mod_cast hone
  exact mul_pos hcast hquantum

theorem roundHalfEven_intCast (n : ℤ) : roundHalfEven (n : ℚ) = n := by
  simp [roundHalfEven]

/-- A whole number of at most as many digits as the context has is kept. -/
theorem Context.round_of_lt (context : Context) {n : ℕ} (hn : n < 10 ^ context.precision) : context.round (n : ℚ) = n := by
  by_cases hzero : n = 0
  · simp [Context.round, hzero]
  · have hne : (n : ℚ) ≠ 0 := Nat.cast_ne_zero.mpr hzero
    have hlog : Nat.log 10 n < context.precision := Nat.log_lt_of_lt_pow hzero hn
    obtain ⟨spare, hspare⟩ := Nat.exists_eq_add_of_lt hlog
    have hexp : (Int.log 10 |(n : ℚ)| + 1 - context.precision : ℤ) = -(spare : ℤ) := by
      rw [Nat.abs_cast, Int.log_natCast, hspare]
      push_cast
      ring
    have hdiv : (n : ℚ) / 10 ^ (-(spare : ℤ)) = ((n * 10 ^ spare : ℕ) : ℤ) := by
      rw [zpow_neg, zpow_natCast, div_inv_eq_mul]
      push_cast
      ring
    rw [Context.round, if_neg hne, hexp, roundTo, hdiv, roundHalfEven_intCast, zpow_neg, zpow_natCast]
    have hpow : (10 : ℚ) ^ spare ≠ 0 := pow_ne_zero _ (by norm_num)
    push_cast
    field_simp

/-- The first whole number beyond a context's digits loses its last digit. -/
theorem Context.round_pow_add_one (h : 1 ≤ context.precision) :
    context.round (10 ^ context.precision + 1) = 10 ^ context.precision := by
  obtain ⟨places, hplaces⟩ := Nat.exists_eq_succ_of_ne_zero (Nat.ne_of_gt h)
  have hcast : ((10 : ℚ) ^ context.precision + 1) = ((10 ^ context.precision + 1 : ℕ) : ℚ) := by
    push_cast
    ring
  have hlog : Nat.log 10 (10 ^ context.precision + 1) = context.precision := by
    refine Nat.log_eq_of_pow_le_of_lt_pow (Nat.le_succ _) ?_
    have hpos : 1 ≤ 10 ^ context.precision := Nat.one_le_pow _ _ (by norm_num)
    rw [pow_succ]
    omega
  have hexp : (Int.log 10 |(10 : ℚ) ^ context.precision + 1| + 1 - context.precision : ℤ) = 1 := by
    rw [hcast, Nat.abs_cast, Int.log_natCast, hlog]
    ring
  have hdiv : ((10 : ℚ) ^ context.precision + 1) / 10 ^ (1 : ℤ) = ((10 ^ places : ℕ) : ℤ) + 1 / 10 := by
    rw [hplaces, zpow_one, Nat.succ_eq_add_one, pow_succ]
    push_cast
    ring
  have hfloor : ⌊(((10 ^ places : ℕ) : ℤ) : ℚ) + 1 / 10⌋ = ((10 ^ places : ℕ) : ℤ) := by
    rw [Int.floor_intCast_add]
    norm_num
  have hhalf : roundHalfEven ((((10 ^ places : ℕ) : ℤ) : ℚ) + 1 / 10) = ((10 ^ places : ℕ) : ℤ) := by
    rw [roundHalfEven, hfloor]
    norm_num
  have hne : (10 : ℚ) ^ context.precision + 1 ≠ 0 := by positivity
  rw [Context.round, if_neg hne, hexp, roundTo, hdiv, hhalf, hplaces, zpow_one, Nat.succ_eq_add_one, pow_succ]
  push_cast
  ring

end TrueAlpha
