import TrueAlpha.Lib.HalfEven

/-!
# Rounding a rounded value

A value away from every half is rounded like each value close to it.  An inverse is a half of the last place or away from every
half, so rounding it in a context first changes nothing (`Context.quantize_round_inv`).
-/

namespace TrueAlpha

theorem roundHalfEven_eq_of_abs_lt {y : ℚ} {k : ℤ} (h : |y - k| < 1 / 2) : roundHalfEven y = k := by
  obtain ⟨hlow, hhigh⟩ := abs_lt.mp h
  have hnear := abs_le.mp (abs_roundHalfEven_sub_le y)
  have hbelow : (roundHalfEven y : ℚ) < k + 1 := by linarith
  have habove : (k : ℚ) < roundHalfEven y + 1 := by linarith
  have hbelow' : roundHalfEven y < k + 1 := by exact_mod_cast hbelow
  have habove' : k < roundHalfEven y + 1 := by exact_mod_cast habove
  omega

/-- A value at a distance from every half is rounded like those within the distance. -/
theorem roundHalfEven_eq_of_close {x y δ : ℚ} (hx : ∀ m : ℤ, δ ≤ |x - (m + 1 / 2)|) (hy : |y - x| < δ) :
    roundHalfEven y = roundHalfEven x := by
  refine roundHalfEven_eq_of_abs_lt ?_
  have hround := abs_le.mp (abs_roundHalfEven_sub_le x)
  have hclose := abs_lt.mp hy
  have hup := hx (roundHalfEven x)
  have hdown := hx (roundHalfEven x - 1)
  rw [abs_of_nonpos (by linarith)] at hup
  rw [abs_of_nonneg (by push_cast; linarith)] at hdown
  push_cast at hdown
  rw [abs_lt]
  constructor <;> linarith

theorem roundTo_eq_quantize (places : ℕ) (x : ℚ) : roundTo ((10 : ℚ) ^ (-(places : ℤ))) x = quantize places x := by
  rw [roundTo, quantize, halfEven_eq_roundHalfEven, zpow_neg, zpow_natCast, div_inv_eq_mul, div_eq_mul_inv]

namespace Context

variable (context : Context) {n places : ℕ}

/-- A value of some decimal places and at most the context's digits is kept. -/
theorem round_of_places (hn : n < 10 ^ context.precision) (places : ℕ) :
    context.round ((n : ℚ) / 10 ^ places) = n / 10 ^ places := by
  by_cases hzero : n = 0
  · simp [Context.round, hzero]
  · have hne : (n : ℚ) ≠ 0 := Nat.cast_ne_zero.mpr hzero
    have hpow : (10 : ℚ) ^ places ≠ 0 := by positivity
    have hlog : Nat.log 10 n < context.precision := Nat.log_lt_of_lt_pow hzero hn
    obtain ⟨spare, hspare⟩ := Nat.exists_eq_add_of_lt hlog
    have habs : |(n : ℚ) / 10 ^ places| = n / 10 ^ places := abs_of_nonneg (by positivity)
    have hexp : Int.log 10 ((n : ℚ) / 10 ^ places) = Nat.log 10 n - places := by
      refine eq_of_forall_le_iff fun z => ?_
      rw [← Int.zpow_le_iff_le_log (by norm_num) (by positivity), le_div_iff₀ (by positivity), ← zpow_natCast,
        Nat.cast_ofNat, ← zpow_add₀ (by norm_num), le_sub_iff_add_le, ← Int.log_natCast (R := ℚ),
        ← Int.zpow_le_iff_le_log (by norm_num) (by positivity), Nat.cast_ofNat]
    have hquantum : (10 : ℚ) ^ (Int.log 10 |(n : ℚ) / 10 ^ places| + 1 - context.precision) =
        (10 : ℚ) ^ (-((spare + places : ℕ) : ℤ)) := by
      rw [habs, hexp, hspare]
      congr 1
      push_cast
      ring
    rw [Context.round, if_neg (div_ne_zero hne hpow), hquantum, roundTo_eq_quantize]
    have hsame : (n : ℚ) / 10 ^ places = ((n * 10 ^ spare : ℕ) : ℤ) / 10 ^ (spare + places) := by
      push_cast
      rw [pow_add]
      field_simp
    rw [hsame, quantize_div_pow]

/-- The error of a value of at most one. -/
theorem abs_round_sub_le {x : ℚ} (hx : |x| ≤ 1) : |context.round x - x| ≤ 10 ^ (1 - (context.precision : ℤ)) / 2 := by
  unfold Context.round
  by_cases hzero : x = 0
  · rw [if_pos hzero, hzero, sub_zero, abs_zero]
    exact div_nonneg (zpow_nonneg (by norm_num) _) (by norm_num)
  · rw [if_neg hzero]
    have hlog : Int.log 10 |x| ≤ 0 := by
      have hmono := Int.log_mono_right (b := 10) (abs_pos.mpr hzero) hx
      rwa [Int.log_one_right] at hmono
    have hquantum : (10 : ℚ) ^ (Int.log 10 |x| + 1 - context.precision) ≤ 10 ^ (1 - (context.precision : ℤ)) :=
      zpow_le_zpow_right₀ (by norm_num) (by omega)
    have herror := abs_roundTo_sub_le
      (zpow_pos (show (0 : ℚ) < 10 by norm_num) (Int.log 10 |x| + 1 - context.precision)) x
    linarith

/-- A whole number's inverse, rounded in a context, has the same rounding at some places. -/
theorem quantize_round_inv (hn : 1 ≤ n) (hdigits : n * 10 ^ (places + 1) < 10 ^ context.precision) :
    TrueAlpha.quantize places (context.round (1 / n)) = TrueAlpha.quantize places (1 / n : ℚ) := by
  have hpos : (0 : ℚ) < n := Nat.cast_pos.mpr hn
  have hpow : (0 : ℚ) < 10 ^ places := by positivity
  by_cases htie : ∃ m : ℤ, (1 / n : ℚ) * 10 ^ places = m + 1 / 2
  · -- a half of the last place has one place more, and the context keeps it
    obtain ⟨m, hm⟩ := htie
    have hm' : (2 : ℚ) * 10 ^ places = (2 * m + 1) * n := by
      field_simp at hm
      linarith
    have hwhole : (2 : ℤ) * 10 ^ places = (2 * m + 1) * n := by exact_mod_cast hm'
    have hm0 : 0 ≤ m := by
      by_contra hneg
      have hle : (2 * m + 1) * (n : ℤ) ≤ 0 := mul_nonpos_of_nonpos_of_nonneg (by omega) (by omega)
      have hten : (0 : ℤ) < 10 ^ places := by positivity
      omega
    obtain ⟨k, rfl⟩ : ∃ k : ℕ, m = k := ⟨m.toNat, by omega⟩
    have hinv : (1 / n : ℚ) = ((10 * k + 5 : ℕ) : ℚ) / 10 ^ (places + 1) := by
      push_cast
      push_cast at hm'
      rw [pow_succ, div_eq_div_iff hpos.ne' (by positivity)]
      linarith
    have hlt : 10 * k + 5 < 10 ^ context.precision := by
      have hnat : 10 ^ (places + 1) = (10 * k + 5) * n := by
        have hint : ((10 ^ (places + 1) : ℕ) : ℤ) = ((10 * k + 5) * n : ℕ) := by
          push_cast
          rw [pow_succ]
          linarith
        exact_mod_cast hint
      calc 10 * k + 5 ≤ (10 * k + 5) * n := Nat.le_mul_of_pos_right _ hn
        _ = 10 ^ (places + 1) := hnat.symm
        _ ≤ n * 10 ^ (places + 1) := Nat.le_mul_of_pos_left _ hn
        _ < 10 ^ context.precision := hdigits
    rw [hinv, context.round_of_places hlt]
  · -- away from every half the error of the context is too small
    have hapart : ∀ m : ℤ, 1 / (2 * n : ℚ) ≤ |(1 / n : ℚ) * 10 ^ places - (m + 1 / 2)| := by
      intro m
      have hne : (2 : ℤ) * 10 ^ places - (2 * m + 1) * n ≠ 0 := by
        intro hzero
        refine htie ⟨m, ?_⟩
        have hcast : (2 : ℚ) * 10 ^ places - (2 * m + 1) * n = 0 := by exact_mod_cast hzero
        field_simp
        linarith
      have hone : (1 : ℚ) ≤ |(2 : ℚ) * 10 ^ places - (2 * m + 1) * n| := by exact_mod_cast Int.one_le_abs hne
      have hscale : (1 / n : ℚ) * 10 ^ places - (m + 1 / 2) = (2 * 10 ^ places - (2 * m + 1) * n) / (2 * n) := by
        field_simp
      rw [hscale, abs_div, abs_of_pos (show (0 : ℚ) < 2 * n by positivity)]
      exact div_le_div_of_nonneg_right hone (by positivity)
    have hle : |(1 / n : ℚ)| ≤ 1 := by
      rw [abs_of_pos (by positivity), div_le_one hpos]
      exact_mod_cast hn
    have herror : |context.round (1 / n) * 10 ^ places - (1 / n : ℚ) * 10 ^ places| < 1 / (2 * n : ℚ) := by
      rw [← sub_mul, abs_mul, abs_of_pos hpow]
      have hbound := context.abs_round_sub_le hle
      have hten : (10 : ℚ) ^ (1 - (context.precision : ℤ)) = 10 / 10 ^ context.precision := by
        rw [zpow_sub₀ (by norm_num), zpow_one, zpow_natCast]
      have hdigits' : (n : ℚ) * 10 ^ (places + 1) < 10 ^ context.precision := by exact_mod_cast hdigits
      calc |context.round (1 / n) - 1 / n| * 10 ^ places ≤ 10 ^ (1 - (context.precision : ℤ)) / 2 * 10 ^ places :=
            mul_le_mul_of_nonneg_right hbound hpow.le
        _ = 10 ^ (places + 1) / (2 * 10 ^ context.precision) := by
            rw [hten, pow_succ]
            field_simp
        _ < 1 / (2 * n) := by
            rw [div_lt_div_iff₀ (by positivity) (by positivity)]
            linarith
    unfold TrueAlpha.quantize
    rw [halfEven_eq_roundHalfEven, halfEven_eq_roundHalfEven, roundHalfEven_eq_of_close hapart herror]

end Context

end TrueAlpha
