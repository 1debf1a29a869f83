import Mathlib.RingTheory.Coprime.Lemmas
import Mathlib.Tactic.FieldSimp
import Mathlib.Tactic.Linarith
import Mathlib.Tactic.LinearCombination
import Mathlib.Tactic.Positivity

/-!
# Neighbouring fractions

Two fractions of determinant one around a value.  A fraction between them has a denominator of at least the sum of theirs, so
under a bound below it the nearer one is nearest (`Neighbours.near_or_far`).
-/

namespace TrueAlpha

/-- Strictly between two neighbours a denominator is at least the sum of theirs. -/
theorem add_le_of_between {p q p' q' a b : ℤ} (hdet : p' * q - p * q' = 1) (hq : 0 < q) (hq' : 0 < q')
    (hlow : 0 < a * q - p * b) (hhigh : 0 < p' * b - a * q') : q + q' ≤ b := by
  have hsum : b = q * (p' * b - a * q') + q' * (a * q - p * b) := by
    linear_combination -b * hdet
  have h1 : q * 1 ≤ q * (p' * b - a * q') := by gcongr; omega
  have h2 : q' * 1 ≤ q' * (a * q - p * b) := by gcongr; omega
  omega

/-- A value outside two bounds is no nearer to one inside than a bound is. -/
theorem abs_sub_le_or_of_outside {K : Type*} [Field K] [LinearOrder K] [IsStrictOrderedRing K] {x y u v : K}
    (hinside : (x - u) * (x - v) ≤ 0) (houtside : 0 ≤ (y - u) * (y - v)) :
    (|u - x| ≤ |y - x| ∧ (|y - x| = |u - x| → y = u)) ∨ (|v - x| ≤ |y - x| ∧ (|y - x| = |v - x| → y = v)) := by
  wlog huv : u ≤ v generalizing u v
  · rw [mul_comm] at hinside houtside
    exact (this hinside houtside (le_of_not_ge huv)).symm
  have hx : u ≤ x ∧ x ≤ v := by
    rcases mul_nonpos_iff.mp hinside with ⟨h1, h2⟩ | ⟨h1, h2⟩ <;> constructor <;> linarith
  have hy : y ≤ u ∨ v ≤ y := by
    rcases mul_nonneg_iff.mp houtside with ⟨h1, h2⟩ | ⟨h1, h2⟩
    · exact Or.inr (by linarith)
    · exact Or.inl (by linarith)
  rcases hy with hy | hy
  · left
    rw [abs_of_nonpos (by linarith : u - x ≤ 0), abs_of_nonpos (by linarith : y - x ≤ 0)]
    exact ⟨by linarith, fun h => by linarith⟩
  · right
    rw [abs_of_nonneg (by linarith : 0 ≤ v - x), abs_of_nonneg (by linarith : 0 ≤ y - x)]
    exact ⟨by linarith, fun h => by linarith⟩

/-- The denominator of a quotient of whole numbers is at most the divisor. -/
theorem den_intCast_div_le (a : ℤ) {b : ℕ} (hb : 0 < b) : ((a : ℚ) / b).den ≤ b := by
  have hdvd := Rat.den_dvd a b
  rw [Rat.divInt_eq_div, Int.cast_natCast] at hdvd
  exact Nat.le_of_dvd hb (Int.natCast_dvd_natCast.mp hdvd)

/-- A fraction other than a whole number is at least one over its denominator away from it. -/
theorem one_div_den_le_abs_sub {f : ℚ} {k : ℤ} (hne : f ≠ k) : 1 / (f.den : ℚ) ≤ |f - k| := by
  have hden : (0 : ℚ) < f.den := by exact_mod_cast f.den_pos
  have hsub : f - k = ((f.num - k * f.den : ℤ) : ℚ) / f.den := by
    nth_rewrite 1 [← Rat.num_div_den f]
    push_cast
    field_simp
  have hnum : f.num - k * f.den ≠ 0 := by
    intro hzero
    rw [hzero, Int.cast_zero, zero_div, sub_eq_zero] at hsub
    exact hne hsub
  rw [hsub, abs_div, abs_of_pos hden, ← Int.cast_abs, div_le_div_iff_of_pos_right hden]
  exact_mod_cast Int.one_le_abs hnum

/-- Two fractions of determinant one around `x`, with denominators up to a bound that their sum exceeds.  `x` is their mean with
weights `m` and `d`. -/
structure Neighbours (x : ℚ) (bound : ℕ) (p q p' q' m d : ℤ) : Prop where
  num_eq : x.num = p * m + p' * d
  den_eq : x.den = q * m + q' * d
  det_sq : (p' * q - p * q') ^ 2 = 1
  q_pos : 0 < q
  q'_pos : 0 < q'
  m_nonneg : 0 ≤ m
  d_nonneg : 0 ≤ d
  q_le : q ≤ bound
  q'_le : q' ≤ bound
  bound_lt : bound < q + q'

/-- The denominator of a fraction in a pair of determinant one. -/
theorem den_div_of_det_sq {p q p' q' : ℤ} (hq : 0 < q) (hdet : (p' * q - p * q') ^ 2 = 1) : (((p : ℚ) / q).den : ℤ) = q := by
  refine Rat.den_div_eq_of_coprime hq ?_
  refine Int.isCoprime_iff_gcd_eq_one.mp ⟨-q' * (p' * q - p * q'), p' * (p' * q - p * q'), ?_⟩
  linear_combination hdet

namespace Neighbours

variable {x : ℚ} {bound : ℕ} {p q p' q' m d : ℤ}

section

variable (h : Neighbours x bound p q p' q' m d)

include h

theorem det_cases : p' * q - p * q' = 1 ∨ p' * q - p * q' = -1 := sq_eq_one_iff.mp h.det_sq

theorem symm : Neighbours x bound p' q' p q d m where
  num_eq := by rw [h.num_eq, add_comm]
  den_eq := by rw [h.den_eq, add_comm]
  det_sq := by rw [← h.det_sq]; ring
  q_pos := h.q'_pos
  q'_pos := h.q_pos
  m_nonneg := h.d_nonneg
  d_nonneg := h.m_nonneg
  q_le := h.q'_le
  q'_le := h.q_le
  bound_lt := by have := h.bound_lt; omega

theorem den_near : (((p : ℚ) / q).den : ℤ) = q := den_div_of_det_sq h.q_pos h.det_sq

/-- The signed distance to a neighbour is its weight over both denominators. -/
theorem near_sub : (p : ℚ) / q - x = -(p' * q - p * q' : ℤ) * d / (x.den * q) := by
  have hq : (q : ℚ) ≠ 0 := by exact_mod_cast h.q_pos.ne'
  have hden : (x.den : ℚ) ≠ 0 := by exact_mod_cast x.den_ne_zero
  have hnum : (x.num : ℚ) = p * m + p' * d := by exact_mod_cast h.num_eq
  have hden' : (x.den : ℚ) = q * m + q' * d := by exact_mod_cast h.den_eq
  nth_rewrite 1 [← Rat.num_div_den x]
  rw [div_sub_div _ _ hq hden, mul_comm (q : ℚ) x.den]
  congr 1
  rw [hnum, hden']
  push_cast
  ring

theorem abs_near_sub : |(p : ℚ) / q - x| = d / (x.den * q) := by
  have hq : (0 : ℚ) < q := by exact_mod_cast h.q_pos
  have hd : (0 : ℚ) ≤ d := by exact_mod_cast h.d_nonneg
  have hdet : |(p' * q - p * q' : ℤ)| = 1 := by
    rcases h.det_cases with hdet | hdet <;> rw [hdet] <;> rfl
  rw [h.near_sub, abs_div, abs_mul, abs_neg, ← Int.cast_abs, hdet, Int.cast_one, one_mul, abs_of_nonneg hd,
    abs_of_nonneg (by positivity)]

theorem inside : (x - p / q) * (x - p' / q') ≤ 0 := by
  have hq : (0 : ℚ) < q := by exact_mod_cast h.q_pos
  have hq' : (0 : ℚ) < q' := by exact_mod_cast h.q'_pos
  have hd : (0 : ℚ) ≤ d := by exact_mod_cast h.d_nonneg
  have hm : (0 : ℚ) ≤ m := by exact_mod_cast h.m_nonneg
  have hdet : ((p' * q - p * q' : ℤ) : ℚ) ^ 2 = 1 := by exact_mod_cast h.det_sq
  have hprod : (x - p / q) * (x - p' / q') = -(d * m / (x.den * q * (x.den * q'))) := by
    have hnear := h.near_sub
    have hfar := h.symm.near_sub
    have hflip : ((p * q' - p' * q : ℤ) : ℚ) = -(p' * q - p * q' : ℤ) := by push_cast; ring
    rw [hflip] at hfar
    calc (x - p / q) * (x - p' / q') = (p / q - x) * (p' / q' - x) := by ring
      _ = -(((p' * q - p * q' : ℤ) : ℚ) ^ 2 * (d * m / (x.den * q * (x.den * q')))) := by rw [hnear, hfar]; ring
      _ = _ := by rw [hdet, one_mul]
  rw [hprod, neg_nonpos]
  positivity

/-- No denominator up to the bound is strictly between the neighbours. -/
theorem outside {y : ℚ} (hy : y.den ≤ bound) : 0 ≤ (y - p / q) * (y - p' / q') := by
  have hq : (0 : ℚ) < q := by exact_mod_cast h.q_pos
  have hq' : (0 : ℚ) < q' := by exact_mod_cast h.q'_pos
  have hb : (0 : ℚ) < y.den := by exact_mod_cast y.den_pos
  have hlt := h.bound_lt
  have hsigns : (y.num * q - p * y.den) * (p' * y.den - y.num * q') ≤ 0 := by
    by_contra hpos
    rcases pos_and_pos_or_neg_and_neg_of_mul_pos (not_le.mp hpos) with ⟨hlow, hhigh⟩ | ⟨hlow, hhigh⟩
    · rcases h.det_cases with hdet | hdet
      · have := add_le_of_between hdet h.q_pos h.q'_pos hlow hhigh
        omega
      · -- a positive mean of two negative gaps
        have h1 := mul_pos h.q_pos hhigh
        have h2 := mul_pos h.q'_pos hlow
        have hb' : 0 < (y.den : ℤ) := by exact_mod_cast y.den_pos
        nlinarith
    · rcases h.det_cases with hdet | hdet
      · have h1 := mul_neg_of_pos_of_neg h.q_pos hhigh
        have h2 := mul_neg_of_pos_of_neg h.q'_pos hlow
        have hb' : 0 < (y.den : ℤ) := by exact_mod_cast y.den_pos
        nlinarith
      · have := add_le_of_between (show p * q' - p' * q = 1 by omega) h.q'_pos h.q_pos
          (show 0 < y.num * q' - p' * y.den by omega) (show 0 < p * y.den - y.num * q by omega)
        omega
  have hcast : ((y.num : ℚ) * q - p * y.den) * (p' * y.den - y.num * q') ≤ 0 := by exact_mod_cast hsigns
  have hprod : (y - p / q) * (y - p' / q') =
      -(((y.num : ℚ) * q - p * y.den) * (p' * y.den - y.num * q') / (y.den * q * (y.den * q'))) := by
    nth_rewrite 1 2 [← Rat.num_div_den y]
    field_simp
    ring
  rw [hprod, neg_nonneg]
  exact div_nonpos_of_nonpos_of_nonneg hcast (by positivity)

/-- No fraction with a denominator up to the bound is nearer than both neighbours. -/
theorem near_or_far {y : ℚ} (hy : y.den ≤ bound) : (|(p : ℚ) / q - x| ≤ |y - x| ∧ (|y - x| = |(p : ℚ) / q - x| → y = p / q)) ∨
      (|(p' : ℚ) / q' - x| ≤ |y - x| ∧ (|y - x| = |(p' : ℚ) / q' - x| → y = p' / q')) :=
  abs_sub_le_or_of_outside h.inside (h.outside hy)

/-- The nearer of the two neighbours, in whole numbers. -/
theorem near_le_far_iff :
    |(p : ℚ) / q - x| ≤ |(p' : ℚ) / q' - x| ↔ 2 * d * q' ≤ x.den := by
  have hq : (0 : ℚ) < q := by exact_mod_cast h.q_pos
  have hq' : (0 : ℚ) < q' := by exact_mod_cast h.q'_pos
  have hden : (0 : ℚ) < x.den := by exact_mod_cast x.den_pos
  rw [h.abs_near_sub, h.symm.abs_near_sub, div_le_div_iff₀ (by positivity) (by positivity)]
  have hcross : (d : ℚ) * (x.den * q') ≤ m * (x.den * q) ↔ (d : ℚ) * q' ≤ m * q := by
    rw [show (d : ℚ) * (x.den * q') = x.den * (d * q') by ring, show (m : ℚ) * (x.den * q) = x.den * (m * q) by ring,
      mul_le_mul_iff_right₀ hden]
  rw [hcross]
  have hint : (d : ℚ) * q' ≤ m * q ↔ d * q' ≤ m * q := by norm_cast
  rw [hint, h.den_eq]
  constructor <;> intro hle <;> linarith

end

end Neighbours

end TrueAlpha
