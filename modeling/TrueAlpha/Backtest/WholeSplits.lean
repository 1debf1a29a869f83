import TrueAlpha.Backtest.SplitDerivation
import TrueAlpha.Lib.BestFraction

/-!
# Whole splits and rounding noise

`limitDenominator` returns a nearest fraction up to its bound, and of two the one with the smaller denominator.  A step near a
whole split snaps to it exactly within half of `1 / maxFactorDenominator`, which the tolerance allows up to a factor of five
only (`snap_whole_iff`).
-/

namespace TrueAlpha.Backtest

/-! ## The loop of `limit_denominator` -/

/-- Two convergents of determinant one, of which `x` is a mean with the weights `n` and `d`. -/
structure LimitInv (x : ℚ) (bound : ℕ) (n : ℤ) (d : ℕ) (p0 q0 p1 q1 : ℤ) : Prop where
  num_eq : x.num = p1 * n + p0 * d
  den_eq : x.den = q1 * n + q0 * d
  det_sq : (p0 * q1 - p1 * q0) ^ 2 = 1
  q0_nonneg : 0 ≤ q0
  q1_nonneg : 0 ≤ q1
  q0_le : q0 ≤ bound
  q1_le : q1 ≤ bound
  -- after the first step the denominators grow and the weights shrink
  order : q1 = 0 ∨ q0 ≤ q1 ∧ (d : ℤ) < n

variable {x : ℚ} {bound : ℕ} {n : ℤ} {d : ℕ} {p0 q0 p1 q1 : ℤ}

theorem limitInv_initial (hbound : 1 ≤ bound) : LimitInv x bound x.num x.den 0 1 1 0 where
  num_eq := by ring
  den_eq := by ring
  det_sq := by ring
  q0_nonneg := by omega
  q1_nonneg := le_refl 0
  q0_le := by omega
  q1_le := by omega
  order := Or.inl rfl

namespace LimitInv

section

variable (h : LimitInv x bound n d p0 q0 p1 q1)

include h

theorem quotient_nonneg : 0 ≤ n / d * q1 := by
  rcases h.order with hzero | ⟨-, hlt⟩
  · rw [hzero, mul_zero]
  · exact mul_nonneg (Int.ediv_nonneg (by omega) (by omega)) h.q1_nonneg

theorem step (hd : d ≠ 0) (hle : q0 + n / d * q1 ≤ bound) :
    LimitInv x bound d (n % d).toNat p1 q1 (p0 + n / d * p1) (q0 + n / d * q1) := by
  have hpos : (0 : ℤ) < d := by omega
  have hrest : ((n % d).toNat : ℤ) = n - n / d * d := by
    rw [Int.toNat_of_nonneg (Int.emod_nonneg n hpos.ne'), Int.emod_def, mul_comm]
  have hsmall := Int.emod_lt_of_pos n hpos
  have hquot := h.quotient_nonneg
  have hq0 := h.q0_nonneg
  refine ⟨?_, ?_, ?_, h.q1_nonneg, by omega, h.q1_le, hle, Or.inr ⟨?_, ?_⟩⟩
  · rw [hrest, h.num_eq]
    ring
  · rw [hrest, h.den_eq]
    ring
  · rw [← h.det_sq]
    ring
  · rcases h.order with hzero | ⟨hgrow, hlt⟩
    · omega
    · have hone : 1 ≤ n / d := (Int.le_ediv_iff_mul_le hpos).mpr (by omega)
      have := mul_le_mul_of_nonneg_right hone h.q1_nonneg
      omega
  · rw [Int.toNat_of_nonneg (Int.emod_nonneg n hpos.ne')]
    exact hsmall

theorem rest_ne_zero (hden : bound < x.den) : d ≠ 0 := by
  intro hzero
  have hnum : x.num = p1 * n := by rw [h.num_eq, hzero]; simp
  have hdenom : (x.den : ℤ) = q1 * n := by rw [h.den_eq, hzero]; simp
  have hunit : IsUnit n := by
    have hcop : IsCoprime x.num x.den := Rat.isCoprime_num_den x
    exact hcop.isUnit_of_dvd' ⟨p1, by rw [hnum, mul_comm]⟩ ⟨q1, by rw [hdenom, mul_comm]⟩
  have hle := h.q1_le
  have hnonneg := h.q1_nonneg
  rcases Int.isUnit_iff.mp hunit with rfl | rfl <;> omega

theorem neighbours (hd : d ≠ 0) (hstop : bound < q0 + n / d * q1) :
    Neighbours x bound p1 q1 (p0 + (bound - q0) / q1 * p1) (q0 + (bound - q0) / q1 * q1) (n - (bound - q0) / q1 * d) d := by
  have hpos : (0 : ℤ) < d := by omega
  have hq0 := h.q0_nonneg
  have hq0' := h.q0_le
  have hq1 : 0 < q1 := by
    refine lt_of_le_of_ne h.q1_nonneg fun hzero => ?_
    rw [← hzero, mul_zero] at hstop
    omega
  have hle := Int.ediv_mul_le ((bound : ℤ) - q0) hq1.ne'
  have hlt := Int.lt_ediv_add_one_mul_self ((bound : ℤ) - q0) hq1
  have hk : 0 ≤ ((bound : ℤ) - q0) / q1 := Int.ediv_nonneg (by omega) hq1.le
  have hquot : ((bound : ℤ) - q0) / q1 ≤ n / d := by
    refine Int.le_of_lt_add_one (Int.ediv_lt_of_lt_mul hq1 ?_)
    rw [add_mul]
    omega
  have hweight : ((bound : ℤ) - q0) / q1 * d ≤ n := (Int.le_ediv_iff_mul_le hpos).mp hquot
  have hq1' := h.q1_le
  refine ⟨?_, ?_, ?_, hq1, ?_, by omega, by omega, h.q1_le, by omega, ?_⟩
  · rw [h.num_eq]
    ring
  · rw [h.den_eq]
    ring
  · rw [← h.det_sq]
    ring
  · -- a zero denominator is the first convergent alone, and then the quotient is the whole bound
    rcases hq0.lt_or_eq with hlt0 | hzero
    · have := mul_nonneg hk hq1.le
      omega
    · have hone : 1 ≤ ((bound : ℤ) - q0) / q1 := (Int.le_ediv_iff_mul_le hq1).mpr (by omega)
      have := mul_le_mul_of_nonneg_right hone hq1.le
      omega
  · rw [add_mul] at hlt
    omega

end

end LimitInv

theorem limitLoop_inv (h : LimitInv x bound n d p0 q0 p1 q1) (hden : bound < x.den) :
    ∃ n', LimitInv x bound n' (limitLoop bound n d p0 q0 p1 q1).d (limitLoop bound n d p0 q0 p1 q1).p0
        (limitLoop bound n d p0 q0 p1 q1).q0 (limitLoop bound n d p0 q0 p1 q1).p1
        (limitLoop bound n d p0 q0 p1 q1).q1 ∧
      bound < (limitLoop bound n d p0 q0 p1 q1).q0 +
        n' / (limitLoop bound n d p0 q0 p1 q1).d * (limitLoop bound n d p0 q0 p1 q1).q1 := by
  fun_induction limitLoop bound n d p0 q0 p1 q1 with
  | case1 n p0 q0 p1 q1 => exact absurd rfl (h.rest_ne_zero hden)
  | case2 n d p0 q0 p1 q1 hd a q2 hstop => exact ⟨n, h, hstop⟩
  | case3 n d p0 q0 p1 q1 hd a q2 hgo ih => exact ih (h.step hd (not_lt.mp hgo))

section

variable (hbound : 1 ≤ bound)

include hbound

theorem limitDenominator_cases : (x.den ≤ bound ∧ limitDenominator x bound = x) ∨
      ∃ p q p' q' m d : ℤ, Neighbours x bound p q p' q' m d ∧ (d * q' = m * q → q ≤ q') ∧
        limitDenominator x bound = if 2 * d * q' ≤ x.den then (p : ℚ) / q else (p' : ℚ) / q' := by
  by_cases hden : x.den ≤ bound
  · exact Or.inl ⟨hden, by rw [limitDenominator, if_pos hden]⟩
  · right
    obtain ⟨n, h, hstop⟩ := limitLoop_inv (limitInv_initial hbound) (not_le.mp hden)
    have hne := h.rest_ne_zero (not_le.mp hden)
    have hnear := h.neighbours hne hstop
    refine ⟨_, _, _, _, _, _, hnear, fun htie => ?_, by rw [limitDenominator, if_neg hden]⟩
    generalize limitLoop bound x.num x.den 0 1 1 0 = c at h hnear htie ⊢
    have hpos := hnear.q_pos
    rcases h.order with hzero | ⟨hgrow, hlt⟩
    · omega
    · -- without a whole step the two denominators are those of the loop, and the weights are not in balance
      rcases (Int.ediv_nonneg (by have := h.q0_le; omega) hpos.le : 0 ≤ ((bound : ℤ) - c.q0) / c.q1).lt_or_eq with
        hk | hk
      · have h1 := mul_le_mul_of_nonneg_right (Int.add_one_le_of_lt hk) hpos.le
        have h2 := h.q0_nonneg
        omega
      · rw [← hk] at htie
        simp only [zero_mul, add_zero, sub_zero] at htie
        have h1 : (c.d : ℤ) * c.q0 ≤ c.d * c.q1 := mul_le_mul_of_nonneg_left hgrow (by omega)
        have h2 : (c.d : ℤ) * c.q1 < n * c.q1 := mul_lt_mul_of_pos_right hlt hpos
        omega

theorem limitDenominator_den_le : (limitDenominator x bound).den ≤ bound := by
  rcases limitDenominator_cases (x := x) hbound with ⟨hden, heq⟩ | ⟨p, q, p', q', m, d, h, -, heq⟩
  · rw [heq]
    exact hden
  · have hnear := h.den_near
    have hfar := h.symm.den_near
    have hq := h.q_le
    have hq' := h.q'_le
    rw [heq]
    split_ifs <;> omega

theorem abs_limitDenominator_sub_le {y : ℚ} (hy : y.den ≤ bound) :
    |limitDenominator x bound - x| ≤ |y - x| := by
  rcases limitDenominator_cases (x := x) hbound with ⟨-, heq⟩ | ⟨p, q, p', q', m, d, h, -, heq⟩
  · rw [heq, sub_self, abs_zero]
    exact abs_nonneg _
  · rw [heq]
    rcases h.near_or_far hy with ⟨hle, -⟩ | ⟨hle, -⟩
    · split_ifs with hcomp
      · exact hle
      · exact le_trans (le_of_not_ge fun hlt => hcomp (h.near_le_far_iff.mp hlt)) hle
    · split_ifs with hcomp
      · exact le_trans (h.near_le_far_iff.mpr hcomp) hle
      · exact hle

theorem limitDenominator_den_le_of_tie {y : ℚ} (hy : y.den ≤ bound)
    (htie : |y - x| = |limitDenominator x bound - x|) : (limitDenominator x bound).den ≤ y.den := by
  rcases limitDenominator_cases (x := x) hbound with ⟨-, heq⟩ | ⟨p, q, p', q', m, d, h, hless, heq⟩
  · rw [heq, sub_self, abs_zero, abs_eq_zero, sub_eq_zero] at htie
    rw [heq, htie]
  · have hnear := h.den_near
    have hfar := h.symm.den_near
    by_cases hcomp : 2 * d * q' ≤ x.den
    · rw [if_pos hcomp] at heq
      rw [heq] at htie ⊢
      rcases h.near_or_far hy with ⟨-, huniq⟩ | ⟨hle, huniq⟩
      · rw [huniq htie]
      · -- the other neighbour is as near, so the weights are in balance
        have hback : |(p' : ℚ) / q' - x| ≤ |(p : ℚ) / q - x| := le_trans hle htie.le
        have hforth := h.near_le_far_iff.mpr hcomp
        have hcomp' := h.symm.near_le_far_iff.mp hback
        have hden := h.den_eq
        have hbalance : d * q' = m * q := by linarith
        rw [huniq (htie.trans (le_antisymm hforth hback))]
        have := hless hbalance
        omega
    · rw [if_neg hcomp] at heq
      rw [heq] at htie ⊢
      have hlt : |(p' : ℚ) / q' - x| < |(p : ℚ) / q - x| := not_le.mp fun hle => hcomp (h.near_le_far_iff.mp hle)
      rcases h.near_or_far hy with ⟨hle, -⟩ | ⟨-, huniq⟩
      · rw [htie] at hle
        exact absurd hlt (not_lt.mpr hle)
      · rw [huniq htie]

theorem limitDenominator_ne_of_lt {k : ℤ} (hfar : 1 / (2 * (bound : ℚ)) < |x - k|) : limitDenominator x bound ≠ k := by
  intro heq
  have hpos : (0 : ℚ) < bound := by exact_mod_cast hbound
  have hstep : 0 < 1 / (bound : ℚ) := by positivity
  have hhalf : 1 / (2 * (bound : ℚ)) = 1 / bound / 2 := by
    field_simp
  have hnext : ∀ r : ℤ, |(k : ℚ) - x| ≤ |k + r * (1 / bound) - x| := by
    intro r
    have hbest := abs_limitDenominator_sub_le (x := x) hbound (den_intCast_div_le (k * bound + r) hbound)
    have hsum : ((k * bound + r : ℤ) : ℚ) / bound = k + r * (1 / bound) := by
      push_cast
      field_simp
    rwa [heq, hsum] at hbest
  rw [hhalf, lt_abs] at hfar
  rcases hfar with hfar | hfar
  · -- the value is above: the next fraction upwards
    have hbest := hnext 1
    rw [Int.cast_one, one_mul, abs_of_neg (by linarith : (k : ℚ) - x < 0)] at hbest
    rcases abs_cases ((k : ℚ) + 1 / bound - x) with ⟨habs, -⟩ | ⟨habs, -⟩ <;> linarith
  · have hbest := hnext (-1)
    rw [Int.cast_neg, Int.cast_one, neg_one_mul, abs_of_pos (by linarith : 0 < (k : ℚ) - x)] at hbest
    rcases abs_cases ((k : ℚ) + -(1 / bound) - x) with ⟨habs, -⟩ | ⟨habs, -⟩ <;> linarith

end

theorem limitDenominator_eq_of_le (hbound : 2 ≤ bound) {k : ℤ} (hnear : |x - k| ≤ 1 / (2 * bound)) :
    limitDenominator x bound = k := by
  by_contra hne
  have hone : 1 ≤ bound := by omega
  have hpos : (0 : ℚ) < bound := by exact_mod_cast hone
  have hkden : ((k : ℚ)).den ≤ bound := by rw [Rat.den_intCast]; exact hone
  have hbest := abs_limitDenominator_sub_le (x := x) hone hkden
  have hden : ((limitDenominator x bound).den : ℚ) ≤ bound := by exact_mod_cast limitDenominator_den_le hone
  have hfden : (0 : ℚ) < (limitDenominator x bound).den := by exact_mod_cast (limitDenominator x bound).den_pos
  have haway := one_div_den_le_abs_sub hne
  have hfine : 1 / (bound : ℚ) ≤ 1 / (limitDenominator x bound).den := one_div_le_one_div_of_le hfden hden
  have hsum : 1 / (bound : ℚ) = 1 / (2 * bound) + 1 / (2 * bound) := by
    field_simp
    norm_num
  have htriangle := abs_sub_le (limitDenominator x bound) x k
  rw [abs_sub_comm (k : ℚ)] at hbest
  -- both are half a step away, so the result is whole, and then it is a whole step away
  have htie : |(k : ℚ) - x| = |limitDenominator x bound - x| := by
    rw [abs_sub_comm (k : ℚ)]
    linarith
  have hless := limitDenominator_den_le_of_tie hone hkden htie
  rw [Rat.den_intCast] at hless
  have hwhole : (limitDenominator x bound).den = 1 := le_antisymm hless (limitDenominator x bound).den_pos
  rw [hwhole, Nat.cast_one, div_one] at haway
  have hsmall : 1 / (bound : ℚ) < 1 := (div_lt_one hpos).mpr (by exact_mod_cast hbound)
  linarith

theorem limitDenominator_eq_intCast_iff (hbound : 2 ≤ bound) {k : ℤ} : limitDenominator x bound = k ↔ |x - k| ≤ 1 / (2 * bound) :=
  ⟨fun heq => not_lt.mp fun hfar => limitDenominator_ne_of_lt (by omega) hfar heq, limitDenominator_eq_of_le hbound⟩

theorem one_lt_of_near {n : ℤ} {step : ℚ} (hn : 2 ≤ n) (hstep : |step / n - 1| ≤ ratioTolerance) : 1 < step := by
  have hn' : (2 : ℚ) ≤ n := by exact_mod_cast hn
  have hlow : 1 - ratioTolerance ≤ step / n := by linarith [(abs_le.mp hstep).1]
  rw [le_div_iff₀ (by linarith)] at hlow
  have htolerance : ratioTolerance = 5 / 1000 := rfl
  rw [htolerance] at hlow
  linarith

/-- Both directions of a whole split, within the tolerance that is rounding noise. -/
theorem snap_whole_iff (symbol : Symbol) (session : Date) (n : ℤ) (step : ℚ) (hn : 2 ≤ n)
    (hnoise : |n / step - 1| ≤ ratioTolerance) (hnoise' : |step / n - 1| ≤ ratioTolerance) :
    (snap symbol session step = .ok (n : ℚ) ∧ snap symbol session (1 / step) = .ok (1 / (n : ℚ))) ↔
      |step - n| ≤ 1 / (2 * maxFactorDenominator) := by
  have hstep : 1 < step := one_lt_of_near hn hnoise'
  have hn' : (2 : ℚ) ≤ n := by exact_mod_cast hn
  have hforward : nearestRatio step = .ok (limitDenominator step maxFactorDenominator) := if_pos hstep.le
  have hinverse : ¬ 1 ≤ 1 / step := not_le.mpr ((div_lt_one (by linarith)).mpr hstep)
  have hbackward : nearestRatio (1 / step) = reciprocal (limitDenominator step maxFactorDenominator) := by
    have hne : 1 / step ≠ 0 := by positivity
    rw [nearestRatio, if_neg hinverse, reciprocal, if_neg hne, one_div_one_div]
    rfl
  rw [← limitDenominator_eq_intCast_iff (by decide)]
  constructor
  · rintro ⟨hsnap, -⟩
    obtain ⟨hnearest, -, -⟩ := snap_eq_ok_iff.mp hsnap
    rw [hforward] at hnearest
    exact Except.ok.inj hnearest
  · intro hnearest
    rw [hnearest] at hforward hbackward
    refine ⟨snap_eq_ok_iff.mpr ⟨hforward, by linarith, hnoise⟩, snap_eq_ok_iff.mpr ⟨?_, ?_, ?_⟩⟩
    · rw [hbackward, reciprocal, if_neg (by linarith)]
    · have : 1 / (n : ℚ) < 1 := (div_lt_one (by linarith)).mpr (by linarith)
      linarith
    · have hratio : 1 / (n : ℚ) / (1 / step) = step / n := by
        field_simp
      rw [hratio]
      exact hnoise'

theorem snap_whole_iff_sample :
    (snap "AAA" 20 (4 + 1 / 50) = .ok ((4 : ℤ) : ℚ) ∧ snap "AAA" 20 (1 / (4 + 1 / 50)) = .ok (1 / ((4 : ℤ) : ℚ))) ↔
      |(4 + 1 / 50 : ℚ) - (4 : ℤ)| ≤ 1 / (2 * maxFactorDenominator) :=
  snap_whole_iff "AAA" 20 4 (4 + 1 / 50) (by decide) (by decide +kernel) (by decide +kernel)

/-- A six-for-one split whose step is within the tolerance snaps to another fraction. -/
theorem whole_split_missed :
    |((6 : ℤ) : ℚ) / (6 + 3 / 100) - 1| ≤ ratioTolerance ∧ |(6 + 3 / 100 : ℚ) / (6 : ℤ) - 1| ≤ ratioTolerance ∧
      snap "AAA" 20 (6 + 3 / 100) = .ok (121 / 20) ∧ snap "AAA" 20 (1 / (6 + 3 / 100)) = .ok (20 / 121) := by
  decide +kernel

end TrueAlpha.Backtest
