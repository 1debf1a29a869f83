import Mathlib.Algebra.Order.Field.Basic
import Mathlib.Data.Nat.Log
import Mathlib.Tactic.Linarith
import Mathlib.Tactic.Ring
import TrueAlpha.Lib.Run

/-!
# Exact decimal arithmetic (`truealpha_contracts/reconciliation.py`)

The context of an operation gets as many digits as its exact result can need, so nothing is rounded (`fix_eq`).  It cannot be
built when that count exceeds the interpreter's limit, as for a zero with a large exponent.
-/

namespace TrueAlpha.Contracts

/-- A finite `Decimal`. -/
structure Decimal where
  negative : Bool
  coefficient : ℕ
  exponent : ℤ
  deriving DecidableEq

namespace Decimal

def signed (d : Decimal) : ℤ := if d.negative then -d.coefficient else d.coefficient

def value (d : Decimal) : ℚ := d.signed * 10 ^ d.exponent

/-- `len(digits)`; a zero has one digit. -/
def digits (d : Decimal) : ℤ := Nat.log 10 d.coefficient + 1

def adjusted (d : Decimal) : ℤ := d.exponent + d.digits - 1

def neg (d : Decimal) : Decimal := { d with negative := !d.negative }

def sum (left right : Decimal) : Decimal :=
  let common := min left.exponent right.exponent
  let total := left.signed * 10 ^ (left.exponent - common).toNat + right.signed * 10 ^ (right.exponent - common).toNat
  ⟨if total = 0 then left.negative && right.negative else total < 0, total.natAbs, common⟩

def product (left right : Decimal) : Decimal :=
  ⟨left.negative ^^ right.negative, left.coefficient * right.coefficient, left.exponent + right.exponent⟩

end Decimal

inductive Raised
  | valueError (text : String)
  /-- One of the trapped signals. -/
  | signal
  deriving DecidableEq

def maxPrec : ℤ := 999999999999999999

def maxEmax : ℤ := 999999999999999999

def minEmin : ℤ := -999999999999999999

def fix (precision : ℤ) (d : Decimal) : Except Raised Decimal :=
  let etiny := minEmin - precision + 1
  if d.coefficient = 0 then .ok { d with exponent := min (max d.exponent etiny) maxEmax }
  else if maxEmax < d.adjusted ∨ d.exponent < max etiny (d.digits + d.exponent - precision) then .error .signal
  else .ok d

def exactContext (precision : ℤ) : Except Raised ℤ :=
  if maxPrec < max 1 precision then .error (.valueError "valid range for prec is [1, MAX_PREC]") else .ok (max 1 precision)

def additivePrecision (left right : Decimal) : ℤ :=
  let common := min left.exponent right.exponent
  max (left.digits + left.exponent - common) (right.digits + right.exponent - common) + 1

def exactAdd (left right : Decimal) : Except Raised Decimal := do
  fix (← exactContext (additivePrecision left right)) (left.sum right)

def exactSubtract (left right : Decimal) : Except Raised Decimal := do
  fix (← exactContext (additivePrecision left right)) (left.sum right.neg)

def exactMultiply (left right : Decimal) : Except Raised Decimal := do
  fix (← exactContext (left.digits + right.digits)) (left.product right)

def InRange (d : Decimal) : Prop := d.coefficient = 0 ∨ minEmin ≤ d.adjusted ∧ d.adjusted ≤ maxEmax

variable {precision : ℤ}

namespace Decimal

variable (left right d : Decimal)

theorem digits_pos : 1 ≤ d.digits := by
  unfold digits
  omega

theorem coefficient_lt : d.coefficient < 10 ^ d.digits.toNat := by
  have hdigits : d.digits.toNat = Nat.log 10 d.coefficient + 1 := by
    unfold digits
    omega
  rw [hdigits]
  exact Nat.lt_pow_succ_log_self (by decide) _

theorem digits_le (hd : d.coefficient ≠ 0) (h : d.coefficient < 10 ^ precision.toNat) : d.digits ≤ precision := by
  have hlog := Nat.log_lt_of_lt_pow hd h
  unfold digits
  omega

theorem natAbs_signed : d.signed.natAbs = d.coefficient := by
  unfold signed
  split <;> simp

theorem signed_natAbs (total : ℤ) (zero : Bool) (exponent : ℤ) :
    (⟨if total = 0 then zero else total < 0, total.natAbs, exponent⟩ : Decimal).signed = total := by
  unfold signed
  rcases lt_trichotomy total 0 with h | rfl | h
  · simp only [h.ne, if_false, h, decide_true, if_true]
    omega
  · cases zero <;> rfl
  · simp only [h.ne', if_false, h.not_gt, decide_false, Bool.false_eq_true]
    omega

theorem shift_eq {common exponent : ℤ} (h : common ≤ exponent) :
    (10 : ℚ) ^ (exponent - common).toNat * 10 ^ common = 10 ^ exponent := by
  rw [← zpow_natCast, Int.toNat_of_nonneg (by omega), ← zpow_add₀ (by norm_num), sub_add_cancel]

theorem value_sum : (left.sum right).value = left.value + right.value := by
  simp only [sum, value, signed_natAbs]
  push_cast
  rw [add_mul, mul_assoc, mul_assoc, shift_eq (min_le_left _ _), shift_eq (min_le_right _ _)]

theorem value_neg : right.neg.value = -right.value := by
  obtain ⟨negative, coefficient, exponent⟩ := right
  cases negative <;> simp [value, signed, neg]

theorem value_product : (left.product right).value = left.value * right.value := by
  have hsigned : (left.product right).signed = left.signed * right.signed := by
    obtain ⟨negative, coefficient, exponent⟩ := left
    obtain ⟨negative', coefficient', exponent'⟩ := right
    cases negative <;> cases negative' <;> simp [product, signed]
  simp only [value, hsigned]
  rw [show (left.product right).exponent = left.exponent + right.exponent from rfl, zpow_add₀ (by norm_num)]
  push_cast
  ring

theorem natAbs_shift_lt (common : ℤ) (hcommon : common ≤ d.exponent) (h : d.digits + d.exponent - common ≤ precision) :
    (d.signed * 10 ^ (d.exponent - common).toNat).natAbs < 10 ^ precision.toNat := by
  rw [Int.natAbs_mul, natAbs_signed, Int.natAbs_pow]
  calc d.coefficient * 10 ^ (d.exponent - common).toNat
    _ < 10 ^ d.digits.toNat * 10 ^ (d.exponent - common).toNat :=
      Nat.mul_lt_mul_of_pos_right d.coefficient_lt (by positivity)
    _ = 10 ^ (d.digits.toNat + (d.exponent - common).toNat) := (Nat.pow_add _ _ _).symm
    _ ≤ 10 ^ precision.toNat := Nat.pow_le_pow_right (by decide) (by have := d.digits_pos; omega)

theorem digits_sum_le (h : (left.sum right).coefficient ≠ 0) : (left.sum right).digits ≤ additivePrecision left right := by
  refine digits_le _ h ?_
  simp only [additivePrecision]
  set common := min left.exponent right.exponent
  generalize hmax : max (left.digits + left.exponent - common) (right.digits + right.exponent - common) = precision
  have hleft := left.natAbs_shift_lt common (min_le_left _ _) (hmax ▸ le_max_left _ _)
  have hright := right.natAbs_shift_lt common (min_le_right _ _) (hmax ▸ le_max_right _ _)
  have hnonneg : 0 ≤ precision := by
    have := left.digits_pos
    omega
  rw [show (precision + 1).toNat = precision.toNat + 1 by omega, Nat.pow_succ]
  have htotal := Int.natAbs_add_le (left.signed * 10 ^ (left.exponent - common).toNat)
    (right.signed * 10 ^ (right.exponent - common).toNat)
  have hsum : (left.sum right).coefficient = (left.signed * 10 ^ (left.exponent - common).toNat +
    right.signed * 10 ^ (right.exponent - common).toNat).natAbs := rfl
  omega

theorem digits_product_le (h : (left.product right).coefficient ≠ 0) :
    (left.product right).digits ≤ left.digits + right.digits := by
  refine digits_le _ h ?_
  rw [Int.toNat_add (by have := left.digits_pos; omega) (by have := right.digits_pos; omega), Nat.pow_add]
  exact Nat.mul_lt_mul'' left.coefficient_lt right.coefficient_lt

end Decimal

variable (left right : Decimal)

theorem value_of_fix {d : Decimal} (hrange : InRange d) (hdigits : d.coefficient ≠ 0 → d.digits ≤ precision) :
    ∃ r, fix precision d = .ok r ∧ r.value = d.value := by
  unfold fix
  by_cases hd : d.coefficient = 0
  · exact ⟨_, if_pos hd, by simp [Decimal.value, Decimal.signed, hd]⟩
  · obtain ⟨hlow, hhigh⟩ := hrange.resolve_left hd
    have := hdigits hd
    refine ⟨d, ?_, rfl⟩
    rw [if_neg hd, if_neg]
    unfold Decimal.adjusted at hlow hhigh ⊢
    omega

theorem exact_iff {d : Decimal} (hprecision : 1 ≤ precision) (hrange : InRange d)
    (hdigits : d.coefficient ≠ 0 → d.digits ≤ precision) :
    (∃ r, (do fix (← exactContext precision) d) = .ok r ∧ r.value = d.value) ↔ precision ≤ maxPrec := by
  unfold exactContext
  rw [max_eq_right hprecision]
  by_cases h : maxPrec < precision
  · rw [if_pos h]
    exact ⟨fun ⟨_, hr, _⟩ => (nomatch hr), fun hle => absurd h hle.not_gt⟩
  · rw [if_neg h]
    exact ⟨fun _ => not_lt.1 h, fun _ => value_of_fix hrange hdigits⟩

theorem one_le_additivePrecision : 1 ≤ additivePrecision left right := by
  have := left.digits_pos
  simp only [additivePrecision]
  omega

/-- Each operation is exact exactly when its context has no more digits than the interpreter allows. -/
theorem exact_operations_iff : (InRange (left.sum right) →
      ((∃ r, exactAdd left right = .ok r ∧ r.value = left.value + right.value) ↔ additivePrecision left right ≤ maxPrec)) ∧
    (InRange (left.sum right.neg) → ((∃ r, exactSubtract left right = .ok r ∧ r.value = left.value - right.value) ↔
        additivePrecision left right ≤ maxPrec)) ∧
    (InRange (left.product right) → ((∃ r, exactMultiply left right = .ok r ∧ r.value = left.value * right.value) ↔
        left.digits + right.digits ≤ maxPrec)) := by
  refine ⟨fun h => ?_, fun h => ?_, fun h => ?_⟩
  · rw [← Decimal.value_sum]
    exact exact_iff (one_le_additivePrecision left right) h (Decimal.digits_sum_le left right)
  · rw [sub_eq_add_neg, ← Decimal.value_neg, ← Decimal.value_sum]
    exact exact_iff (one_le_additivePrecision left right) h (Decimal.digits_sum_le left right.neg)
  · rw [← Decimal.value_product]
    have := left.digits_pos
    have := right.digits_pos
    exact exact_iff (by omega) h (Decimal.digits_product_le left right)

/-- A zero of the greatest exponent cannot be added to one: each place between them needs a digit. -/
theorem large_zero_not_added : ¬ ∀ left right : Decimal, InRange (left.sum right) →
      ∃ r, exactAdd left right = .ok r ∧ r.value = left.value + right.value := by
  intro h
  have hsum : (⟨false, 0, maxEmax⟩ : Decimal).sum ⟨false, 1, 0⟩ = ⟨false, 1, 0⟩ := by
    simp only [Decimal.sum, Decimal.signed, Bool.false_eq_true, if_false, Nat.cast_zero, zero_mul]
    rfl
  have hone : (⟨false, 1, 0⟩ : Decimal).digits = 1 := by simp [Decimal.digits]
  have hzero : (⟨false, 0, maxEmax⟩ : Decimal).digits = 1 := by simp [Decimal.digits]
  obtain ⟨r, hr, -⟩ := h ⟨false, 0, maxEmax⟩ ⟨false, 1, 0⟩ (by
    rw [hsum, InRange, Decimal.adjusted, hone]
    decide)
  rw [exactAdd, additivePrecision, hone, hzero] at hr
  cases hr

end TrueAlpha.Contracts
