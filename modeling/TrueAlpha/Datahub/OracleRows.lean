import Mathlib.Tactic.Positivity
import Mathlib.Tactic.Linarith
import TrueAlpha.Datahub.VendorOracle

/-!
# The rows of the oracle

The comparators of `datahub.oracle_outcomes` over exact rationals, and the CHECKs of `mart.oracle_outcomes` on the rows they
write.  `none` is a division by zero, which loses every row of the run (`oracle_rows_consistent_iff`).
-/

namespace TrueAlpha.Datahub

inductive OracleKind where
  | filing
  | independentParse
  | operator
  deriving DecidableEq, Repr

/-- An `Outcome`; its period is a day or the text of one. -/
structure Outcome (Period : Type) where
  subjectId : String
  field : String
  oracleKind : OracleKind
  period : Period
  servedValue : Option ℚ
  oracleValue : Option ℚ
  source : String
  observationId : Option String
  knowableAt : Option Instant
  ratio : Option ℚ
  tolerance : Option ℚ
  result : OracleResult
  reason : Option String
  deriving DecidableEq, Repr

def divide (a b : ℚ) : Option ℚ := if b = 0 then none else some (a / b)

/-! ## The units that the operator lists -/

structure ShareCount where
  available : Bool
  value : Option ℚ

structure ListedInput where
  issuerId : String
  components : List ShareCount

structure OperatorFigure where
  rowId : ℕ
  asOf : Date
  source : String
  marketCap : Option ℚ
  lastSalePrice : Option ℚ
  knowableAt : Instant

def ShareCount.count (metric : ShareCount) : Option ℚ := if metric.available then metric.value else none

def servedListedUnits (input : ListedInput) : Option ℚ :=
  if ∀ metric ∈ input.components, metric.count.isSome then
    match input.components.filterMap ShareCount.count with
    | [] => none
    | first :: rest => some (if rest ≠ [] ∧ ∀ count ∈ rest, count = first then first else (first :: rest).sum)
  else none

def observationOfRow (rowId : ℕ) : String := "etf-constituent-fact:" ++ toString rowId

def operatorNotComparable (input : ListedInput) (period : Date) (served : Option ℚ) (reason : String)
    (figure : Option OperatorFigure) (witness : Option ℚ) : Outcome Date :=
  { subjectId := input.issuerId
    field := "listed_units"
    oracleKind := .operator
    period
    servedValue := served
    oracleValue := witness
    source := (figure.map OperatorFigure.source).getD "nasdaq-index"
    observationId := figure.map fun figure => observationOfRow figure.rowId
    knowableAt := figure.map OperatorFigure.knowableAt
    ratio := none
    tolerance := none
    result := .notComparable
    reason := some reason }

def judged (ratio tolerance : ℚ) : OracleResult := if |ratio - 1| ≤ tolerance then .agree else .disagree

def compareListedUnits (input : ListedInput) (figures : Dict String OperatorFigure) (ticker : Option String)
    (listAsOf : Date) (tolerance : ℚ) : Option (Outcome Date) :=
  let served := servedListedUnits input
  match ticker.bind figures.get? with
  | none => some (operatorNotComparable input listAsOf served "no_operator_row" none none)
  | some figure =>
    match figure.marketCap with
    | none => some (operatorNotComparable input figure.asOf served "no_market_cap" (some figure) none)
    | some marketCap =>
      match figure.lastSalePrice.filter (0 < ·) with
      | none => some (operatorNotComparable input figure.asOf served "no_price" (some figure) none)
      | some price =>
        let witness := marketCap / price
        match served with
        | none => some (operatorNotComparable input figure.asOf none "no_served_value" (some figure) (some witness))
        | some served =>
          (divide served witness).map fun ratio =>
            { subjectId := input.issuerId
              field := "listed_units"
              oracleKind := .operator
              period := figure.asOf
              servedValue := some served
              oracleValue := some witness
              source := figure.source
              observationId := some (observationOfRow figure.rowId)
              knowableAt := some figure.knowableAt
              ratio := some ratio
              tolerance := some tolerance
              result := judged ratio tolerance
              reason := none }

/-! ## The independent parse -/

def IndependentField.name : IndependentField → String
  | .revenue => "revenue"
  | .grossProfit => "gross_profit"
  | .totalAssets => "total_assets"

def OracleReason.code : OracleReason → String
  | .noDocument => "no_document"
  | .noOracleValue => "no_oracle_value"
  | .noServedValue => "no_served_value"
  | .unitNotUsd => "unit_not_usd"
  | .zeroOracleValue => "zero_oracle_value"
  | .signDiffers => "sign_differs"

def OracleOutcome.outcome (row : OracleOutcome) : Outcome Date :=
  { subjectId := row.subjectId
    field := row.field.name
    oracleKind := .independentParse
    period := row.period
    servedValue := row.servedValue
    oracleValue := row.oracleValue
    source := "sec"
    observationId := row.observationId
    knowableAt := row.knowableAt
    ratio := row.ratio
    tolerance := row.tolerance
    result := row.result
    reason := row.reason.map OracleReason.code }

/-! ## The known answers -/

inductive AnswerKind where
  | exact
  | band
  | numeric
  deriving DecidableEq, Repr

inductive NumericMetric where
  | gppe
  | headcount
  | revenue
  deriving DecidableEq, Repr

/-- A `SentinelKnownAnswer` of a numeric metric, with the values of its decimal texts. -/
structure KnownAnswer where
  issuerId : String
  metric : NumericMetric
  periodEnd : String
  accession : String
  kind : AnswerKind
  expectedValue : Option ℚ
  lowerBound : Option ℚ
  upperBound : Option ℚ
  relativeTolerance : Option ℚ

/-- `_validate_bounds`. -/
structure KnownAnswer.Accepted (answer : KnownAnswer) : Prop where
  exact : answer.kind = .exact → answer.expectedValue.isSome
  band : answer.kind = .band → ∃ lower ∈ answer.lowerBound, ∃ upper ∈ answer.upperBound, lower ≤ upper
  numeric : answer.kind = .numeric → answer.expectedValue.isSome ∧ ∃ tolerance ∈ answer.relativeTolerance, 0 ≤ tolerance

def canonicalMetric : NumericMetric → String
  | .gppe => "gross_profit_per_employee"
  | .headcount => "employees_total"
  | .revenue => "revenue"

structure Judgement where
  oracleValue : ℚ
  ratio : ℚ
  tolerance : ℚ
  result : OracleResult
  reason : Option String
  deriving DecidableEq, Repr

def bandResult (lower upper served : ℚ) : OracleResult := if lower ≤ served ∧ served ≤ upper then .agree else .disagree

def compareBandAnswer (answer : KnownAnswer) (served : ℚ) : Option Judgement := do
  let lower ← answer.lowerBound
  let upper ← answer.upperBound
  let midpoint := (lower + upper) / 2
  -- the source divides before it looks whether the midpoint is zero
  let tolerance ← answer.relativeTolerance.or (divide (upper - midpoint) midpoint)
  let result := bandResult lower upper served
  if midpoint = 0 then some ⟨midpoint, if served = 0 then 1 else 0, tolerance, result, none⟩
  else if served * midpoint < 0 then some ⟨midpoint, |served| / |midpoint|, tolerance, .disagree, some "sign_differs"⟩
  else some ⟨midpoint, served / midpoint, tolerance, result, none⟩

def compareScalarAnswer (answer : KnownAnswer) (served policy : ℚ) : Option Judgement := do
  let expected ← answer.expectedValue
  let tolerance := answer.relativeTolerance.getD policy
  if expected = 0 then
    if served = 0 then some ⟨expected, 1, tolerance, .agree, none⟩ else some ⟨expected, 0, tolerance, .disagree, none⟩
  else if served * expected < 0 then some ⟨expected, |served| / |expected|, tolerance, .disagree, some "sign_differs"⟩
  else some ⟨expected, served / expected, tolerance, judged (served / expected) tolerance, none⟩

def answerJudgement (answer : KnownAnswer) (served policy : ℚ) : Option Judgement :=
  if answer.kind = .band then compareBandAnswer answer served else compareScalarAnswer answer served policy

structure ServedAnswer where
  value : Option ℚ
  subjectId : Option String
  periodEnd : Option String
  observationId : Option String
  knowableAt : Option Instant

def compareKnownAnswer (answer : KnownAnswer) (served : ServedAnswer) (policy : ℚ) : Option (Outcome String) :=
  let outcome (result : OracleResult) (reason : Option String) (observationId : Option String) (knowableAt : Option Instant)
      (numbers : Option Judgement) : Outcome String :=
    { subjectId := (served.subjectId.filter (· ≠ "")).getD answer.issuerId
      field := canonicalMetric answer.metric
      oracleKind := .filing
      period := answer.periodEnd
      servedValue := served.value
      oracleValue := numbers.map Judgement.oracleValue
      source := ((some answer.accession).filter (· ≠ "")).getD "sec-edgar-filing"
      observationId, knowableAt
      ratio := numbers.map Judgement.ratio
      tolerance := numbers.map Judgement.tolerance
      result, reason }
  if served.periodEnd.any (answer.periodEnd < ·) then
    some (outcome .notComparable (some "superseded") served.observationId served.knowableAt none)
  else if served.periodEnd.any (· < answer.periodEnd) then
    some (outcome .notComparable (some "prior_period") served.observationId served.knowableAt none)
  else
    match served.value with
    | none => some (outcome .notComparable (some "no_served_value") served.observationId served.knowableAt none)
    | some value =>
      if served.observationId.isNone ∨ served.knowableAt.isNone then
        some (outcome .notComparable (some "no_observation") none none none)
      else
        (answerJudgement answer value policy).map fun judgement =>
          outcome judgement.result judgement.reason served.observationId served.knowableAt (some judgement)

/-! ## What the table accepts -/

/-- The CHECKs of `mart.oracle_outcomes` on the numbers and the reason of a row. -/
structure Outcome.Storable {Period : Type} (row : Outcome Period) : Prop where
  ratio : ∀ ratio ∈ row.ratio, 0 ≤ ratio
  tolerance : ∀ tolerance ∈ row.tolerance, 0 ≤ tolerance
  carries_numbers : row.result ≠ .notComparable → row.servedValue.isSome ∧ row.oracleValue.isSome ∧ row.ratio.isSome ∧
    row.tolerance.isSome ∧ row.knowableAt.isSome ∧ row.observationId.isSome
  says_why : row.result = .notComparable → row.reason.isSome

def Outcome.Judged {Period : Type} (row : Outcome Period) : Prop :=
  row.result ≠ .notComparable → row.reason ≠ some "sign_differs" →
    (row.result = .agree ↔ ∃ ratio ∈ row.ratio, ∃ tolerance ∈ row.tolerance, |ratio - 1| ≤ tolerance)

def Consistent {Period : Type} (row : Option (Outcome Period)) : Prop := ∃ outcome ∈ row, outcome.Storable ∧ outcome.Judged

def ZeroWitness (input : ListedInput) (figures : Dict String OperatorFigure) (ticker : Option String) : Prop :=
  (input.components ≠ [] ∧ ∀ metric ∈ input.components, metric.count.isSome) ∧
    ∃ figure ∈ ticker.bind figures.get?, figure.marketCap = some 0 ∧ ∃ price ∈ figure.lastSalePrice, 0 < price

def Compares (answer : KnownAnswer) (served : ServedAnswer) (value : ℚ) : Prop :=
  (∀ periodEnd ∈ served.periodEnd, periodEnd = answer.periodEnd) ∧ served.value = some value ∧
    served.observationId.isSome ∧ served.knowableAt.isSome

/-- Without a tolerance of its own, the midpoint of a band is positive, or the band is one negative value; with one, it is not
negative, and the served value is not between the edges of the band and of the tolerance. -/
def BandFits (lower upper value : ℚ) : Option ℚ → Prop
  | none => 0 < lower + upper ∨ lower + upper < 0 ∧ lower = upper
  | some tolerance =>
    let midpoint := (lower + upper) / 2
    0 ≤ tolerance ∧ (midpoint = 0 → value ≠ 0 → (|value| ≤ upper ↔ 1 ≤ tolerance)) ∧ (midpoint ≠ 0 → 0 ≤ value * midpoint →
        ¬ (min (upper - midpoint) (tolerance * |midpoint|) < |value - midpoint| ∧
          |value - midpoint| ≤ max (upper - midpoint) (tolerance * |midpoint|)))

/-- A band fits, or the tolerance is not negative, and below one where the answer is zero and the served value is not. -/
def KnownAnswer.Fits (answer : KnownAnswer) (value policy : ℚ) : Prop :=
  if answer.kind = .band then
    ∀ lower ∈ answer.lowerBound, ∀ upper ∈ answer.upperBound, BandFits lower upper value answer.relativeTolerance
  else
    let tolerance := answer.relativeTolerance.getD policy
    0 ≤ tolerance ∧ (answer.expectedValue = some 0 → value ≠ 0 → tolerance < 1)

section

variable {Period : Type} {row : Outcome Period} {tolerance : ℚ}

theorem consistent_some : Consistent (some row) ↔ row.Storable ∧ row.Judged := by simp [Consistent]

theorem consistent_of_notComparable (h : row.result = .notComparable) (hreason : row.reason.isSome) (hratio : row.ratio = none)
    (htolerance : row.tolerance = none) : Consistent (some row) :=
  consistent_some.mpr ⟨⟨by simp [hratio], by simp [htolerance], fun hne => absurd h hne, fun _ => hreason⟩,
    fun hne => absurd h hne⟩

theorem judged_eq_agree {ratio : ℚ} : judged ratio tolerance = .agree ↔ |ratio - 1| ≤ tolerance := by
  simp [judged]

theorem judged_ne_notComparable {ratio : ℚ} : judged ratio tolerance ≠ .notComparable := by
  unfold judged
  split_ifs <;> decide

structure Judgement.Sound (judgement : Judgement) : Prop where
  ratio : 0 ≤ judgement.ratio
  tolerance : 0 ≤ judgement.tolerance
  judged : judgement.reason ≠ some "sign_differs" → (judgement.result = .agree ↔ |judgement.ratio - 1| ≤ judgement.tolerance)

theorem Judgement.sound_iff {oracleValue ratio : ℚ} {result : OracleResult} :
    (Judgement.mk oracleValue ratio tolerance result none).Sound ↔
      0 ≤ ratio ∧ 0 ≤ tolerance ∧ (result = .agree ↔ |ratio - 1| ≤ tolerance) :=
  ⟨fun h => ⟨h.ratio, h.tolerance, h.judged (by simp)⟩, fun h => ⟨h.1, h.2.1, fun _ => h.2.2⟩⟩

theorem Judgement.sound_signDiffers_iff {oracleValue ratio : ℚ} {result : OracleResult} :
    (Judgement.mk oracleValue ratio tolerance result (some "sign_differs")).Sound ↔ 0 ≤ ratio ∧ 0 ≤ tolerance :=
  ⟨fun h => ⟨h.ratio, h.tolerance⟩, fun h => ⟨h.1, h.2, fun hne => absurd rfl hne⟩⟩

theorem consistent_judgement_iff {judgement : Judgement} (hcompared : judgement.result ≠ .notComparable)
    (hserved : row.servedValue.isSome) (hobservation : row.observationId.isSome) (hknowable : row.knowableAt.isSome)
    (horacle : row.oracleValue = some judgement.oracleValue) (hratio : row.ratio = some judgement.ratio)
    (htolerance : row.tolerance = some judgement.tolerance) (hresult : row.result = judgement.result)
    (hreason : row.reason = judgement.reason) : Consistent (some row) ↔ judgement.Sound := by
  rw [consistent_some]
  constructor
  · rintro ⟨hstorable, hjudged⟩
    refine ⟨hstorable.ratio _ hratio, hstorable.tolerance _ htolerance, fun hsign => ?_⟩
    have hiff := hjudged (hresult ▸ hcompared) (hreason ▸ hsign)
    simpa [hresult, hratio, htolerance] using hiff
  · rintro ⟨hratio', htolerance', hjudged⟩
    refine ⟨⟨?_, ?_, fun _ => ?_, fun hnot => absurd (hresult ▸ hnot) hcompared⟩, fun _ hsign => ?_⟩
    · simpa [hratio] using hratio'
    · simpa [htolerance] using htolerance'
    · simp [hserved, hobservation, hknowable, horacle, hratio, htolerance]
    · simpa [hresult, hratio, htolerance] using hjudged (hreason ▸ hsign)

theorem within_iff {value witness : ℚ} (h : witness ≠ 0) :
    |value / witness - 1| ≤ tolerance ↔ |value - witness| ≤ tolerance * |witness| := by
  rw [div_sub_one h, abs_div, div_le_iff₀ (abs_pos.mpr h)]

theorem le_iff_le_iff_not_between {a b d : ℚ} : (d ≤ a ↔ d ≤ b) ↔ ¬ (min a b < d ∧ d ≤ max a b) := by
  rw [min_lt_iff, le_max_iff]
  constructor
  · rintro h ⟨hlt | hlt, hle | hle⟩
    · exact hle.not_gt hlt
    · exact (h.mpr hle).not_gt hlt
    · exact (h.mp hle).not_gt hlt
    · exact hle.not_gt hlt
  · intro h
    by_contra hne
    have hiff := not_iff.mp hne
    rcases le_or_gt d a with ha | ha
    · exact h ⟨.inr (not_le.mp fun hb => absurd ha (hiff.mpr hb)), .inl ha⟩
    · exact h ⟨.inl ha, .inr (hiff.mp (not_le.mpr ha))⟩

end

/-! ## Bands -/

section

variable {answer : KnownAnswer} {lower upper value tolerance policy : ℚ}

def bandJudgement (lower upper value tolerance : ℚ) : Judgement :=
  let midpoint := (lower + upper) / 2
  if midpoint = 0 then ⟨midpoint, if value = 0 then 1 else 0, tolerance, bandResult lower upper value, none⟩
  else if value * midpoint < 0 then ⟨midpoint, |value| / |midpoint|, tolerance, .disagree, some "sign_differs"⟩
  else ⟨midpoint, value / midpoint, tolerance, bandResult lower upper value, none⟩

theorem compareBandAnswer_eq (hlower : answer.lowerBound = some lower) (hupper : answer.upperBound = some upper) :
    compareBandAnswer answer value =
      (answer.relativeTolerance.or (divide (upper - (lower + upper) / 2) ((lower + upper) / 2))).map
        (bandJudgement lower upper value) := by
  simp only [compareBandAnswer, hlower, hupper, Option.bind_eq_bind, Option.bind_some]
  cases answer.relativeTolerance.or (divide (upper - (lower + upper) / 2) ((lower + upper) / 2)) with
  | none => rfl
  | some tolerance =>
    simp only [Option.bind_some, Option.map_some, bandJudgement]
    split_ifs <;> rfl

theorem bandResult_eq_agree : bandResult lower upper value = .agree ↔ lower ≤ value ∧ value ≤ upper := by simp [bandResult]

theorem bandResult_ne_notComparable : bandResult lower upper value ≠ .notComparable := by
  unfold bandResult
  split_ifs <;> decide

theorem bandJudgement_ne_notComparable : (bandJudgement lower upper value tolerance).result ≠ .notComparable := by
  unfold bandJudgement
  dsimp only
  split_ifs
  · exact bandResult_ne_notComparable
  · exact bandResult_ne_notComparable
  · exact nofun
  · exact bandResult_ne_notComparable

theorem in_band_iff : lower ≤ value ∧ value ≤ upper ↔ |value - (lower + upper) / 2| ≤ upper - (lower + upper) / 2 := by
  rw [abs_le]
  constructor
  · rintro ⟨hlower, hupper⟩
    exact ⟨by linarith, by linarith⟩
  · rintro ⟨hlower, hupper⟩
    exact ⟨by linarith, by linarith⟩

theorem bandJudgement_sound_iff (hle : lower ≤ upper) :
    (bandJudgement lower upper value tolerance).Sound ↔ BandFits lower upper value (some tolerance) := by
  simp only [BandFits, ← le_iff_le_iff_not_between, bandJudgement]
  split_ifs with hzero hvalue hsign
  · -- a value of zero is in a band around zero
    subst hvalue
    have hlower : lower ≤ 0 := by linarith
    have hupper : 0 ≤ upper := by linarith
    rw [Judgement.sound_iff, bandResult_eq_agree]
    simp [hzero, hlower, hupper]
  · have hin : lower ≤ value ∧ value ≤ upper ↔ |value| ≤ upper := by
      rw [in_band_iff, hzero, sub_zero, sub_zero]
    rw [Judgement.sound_iff, bandResult_eq_agree, hin]
    simp [hzero, hvalue]
  · rw [Judgement.sound_signDiffers_iff]
    have hratio : 0 ≤ |value| / |(lower + upper) / 2| := by positivity
    exact ⟨fun h => ⟨h.2, fun h0 => absurd h0 hzero, fun _ hle => absurd hsign hle.not_gt⟩, fun h => ⟨hratio, h.1⟩⟩
  · rw [Judgement.sound_iff, bandResult_eq_agree, in_band_iff, within_iff hzero]
    have hsign' := not_lt.mp hsign
    have hratio : 0 ≤ value / ((lower + upper) / 2) := div_nonneg_iff.mpr (mul_nonneg_iff.mp hsign')
    exact ⟨fun h => ⟨h.2.1, fun h0 => absurd h0 hzero, fun _ _ => h.2.2⟩, fun h => ⟨hratio, h.1, h.2.2 hzero hsign'⟩⟩

theorem bandFits_halfWidth_iff (hle : lower ≤ upper) (hne : (lower + upper) / 2 ≠ 0) :
    BandFits lower upper value (some ((upper - (lower + upper) / 2) / ((lower + upper) / 2))) ↔
      BandFits lower upper value none := by
  simp only [BandFits, hne, false_implies, true_and, ne_eq, not_false_eq_true, true_implies]
  set midpoint := (lower + upper) / 2 with hmidpoint
  have hwidth : 0 ≤ upper - midpoint := by linarith
  rcases lt_or_gt_of_ne hne with hneg | hpos
  · have hsum : lower + upper < 0 := by linarith
    have hnot : ¬ 0 < lower + upper := hsum.not_gt
    constructor
    · rintro ⟨htolerance, -⟩
      have hnonpos : upper - midpoint ≤ 0 :=
        div_mul_cancel₀ (upper - midpoint) hne ▸ mul_nonpos_of_nonneg_of_nonpos htolerance hneg.le
      exact .inr ⟨hsum, by linarith⟩
    · rintro (hpos | ⟨-, heq⟩)
      · exact absurd hpos hnot
      · have hzero : upper - midpoint = 0 := by linarith
        simp [hzero]
  · have hsum : 0 < lower + upper := by linarith
    refine ⟨fun _ => .inl hsum, fun _ => ⟨div_nonneg hwidth hpos.le, fun _ => ?_⟩⟩
    rw [abs_of_pos hpos, div_mul_cancel₀ _ hne]
    simp

theorem compareBandAnswer_sound_iff (hle : lower ≤ upper) (hlower : answer.lowerBound = some lower)
    (hupper : answer.upperBound = some upper) :
    (∃ judgement ∈ compareBandAnswer answer value, judgement.Sound) ↔ BandFits lower upper value answer.relativeTolerance := by
  rw [compareBandAnswer_eq hlower hupper]
  cases answer.relativeTolerance with
  | some tolerance => simpa using bandJudgement_sound_iff hle
  | none =>
    rcases eq_or_ne ((lower + upper) / 2) 0 with hzero | hne
    · have hsum : lower + upper = 0 := by linarith
      simp [divide, BandFits, hsum]
    · rw [← bandFits_halfWidth_iff hle hne, ← bandJudgement_sound_iff hle]
      simp [divide, hne]

/-! ## Scalars -/

theorem compareScalarAnswer_sound_iff {expected : ℚ} (hexpected : answer.expectedValue = some expected) :
    (∃ judgement ∈ compareScalarAnswer answer value policy, judgement.Sound) ↔ 0 ≤ answer.relativeTolerance.getD policy ∧
        (expected = 0 → value ≠ 0 → answer.relativeTolerance.getD policy < 1) := by
  simp only [compareScalarAnswer, hexpected, Option.bind_eq_bind, Option.bind_some]
  set tolerance := answer.relativeTolerance.getD policy
  split_ifs with hzero hvalue hsign <;> simp only [Option.mem_def, Option.some.injEq, exists_eq_left']
  · rw [Judgement.sound_iff]
    simp [hvalue]
  · rw [Judgement.sound_iff]
    simp [hzero, hvalue]
  · rw [Judgement.sound_signDiffers_iff]
    have hratio : 0 ≤ |value| / |expected| := by positivity
    exact ⟨fun h => ⟨h.2, fun h0 => absurd h0 hzero⟩, fun h => ⟨hratio, h.1⟩⟩
  · rw [Judgement.sound_iff]
    have hratio : 0 ≤ value / expected := div_nonneg_iff.mpr (mul_nonneg_iff.mp (not_lt.mp hsign))
    exact ⟨fun h => ⟨h.2.1, fun h0 => absurd h0 hzero⟩, fun h => ⟨hratio, h.1, judged_eq_agree⟩⟩

theorem compareScalarAnswer_ne_notComparable {judgement : Judgement}
    (h : compareScalarAnswer answer value policy = some judgement) : judgement.result ≠ .notComparable := by
  simp only [compareScalarAnswer, Option.bind_eq_bind, Option.bind_eq_some_iff] at h
  obtain ⟨expected, -, h⟩ := h
  split_ifs at h <;> cases h
  · exact nofun
  · exact nofun
  · exact nofun
  · exact judged_ne_notComparable

end

/-! ## The three comparators -/

section

variable {answer : KnownAnswer} {served : ServedAnswer} {value policy : ℚ}

theorem answerJudgement_sound_iff (h : answer.Accepted) :
    (∃ judgement ∈ answerJudgement answer value policy, judgement.Sound) ↔ answer.Fits value policy := by
  unfold answerJudgement KnownAnswer.Fits
  split_ifs with hband
  · obtain ⟨lower, hlower, upper, hupper, hle⟩ := h.band hband
    rw [compareBandAnswer_sound_iff hle hlower hupper]
    simp [Option.mem_def.mp hlower, Option.mem_def.mp hupper]
  · have hexpected : answer.expectedValue.isSome := by
      cases hkind : answer.kind with
      | exact => exact h.exact hkind
      | band => exact absurd hkind hband
      | numeric => exact (h.numeric hkind).1
    obtain ⟨expected, hexpected⟩ := Option.isSome_iff_exists.mp hexpected
    rw [compareScalarAnswer_sound_iff hexpected, hexpected, Option.some.injEq]

theorem answerJudgement_ne_notComparable (h : answer.Accepted) {judgement : Judgement}
    (hjudgement : answerJudgement answer value policy = some judgement) : judgement.result ≠ .notComparable := by
  unfold answerJudgement at hjudgement
  split_ifs at hjudgement with hband
  · obtain ⟨lower, hlower, upper, hupper, -⟩ := h.band hband
    rw [compareBandAnswer_eq hlower hupper] at hjudgement
    obtain ⟨tolerance, -, rfl⟩ := Option.map_eq_some_iff.mp hjudgement
    exact bandJudgement_ne_notComparable
  · exact compareScalarAnswer_ne_notComparable hjudgement

theorem compareKnownAnswer_consistent_iff (h : answer.Accepted) : Consistent (compareKnownAnswer answer served policy) ↔
      ∀ value, Compares answer served value → answer.Fits value policy := by
  cases hvalue : served.value with
  | none =>
    have hnot : ∀ value, ¬ Compares answer served value := fun value hcompares => by
      rw [hcompares.2.1] at hvalue
      cases hvalue
    simp only [compareKnownAnswer, hvalue]
    split_ifs <;> exact iff_of_true (consistent_of_notComparable rfl rfl rfl rfl) fun value h => absurd h (hnot value)
  | some value =>
    simp only [compareKnownAnswer, hvalue]
    split_ifs with hnewer holder hnone
    · refine iff_of_true (consistent_of_notComparable rfl rfl rfl rfl) fun value hcompares => ?_
      obtain ⟨periodEnd, hperiod, hlt⟩ := (Option.any_eq_true _ _).mp hnewer
      exact absurd (of_decide_eq_true hlt) (hcompares.1 periodEnd hperiod).not_gt
    · refine iff_of_true (consistent_of_notComparable rfl rfl rfl rfl) fun value hcompares => ?_
      obtain ⟨periodEnd, hperiod, hlt⟩ := (Option.any_eq_true _ _).mp holder
      exact absurd (of_decide_eq_true hlt) (hcompares.1 periodEnd hperiod).not_lt
    · refine iff_of_true (consistent_of_notComparable rfl rfl rfl rfl) fun value hcompares => ?_
      rcases hnone with hnone | hnone
      · exact absurd hcompares.2.2.1 (by simp [Option.isNone_iff_eq_none.mp hnone])
      · exact absurd hcompares.2.2.2 (by simp [Option.isNone_iff_eq_none.mp hnone])
    · simp only [not_or, Bool.not_eq_true, Option.isNone_eq_false_iff] at hnone
      have hsame : ∀ periodEnd ∈ served.periodEnd, periodEnd = answer.periodEnd := by
        intro periodEnd hperiod
        rw [Option.mem_def.mp hperiod] at hnewer holder
        simp only [Option.any_some, decide_eq_true_eq, not_lt] at hnewer holder
        exact le_antisymm hnewer holder
      have hcompares : ∀ {other : ℚ}, Compares answer served other ↔ value = other := by
        intro other
        rw [Compares, hvalue, Option.some.injEq]
        exact ⟨fun h => h.2.1, fun h => ⟨hsame, h, hnone⟩⟩
      simp only [hcompares, forall_eq']
      rw [← answerJudgement_sound_iff h]
      cases hjudgement : answerJudgement answer value policy with
      | none => simp [Consistent]
      | some judgement =>
        rw [Option.map_some, consistent_judgement_iff (answerJudgement_ne_notComparable h hjudgement) rfl hnone.1 hnone.2 rfl rfl
          rfl rfl rfl]
        simp

end

section

variable {input : ListedInput} {figures : Dict String OperatorFigure} {ticker : Option String} {policy served : ℚ}

theorem servedListedUnits_isSome_iff :
    (servedListedUnits input).isSome ↔ input.components ≠ [] ∧ ∀ metric ∈ input.components, metric.count.isSome := by
  unfold servedListedUnits
  split_ifs with hall
  · have hnil : input.components.filterMap ShareCount.count = [] ↔ input.components = [] := by
      rw [List.filterMap_eq_nil_iff]
      refine ⟨fun hnone => List.eq_nil_iff_forall_not_mem.mpr fun metric hmetric => ?_, fun h => by simp [h]⟩
      have hsome := hall metric hmetric
      rw [hnone metric hmetric] at hsome
      cases hsome
    rw [and_iff_left hall, ne_eq, ← hnil]
    cases input.components.filterMap ShareCount.count with
    | nil => simp
    | cons first rest => simp
  · simp [hall]

theorem servedListedUnits_nonneg (h : ∀ metric ∈ input.components, ∀ value ∈ metric.value, 0 ≤ value)
    (hserved : servedListedUnits input = some served) : 0 ≤ served := by
  have hcounts : ∀ count ∈ input.components.filterMap ShareCount.count, 0 ≤ count := by
    intro count hcount
    obtain ⟨metric, hmetric, hcount⟩ := List.mem_filterMap.mp hcount
    unfold ShareCount.count at hcount
    split_ifs at hcount
    exact h metric hmetric count hcount
  unfold servedListedUnits at hserved
  split_ifs at hserved
  cases hlist : input.components.filterMap ShareCount.count with
  | nil => rw [hlist] at hserved; cases hserved
  | cons first rest =>
    rw [hlist] at hserved hcounts
    cases hserved
    split_ifs
    · exact hcounts first List.mem_cons_self
    · exact List.sum_nonneg hcounts

theorem compareListedUnits_consistent_iff (hpolicy : 0 ≤ policy)
    (hcounts : ∀ metric ∈ input.components, ∀ value ∈ metric.value, 0 ≤ value)
    (hfigures : ∀ name, ∀ figure ∈ figures.get? name, ∀ marketCap ∈ figure.marketCap, 0 ≤ marketCap) (listAsOf : Date) :
    Consistent (compareListedUnits input figures ticker listAsOf policy) ↔ ¬ ZeroWitness input figures ticker := by
  rw [ZeroWitness, ← servedListedUnits_isSome_iff]
  cases hfigure : ticker.bind figures.get? with
  | none =>
    simp only [compareListedUnits, hfigure]
    exact iff_of_true (consistent_of_notComparable rfl rfl rfl rfl) (by simp)
  | some figure =>
    obtain ⟨name, -, hname⟩ := Option.bind_eq_some_iff.mp hfigure
    simp only [Option.mem_def, Option.some.injEq, exists_eq_left']
    cases hcap : figure.marketCap with
    | none =>
      simp only [compareListedUnits, hfigure, hcap]
      exact iff_of_true (consistent_of_notComparable rfl rfl rfl rfl) (by simp)
    | some marketCap =>
      have hnonneg : 0 ≤ marketCap := hfigures name figure hname marketCap hcap
      cases hprice : figure.lastSalePrice.filter (0 < ·) with
      | none =>
        simp only [compareListedUnits, hfigure, hcap, hprice]
        refine iff_of_true (consistent_of_notComparable rfl rfl rfl rfl) ?_
        rintro ⟨-, -, price, hlast, hpos⟩
        exact Option.filter_eq_none_iff.mp hprice price hlast (decide_eq_true hpos)
      | some price =>
        obtain ⟨hlast, hpos⟩ := Option.filter_eq_some_iff.mp hprice
        have hpos : 0 < price := of_decide_eq_true hpos
        cases hserved : servedListedUnits input with
        | none =>
          simp only [compareListedUnits, hfigure, hcap, hprice, hserved]
          exact iff_of_true (consistent_of_notComparable rfl rfl rfl rfl) (by simp)
        | some served =>
          have hserved' : 0 ≤ served := servedListedUnits_nonneg hcounts hserved
          simp only [compareListedUnits, hfigure, hcap, hprice, hserved, divide]
          rcases hnonneg.eq_or_lt with rfl | hcap'
          · simp [Consistent, hlast, hpos]
          · have hne : marketCap / price ≠ 0 := (div_pos hcap' hpos).ne'
            rw [if_neg hne, Option.map_some]
            let judgement : Judgement := ⟨marketCap / price, served / (marketCap / price), policy,
              judged (served / (marketCap / price)) policy, none⟩
            have hsound : judgement.Sound := Judgement.sound_iff.mpr ⟨by positivity, hpolicy, judged_eq_agree⟩
            refine iff_of_true ((consistent_judgement_iff judged_ne_notComparable rfl rfl rfl rfl rfl rfl rfl rfl).mpr hsound) ?_
            rintro ⟨-, hzero, -⟩
            exact hcap'.ne' (Option.some.inj hzero)

end

theorem independentParse_consistent {reader : Reader} {ruleset : ConceptMappingRuleset} {policy : ℚ} (hpolicy : 0 ≤ policy)
    (factor : FactorInput) (field : IndependentField) (facts : Option CompanyFacts) (cutoff : Date) (currency : Option String) :
    Consistent (some (compareIndependentParse reader ruleset factor field facts cutoff policy currency).outcome) := by
  unfold compareIndependentParse
  cases facts with
  | none => exact consistent_of_notComparable rfl rfl rfl rfl
  | some facts =>
    dsimp only
    cases independentParser reader ruleset facts cutoff field with
    | none => exact consistent_of_notComparable rfl rfl rfl rfl
    | some witness =>
      dsimp only
      cases hserved : (factor.metric field).bind ServedMetric.value with
      | none => exact consistent_of_notComparable rfl rfl rfl rfl
      | some served =>
        obtain ⟨metric, hmetric, -⟩ := Option.bind_eq_some_iff.mp hserved
        dsimp only
        let ratio := served / witness.value
        change Consistent (some (OracleOutcome.outcome (if _ then _ else if _ then _ else if _ then _ else
          ⟨_, _, _, _, _, _, _, _, _, judged ratio policy, _⟩)))
        split_ifs with hunit hzero hsign
        · exact consistent_of_notComparable rfl rfl rfl rfl
        · exact consistent_of_notComparable rfl rfl rfl rfl
        · let judgement : Judgement := ⟨witness.value, |served| / |witness.value|, policy, .disagree, some "sign_differs"⟩
          have hsound : judgement.Sound := Judgement.sound_signDiffers_iff.mpr ⟨by positivity, hpolicy⟩
          have hcompared : judgement.result ≠ .notComparable := nofun
          exact (consistent_judgement_iff hcompared rfl (by simp [OracleOutcome.outcome, hmetric]) rfl rfl rfl rfl rfl rfl).mpr hsound
        · let judgement : Judgement := ⟨witness.value, ratio, policy, judged ratio policy, none⟩
          have hratio : 0 ≤ ratio := div_nonneg_iff.mpr (mul_nonneg_iff.mp (not_lt.mp hsign))
          have hsound : judgement.Sound := Judgement.sound_iff.mpr ⟨hratio, hpolicy, judged_eq_agree⟩
          exact (consistent_judgement_iff judged_ne_notComparable rfl (by simp [OracleOutcome.outcome, hmetric]) rfl rfl rfl rfl rfl
            rfl).mpr hsound

/-- Every comparison writes a row that the table accepts and its numbers bear out, except where the operator states a market value
of zero, or the known answer does not fit the served value. -/
theorem oracle_rows_consistent_iff {reader : Reader} {ruleset : ConceptMappingRuleset} {policy : ℚ} (hpolicy : 0 ≤ policy)
    {input : ListedInput} (hcounts : ∀ metric ∈ input.components, ∀ value ∈ metric.value, 0 ≤ value)
    {figures : Dict String OperatorFigure}
    (hfigures : ∀ name, ∀ figure ∈ figures.get? name, ∀ marketCap ∈ figure.marketCap, 0 ≤ marketCap)
    {answer : KnownAnswer} (hanswer : answer.Accepted) (ticker : Option String) (listAsOf : Date) (factor : FactorInput)
    (field : IndependentField) (facts : Option CompanyFacts) (cutoff : Date) (currency : Option String) (served : ServedAnswer) :
    (Consistent (compareListedUnits input figures ticker listAsOf policy) ↔ ¬ ZeroWitness input figures ticker) ∧
    Consistent (some (compareIndependentParse reader ruleset factor field facts cutoff policy currency).outcome) ∧
    (Consistent (compareKnownAnswer answer served policy) ↔ ∀ value, Compares answer served value → answer.Fits value policy) :=
  ⟨compareListedUnits_consistent_iff hpolicy hcounts hfigures listAsOf,
    independentParse_consistent hpolicy factor field facts cutoff currency, compareKnownAnswer_consistent_iff hanswer⟩

/-! ## A market value of zero, and a band around zero -/

def oneListing : ListedInput := ⟨"issuer:cik:0001652044", [⟨true, some 100⟩]⟩

def figureOf (marketCap : ℚ) : Dict String OperatorFigure :=
  Dict.ofList [("GOOG", ⟨1, 739432, "nasdaq-index", some marketCap, some 10, 0⟩)]

def bandAnswer (lower upper : ℚ) : KnownAnswer :=
  ⟨"issuer:cik:0001652044", .gppe, "2024-12-31", "0001652044-25-000014", .band, none, some lower, some upper, none⟩

def servedAnswer (value : ℚ) : ServedAnswer := ⟨some value, none, some "2024-12-31", some "observation", some 0⟩

theorem figureOf_nonneg {marketCap : ℚ} (h : 0 ≤ marketCap) (name : String) (figure : OperatorFigure)
    (hfigure : figure ∈ (figureOf marketCap).get? name) (value : ℚ) (hvalue : value ∈ figure.marketCap) : 0 ≤ value := by
  have hget : (figureOf marketCap).get? name = if "GOOG" = name then _ else none := Dict.get?_set Dict.empty "GOOG" name _
  rw [hget] at hfigure
  split_ifs at hfigure
  · cases hfigure
    cases hvalue
    exact h
  · cases hfigure

theorem bandAnswer_accepted {lower upper : ℚ} (h : lower ≤ upper) : (bandAnswer lower upper).Accepted :=
  ⟨nofun, fun _ => ⟨lower, rfl, upper, rfl, h⟩, nofun⟩

theorem oracle_rows_consistent_sample : Consistent (compareListedUnits oneListing (figureOf 1000) (some "GOOG") 739432 (1 / 20)) ∧
    Consistent (compareKnownAnswer (bandAnswer 8 12) (servedAnswer 11) (1 / 20)) := by
  obtain ⟨hlisted, -, hanswer⟩ := @oracle_rows_consistent_iff filingReader revenueRuleset (1 / 20) (by norm_num) oneListing
    (by simp [oneListing]) (figureOf 1000) (figureOf_nonneg (by norm_num)) (bandAnswer 8 12) (bandAnswer_accepted (by norm_num))
    (some "GOOG") 739432 ⟨"issuer", fun _ => none⟩ .revenue none 0 none (servedAnswer 11)
  refine ⟨hlisted.mpr ?_, hanswer.mpr fun value _ => ?_⟩
  · rintro ⟨-, figure, hfigure, hzero, -⟩
    cases hfigure
    revert hzero
    decide
  · have hkind : (bandAnswer 8 12).kind = .band := rfl
    rw [KnownAnswer.Fits, if_pos hkind]
    intro lower hlower upper hupper
    cases hlower
    cases hupper
    exact .inl (by norm_num)

/-- Both comparisons divide by zero: the operator's units are zero, and so is the midpoint of the band. -/
theorem zero_witness_raises : (0 : ℚ) ≤ 1 / 20 ∧ (bandAnswer (-1) 1).Accepted ∧
    compareListedUnits oneListing (figureOf 0) (some "GOOG") 739432 (1 / 20) = none ∧
    compareKnownAnswer (bandAnswer (-1) 1) (servedAnswer 0) (1 / 20) = none :=
  ⟨by norm_num, bandAnswer_accepted (by norm_num), by decide +kernel, by decide +kernel⟩

end TrueAlpha.Datahub
