import TrueAlpha.Datahub.AnnualIndex
import TrueAlpha.Datahub.AnnualValues

/-!
# The independent parse

`quality.vendor_oracle` over company-facts documents, and the comparison of a served figure with it by `datahub.oracle_outcomes`.
The parser reads wider concepts and keeps the first entry of the newest period (`revenue_agrees_iff`).
-/

namespace TrueAlpha.Datahub

structure VendorFact where
  value : ℚ
  periodEnd : Date
  concept : String
  filed : Date
  deriving DecidableEq, Repr

namespace VendorOracle

variable (reader : Reader)

def annualFact (concept : String) (entry : FactEntry) : Option VendorFact := do
  let filedRaw ← entry.filed.filter (· ≠ "")
  let endRaw ← entry.end.filter (· ≠ "")
  let valueRaw ← entry.val
  let filed ← reader.date filedRaw
  let periodEnd ← reader.date endRaw
  let start ← readStart reader entry.start
  if start.any (periodEnd - · < annualMinimumDays) then none
  else (reader.decimal valueRaw).map fun value => ⟨value, periodEnd, concept, filed⟩

variable (facts : CompanyFacts) (ruleset : ConceptMappingRuleset) (cutoff : Date)

/-- `_annual_entries`, for US dollars. -/
def annualEntries (concept : String) : List VendorFact :=
  ((facts.entries "us-gaap" concept "USD").filterMap (annualFact reader concept)).filter (·.filed ≤ cutoff)

def latestAcrossVariants (concepts : List String) : Option VendorFact :=
  firstBest (fun fact => -fact.periodEnd) ((concepts.flatMap (annualEntries reader facts cutoff)).map some)

def rulesetUsGaapConcepts (fields extra : List String) : List String := distinct ((fields.flatMap fun field =>
    (((ruleset.mappingFor field).map FieldMapping.concepts).getD []).filterMap fun item =>
      if item.taxonomy = "us-gaap" then some item.concept else none) ++ extra)

def extraRevenue : List String :=
  ["SalesRevenueNet", "SalesRevenueGoodsNet", "SalesRevenueServicesNet", "PremiumsEarnedNet", "FinancialServicesRevenue",
    "HealthCareOrganizationRevenue", "OperatingLeasesIncomeStatementLeaseRevenue"]

def revenueConcepts : List String :=
  rulesetUsGaapConcepts ruleset ["revenue", "bank_revenue", "interest_income_expense_net", "noninterest_income"] extraRevenue

def cogsConcepts : List String := rulesetUsGaapConcepts ruleset ["cost_of_revenue", "insurance_claims"] []

def assetsConcepts : List String := rulesetUsGaapConcepts ruleset ["total_assets"] []

def revenue : Option VendorFact := latestAcrossVariants reader facts cutoff (revenueConcepts ruleset)

def totalAssets : Option VendorFact := latestAcrossVariants reader facts cutoff (assetsConcepts ruleset)

/-- The first fact of a period wins. -/
def allPeriods (concepts : List String) (periodEnd : Date) : Option VendorFact :=
  (concepts.flatMap (annualEntries reader facts cutoff)).find? fun fact => fact.periodEnd = periodEnd

def derivedGrossProfit : Option VendorFact := do
  let costs := cogsConcepts ruleset
  let shared := ((revenueConcepts ruleset).flatMap (annualEntries reader facts cutoff)).filter fun fact =>
    (allPeriods reader facts cutoff costs fact.periodEnd).isSome
  let finish ← (shared.map VendorFact.periodEnd).max?
  let revenue ← allPeriods reader facts cutoff (revenueConcepts ruleset) finish
  let cost ← allPeriods reader facts cutoff costs finish
  return ⟨revenue.value - cost.value, finish, "Revenues-CostOfRevenue", max revenue.filed cost.filed⟩

def grossProfit : Option VendorFact := firstBest (fun fact => -fact.periodEnd)
    [latestAcrossVariants reader facts cutoff ["GrossProfit"], derivedGrossProfit reader facts ruleset cutoff]

end VendorOracle

/-! ## The comparison -/

inductive OracleResult where
  | agree
  | disagree
  | notComparable
  deriving DecidableEq, Repr

inductive OracleReason where
  | noDocument
  | noOracleValue
  | noServedValue
  | unitNotUsd
  | zeroOracleValue
  | signDiffers
  deriving DecidableEq, Repr

structure ServedMetric where
  value : Option ℚ
  inputId : String
  unit : String

inductive IndependentField where
  | revenue
  | grossProfit
  | totalAssets
  deriving DecidableEq, Repr

structure FactorInput where
  issuerId : String
  metric : IndependentField → Option ServedMetric

/-- An `Outcome` of the comparator; its kind and its source are constants. -/
structure OracleOutcome where
  subjectId : String
  field : IndependentField
  period : Date
  servedValue : Option ℚ
  oracleValue : Option ℚ
  observationId : Option String
  knowableAt : Option Instant
  ratio : Option ℚ
  tolerance : Option ℚ
  result : OracleResult
  reason : Option OracleReason
  deriving DecidableEq, Repr

section

variable (reader : Reader) (ruleset : ConceptMappingRuleset)

def independentParser (facts : CompanyFacts) (cutoff : Date) : IndependentField → Option VendorFact
  | .revenue => VendorOracle.revenue reader facts ruleset cutoff
  | .grossProfit => VendorOracle.grossProfit reader facts ruleset cutoff
  | .totalAssets => VendorOracle.totalAssets reader facts ruleset cutoff

def compareIndependentParse (input : FactorInput) (field : IndependentField) (facts : Option CompanyFacts) (cutoff : Date)
    (tolerance : ℚ) (currency : Option String) : OracleOutcome :=
  let metric := input.metric field
  let served := metric.bind ServedMetric.value
  let outcome (period : Date) (result : OracleResult) (reason : Option OracleReason) (witness : Option VendorFact)
      (ratio : Option ℚ) : OracleOutcome :=
    { subjectId := input.issuerId, field, period
      servedValue := served
      oracleValue := witness.map VendorFact.value
      observationId := metric.map ServedMetric.inputId
      knowableAt := witness.map fun fact => accessionInstant fact.filed
      ratio
      tolerance := ratio.map fun _ => tolerance
      result, reason }
  match facts with
  | none => outcome cutoff .notComparable (some .noDocument) none none
  | some facts =>
    match independentParser reader ruleset facts cutoff field with
    | none => outcome cutoff .notComparable (some .noOracleValue) none none
    | some witness =>
      match served with
      | none => outcome witness.periodEnd .notComparable (some .noServedValue) (some witness) none
      | some served =>
        if ((currency.filter (· ≠ "")).or (metric.map ServedMetric.unit)).getD "USD" ≠ "USD" then
          outcome witness.periodEnd .notComparable (some .unitNotUsd) (some witness) none
        else if witness.value = 0 then
          outcome witness.periodEnd .notComparable (some .zeroOracleValue) (some witness) none
        else if served * witness.value < 0 then
          outcome witness.periodEnd .disagree (some .signDiffers) (some witness) (some (|served| / |witness.value|))
        else
          let ratio := served / witness.value
          outcome witness.periodEnd (if |ratio - 1| ≤ tolerance then .agree else .disagree) none (some witness) (some ratio)

end

/-! ## One concept -/

namespace VendorOracle

variable {reader : Reader} {facts : CompanyFacts} {ruleset : ConceptMappingRuleset} {cutoff : Date} {concept : String}

def ReadByBoth (reader : Reader) (concept : String) (entry : FactEntry) : Prop :=
  (∃ datum, annualDatum reader entry "USD" = some datum ∧ datum.statementForm = some true) ∧
    ∃ fact, annualFact reader concept entry = some fact

def oracleFact (concept : String) (datum : Datum) : VendorFact := ⟨datum.value, datum.periodEnd, concept, datum.filed⟩

theorem fact_eq_of_datum {entry : FactEntry} {datum : Datum} {fact : VendorFact}
    (h : annualDatum reader entry "USD" = some datum) (h' : annualFact reader concept entry = some fact) :
    fact = oracleFact concept datum := by
  simp only [annualDatum] at h
  split at h
  · cases h
  simp only [annualFact, Option.bind_eq_bind, Option.bind_eq_some_iff, Option.filter_eq_some_iff] at h h'
  obtain ⟨filedRaw, hfiledRaw, endRaw, hendRaw, val, hval, filed, hfiled, finish, hend, start, hstart, h⟩ := h
  obtain ⟨_, ⟨hfiledRaw', -⟩, _, ⟨hendRaw', -⟩, _, hval', _, hfiled', _, hend', _, -, h'⟩ := h'
  rw [hfiledRaw] at hfiledRaw'
  rw [hendRaw] at hendRaw'
  rw [hval] at hval'
  cases hfiledRaw'
  cases hendRaw'
  cases hval'
  rw [hfiled] at hfiled'
  rw [hend] at hend'
  cases hfiled'
  cases hend'
  split at h
  · cases h
  split at h'
  · cases h'
  obtain ⟨value, hvalue, rfl⟩ := Option.map_eq_some_iff.mp h
  obtain ⟨value', hvalue', rfl⟩ := Option.map_eq_some_iff.mp h'
  rw [hvalue] at hvalue'
  cases hvalue'
  rfl

theorem flatMap_of_only {l : List String} {f : String → List VendorFact} (hnodup : l.Nodup) (hmem : concept ∈ l)
    (h : ∀ other ∈ l, other ≠ concept → f other = []) : l.flatMap f = f concept := by
  induction l with
  | nil => cases hmem
  | cons other l ih =>
    obtain ⟨hnot, hnodup⟩ := List.nodup_cons.mp hnodup
    obtain ⟨hother, hrest⟩ := List.forall_mem_cons.mp h
    rw [List.flatMap_cons]
    by_cases heq : other = concept
    · have hempty : l.flatMap f = [] := List.flatMap_eq_nil_iff.mpr fun x hx => hrest x hx fun hx' => hnot (heq ▸ hx' ▸ hx)
      rw [hempty, List.append_nil, heq]
    · rw [hother heq, List.nil_append]
      exact ih hnodup ((List.mem_cons.mp hmem).resolve_left (Ne.symm heq)) hrest

end VendorOracle

end TrueAlpha.Datahub
