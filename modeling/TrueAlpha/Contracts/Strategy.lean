import Mathlib.Data.String.Basic
import TrueAlpha.Lib.Decimal
import TrueAlpha.Lib.Dict
import TrueAlpha.Lib.Sort

/-!
# Metrics and strategy definitions

The registry of metrics and the strategy definition, with the fields that the evaluator, the TOPT core and the backtest read.
What the validators check is a field.  Literal fields, identifiers and content hashes are left out.
-/

namespace TrueAlpha

inductive UnitFamily where
  | currency
  | count
  | ratio
  | perShare
  | perEmployee
  | percentage
  | timeYears
  deriving DecidableEq, Repr

/-- The registered metrics with their unit families. -/
def metrics : List (String × UnitFamily) := [("revenue", .currency), ("segment_revenue", .currency), ("gross_profit", .currency),
    ("pre_provision_profit", .currency), ("insurance_pre_claims_profit", .currency),
    ("shares_weighted_average_basic", .count), ("cost_of_revenue", .currency),
    ("operating_income", .currency), ("net_income", .currency), ("eps_diluted", .perShare),
    ("shares_outstanding", .count), ("stockholders_equity", .currency),
    ("preferred_stock_value", .currency), ("goodwill", .currency),
    ("intangible_assets_net_excluding_goodwill", .currency), ("employees_total", .count),
    ("total_assets", .currency), ("price", .perShare), ("consensus_profit_growth", .percentage),
    ("gross_profit_per_employee", .perEmployee), ("financial_assets", .currency),
    ("financial_returns", .currency), ("bank_net_revenue", .currency)]

def unitFamilyOf (metric : String) : Option UnitFamily := metrics.lookup metric

/-- The input keys that are not the name of their metric. -/
def inputKeyAliases : List (String × String) :=
  [("headcount", "employees_total"), ("last_close", "price"), ("gppe", "gross_profit_per_employee")]

def metricForKey (inputKey : String) : String := (inputKeyAliases.lookup inputKey).getD inputKey

/-- The input key of a metric. -/
def inputKeyForMetric (metric : String) : String :=
  ((inputKeyAliases.find? fun entry => entry.2 = metric).map Prod.fst).getD metric

inductive ValuationTier where
  | traditional
  | tech
  | largeModelNative
  deriving DecidableEq, Repr

def ValuationTier.order : ValuationTier → ℕ
  | .traditional => 0
  | .tech => 1
  | .largeModelNative => 2

inductive ValuationBasis where
  | priceToSales
  | priceToGrossProfit
  deriving DecidableEq, Repr

structure TierBand where
  tier : ValuationTier
  laborEfficiencyLowerBound : Option ℚ
  laborEfficiencyUpperBound : Option ℚ
  targetLowerBound : ℚ
  targetUpperBound : ℚ
  bounds_lt : ∀ lower, laborEfficiencyLowerBound = some lower → ∀ upper, laborEfficiencyUpperBound = some upper → lower < upper
  target_pos : 0 < targetLowerBound
  target_lt : targetLowerBound < targetUpperBound
  deriving DecidableEq

inductive TierBandError where
  | tiers
  | domain
  | contiguous
  | notCovered (laborEfficiency : ℚ)
  deriving DecidableEq, Repr

def contiguous : List TierBand → Bool
  | left :: right :: rest =>
    left.laborEfficiencyUpperBound = right.laborEfficiencyLowerBound ∧ contiguous (right :: rest)
  | _ => true

def orderedTierBands (bands : List TierBand) : Except TierBandError (List TierBand) :=
  let ordered := sortedBy (fun band => band.tier.order) bands
  if ¬ (ValuationTier.traditional ∈ ordered.map TierBand.tier ∧ ValuationTier.tech ∈ ordered.map TierBand.tier ∧
      ValuationTier.largeModelNative ∈ ordered.map TierBand.tier) then .error .tiers
  else if (ordered.head?.bind TierBand.laborEfficiencyLowerBound).isSome ∨
      (ordered.getLast?.bind TierBand.laborEfficiencyUpperBound).isSome then .error .domain
  else if ¬ contiguous ordered then .error .contiguous
  else .ok ordered

def TierBand.holds (band : TierBand) (laborEfficiency : ℚ) : Bool :=
  (∀ lower, band.laborEfficiencyLowerBound = some lower → lower ≤ laborEfficiency) ∧
    ∀ upper, band.laborEfficiencyUpperBound = some upper → laborEfficiency < upper

/-- The first band whose range holds the value. -/
def bandFor (bands : List TierBand) (laborEfficiency : ℚ) : Except TierBandError TierBand :=
  match bands.find? fun band => band.holds laborEfficiency with
  | some band => .ok band
  | none => .error (.notCovered laborEfficiency)

/-- `DecimalQuantization`: the places of an output, rounded half to even. -/
structure Quantization where
  decimalPlaces : ℕ
  places_le : decimalPlaces ≤ 12
  deriving DecidableEq

structure TierValuation where
  valuationBasis : ValuationBasis
  bands : List TierBand
  quantization : Quantization
  three : bands.length = 3
  ordered : orderedTierBands bands = .ok bands

/-- A tree by its key, version and content hash. -/
structure LaborEfficiencyTreePin where
  treeKey : String
  treeVersion : String
  treeSha256 : String
  deriving DecidableEq, Repr

structure Eligibility where
  minimumConfidence : Option ℚ
  maximumInputAgeDays : ℕ
  confidence_range : ∀ floor, minimumConfidence = some floor → 0 ≤ floor ∧ floor ≤ 1
  age_range : 1 ≤ maximumInputAgeDays ∧ maximumInputAgeDays ≤ 730
  deriving DecidableEq

/-- `LargeModelValueV0Definition`.  A definition without tree pins states a formula. -/
structure StrategyDefinition where
  definitionVersion : String
  laborEfficiencyQuantization : Quantization
  laborEfficiencyTreeKeys : Option (Dict String LaborEfficiencyTreePin)
  priceToSalesQuantization : Quantization
  priceToGrossProfitQuantization : Option Quantization
  tierValuation : TierValuation
  valuationGapQuantization : Quantization
  eligibility : Eligibility
  selectionCount : ℕ
  sizingQuantization : Quantization
  transactionCostBasisPoints : ℚ
  basis_iff : tierValuation.valuationBasis = .priceToGrossProfit ↔ priceToGrossProfitQuantization.isSome
  pins_ne_nil : ∀ pins, laborEfficiencyTreeKeys = some pins → pins.items ≠ []
  selection_range : 1 ≤ selectionCount ∧ selectionCount ≤ 1000
  cost_range : 0 ≤ transactionCostBasisPoints ∧ transactionCostBasisPoints ≤ 1000

namespace StrategyDefinition

variable (definition : StrategyDefinition)

def valuationBasis : ValuationBasis := definition.tierValuation.valuationBasis

def valuationQuantization : Quantization := definition.priceToGrossProfitQuantization.getD definition.priceToSalesQuantization

end StrategyDefinition

def liveTierBands : List TierBand :=
  [⟨.traditional, none, some 1000000, 15 / 2, 10, nofun, by norm_num, by norm_num⟩,
    ⟨.tech, some 1000000, some 3000000, 1143 / 100, 1429 / 100,
      by rintro _ ⟨⟩ _ ⟨⟩; norm_num, by norm_num, by norm_num⟩,
    ⟨.largeModelNative, some 3000000, none, 2667 / 100, 40, by rintro _ _ _ ⟨⟩, by norm_num, by norm_num⟩]

def uniformPin : LaborEfficiencyTreePin :=
  ⟨"gppe", "production-topt-v0.2.0", "9015a3713fd159cf5ba9014eb6ecbb14551da177c14bbd5d7acc17b1e2177906"⟩

def bankingPin : LaborEfficiencyTreePin :=
  ⟨"gppe_banking_tce", "v2", "a6d6ca21a0a92144e46a95054b111ad4e5cd0455dcb7741991e6660e7fc8153b"⟩

/-- Definition 1.1.0, the one that `load_live_strategy_definition` reads. -/
def liveStrategyDefinition : StrategyDefinition where
  definitionVersion := "1.1.0"
  laborEfficiencyQuantization := ⟨2, by decide⟩
  laborEfficiencyTreeKeys := some
    ⟨[("financial", bankingPin), ("non_financial", uniformPin), ("insurance", uniformPin)], by decide⟩
  priceToSalesQuantization := ⟨4, by decide⟩
  priceToGrossProfitQuantization := some ⟨4, by decide⟩
  tierValuation := ⟨.priceToGrossProfit, liveTierBands, ⟨4, by decide⟩, rfl, by decide +kernel⟩
  valuationGapQuantization := ⟨4, by decide⟩
  eligibility := ⟨none, 455, nofun, by decide⟩
  selectionCount := 2
  sizingQuantization := ⟨6, by decide⟩
  transactionCostBasisPoints := 5
  basis_iff := by simp
  pins_ne_nil := by simp
  selection_range := by decide
  cost_range := by norm_num

inductive ExclusionReason where
  | missingGrossProfitFact
  | missingTotalAssetsFact
  | missingHeadcountDisclosure
  | missingLaborCostDisclosure
  | missingRevenueFact
  | missingMarketValueInput
  | missingTangibleCommonEquity
  | missingPreferredStockValue
  | negativeTangibleCommonEquity
  | missingIssuerClass
  | missingRiskFreeRateParameter
  | belowConfidenceFloor
  | staleRequiredInput
  | stalePeriod
  | nonpositiveHeadcount
  | nonpositiveLaborCost
  | nonpositiveRevenue
  | nonpositiveGrossProfit
  | plausibilityRefusedNodeSignPolicy
  | registryUnavailable
  | primaryListingUndeclared
  deriving DecidableEq, Repr

inductive GoldenDecisionOutcome where
  | selected
  | rankedBeyondSelectionCount
  | rejectedValuationAboveTierBand
  | excluded
  deriving DecidableEq, Repr

end TrueAlpha
