import TrueAlpha.Factors.Facts

/-!
# Labor efficiency, the market multiples and the tier valuation

`gross_profit_per_employee`, `price_to_sales`, `price_to_gross_profit` and `three_tier_valuation`.  The labor efficiency is the
value of the pinned tree at its facts; a multiple is computed in the default context.
-/

namespace TrueAlpha

/-! ## Gross profit per employee -/

def UndefinedReason.value : UndefinedReason → String
  | .missingInput => "missing_input"
  | .zeroDenominator => "zero_denominator"
  | .negativeOperand => "negative_operand"
  | .undefinedOperand => "undefined_operand"

def missingLeafFlag (metric : String) : String :=
  if metric = "stockholders_equity" ∨ metric = "goodwill" ∨
      metric = "intangible_assets_net_excluding_goodwill" then "missing_tangible_common_equity"
  else if metric = "preferred_stock_value" then "missing_preferred_stock_value"
  else "missing_" ++ metric

def negativeTceFlag : String := "negative_tangible_common_equity"

def nonpositiveEmployeesFlag : String := "non_positive_employees_total"

def resolveLeafFact (facts : List Fact) (entityId metric : String) : Except FactorError (Option Fact) := do
  match ← findFact facts entityId metric with
  | some fact => return some fact
  | none =>
    if metric = "pre_provision_profit" then findFact facts entityId "gross_profit"
    else if metric = "bank_net_revenue" then
      match ← findFact facts entityId "pre_provision_profit" with
      | some fact => return some fact
      | none => findFact facts entityId "gross_profit"
    else return none

structure LeafInputs where
  inputs : Dict String (Option ℚ)
  flags : List String
  consumed : List Fact

def collectLeaf (facts : List Fact) (entityId : String) (riskFreeRate : ℚ) (leaves : LeafInputs)
    (node : MetricNode) : Except FactorError LeafInputs := do
  let parameter ← node.aliasOf .definitionParameter
  if parameter = some "risk_free_rate" then
    return { leaves with inputs := leaves.inputs.set node.key (some riskFreeRate) }
  else
    let metric ← metricOf node
    let fact ← resolveLeafFact facts entityId metric
    match valued fact Fact.value with
    | none =>
      let flag := missingLeafFlag metric
      return { leaves with
        inputs := leaves.inputs.set node.key none
        flags := if node.defaultWhenMissing.isSome ∨ flag ∈ leaves.flags then leaves.flags
          else leaves.flags ++ [flag] }
    | some (fact, value) =>
      if metric = "employees_total" ∧ value ≤ 0 then
        return { leaves with
          inputs := leaves.inputs.set node.key none
          flags := leaves.flags ++ [nonpositiveEmployeesFlag] }
      else
        return { leaves with
          inputs := leaves.inputs.set node.key (some value)
          consumed := leaves.consumed ++ [fact] }

def resultOfEvaluation (tree : MetricTree) (entityId : String) (evaluation : TreeEvaluation)
    (confidence : ℚ) : FactorResult :=
  match (evaluation.values.get? tree.root).join with
  | some value => ⟨tree.root, entityId, some value, confidence, []⟩
  | none =>
    .unavailable tree.root entityId
      (if .negativeOperand ∈ evaluation.undefined.values then [negativeTceFlag]
        else [((evaluation.undefined.get? tree.root).getD .undefinedOperand).value])

def grossProfitPerEmployee (forest : Forest) (tree : MetricTree) (cls : IssuerClass) (facts : List Fact)
    (entityId : String) (riskFreeRate : ℚ) : Except FactorError FactorResult := do
  let _ ← forest.node tree.root
  let nodes ← requiredInputs forest tree cls
  let leaves ← nodes.foldlM (collectLeaf facts entityId riskFreeRate) ⟨Dict.empty, [], []⟩
  let periods := leaves.consumed.map Fact.fiscalPeriod
  if leaves.flags ≠ [] then return .unavailable tree.root entityId leaves.flags
  else if 1 < periods.dedup.length then
    return .unavailable tree.root entityId ["fiscal_period_mismatch"]
  else
    let evaluation ← evaluate forest tree cls leaves.inputs
    let confidence := match leaves.consumed.map Fact.confidence with
      | [] => 1
      | confidence :: rest => rest.foldl min confidence
    return resultOfEvaluation tree entityId evaluation confidence

def marketMultiple (factor denominator missing nonpositive : String) (facts : List Fact) (entityId : String) :
    Except FactorError FactorResult := do
  let priceFact ← findFact facts entityId "price"
  let sharesFact ← findFact facts entityId "shares_outstanding"
  let denominatorFact ← findFact facts entityId denominator
  let flagged (flag : String) (fact : Option Fact) : List String :=
    if (fact.bind Fact.value).isNone then [flag] else []
  let flags := flagged "missing_market_value_input" priceFact ++
    flagged "missing_market_value_input" sharesFact ++ flagged missing denominatorFact
  match priceFact, sharesFact, denominatorFact with
  | some price, some shares, some denominator =>
    match price.value, shares.value, denominator.value with
    | some priceValue, some sharesValue, some denominatorValue =>
      if priceValue ≤ 0 ∨ sharesValue ≤ 0 then
        return .unavailable factor entityId ["nonpositive_market_value"]
      else if denominatorValue ≤ 0 then return .unavailable factor entityId [nonpositive]
      else
        match times .default (← price.toMeasure priceValue) (← shares.toMeasure sharesValue) with
        | none => return .unavailable factor entityId ["unit_mismatch"]
        | some marketValue =>
          let value ← computed (Context.default.div marketValue denominatorValue)
          return ⟨factor, entityId, some value, min (min price.confidence shares.confidence) denominator.confidence, []⟩
    | _, _, _ => return .unavailable factor entityId (sortedSet flags)
  | _, _, _ => return .unavailable factor entityId (sortedSet flags)

def priceToSales (facts : List Fact) (entityId : String) : Except FactorError FactorResult :=
  marketMultiple "price_to_sales" "revenue" "missing_revenue_fact" "nonpositive_revenue" facts entityId

def priceToGrossProfit (facts : List Fact) (entityId : String) : Except FactorError FactorResult :=
  marketMultiple "price_to_gross_profit" "gross_profit" "missing_gross_profit_fact"
    "nonpositive_gross_profit" facts entityId

def ValuationBasis.value : ValuationBasis → String
  | .priceToSales => "price_to_sales"
  | .priceToGrossProfit => "price_to_gross_profit"

/-- `_LABOR_EFFICIENCY_FACTORS`, which the composite accepts. -/
def laborEfficiencyFactors : List String := ["gross_profit_per_employee", "gppe_uniform_charge_v0", "gppe_banking_tce_v1"]

def findResult (inputs : List FactorResult) (entityId : String) (factors : List String) :
    Except FactorError (Option FactorResult) :=
  match inputs.filter fun item => item.factor ∈ factors ∧ item.entityId = entityId with
  | [] => .ok none
  | [item] => .ok (some item)
  | item :: _ => .error (.multipleResults entityId item.factor)

def tierBand (definition : StrategyDefinition) (laborEfficiency : ℚ) : Except TierBandError TierBand :=
  bandFor definition.tierValuation.bands laborEfficiency

/-- The gap of a multiple to the midpoint of its tier. -/
def threeTierValuation (inputs : List FactorResult) (entityId : String) (definition : StrategyDefinition) :
    Except FactorError FactorResult := do
  let gppe ← findResult inputs entityId laborEfficiencyFactors
  let basis := definition.valuationBasis.value
  let multiple ← findResult inputs entityId [basis]
  match valued gppe FactorResult.value with
  | none => return .unavailable "three_tier_valuation" entityId ["missing_gross_profit_per_employee"]
  | some (gppe, laborEfficiency) =>
    match valued multiple FactorResult.value with
    | none => return .unavailable "three_tier_valuation" entityId ["missing_" ++ basis]
    | some (multiple, current) =>
      if current ≤ 0 then return .unavailable "three_tier_valuation" entityId ["nonpositive_" ++ basis]
      else
        let band ← tierBand definition laborEfficiency
        let context := Context.default
        let midpoint ← computed (context.div (context.add band.targetLowerBound band.targetUpperBound) 2)
        let ratio ← computed (context.div midpoint current)
        return ⟨"three_tier_valuation", entityId, some (context.sub ratio 1), min gppe.confidence multiple.confidence, []⟩

end TrueAlpha
