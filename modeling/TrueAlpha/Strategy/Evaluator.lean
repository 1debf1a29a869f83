import TrueAlpha.Factors.Base
import TrueAlpha.Factors.Peg

/-!
# The strategy evaluator

The embedding of `factors.composite.strategy_evaluator`: the decision on one issuer (`evaluateIssuer`), the ranking, and the
decisions of a cutoff (`evaluateCutoff`).  The tier comes from the quantized labor efficiency.
-/

namespace TrueAlpha.Strategy

def factorInputs : String → List String
  | "price_to_sales" => ["price", "shares_outstanding", "revenue"]
  | "price_to_gross_profit" => ["price", "shares_outstanding", "gross_profit"]
  | "peg" => ["price", "shares_outstanding", "net_income"]
  | _ => []

/-- The input keys of a factor, where a bank has its own numerator. -/
def inputKeys (factor : String) (cls : Option IssuerClass) : List String :=
  let keys := (factorInputs factor).map inputKeyForMetric
  if factor = "price_to_gross_profit" ∧ cls = some .financial then
    keys.map fun key => if key = "gross_profit" then "pre_provision_profit" else key
  else keys

def requiredInputReasons : List (String × ExclusionReason) :=
  [("gross_profit", .missingGrossProfitFact), ("pre_provision_profit", .missingGrossProfitFact),
    ("bank_net_revenue", .missingGrossProfitFact), ("total_assets", .missingTotalAssetsFact),
    ("stockholders_equity", .missingTangibleCommonEquity), ("goodwill", .missingTangibleCommonEquity),
    ("intangible_assets_net_excluding_goodwill", .missingTangibleCommonEquity),
    ("preferred_stock_value", .missingPreferredStockValue), ("headcount", .missingHeadcountDisclosure),
    ("revenue", .missingRevenueFact), ("shares_outstanding", .missingMarketValueInput),
    ("last_close", .missingMarketValueInput)]

/-- What only a recorded multiple reads. -/
def recordedOnlyInputKeys (basis : ValuationBasis) : List String :=
  if basis = .priceToSales then []
  else (inputKeys "price_to_sales" none).filter fun key => key ∉ inputKeys basis.value none

/-- `_required_inputs`: the inputs whose absence excludes an issuer. -/
def requiredReasons (basis : ValuationBasis) (consumed : List String) : List (String × ExclusionReason) :=
  requiredInputReasons.filter fun entry => entry.1 ∈ consumed ∧ entry.1 ∉ recordedOnlyInputKeys basis

def capturedKey (node : MetricNode) : Except ForestError (Option String) := do
  match ← node.aliasOf .definitionParameter with
  | some _ => return none
  | none => return some (← inputKeyOf node)

/-- The input keys of the captured leaves of a tree. -/
def laborEfficiencyKeys (forest : Forest) (tree : MetricTree) (cls : IssuerClass) : Except ForestError (List String) := do
  let nodes ← requiredInputs forest tree cls
  let keys ← nodes.mapM capturedKey
  return keys.filterMap id

def consumedInputKeys (forest : Forest) (tree : MetricTree) (cls : IssuerClass) : Except ForestError (List String) := do
  let keys ← laborEfficiencyKeys forest tree cls
  return sortedSet (inputKeys "price_to_sales" none ++ keys)

/-- `IssuerInput`, with a measure and a confidence for each input key. -/
structure IssuerInput where
  issuerId : String
  records : Dict String (Measure × ℚ)
  knowableAt : Dict String Instant
  periodicRecords : Dict String (Dict String (Measure × ℚ))
  issuerClass : Option IssuerClass

namespace IssuerInput

variable (issuer : IssuerInput)

def recordFor (key : String) : Option (Measure × ℚ) :=
  match issuer.records.get? key with
  | some record => some record
  | none =>
    if key = "pre_provision_profit" then issuer.records.get? "gross_profit"
    else if key = "bank_net_revenue" then
      (issuer.records.get? "pre_provision_profit").or (issuer.records.get? "gross_profit")
    else none

def factsOfKey (key : String) : Except FactorError (List Fact) :=
  let metric := metricForKey key
  match issuer.periodicRecords.get? key with
  | some periods =>
    (sortedBy Prod.fst periods.items).mapM fun entry =>
      factOf issuer.issuerId metric entry.2.1 entry.2.2 (some entry.1)
  | none =>
    match issuer.recordFor key with
    | none => .ok []
    | some (measure, confidence) => do
      let fact ← factOf issuer.issuerId metric measure confidence none
      return [fact]

def factsFor (keys : List String) : Except FactorError (List Fact) := keys.foldlM (fun facts key => do
    let more ← issuer.factsOfKey key
    return facts ++ more) []

end IssuerInput

def periodEndOf : Option MeasurePeriod → Except FactorError (Option Date)
  | none => .ok none
  | some (.annual period) => .ok (some period.finish)
  | some (.day day) => .ok (some day)
  | some (.span _ finish) => .ok (some finish)
  | some (.tag text) =>
    match parseAnnual text with
    | .error _ => .error (.periodText text)
    | .ok (some period) => .ok (some period.finish)
    | .ok none => .ok (fromIsoFormat text)

def hasStalePeriod (issuer : IssuerInput) (asOf : Instant) (maximumAgeDays : ℕ) : List String → Except FactorError Bool
  | [] => .ok false
  | key :: rest =>
    match issuer.recordFor key with
    | none => hasStalePeriod issuer asOf maximumAgeDays rest
    | some (measure, _) => do
      match ← periodEndOf measure.period with
      | some finish =>
        if (maximumAgeDays : ℤ) < utcDate asOf - finish then return true
        else hasStalePeriod issuer asOf maximumAgeDays rest
      | none => hasStalePeriod issuer asOf maximumAgeDays rest

/-- The key that answers for a key of a mapping. -/
def resolveBankNumeratorKey (key : String) (keys : List String) : String :=
  if key ∈ keys then key
  else if key = "pre_provision_profit" ∨ key = "bank_net_revenue" then
    if "pre_provision_profit" ∈ keys then "pre_provision_profit"
    else if "gross_profit" ∈ keys then "gross_profit" else key
  else key

/-- Some required input became knowable too long ago. -/
def hasStaleRequiredInput (issuer : IssuerInput) (keys : List String) (asOf : Instant)
    (maximumAgeDays : ℕ) : Except FactorError Bool :=
  match issuer.knowableAt.items.find? fun item => asOf < item.2 with
  | some (key, _) => .error (.lookAhead issuer.issuerId key)
  | none =>
    let resolved := keys.map fun key => resolveBankNumeratorKey key issuer.knowableAt.keys
    let unknown := resolved.filter fun key => key ∉ issuer.knowableAt.keys
    if unknown ≠ [] then .error (.knowableAtLacks issuer.issuerId unknown)
    else
      .ok (decide (∃ key ∈ resolved, ∃ instant ∈ issuer.knowableAt.get? key,
        (maximumAgeDays : ℤ) * microsPerDay < asOf - instant))

def missingRequiredReason (issuer : IssuerInput) (required : List (String × ExclusionReason)) : Option ExclusionReason :=
  (required.find? fun entry =>
    resolveBankNumeratorKey entry.1 issuer.records.keys ∉ issuer.records.keys).map Prod.snd

def consumedConfidenceFor (issuer : IssuerInput) (required : List (String × ExclusionReason)) : Except FactorError ℚ :=
  minimum (required.filterMap fun entry =>
    (issuer.records.get? (resolveBankNumeratorKey entry.1 issuer.records.keys)).map Prod.snd)

def multipleFactsFor (forest : Forest) (tree : MetricTree) (cls : IssuerClass) (issuer : IssuerInput)
    (basis : ValuationBasis) : Except FactorError (List Fact) := do
  let keys := inputKeys basis.value (some cls)
  if basis = .priceToGrossProfit then
    let node ← operatingNumeratorNode forest tree cls
    let numerator ← inputKeyOf node
    let facts ← issuer.factsFor (keys.map fun key =>
      if key = "gross_profit" ∨ key = "pre_provision_profit" then numerator else key)
    if ∃ fact ∈ facts, fact.metric = "gross_profit" then return facts
    else
      match facts.find? fun fact =>
          fact.metric = "pre_provision_profit" ∨ fact.metric = "bank_net_revenue" with
      | some proxy => return facts ++ [{ proxy with metric := "gross_profit" }]
      | none => return facts
  else issuer.factsFor keys

/-! ## The decision on one issuer -/

structure EvaluatedDecision where
  issuerId : String
  capitalAdjustedLaborEfficiency : Option ℚ
  tier : Option ValuationTier
  currentPriceToSales : Option ℚ
  targetPriceToSales : Option ℚ
  valuationGap : Option ℚ
  eligible : Bool
  outcome : GoldenDecisionOutcome
  exclusionReason : Option ExclusionReason
  confidence : Option ℚ
  rank : Option ℕ
  targetWeight : Option ℚ
  peg : Option ℚ
  pegRank : Option ℕ
  pegReasonCodes : List String
  laborEfficiencyMetric : Option String
  currentPriceToGrossProfit : Option ℚ
  targetPriceToGrossProfit : Option ℚ
  deriving DecidableEq, Repr

def excluded (issuerId : String) (reason : ExclusionReason) (confidence : Option ℚ)
    (laborEfficiencyMetric : Option String) : EvaluatedDecision where
  issuerId := issuerId
  capitalAdjustedLaborEfficiency := none
  tier := none
  currentPriceToSales := none
  targetPriceToSales := none
  valuationGap := none
  eligible := false
  outcome := .excluded
  exclusionReason := some reason
  confidence := confidence
  rank := none
  targetWeight := none
  peg := none
  pegRank := none
  pegReasonCodes := []
  laborEfficiencyMetric := laborEfficiencyMetric
  currentPriceToGrossProfit := none
  targetPriceToGrossProfit := none

/-- The flags of an absent ratio that say nothing of the window. -/
def pegReasonCodes (result : FactorResult) : List String :=
  if result.value.isSome then []
  else result.flags.filter fun flag => ¬ ("cagr_years:".isPrefixOf flag ∨ "window:".isPrefixOf flag)

def quantize (value : ℚ) (quantization : Quantization) : Except FactorError ℚ :=
  computed (Context.default.quantize quantization.decimalPlaces value)

def quantizeRecorded (value : Option ℚ) (quantization : Quantization) : Except FactorError (Option ℚ) :=
  match value with
  | none => .ok none
  | some value => (quantize value quantization).map some

def flagReasons : List (String × ExclusionReason) :=
  [(negativeTceFlag, .negativeTangibleCommonEquity), (nonpositiveEmployeesFlag, .nonpositiveHeadcount),
    ("nonpositive_gross_profit", .nonpositiveGrossProfit), ("unit_mismatch", .missingMarketValueInput)]

structure DecisionFactors where
  gppe : FactorResult
  priceToSales : FactorResult
  multiple : FactorResult

def decisionFactors (forest : Forest) (tree : MetricTree) (cls : IssuerClass) (issuer : IssuerInput)
    (basis : ValuationBasis) (riskFreeRate : ℚ) : Except FactorError DecisionFactors := do
  let keys ← laborEfficiencyKeys forest tree cls
  let facts ← issuer.factsFor keys
  let gppe ← grossProfitPerEmployee forest tree cls facts issuer.issuerId riskFreeRate
  let salesFacts ← issuer.factsFor (inputKeys "price_to_sales" none)
  let sales ← priceToSales salesFacts issuer.issuerId
  match basis with
  | .priceToSales => return ⟨gppe, sales, sales⟩
  | .priceToGrossProfit => do
    let multipleFacts ← multipleFactsFor forest tree cls issuer basis
    let multiple ← priceToGrossProfit multipleFacts issuer.issuerId
    return ⟨gppe, sales, multiple⟩

/-- The decision on an issuer whose labor efficiency and multiple have a value, and its valuation gap when
the multiple is not above the band. -/
def valuedDecision (definition : StrategyDefinition) (tree : MetricTree) (issuer : IssuerInput)
    (factors : DecisionFactors) (laborValue multipleValue : ℚ) :
    Except FactorError (EvaluatedDecision × Option ℚ) := do
  let pegFacts ← issuer.factsFor (inputKeys "peg" none)
  let pegResult ← peg pegFacts issuer.issuerId .historicalCagr 3
  let laborEfficiency ← quantize laborValue definition.laborEfficiencyQuantization
  let currentSales ← quantizeRecorded factors.priceToSales.value definition.priceToSalesQuantization
  let currentMultiple ← quantize multipleValue definition.valuationQuantization
  let tierResult ← threeTierValuation
    [{ factors.gppe with value := some laborEfficiency }, { factors.multiple with value := some currentMultiple }]
    issuer.issuerId definition
  let band ← tierBand definition laborEfficiency
  let context := Context.default
  let midpoint ← computed (context.div (context.add band.targetLowerBound band.targetUpperBound) 2)
  let targetMultiple ← quantize midpoint definition.tierValuation.quantization
  match tierResult.value with
  | none =>
    return (excluded issuer.issuerId .missingMarketValueInput (some tierResult.confidence) (some tree.root), none)
  | some gap =>
    let valuationGap ← quantize gap definition.valuationGapQuantization
    let byGrossProfit : Bool := definition.valuationBasis = .priceToGrossProfit
    let decision : EvaluatedDecision :=
      { issuerId := issuer.issuerId
        capitalAdjustedLaborEfficiency := some laborEfficiency
        tier := some band.tier
        currentPriceToSales := currentSales
        targetPriceToSales := if byGrossProfit then none else some targetMultiple
        valuationGap := some valuationGap
        eligible := true
        outcome := .rankedBeyondSelectionCount
        exclusionReason := none
        confidence := some tierResult.confidence
        rank := none
        targetWeight := none
        peg := pegResult.value
        pegRank := none
        pegReasonCodes := pegReasonCodes pegResult
        laborEfficiencyMetric := some tree.root
        currentPriceToGrossProfit := if byGrossProfit then some currentMultiple else none
        targetPriceToGrossProfit := if byGrossProfit then some targetMultiple else none }
    if band.targetUpperBound < currentMultiple then
      return ({ decision with outcome := .rejectedValuationAboveTierBand }, none)
    else return (decision, some valuationGap)

def factorDecision (forest : Forest) (definition : StrategyDefinition) (tree : MetricTree)
    (cls : IssuerClass) (issuer : IssuerInput) (riskFreeRate consumedConfidence : ℚ) :
    Except FactorError (EvaluatedDecision × Option ℚ) := do
  let factors ← decisionFactors forest tree cls issuer definition.valuationBasis riskFreeRate
  match factors.gppe.value, factors.multiple.value with
  | some laborValue, some multipleValue =>
    valuedDecision definition tree issuer factors laborValue multipleValue
  | _, _ =>
    let flags := factors.gppe.flags ++ factors.multiple.flags
    let reason := ((flagReasons.find? fun entry => entry.1 ∈ flags).map Prod.snd).getD .staleRequiredInput
    return (excluded issuer.issuerId reason (some consumedConfidence) (some tree.root), none)

def treeDecision (forest : Forest) (definition : StrategyDefinition) (riskFreeRate : ℚ) (asOf : Instant)
    (tree : MetricTree) (cls : IssuerClass) (issuer : IssuerInput) :
    Except FactorError (EvaluatedDecision × Option ℚ) := do
  let consumed ← consumedInputKeys forest tree cls
  let required := requiredReasons definition.valuationBasis consumed
  let exclude (reason : ExclusionReason) (confidence : Option ℚ) : EvaluatedDecision × Option ℚ :=
    (excluded issuer.issuerId reason confidence (some tree.root), none)
  match missingRequiredReason issuer required with
  | some reason => return exclude reason none
  | none =>
    let maximumAgeDays := definition.eligibility.maximumInputAgeDays
    if ← hasStaleRequiredInput issuer (required.map Prod.fst) asOf maximumAgeDays then
      return exclude .staleRequiredInput none
    else if ← hasStalePeriod issuer asOf maximumAgeDays consumed then return exclude .stalePeriod none
    else
      let consumedConfidence ← consumedConfidenceFor issuer required
      if ∃ floor ∈ definition.eligibility.minimumConfidence, consumedConfidence < floor then
        return exclude .belowConfidenceFloor (some consumedConfidence)
      else factorDecision forest definition tree cls issuer riskFreeRate consumedConfidence

def evaluateIssuer (forest : Forest) (definition : StrategyDefinition) (riskFreeRate : ℚ) (asOf : Instant)
    (trees : Dict IssuerClass MetricTree) (issuer : IssuerInput) :
    Except FactorError (EvaluatedDecision × Option ℚ) :=
  match issuer.issuerClass with
  | none => .ok (excluded issuer.issuerId .missingIssuerClass none none, none)
  | some cls =>
    match trees.get? cls with
    | none => .ok (excluded issuer.issuerId .missingIssuerClass none none, none)
    | some tree => treeDecision forest definition riskFreeRate asOf tree cls issuer

def pegPositions (decisions : List EvaluatedDecision) : Dict String ℕ :=
  let ordered := sortedBy (fun decision => toLex (decision.peg.getD 0, decision.issuerId))
    (decisions.filter fun decision => decision.peg.isSome)
  Dict.ofList ((ordered.map EvaluatedDecision.issuerId).zipIdx 1)

def rankAndSelect (definition : StrategyDefinition) (decisions : List EvaluatedDecision) :
    Except FactorError (List EvaluatedDecision) := do
  let isCandidate (decision : EvaluatedDecision) : Bool := decision.outcome = .rankedBeyondSelectionCount
  let ranked := sortedBy (fun decision => toLex (-decision.valuationGap.getD 0, decision.issuerId))
    (decisions.filter isCandidate)
  let resolved := decisions.filter fun decision => ¬ isCandidate decision
  let share ← computed (Context.default.div 1 (max (min ranked.length definition.selectionCount) 1 : ℕ))
  let weight ← quantize share definition.sizingQuantization
  let positions := pegPositions decisions
  let place (decision : EvaluatedDecision) : EvaluatedDecision := { decision with pegRank := positions.get? decision.issuerId }
  let selected := (ranked.map place).zipIdx 1 |>.map fun entry =>
    if entry.2 ≤ definition.selectionCount then
      { entry.1 with outcome := .selected, rank := some entry.2, targetWeight := some weight }
    else { entry.1 with rank := some entry.2 }
  return sortedBy EvaluatedDecision.issuerId (resolved.map place ++ selected)

section

variable (treeSha256 : Forest → MetricTree → String)

def evaluateCutoff (forest : Forest) (definition : StrategyDefinition) (cutoffAt : Instant)
    (riskFreeRate : ℚ) (treePins : Option (Dict String LaborEfficiencyTreePin))
    (plausibilityRefusals : Dict String ExclusionReason) (issuers : List IssuerInput) :
    Except FactorError (List EvaluatedDecision) := do
  let trees ← pinnedTrees treeSha256 forest definition treePins
  let decisions ← issuers.mapM fun issuer =>
    match plausibilityRefusals.get? issuer.issuerId with
    | some reason => Except.ok (excluded issuer.issuerId reason none none)
    | none => (evaluateIssuer forest definition riskFreeRate cutoffAt trees issuer).map Prod.fst
  rankAndSelect definition decisions

end

end TrueAlpha.Strategy
