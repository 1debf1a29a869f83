import TrueAlpha.Factors.Facts

/-!
# The TOPT core

The embedding of `factors.production_topt.core`: `computeToptGppe` under the pinned tree, and `computeToptCore`.  The arithmetic
is a parameter.  A metric is available exactly when it has a value; identifiers and content hashes are left out.
-/

namespace TrueAlpha.Topt

inductive ToptCoreReasonCode where
  | missingGrossProfit
  | missingTotalAssets
  | missingHeadcount
  | missingRevenue
  | missingSharesOutstanding
  | missingMarketPrice
  | missingPreProvisionProfit
  | laborEfficiencyTreeUnpinned
  | negativeTangibleCommonEquity
  | missingStockholdersEquity
  | missingPreferredStockValue
  | missingGoodwill
  | missingIntangibleAssetsNetExcludingGoodwill
  | missingBankNetRevenue
  | missingFinancialAssets
  | missingFinancialReturns
  | nonpositiveHeadcount
  | nonpositiveRevenue
  | nonpositiveSharesOutstanding
  | nonpositiveMarketPrice
  | staleInput
  | stalePeriod
  | unknownFreshness
  | nonpositiveGrossProfit
  | noSplitAdjustedSeries
  | noUnadjustedSeries
  | splitDerivationFailed
  | splitSeriesDoNotCoverTheWindow
  | listingsDisagreeOnSplits
  | shareCountUndated
  | shareBasisAmbiguous
  | closeJumpBeyondSeries
  | missingListingUnitRatio
  | missingClassRatio
  | currencyMismatch
  | primaryListingUndeclared
  deriving DecidableEq, Repr

def ToptCoreReasonCode.value : ToptCoreReasonCode → String
  | .missingGrossProfit => "missing_gross_profit"
  | .missingTotalAssets => "missing_total_assets"
  | .missingHeadcount => "missing_headcount"
  | .missingRevenue => "missing_revenue"
  | .missingSharesOutstanding => "missing_shares_outstanding"
  | .missingMarketPrice => "missing_market_price"
  | .missingPreProvisionProfit => "missing_pre_provision_profit"
  | .laborEfficiencyTreeUnpinned => "labor_efficiency_tree_unpinned"
  | .negativeTangibleCommonEquity => "negative_tangible_common_equity"
  | .missingStockholdersEquity => "missing_stockholders_equity"
  | .missingPreferredStockValue => "missing_preferred_stock_value"
  | .missingGoodwill => "missing_goodwill"
  | .missingIntangibleAssetsNetExcludingGoodwill => "missing_intangible_assets_net_excluding_goodwill"
  | .missingBankNetRevenue => "missing_bank_net_revenue"
  | .missingFinancialAssets => "missing_financial_assets"
  | .missingFinancialReturns => "missing_financial_returns"
  | .nonpositiveHeadcount => "nonpositive_headcount"
  | .nonpositiveRevenue => "nonpositive_revenue"
  | .nonpositiveSharesOutstanding => "nonpositive_shares_outstanding"
  | .nonpositiveMarketPrice => "nonpositive_market_price"
  | .staleInput => "stale_input"
  | .stalePeriod => "stale_period"
  | .unknownFreshness => "unknown_freshness"
  | .nonpositiveGrossProfit => "nonpositive_gross_profit"
  | .noSplitAdjustedSeries => "no_split_adjusted_series"
  | .noUnadjustedSeries => "no_unadjusted_series"
  | .splitDerivationFailed => "split_derivation_failed"
  | .splitSeriesDoNotCoverTheWindow => "split_series_do_not_cover_the_window"
  | .listingsDisagreeOnSplits => "listings_disagree_on_splits"
  | .shareCountUndated => "share_count_undated"
  | .shareBasisAmbiguous => "share_basis_ambiguous"
  | .closeJumpBeyondSeries => "close_jump_beyond_series"
  | .missingListingUnitRatio => "missing_listing_unit_ratio"
  | .missingClassRatio => "missing_class_ratio"
  | .currencyMismatch => "currency_mismatch"
  | .primaryListingUndeclared => "primary_listing_undeclared"

def missingCodes : List ToptCoreReasonCode :=
  [.missingGrossProfit, .missingTotalAssets, .missingHeadcount, .missingRevenue, .missingSharesOutstanding,
    .missingMarketPrice, .missingPreProvisionProfit, .missingStockholdersEquity, .missingPreferredStockValue,
    .missingGoodwill, .missingIntangibleAssetsNetExcludingGoodwill, .missingBankNetRevenue,
    .missingFinancialAssets, .missingFinancialReturns, .missingListingUnitRatio, .missingClassRatio]

inductive ToptError where
  | forest (error : ForestError)
  | bands (error : TierBandError)
  | invocationId
  | otherTrees
  | noSnapshotField (node : String)
  | attribute (name : String)
  | reasonCode (name : String)
  | assertion
  | emptyMinimum
  | valuationBasis
  | lineage
  | blankUnit
  | unitMismatch
  | invalidOperation
  | resultValues
  deriving DecidableEq, Repr

instance liftForest : MonadLift (Except ForestError) (Except ToptError) := ⟨Except.mapError .forest⟩

instance liftBands : MonadLift (Except TierBandError) (Except ToptError) := ⟨Except.mapError .bands⟩

@[simp] theorem liftForest_eq_ok_iff {α : Type} {x : Except ForestError α} {a : α} :
    (liftM x : Except ToptError α) = .ok a ↔ x = .ok a := mapError_eq_ok_iff

@[simp] theorem liftBands_eq_ok_iff {α : Type} {x : Except TierBandError α} {a : α} :
    (liftM x : Except ToptError α) = .ok a ↔ x = .ok a := mapError_eq_ok_iff

/-! ## Snapshots -/

inductive MetricFreshness where
  | fresh
  | stale
  | unknown
  deriving DecidableEq, Repr

structure ToptMetricInput where
  inputId : String
  metric : String
  value : Option ℚ
  confidence : ℚ
  knowableAt : Instant
  unavailableReason : Option ToptCoreReasonCode
  confidence_range : 0 ≤ confidence ∧ confidence ≤ 1
  reason_of_none : unavailableReason.isSome → value = none

structure ToptCellQualityInput where
  inputId : String
  confidence : ℚ
  knowableAt : Instant
  freshness : MetricFreshness
  confidence_range : 0 ≤ confidence ∧ confidence ≤ 1

/-- The price and the share count of one listing. -/
structure ToptMarketValueComponent where
  instrumentId : String
  listingId : String
  marketPrice : ToptMetricInput
  sharesOutstanding : ToptMetricInput
  price_metric : marketPrice.metric = "market_price"
  shares_metric : sharesOutstanding.metric = "shares_outstanding"

structure GppeV0Definition where
  riskFreeRate : ℚ
  laborEfficiencyTrees : Option (Dict String LaborEfficiencyTreePin)
  rate_range : 0 ≤ riskFreeRate ∧ riskFreeRate ≤ 1

structure ToptLineage where
  snapshotId : String
  runId : String
  releaseManifestId : String
  universeId : String
  universeVersion : String
  universeSha256 : String
  cutoff : Instant
  issuerId : String
  instrumentId : String
  listingId : String
  observationIds : List String
  deriving DecidableEq, Repr

def isObservationId (text : String) : Bool :=
  let stem := "normalized-observation:".toList
  let digits := text.toList.drop stem.length
  text.toList.take stem.length = stem ∧ digits.length = 64 ∧ digits.all fun c => c ∈ "0123456789abcdef".toList

def validObservationIds (ids : List String) : Bool :=
  4 ≤ ids.length ∧ ids.length % 4 = 0 ∧ ids.Pairwise (· < ·) ∧ ids.all isObservationId

def validMetric (lineage : ToptLineage) (name : String) (metric : ToptMetricInput) : Bool :=
  metric.metric = name ∧ metric.inputId ∈ lineage.observationIds ∧ metric.knowableAt ≤ lineage.cutoff

structure ToptCoreSnapshotInput where
  lineage : ToptLineage
  operatingBranch : IssuerClass
  cellInputs : List ToptCellQualityInput
  grossProfit : Option ToptMetricInput
  totalAssets : Option ToptMetricInput
  headcount : Option ToptMetricInput
  revenue : Option ToptMetricInput
  preProvisionProfit : Option ToptMetricInput
  marketValueComponents : List ToptMarketValueComponent
  primaryListingUndeclared : Bool
  stockholdersEquity : Option ToptMetricInput
  preferredStockValue : Option ToptMetricInput
  goodwill : Option ToptMetricInput
  intangibleAssetsNetExcludingGoodwill : Option ToptMetricInput
  financialAssets : Option ToptMetricInput
  financialReturns : Option ToptMetricInput
  bankNetRevenue : Option ToptMetricInput
  observations : validObservationIds lineage.observationIds
  metrics : ∀ entry ∈ [("gross_profit", grossProfit), ("total_assets", totalAssets), ("headcount", headcount),
      ("revenue", revenue), ("pre_provision_profit", preProvisionProfit),
      ("stockholders_equity", stockholdersEquity), ("preferred_stock_value", preferredStockValue),
      ("goodwill", goodwill),
      ("intangible_assets_net_excluding_goodwill", intangibleAssetsNetExcludingGoodwill),
      ("financial_assets", financialAssets), ("financial_returns", financialReturns),
      ("bank_net_revenue", bankNetRevenue)],
    ∀ metric ∈ entry.2, validMetric lineage entry.1 metric
  cells : sortedBy id (cellInputs.map ToptCellQualityInput.inputId) = lineage.observationIds
  cells_known : ∀ cell ∈ cellInputs, cell.knowableAt ≤ lineage.cutoff
  listings : (marketValueComponents.map ToptMarketValueComponent.listingId).Nodup
  listed : lineage.listingId ∈ marketValueComponents.map ToptMarketValueComponent.listingId
  components : ∀ component ∈ marketValueComponents, validMetric lineage "market_price" component.marketPrice ∧
      validMetric lineage "shares_outstanding" component.sharesOutstanding

def ToptCoreSnapshotInput.getAttribute (snapshot : ToptCoreSnapshotInput) : String → Except ToptError (Option ToptMetricInput)
  | "gross_profit" => .ok snapshot.grossProfit
  | "total_assets" => .ok snapshot.totalAssets
  | "headcount" => .ok snapshot.headcount
  | "revenue" => .ok snapshot.revenue
  | "pre_provision_profit" => .ok snapshot.preProvisionProfit
  | "stockholders_equity" => .ok snapshot.stockholdersEquity
  | "preferred_stock_value" => .ok snapshot.preferredStockValue
  | "goodwill" => .ok snapshot.goodwill
  | "intangible_assets_net_excluding_goodwill" => .ok snapshot.intangibleAssetsNetExcludingGoodwill
  | "financial_assets" => .ok snapshot.financialAssets
  | "financial_returns" => .ok snapshot.financialReturns
  | "bank_net_revenue" => .ok snapshot.bankNetRevenue
  | name => .error (.attribute name)

def GppeV0Definition.getAttribute (definition : GppeV0Definition) : String → Except ToptError ℚ
  | "risk_free_rate" => .ok definition.riskFreeRate
  | name => .error (.attribute name)

def snapshotFreshness (snapshot : ToptCoreSnapshotInput) : MetricFreshness :=
  if ∃ cell ∈ snapshot.cellInputs, cell.freshness = .stale then .stale
  else if ∃ cell ∈ snapshot.cellInputs, cell.freshness = .unknown then .unknown
  else .fresh

/-- The named cause, or the code of the missing field. -/
def missingMetricReason (metric : Option ToptMetricInput) (field : String) : Except ToptError ToptCoreReasonCode :=
  match metric.bind ToptMetricInput.unavailableReason with
  | some reason => .ok reason
  | none =>
    match missingCodes.find? fun code => code.value = "missing_" ++ field with
    | some code => .ok code
    | none => .error (.reasonCode ("missing_" ++ field))

/-! ## Labor efficiency -/

inductive ToptCoreAvailability where
  | available
  | unavailable
  deriving DecidableEq, Repr

def Coherent (availability : ToptCoreAvailability) (values : List (Option ℚ))
    (reasons : List ToptCoreReasonCode) : Prop :=
  match availability with
  | .available => (∀ value ∈ values, value.isSome) ∧ reasons = []
  | .unavailable => (∀ value ∈ values, value = none) ∧ reasons ≠ []

def orderedReasons (reasons : List ToptCoreReasonCode) : List ToptCoreReasonCode :=
  sortedBy ToptCoreReasonCode.value reasons.dedup

theorem orderedReasons_ne_nil {reasons : List ToptCoreReasonCode} (h : reasons ≠ []) : orderedReasons reasons ≠ [] := by
  obtain ⟨reason, hmem⟩ := List.exists_mem_of_ne_nil _ h
  exact List.ne_nil_of_mem ((mem_sortedBy _).mpr (List.mem_dedup.mpr hmem))

structure ToptGppeResult where
  invocationId : String
  lineage : ToptLineage
  operatingBranch : IssuerClass
  availability : ToptCoreAvailability
  operatingEfficiency : Option ℚ
  capitalAdjustedGrossProfit : Option ℚ
  gppe : Option ℚ
  confidence : ℚ
  freshness : MetricFreshness
  reasonCodes : List ToptCoreReasonCode
  coherent : Coherent availability [operatingEfficiency, capitalAdjustedGrossProfit, gppe] reasonCodes

def unavailableGppe (snapshot : ToptCoreSnapshotInput) (invocationId : String)
    (reasons : List ToptCoreReasonCode) : Except ToptError ToptGppeResult :=
  if h : reasons = [] then .error .resultValues
  else
    .ok
      { invocationId
        lineage := snapshot.lineage
        operatingBranch := snapshot.operatingBranch
        availability := .unavailable
        operatingEfficiency := none
        capitalAdjustedGrossProfit := none
        gppe := none
        confidence := 0
        freshness := snapshotFreshness snapshot
        reasonCodes := orderedReasons reasons
        coherent := ⟨by simp, orderedReasons_ne_nil h⟩ }

/-- What `_collect_gppe_tree_inputs` collects. -/
structure TreeInputs where
  inputs : Dict String (Option ℚ)
  reasons : List ToptCoreReasonCode
  confidences : List ℚ

def collectInput (snapshot : ToptCoreSnapshotInput) (gppeDefinition : GppeV0Definition) (state : TreeInputs)
    (node : MetricNode) : Except ToptError TreeInputs := do
  match ← node.aliasOf .definitionParameter with
  | some parameter =>
    let value ← gppeDefinition.getAttribute parameter
    return { state with inputs := state.inputs.set node.key (some value) }
  | none =>
    match ← node.aliasOf .toptSnapshotField with
    | none => throw (.noSnapshotField node.key)
    | some field =>
      let metric ← snapshot.getAttribute field
      match valued metric ToptMetricInput.value with
      | some (metric, value) =>
        return { state with
          inputs := state.inputs.set node.key (some value)
          confidences := state.confidences ++ [metric.confidence] }
      | none =>
        if node.defaultWhenMissing.isSome then
          return { state with inputs := state.inputs.set node.key none }
        else
          let reason ← missingMetricReason metric field
          return { state with reasons := state.reasons ++ [reason] }

def collectGppeTreeInputs (snapshot : ToptCoreSnapshotInput) (gppeDefinition : GppeV0Definition)
    (tree : MetricTree) : Except ToptError TreeInputs := do
  let nodes ← requiredInputs registeredForest tree snapshot.operatingBranch
  nodes.foldlM (collectInput snapshot gppeDefinition) ⟨Dict.empty, [], []⟩

def samePins (a b : Dict String LaborEfficiencyTreePin) : Bool := ∀ name ∈ a.keys ++ b.keys, a.get? name = b.get? name

def evaluatedGppe (snapshot : ToptCoreSnapshotInput) (invocationId : String) (tree : MetricTree)
    (collected : TreeInputs) : Except ToptError ToptGppeResult := do
  let cls := snapshot.operatingBranch
  match collected.confidences with
  | [] => throw .emptyMinimum
  | first :: rest =>
    let evaluation ← evaluate registeredForest tree cls collected.inputs
    let capitalAdjusted ← capitalAdjustedNode tree cls
    if .negativeOperand ∈ evaluation.undefined.values then
      unavailableGppe snapshot invocationId [.negativeTangibleCommonEquity]
    else
      match (evaluation.values.get? capitalAdjusted).join, (evaluation.values.get? tree.root).join,
          evaluation.undefined.items with
      | some profit, some gppe, [] =>
        return { invocationId
                 lineage := snapshot.lineage
                 operatingBranch := cls
                 availability := .available
                 operatingEfficiency := some gppe
                 capitalAdjustedGrossProfit := some profit
                 gppe := some gppe
                 confidence := rest.foldl min first
                 freshness := snapshotFreshness snapshot
                 reasonCodes := []
                 coherent := ⟨by simp, rfl⟩ }
      | _, _, _ => throw .assertion

/-- The reasons of `compute_topt_gppe` that the cells of a snapshot give. -/
def freshnessReasons (snapshot : ToptCoreSnapshotInput) : List ToptCoreReasonCode :=
  match snapshotFreshness snapshot with
  | .stale => [.staleInput]
  | .unknown => [.unknownFreshness]
  | .fresh => []

def treeGppe (snapshot : ToptCoreSnapshotInput) (invocationId : String) (gppeDefinition : GppeV0Definition)
    (tree : MetricTree) : Except ToptError ToptGppeResult := do
  let collected ← collectGppeTreeInputs snapshot gppeDefinition tree
  let reasons := collected.reasons ++ freshnessReasons snapshot
  if reasons ≠ [] then unavailableGppe snapshot invocationId reasons
  else
    match snapshot.headcount.bind ToptMetricInput.value with
    | none => throw .assertion
    | some headcount =>
      if headcount ≤ 0 then unavailableGppe snapshot invocationId [.nonpositiveHeadcount]
      else evaluatedGppe snapshot invocationId tree collected

section

variable (treeSha256 : Forest → MetricTree → String)

def computeToptGppe (snapshot : ToptCoreSnapshotInput) (invocationId : String)
    (gppeDefinition : GppeV0Definition) (definition : StrategyDefinition) :
    Except ToptError ToptGppeResult := do
  if ¬ "topt-gppe-invocation:".isPrefixOf invocationId then throw .invocationId
  else if snapshot.primaryListingUndeclared then
    unavailableGppe snapshot invocationId [.primaryListingUndeclared]
  else
    let pins ← definitionPins definition
    if ∃ trees ∈ gppeDefinition.laborEfficiencyTrees, ¬ samePins trees pins then throw .otherTrees
    else
      match boundTree treeSha256 registeredForest definition none snapshot.operatingBranch with
      | .error (.unpinnedClass _ _) =>
        unavailableGppe snapshot invocationId [.laborEfficiencyTreeUnpinned]
      | .error error => throw (.forest error)
      | .ok tree => treeGppe snapshot invocationId gppeDefinition tree

end

/-! ## The tier composite -/

def coreContext : Context := ⟨34⟩

structure ToptCoreResult where
  invocationId : String
  lineage : ToptLineage
  operatingBranch : IssuerClass
  availability : ToptCoreAvailability
  operatingEfficiency : Option ℚ
  capitalAdjustedGrossProfit : Option ℚ
  gppe : Option ℚ
  tier : Option ValuationTier
  targetPsLower : Option ℚ
  targetPsUpper : Option ℚ
  targetPsMidpoint : Option ℚ
  currentPs : Option ℚ
  currentPgp : Option ℚ
  targetPgpLower : Option ℚ
  targetPgpUpper : Option ℚ
  targetPgpMidpoint : Option ℚ
  valuationGap : Option ℚ
  confidence : ℚ
  freshness : MetricFreshness
  reasonCodes : List ToptCoreReasonCode
  coherent : Coherent availability [operatingEfficiency, capitalAdjustedGrossProfit, gppe, targetPsLower,
    targetPsUpper, targetPsMidpoint, currentPs, currentPgp, targetPgpLower, targetPgpUpper, targetPgpMidpoint,
    valuationGap] reasonCodes
  tiered : tier.isSome ↔ availability = .available

def unavailableCore (snapshot : ToptCoreSnapshotInput) (gppeResult : ToptGppeResult) (invocationId : String)
    (reasons : List ToptCoreReasonCode) : Except ToptError ToptCoreResult :=
  if h : reasons = [] then .error .resultValues
  else
    .ok
      { invocationId
        lineage := snapshot.lineage
        operatingBranch := gppeResult.operatingBranch
        availability := .unavailable
        operatingEfficiency := none
        capitalAdjustedGrossProfit := none
        gppe := none
        tier := none
        targetPsLower := none
        targetPsUpper := none
        targetPsMidpoint := none
        currentPs := none
        currentPgp := none
        targetPgpLower := none
        targetPgpUpper := none
        targetPgpMidpoint := none
        valuationGap := none
        confidence := gppeResult.confidence
        freshness := gppeResult.freshness
        reasonCodes := orderedReasons reasons
        coherent := ⟨by simp, orderedReasons_ne_nil h⟩
        tiered := by simp }

/-- `_share_count_reasons` and `_market_price_reasons`: the causes of missing values, or the code of one that is not positive. -/
def componentReasons (metrics : List ToptMetricInput) (missing nonpositive : ToptCoreReasonCode) : List ToptCoreReasonCode :=
  let dropped := metrics.filter fun metric => metric.value.isNone
  if dropped ≠ [] then
    let causes := dropped.map ToptMetricInput.unavailableReason
    (causes.filterMap id).dedup ++ (if none ∈ causes then [missing] else [])
  else if ∃ metric ∈ metrics, ∃ value ∈ metric.value, value ≤ 0 then [nonpositive]
  else []

def shareCountReasons (snapshot : ToptCoreSnapshotInput) : List ToptCoreReasonCode :=
  componentReasons (snapshot.marketValueComponents.map ToptMarketValueComponent.sharesOutstanding)
    .missingSharesOutstanding .nonpositiveSharesOutstanding

def marketPriceReasons (snapshot : ToptCoreSnapshotInput) : List ToptCoreReasonCode :=
  componentReasons (snapshot.marketValueComponents.map ToptMarketValueComponent.marketPrice)
    .missingMarketPrice .nonpositiveMarketPrice

section

variable (round : ℚ → ℚ)

def componentMarketValueIn (component : ToptMarketValueComponent) : Except ToptError ℚ :=
  match component.marketPrice.value, component.sharesOutstanding.value with
  | some price, some shares =>
    if isBlank component.instrumentId then .error .blankUnit
    else
      match timesIn round (price, .perUnit defaultReportingCurrency component.instrumentId)
          (shares, .units component.instrumentId) with
      | some value => .ok value
      | none => .error .unitMismatch
  | _, _ => .error .assertion

/-- An issuer's market value: equal share counts of several listings are the company's, valued once, at the execution listing. -/
def marketCapIn (snapshot : ToptCoreSnapshotInput) : Except ToptError ℚ :=
  let components := snapshot.marketValueComponents
  let counts := components.map fun component => component.sharesOutstanding.value
  if 1 < components.length ∧ counts.dedup.length = 1 then
    match components.find? fun component => component.listingId = snapshot.lineage.listingId with
    | some execution => componentMarketValueIn round execution
    | none => .error .assertion
  else
    components.foldlM (fun total component => do
      let value ← componentMarketValueIn round component
      return round (total + value)) 0

def divideIn (x y : ℚ) : Except ToptError ℚ := if y = 0 then .error .invalidOperation else .ok (round (x / y))

end

section

variable (treeSha256 : Forest → MetricTree → String) (round : ℚ → ℚ)

def operatingNumerator (snapshot : ToptCoreSnapshotInput) (definition : StrategyDefinition) :
    Except ToptError (String × Option ToptMetricInput) := do
  let cls := snapshot.operatingBranch
  let tree ← boundTree treeSha256 registeredForest definition none cls
  let node ← operatingNumeratorNode registeredForest tree cls
  match ← node.aliasOf .toptSnapshotField with
  | none => throw .assertion
  | some field =>
    let metric ← snapshot.getAttribute field
    return (field, metric)

def positiveReasons (metric : Option ToptMetricInput) (field : String) (nonpositive : ToptCoreReasonCode) :
    Except ToptError (List ToptCoreReasonCode) :=
  match metric.bind ToptMetricInput.value with
  | none => (missingMetricReason metric field).map fun reason => [reason]
  | some value => .ok (if value ≤ 0 then [nonpositive] else [])

def valuedCoreIn (snapshot : ToptCoreSnapshotInput) (gppeResult : ToptGppeResult) (invocationId : String)
    (definition : StrategyDefinition) (revenue numerator : ToptMetricInput)
    (efficiency profit gppe revenueValue numeratorValue : ℚ) : Except ToptError ToptCoreResult := do
  let cap ← marketCapIn round snapshot
  let currentPs ← divideIn round cap revenueValue
  let currentPgp ← divideIn round cap numeratorValue
  let band ← bandFor definition.tierValuation.bands gppe
  let midpoint ← divideIn round (round (band.targetLowerBound + band.targetUpperBound)) 2
  let ratio ← divideIn round midpoint currentPgp
  let margin ← divideIn round numeratorValue revenueValue
  let components := snapshot.marketValueComponents
  let confidences := [revenue.confidence, numerator.confidence] ++
    components.map (fun component => component.marketPrice.confidence) ++
    components.map (fun component => component.sharesOutstanding.confidence) ++
    snapshot.cellInputs.map ToptCellQualityInput.confidence
  return { invocationId
           lineage := snapshot.lineage
           operatingBranch := gppeResult.operatingBranch
           availability := .available
           operatingEfficiency := some efficiency
           capitalAdjustedGrossProfit := some profit
           gppe := some gppe
           tier := some band.tier
           targetPsLower := some (round (band.targetLowerBound * margin))
           targetPsUpper := some (round (band.targetUpperBound * margin))
           targetPsMidpoint := some (round (midpoint * margin))
           currentPs := some currentPs
           currentPgp := some currentPgp
           targetPgpLower := some band.targetLowerBound
           targetPgpUpper := some band.targetUpperBound
           targetPgpMidpoint := some midpoint
           valuationGap := some (round (ratio - 1))
           confidence := confidences.foldl min gppeResult.confidence
           freshness := gppeResult.freshness
           reasonCodes := []
           coherent := ⟨by simp, rfl⟩
           tiered := by simp }

/-- `compute_topt_core` of an available labor efficiency, rounded. -/
def availableCoreIn (snapshot : ToptCoreSnapshotInput) (gppeResult : ToptGppeResult) (invocationId : String)
    (definition : StrategyDefinition) : Except ToptError ToptCoreResult := do
  let revenueReasons ← positiveReasons snapshot.revenue "revenue" .nonpositiveRevenue
  let (field, numerator) ← operatingNumerator treeSha256 snapshot definition
  let numeratorReasons ← positiveReasons numerator field .nonpositiveGrossProfit
  let reasons := revenueReasons ++ numeratorReasons ++ shareCountReasons snapshot ++ marketPriceReasons snapshot
  if reasons ≠ [] then unavailableCore snapshot gppeResult invocationId reasons
  else
    match gppeResult.gppe, gppeResult.capitalAdjustedGrossProfit, snapshot.revenue, numerator with
    | some gppe, some profit, some revenue, some numerator =>
      match gppeResult.operatingEfficiency, revenue.value, numerator.value with
      | some efficiency, some revenueValue, some numeratorValue =>
        valuedCoreIn round snapshot gppeResult invocationId definition revenue numerator efficiency profit gppe
          revenueValue numeratorValue
      | _, _, _ => throw .assertion
    | _, _, _, _ => throw .assertion

def computeToptCoreIn (snapshot : ToptCoreSnapshotInput) (gppeResult : ToptGppeResult) (invocationId : String)
    (definition : StrategyDefinition) : Except ToptError ToptCoreResult :=
  if ¬ "topt-core-invocation:".isPrefixOf invocationId then .error .invocationId
  else if definition.valuationBasis ≠ .priceToGrossProfit then .error .valuationBasis
  else if gppeResult.lineage ≠ snapshot.lineage then .error .lineage
  else if gppeResult.availability = .unavailable then
    unavailableCore snapshot gppeResult invocationId gppeResult.reasonCodes
  else availableCoreIn treeSha256 round snapshot gppeResult invocationId definition

/-- Each operation is rounded in the context of the core. -/
def computeToptCore (snapshot : ToptCoreSnapshotInput) (gppeResult : ToptGppeResult) (invocationId : String)
    (definition : StrategyDefinition) : Except ToptError ToptCoreResult :=
  computeToptCoreIn treeSha256 coreContext.round snapshot gppeResult invocationId definition

def exactToptCore (snapshot : ToptCoreSnapshotInput) (gppeResult : ToptGppeResult) (invocationId : String)
    (definition : StrategyDefinition) : Except ToptError ToptCoreResult :=
  computeToptCoreIn treeSha256 id snapshot gppeResult invocationId definition

end

end TrueAlpha.Topt
