import TrueAlpha.Backtest.EqualWeights
import TrueAlpha.Strategy.OldPeriods
import TrueAlpha.Strategy.Projector

/-!
# The decisions of a backtest

The embedding of `decide` of `data_engine.datahub.backtest`: the evaluator at each cutoff, the tickers of the selected issuers
and their weights, which pass the check against `equal_weights` (`decideCutoff_spec`).
-/

namespace TrueAlpha

def ExclusionReason.value : ExclusionReason → String
  | .missingGrossProfitFact => "missing_gross_profit_fact"
  | .missingTotalAssetsFact => "missing_total_assets_fact"
  | .missingHeadcountDisclosure => "missing_headcount_disclosure"
  | .missingLaborCostDisclosure => "missing_labor_cost_disclosure"
  | .missingRevenueFact => "missing_revenue_fact"
  | .missingMarketValueInput => "missing_market_value_input"
  | .missingTangibleCommonEquity => "missing_tangible_common_equity"
  | .missingPreferredStockValue => "missing_preferred_stock_value"
  | .negativeTangibleCommonEquity => "negative_tangible_common_equity"
  | .missingIssuerClass => "missing_issuer_class"
  | .missingRiskFreeRateParameter => "missing_risk_free_rate_parameter"
  | .belowConfidenceFloor => "below_confidence_floor"
  | .staleRequiredInput => "stale_required_input"
  | .stalePeriod => "stale_period"
  | .nonpositiveHeadcount => "nonpositive_headcount"
  | .nonpositiveLaborCost => "nonpositive_labor_cost"
  | .nonpositiveRevenue => "nonpositive_revenue"
  | .nonpositiveGrossProfit => "nonpositive_gross_profit"
  | .plausibilityRefusedNodeSignPolicy => "plausibility_refused_node_sign_policy"
  | .registryUnavailable => "registry_unavailable"
  | .primaryListingUndeclared => "primary_listing_undeclared"

def GoldenDecisionOutcome.value : GoldenDecisionOutcome → String
  | .selected => "selected"
  | .rankedBeyondSelectionCount => "ranked_beyond_selection_count"
  | .rejectedValuationAboveTierBand => "rejected_valuation_above_tier_band"
  | .excluded => "excluded"

namespace Strategy

open Backtest

def OperatingBranch.issuerClass : OperatingBranch → IssuerClass
  | .nonFinancial => .nonFinancial
  | .financial => .financial
  | .insurance => .insurance

/-- The exceptions of `decide`. -/
inductive DecisionError where
  | factor (error : FactorError)
  | unlisted (issuerId : String) (cutoffAt : Instant)
  | weights (error : EqualWeightsError)
  | missingKey (symbol : String)
  | notEqual (evaluatorWeights : Finset (Option ℚ)) (cutoffAt : Instant)

structure CutoffDecision where
  cutoffAt : Instant
  weights : Dict String ℚ
  selected : List String
  eligible : ℕ
  outcomes : Dict String ℕ

structure Picks where
  selected : List String
  tickers : List String
  evaluatorWeights : Finset (Option ℚ)
  outcomes : Dict String ℕ

def outcomeKey (decision : EvaluatedDecision) : String :=
  match decision.exclusionReason with
  | some reason => reason.value
  | none => decision.outcome.value

def pick (issuers : Dict String HistoryIssuer) (cutoffAt : Instant) (picks : Picks) (decision : EvaluatedDecision) :
    Except DecisionError Picks :=
  let key := outcomeKey decision
  let outcomes := picks.outcomes.set key ((picks.outcomes.get? key).getD 0 + 1)
  if decision.outcome ≠ .selected then .ok { picks with outcomes }
  else
    match issuers.get? decision.issuerId with
    | none => .error (.unlisted decision.issuerId cutoffAt)
    | some issuer => .ok {
        selected := picks.selected ++ [decision.issuerId]
        tickers := picks.tickers ++ [issuer.ticker]
        evaluatorWeights := insert decision.targetWeight picks.evaluatorWeights
        outcomes }

def checkWeights (picks : Picks) (weights : Dict String ℚ) (cutoffAt : Instant) : Except DecisionError Unit :=
  match (sortedBy id picks.tickers).head? with
  | none => .ok ()
  | some first =>
    match weights.get? first with
    | none => .error (.missingKey first)
    | some weight =>
      if picks.evaluatorWeights ≠ {some weight} then .error (.notEqual picks.evaluatorWeights cutoffAt) else .ok ()

section

variable (treeSha256 : Forest → MetricTree → String) (forest : Forest) (issuers : Dict String HistoryIssuer)
  (definition : StrategyDefinition) (inputsAt : Instant → List IssuerInput) (rateAt : Instant → ℚ)

def classedInputs (cutoffAt : Instant) : List IssuerInput := (inputsAt cutoffAt).map fun item =>
    { item with issuerClass := (issuers.get? item.issuerId).map fun issuer => issuer.operatingBranch.issuerClass }

def evaluatedAt (cutoffAt : Instant) : Except FactorError (List EvaluatedDecision) :=
  evaluateCutoff treeSha256 forest definition cutoffAt (rateAt cutoffAt) none Dict.empty (classedInputs issuers inputsAt cutoffAt)

def decideCutoff (cutoffAt : Instant) : Except DecisionError CutoffDecision := do
  let evaluated ← (evaluatedAt treeSha256 forest issuers definition inputsAt rateAt cutoffAt).mapError .factor
  let picks ← evaluated.foldlM (pick issuers cutoffAt) ⟨[], [], ∅, Dict.empty⟩
  let weights ← (equalWeights picks.tickers definition.sizingQuantization).mapError .weights
  checkWeights picks weights cutoffAt
  return {
    cutoffAt
    weights
    selected := picks.selected
    eligible := (evaluated.filter EvaluatedDecision.eligible).length
    outcomes := picks.outcomes }

def decideCutoffs (cutoffs : List Instant) : Except DecisionError (List CutoffDecision) :=
  cutoffs.mapM (decideCutoff treeSha256 forest issuers definition inputsAt rateAt)

end

/-! ## The decisions of the evaluator -/

section

variable {treeSha256 : Forest → MetricTree → String} {forest : Forest} {definition : StrategyDefinition}
  {cutoffAt : Instant} {riskFreeRate : ℚ} {treePins : Option (Dict String LaborEfficiencyTreePin)}
  {refusals : Dict String ExclusionReason} {trees : Dict IssuerClass MetricTree} {issuers : List IssuerInput}
  {issuer : IssuerInput} {decision : EvaluatedDecision} {decisions : List EvaluatedDecision} {tree : MetricTree}
  {cls : IssuerClass} {gap : Option ℚ}

theorem valuedDecision_not_selected {factors : DecisionFactors} {laborValue multipleValue : ℚ}
    (h : valuedDecision definition tree issuer factors laborValue multipleValue = .ok (decision, gap)) :
    decision.outcome ≠ .selected := by
  unfold valuedDecision at h
  obtain ⟨_, -, h⟩ := bind_eq_ok_iff.mp h
  obtain ⟨_, -, h⟩ := bind_eq_ok_iff.mp h
  obtain ⟨_, -, h⟩ := bind_eq_ok_iff.mp h
  obtain ⟨_, -, h⟩ := bind_eq_ok_iff.mp h
  obtain ⟨_, -, h⟩ := bind_eq_ok_iff.mp h
  obtain ⟨tierResult, -, h⟩ := bind_eq_ok_iff.mp h
  obtain ⟨_, -, h⟩ := bind_eq_ok_iff.mp h
  obtain ⟨_, -, h⟩ := bind_eq_ok_iff.mp h
  obtain ⟨_, -, h⟩ := bind_eq_ok_iff.mp h
  cases hgap : tierResult.value with
  | none =>
    simp only [hgap] at h
    obtain ⟨rfl, -⟩ := Prod.mk.inj (pure_eq_ok_iff.mp h)
    exact nofun
  | some value =>
    simp only [hgap] at h
    obtain ⟨_, -, h⟩ := bind_eq_ok_iff.mp h
    split_ifs at h
    all_goals
      obtain ⟨rfl, -⟩ := Prod.mk.inj (pure_eq_ok_iff.mp h)
      exact nofun

theorem treeDecision_not_selected (h : treeDecision forest definition riskFreeRate cutoffAt tree cls issuer = .ok (decision, gap)) :
    decision.outcome ≠ .selected := by
  rw [treeDecision_eq] at h
  obtain ⟨consumed, -, h⟩ := bind_eq_ok_iff.mp h
  obtain ⟨verdict, -, h⟩ := bind_eq_ok_iff.mp h
  cases verdict with
  | refused reason confidence =>
    obtain ⟨rfl, -⟩ := Prod.mk.inj (Except.ok.inj h)
    exact nofun
  | passed confidence =>
    unfold decisionOfVerdict factorDecision at h
    obtain ⟨factors, -, h⟩ := bind_eq_ok_iff.mp h
    split at h
    · exact valuedDecision_not_selected h
    · obtain ⟨rfl, -⟩ := Prod.mk.inj (pure_eq_ok_iff.mp h)
      exact nofun

theorem issuerDecision_not_selected
    (h : issuerDecision forest definition cutoffAt riskFreeRate trees refusals issuer = .ok decision) :
    decision.outcome ≠ .selected := by
  unfold issuerDecision at h
  split at h
  · cases h
    exact nofun
  · obtain ⟨⟨_, gap⟩, hpair, rfl⟩ := map_eq_ok_iff.mp h
    unfold evaluateIssuer at hpair
    split at hpair
    · cases hpair
      exact nofun
    · split at hpair
      · cases hpair
        exact nofun
      · exact treeDecision_not_selected hpair

def selectedOf (decisions : List EvaluatedDecision) : List EvaluatedDecision :=
  decisions.filter fun decision => decision.outcome = .selected

theorem selectedOf_rankAndSelect {weight : ℚ} (hnone : ∀ decision ∈ decisions, decision.outcome ≠ .selected)
    (hweight : selectionWeight definition (candidates decisions).length = .ok weight) {out : List EvaluatedDecision}
    (hout : rankAndSelect definition decisions = .ok out) :
    (selectedOf out).length = min (candidates decisions).length definition.selectionCount ∧
      ∀ decision ∈ selectedOf out, decision.targetWeight = some weight := by
  rw [rankAndSelect_eq definition weight hweight] at hout
  obtain rfl := Except.ok.inj hout
  have hresolved : selectedOf (placedResolved decisions) = [] := by
    unfold selectedOf placedResolved
    rw [List.filter_eq_nil_iff]
    intro decision hdecision
    obtain ⟨before, hbefore, rfl⟩ := List.mem_map.mp hdecision
    exact fun hselected => hnone before (List.mem_filter.mp hbefore).1 (of_decide_eq_true hselected)
  have hperm : (selectedOf (sortedBy EvaluatedDecision.issuerId (placedResolved decisions ++
      placedRanked definition weight decisions))).Perm (selectedOf (placedRanked definition weight decisions)) := by
    have hsorted := (perm_sortedBy EvaluatedDecision.issuerId (placedResolved decisions ++
      placedRanked definition weight decisions)).filter fun decision => decision.outcome = .selected
    refine hsorted.trans ?_
    rw [List.filter_append]
    exact (congrArg (· ++ _) hresolved).symm ▸ List.Perm.refl _
  have houtcome : ∀ entry ∈ (((sortedBy gapKey (candidates decisions)).map (placed decisions)).zipIdx 1),
      (ranked definition weight entry.1 entry.2).outcome = .selected ↔ entry.2 ≤ definition.selectionCount := by
    intro entry hentry
    obtain ⟨before, hbefore, hplaced⟩ := List.mem_map.mp (List.fst_mem_of_mem_zipIdx hentry)
    have hcandidate := (List.mem_filter.mp ((mem_sortedBy gapKey).mp hbefore)).1
    unfold ranked
    split_ifs with hrank
    · exact iff_of_true rfl hrank
    · refine iff_of_false ?_ hrank
      rw [← hplaced]
      exact hnone before hcandidate
  constructor
  · rw [hperm.length_eq, selectedOf, placedRanked, List.filter_map, List.length_map, List.filter_congr fun entry hentry => by
        rw [Function.comp_apply, decide_eq_decide.mpr (houtcome entry hentry)]]
    have hranks : ((((sortedBy gapKey (candidates decisions)).map (placed decisions)).zipIdx 1).filter
        fun entry => entry.2 ≤ definition.selectionCount).length =
        (((((sortedBy gapKey (candidates decisions)).map (placed decisions)).zipIdx 1).map Prod.snd).filter
          fun rank => rank ≤ definition.selectionCount).length := by
      rw [List.filter_map, List.length_map]
      rfl
    rw [hranks, List.zipIdx_map_snd, length_filter_range', List.length_map, (perm_sortedBy gapKey _).length_eq]
  · intro decision hdecision
    obtain ⟨hmem, hselected⟩ := List.mem_filter.mp (hperm.mem_iff.mp hdecision)
    obtain ⟨entry, hentry, rfl⟩ := List.mem_map.mp hmem
    have hrank := (houtcome entry hentry).mp (of_decide_eq_true hselected)
    unfold ranked
    rw [if_pos hrank]

end

section

variable {issuers : Dict String HistoryIssuer} {cutoffAt : Instant} {evaluated : List EvaluatedDecision} {picks : Picks}

def tickerOf (issuers : Dict String HistoryIssuer) (decision : EvaluatedDecision) : Option String :=
  (issuers.get? decision.issuerId).map HistoryIssuer.ticker

theorem picks_spec (h : evaluated.foldlM (pick issuers cutoffAt) ⟨[], [], ∅, Dict.empty⟩ = .ok picks) :
    picks.tickers = (selectedOf evaluated).filterMap (tickerOf issuers) ∧ picks.tickers.length = (selectedOf evaluated).length ∧
      picks.evaluatorWeights = ((selectedOf evaluated).map EvaluatedDecision.targetWeight).toFinset := by
  refine foldlM_inv (fun done picks => picks.tickers = (selectedOf done).filterMap (tickerOf issuers) ∧
    picks.tickers.length = (selectedOf done).length ∧
      picks.evaluatorWeights = ((selectedOf done).map EvaluatedDecision.targetWeight).toFinset) h ⟨rfl, rfl, rfl⟩ ?_
  rintro done decision rest picks next - ⟨htickers, hlength, hweights⟩ hnext
  unfold pick at hnext
  dsimp only at hnext
  by_cases hselected : decision.outcome = .selected
  · have hdone : selectedOf (done ++ [decision]) = selectedOf done ++ [decision] := by
      simp [selectedOf, hselected]
    rw [if_neg (not_not.mpr hselected)] at hnext
    rw [hdone]
    cases hissuer : issuers.get? decision.issuerId with
    | none =>
      rw [hissuer] at hnext
      cases hnext
    | some issuer =>
      rw [hissuer] at hnext
      obtain rfl := Except.ok.inj hnext
      have hticker : tickerOf issuers decision = some issuer.ticker := by rw [tickerOf, hissuer]; rfl
      refine ⟨?_, ?_, ?_⟩
      · simp [htickers, hticker]
      · simp [hlength]
      · ext weight
        simp [hweights]
  · have hdone : selectedOf (done ++ [decision]) = selectedOf done := by
      simp [selectedOf, hselected]
    rw [if_pos hselected] at hnext
    obtain rfl := Except.ok.inj hnext
    rw [hdone]
    exact ⟨htickers, hlength, hweights⟩

theorem picks_cases (evaluated : List EvaluatedDecision) (start : Picks) :
    (∃ picks, evaluated.foldlM (pick issuers cutoffAt) start = .ok picks) ∨
      ∃ issuerId, evaluated.foldlM (pick issuers cutoffAt) start = .error (.unlisted issuerId cutoffAt) := by
  induction evaluated generalizing start with
  | nil => exact Or.inl ⟨start, rfl⟩
  | cons decision evaluated ih =>
    rw [List.foldlM_cons]
    have hpick : (∃ next, pick issuers cutoffAt start decision = .ok next) ∨
        ∃ issuerId, pick issuers cutoffAt start decision = .error (.unlisted issuerId cutoffAt) := by
      unfold pick
      dsimp only
      by_cases hselected : decision.outcome = .selected
      · rw [if_neg (not_not.mpr hselected)]
        cases issuers.get? decision.issuerId with
        | none => exact Or.inr ⟨_, rfl⟩
        | some issuer => exact Or.inl ⟨_, rfl⟩
      · rw [if_pos hselected]
        exact Or.inl ⟨_, rfl⟩
    obtain ⟨next, hnext⟩ | ⟨issuerId, hraise⟩ := hpick
    · rw [hnext, ok_bind]
      exact ih next
    · exact Or.inr ⟨issuerId, by rw [hraise]; rfl⟩

end

/-! ## The check of the weights -/

section

variable {treeSha256 : Forest → MetricTree → String} {forest : Forest} {issuers : Dict String HistoryIssuer}
  {definition : StrategyDefinition} {inputsAt : Instant → List IssuerInput} {rateAt : Instant → ℚ} {cutoffAt : Instant}
  {evaluated : List EvaluatedDecision} {decisions : List CutoffDecision} {cutoffs : List Instant} {weight : ℚ}

structure DistinctWithin (issuers : Dict String HistoryIssuer) (definition : StrategyDefinition)
    (evaluated : List EvaluatedDecision) : Prop where
  distinct : ((selectedOf evaluated).filterMap (tickerOf issuers)).Nodup
  within : (selectedOf evaluated).length * ((selectedOf evaluated).length - 1) ≤
    2 * 10 ^ definition.sizingQuantization.decimalPlaces

theorem computed_eq_ok_iff {value : Option ℚ} {x : ℚ} : computed value = .ok x ↔ value = some x := by
  cases value <;> simp [computed]

theorem evaluatedAt_weights (h : evaluatedAt treeSha256 forest issuers definition inputsAt rateAt cutoffAt = .ok evaluated) :
    ∃ weight, ∀ decision ∈ selectedOf evaluated, decision.targetWeight = some weight ∧
      (Context.default.div 1 (selectedOf evaluated).length).bind
        (Context.default.quantize definition.sizingQuantization.decimalPlaces) = some weight := by
  obtain ⟨trees, -, h⟩ := bind_eq_ok_iff.mp h
  obtain ⟨before, hbefore, h⟩ := bind_eq_ok_iff.mp h
  have hloop : (classedInputs issuers inputsAt cutoffAt).mapM
      (issuerDecision forest definition cutoffAt (rateAt cutoffAt) trees Dict.empty) = .ok before := hbefore
  have hnone : ∀ decision ∈ before, decision.outcome ≠ .selected := by
    intro decision hdecision
    obtain ⟨issuer, -, hof⟩ := exists_of_mem_mapM hloop hdecision
    exact issuerDecision_not_selected hof
  obtain ⟨weight, hweight⟩ := exists_selectionWeight definition (candidates before).length
  obtain ⟨hlength, hall⟩ := selectedOf_rankAndSelect hnone hweight h
  refine ⟨weight, fun decision hdecision => ⟨hall decision hdecision, ?_⟩⟩
  have hslots : max (min (candidates before).length definition.selectionCount) 1 = (selectedOf evaluated).length := by
    rw [hlength]
    have hpos := List.length_pos_of_mem hdecision
    omega
  unfold selectionWeight at hweight
  rw [hslots] at hweight
  obtain ⟨share, hshare, hquantize⟩ := bind_eq_ok_iff.mp hweight
  rw [computed_eq_ok_iff] at hshare
  rw [hshare, Option.bind_some]
  exact computed_eq_ok_iff.mp hquantize

theorem get?_first {tickers : List String} {quantization : Quantization} {weights : Dict String ℚ} {first : String}
    (hdistinct : tickers.Nodup) (hwithin : tickers.length * (tickers.length - 1) ≤ 2 * 10 ^ quantization.decimalPlaces)
    (hfirst : (sortedBy id tickers).head? = some first) (hweights : equalWeights tickers quantization = .ok weights) :
    weights.get? first = some (TrueAlpha.quantize quantization.decimalPlaces (1 / tickers.length : ℚ)) := by
  have hsorted : sortedSet tickers = sortedBy id tickers := by rw [sortedSet, hdistinct.dedup]
  have hlength : (sortedSet tickers).length = tickers.length := by rw [hsorted, (perm_sortedBy id tickers).length_eq]
  have hsome : tickers ≠ [] := by
    rintro rfl
    cases hfirst
  rw [← hsorted] at hfirst
  rw [← hlength] at hwithin ⊢
  obtain ⟨weights', last, hweights', hlast, hitems⟩ := equalWeights_eq hsome hwithin
  obtain rfl := Except.ok.inj (hweights.symm.trans hweights')
  rw [Dict.get?_eq_some_iff, hitems]
  generalize sortedSet tickers = unique at hfirst hlast ⊢
  rcases unique with _ | ⟨only, _ | ⟨second, rest⟩⟩
  · cases hfirst
  · -- the only weight is one
    obtain rfl := Option.some.inj hfirst
    obtain rfl := Option.some.inj hlast
    have hone := quantize_intCast (K := ℚ) quantization.decimalPlaces 1
    simp only [Int.cast_one] at hone
    simp [hone]
  · obtain rfl := Option.some.inj hfirst
    exact List.mem_append_left _ (by simp)

/-- Where the tickers are distinct and within the bound, a cutoff raises on an issuer without a listing only, else its weights are
a portfolio. -/
theorem decideCutoff_spec (h : evaluatedAt treeSha256 forest issuers definition inputsAt rateAt cutoffAt = .ok evaluated)
    (hwithin : DistinctWithin issuers definition evaluated) :
    (∃ issuerId, decideCutoff treeSha256 forest issuers definition inputsAt rateAt cutoffAt =
      .error (.unlisted issuerId cutoffAt)) ∨
    ∃ decision, decideCutoff treeSha256 forest issuers definition inputsAt rateAt cutoffAt = .ok decision ∧
      ∃ target, targetPortfolio decision.cutoffAt decision.weights = .ok target ∧ target.weights = decision.weights := by
  unfold decideCutoff
  rw [h]
  obtain ⟨picks, hpicks⟩ | ⟨issuerId, hraise⟩ := picks_cases evaluated ⟨[], [], ∅, Dict.empty⟩
  · right
    obtain ⟨htickers, hlength, hevaluator⟩ := picks_spec hpicks
    have hdistinct : picks.tickers.Nodup := htickers ▸ hwithin.distinct
    have hbound : picks.tickers.length * (picks.tickers.length - 1) ≤
        2 * 10 ^ definition.sizingQuantization.decimalPlaces := hlength ▸ hwithin.within
    have hset : (sortedSet picks.tickers).length = picks.tickers.length := by
      rw [sortedSet, hdistinct.dedup, (perm_sortedBy id picks.tickers).length_eq]
    -- the weights, which are a portfolio
    have hweights : ∃ weights, equalWeights picks.tickers definition.sizingQuantization = .ok weights ∧
        (∀ weight ∈ weights.values, 0 ≤ weight) ∧ weights.values.sum ≤ 1 := by
      by_cases hnone : picks.tickers = []
      · rw [hnone]
        exact ⟨Dict.empty, rfl, fun weight hweight => (List.not_mem_nil hweight).elim, zero_le_one⟩
      · obtain ⟨weights, hweights, -, hnonneg, hsum, -⟩ := equalWeights_spec hnone (hset ▸ hbound)
        exact ⟨weights, hweights, hnonneg, hsum.le⟩
    obtain ⟨weights, hweights, hnonneg, hsum⟩ := hweights
    have hcheck : checkWeights picks weights cutoffAt = .ok () := by
      unfold checkWeights
      cases hfirst : (sortedBy id picks.tickers).head? with
      | none => rfl
      | some first =>
        have hget := get?_first hdistinct hbound hfirst hweights
        obtain ⟨weight, hall⟩ := evaluatedAt_weights h
        have hmem : first ∈ picks.tickers := (mem_sortedBy id).mp (List.mem_of_head? hfirst)
        have hcount : 1 ≤ picks.tickers.length := List.length_pos_of_mem hmem
        have hselected : (selectedOf evaluated) ≠ [] := List.ne_nil_of_length_pos (hlength ▸ hcount)
        obtain ⟨decision, hdecision⟩ := List.exists_mem_of_ne_nil _ hselected
        have hweight := (hall decision hdecision).2
        rw [← hlength, quantize_share hcount hbound definition.sizingQuantization.places_le, Option.some.injEq] at hweight
        have hone : picks.evaluatorWeights = {some weight} := by
          rw [hevaluator]
          ext value
          simp only [List.mem_toFinset, List.mem_map, Finset.mem_singleton]
          constructor
          · rintro ⟨d, hd, rfl⟩
            exact (hall d hd).1
          · rintro rfl
            exact ⟨decision, hdecision, (hall decision hdecision).1⟩
        dsimp only
        rw [hget, hweight]
        dsimp only
        rw [hone, if_neg (not_not.mpr rfl)]
    obtain ⟨target, htarget, -, hsame⟩ := exists_targetPortfolio cutoffAt hnonneg hsum
    refine ⟨⟨cutoffAt, weights, picks.selected, (evaluated.filter EvaluatedDecision.eligible).length, picks.outcomes⟩, ?_,
      target, htarget, hsame⟩
    rw [show (Except.ok evaluated : Except FactorError _).mapError DecisionError.factor = .ok evaluated from rfl, ok_bind, hpicks,
      ok_bind, hweights, show (Except.ok weights : Except EqualWeightsError _).mapError DecisionError.weights = .ok weights from rfl,
      ok_bind, hcheck]
    rfl
  · left
    refine ⟨issuerId, ?_⟩
    rw [show (Except.ok evaluated : Except FactorError _).mapError DecisionError.factor = .ok evaluated from rfl, ok_bind, hraise]
    rfl

theorem exists_of_mapM_error {ε α β : Type} {f : α → Except ε β} {l : List α} {e : ε} (h : l.mapM f = .error e) :
    ∃ a ∈ l, f a = .error e := by
  induction l with
  | nil => cases h
  | cons a l ih =>
    rw [List.mapM_cons] at h
    obtain hhead | ⟨b, -, h⟩ := bind_eq_error_iff.mp h
    · exact ⟨a, List.mem_cons_self, hhead⟩
    · obtain hrest | ⟨rest, -, h⟩ := bind_eq_error_iff.mp h
      · obtain ⟨a', ha', hraise⟩ := ih hrest
        exact ⟨a', List.mem_cons_of_mem _ ha', hraise⟩
      · cases h

/-- Equal weights within the bound are a portfolio of exactly the symbols; over such cutoffs `decide` raises in the evaluator
and on issuers without a listing only. -/
theorem equalWeights_are_portfolios : (∀ (quantization : Quantization) (symbols : List String), symbols.Nodup → symbols ≠ [] →
      symbols.length * (symbols.length - 1) ≤ 2 * 10 ^ quantization.decimalPlaces →
      ∃ weights, equalWeights symbols quantization = .ok weights ∧ (∀ symbol, symbol ∈ weights.keys ↔ symbol ∈ symbols) ∧
        (∀ weight ∈ weights.values, 0 ≤ weight) ∧ weights.values.sum = 1 ∧
        ∀ symbol ∈ symbols, (∃ later ∈ symbols, symbol < later) →
          weights.get? symbol = some (TrueAlpha.quantize quantization.decimalPlaces (1 / symbols.length : ℚ))) ∧
    (∀ quantization : Quantization, equalWeights [] quantization = .ok Dict.empty) ∧
    ∀ treeSha256 forest issuers definition inputsAt rateAt cutoffs, (∀ cutoffAt ∈ cutoffs, ∀ evaluated,
        evaluatedAt treeSha256 forest issuers definition inputsAt rateAt cutoffAt = .ok evaluated →
          DistinctWithin issuers definition evaluated) →
      (∀ e, decideCutoffs treeSha256 forest issuers definition inputsAt rateAt cutoffs = .error e →
        (∃ error, e = .factor error) ∨ ∃ issuerId cutoffAt, e = .unlisted issuerId cutoffAt) ∧
      ∀ decisions, decideCutoffs treeSha256 forest issuers definition inputsAt rateAt cutoffs = .ok decisions →
        ∀ decision ∈ decisions, ∃ target, targetPortfolio decision.cutoffAt decision.weights = .ok target ∧
          target.weights = decision.weights := by
  refine ⟨?_, fun _ => rfl, ?_⟩
  · intro quantization symbols hnodup hsome hbound
    have hlength : (sortedSet symbols).length = symbols.length := by
      rw [sortedSet, hnodup.dedup, (perm_sortedBy id symbols).length_eq]
    obtain ⟨weights, hweights, hkeys, hnonneg, hsum, hshares⟩ := equalWeights_spec hsome (hlength ▸ hbound)
    refine ⟨weights, hweights, fun symbol => by rw [hkeys, mem_sortedSet], hnonneg, hsum, ?_⟩
    rintro symbol hsymbol ⟨later, hlater, hlt⟩
    rw [← hlength]
    refine hshares symbol ?_
    -- a symbol before another one is not the last
    have hne : sortedSet symbols ≠ [] := List.ne_nil_of_mem (mem_sortedSet.mpr hsymbol)
    have hsplit := List.dropLast_concat_getLast hne
    have hmem := mem_sortedSet.mpr hsymbol
    have hmem' := mem_sortedSet.mpr hlater
    have hsorted := strictSorted_sortedSet symbols
    rw [← hsplit] at hmem hmem' hsorted
    have hbefore := (List.pairwise_append.mp hsorted).2.2
    obtain hdrop | hlast := List.mem_append.mp hmem
    · exact hdrop
    · obtain hdrop' | hlast' := List.mem_append.mp hmem'
      · exact absurd (hbefore later hdrop' symbol hlast) (lt_asymm hlt)
      · rw [List.mem_singleton.mp hlast, List.mem_singleton.mp hlast'] at hlt
        exact absurd hlt (lt_irrefl _)
  · intro treeSha256 forest issuers definition inputsAt rateAt cutoffs hwithin
    have hcutoff : ∀ cutoffAt ∈ cutoffs, ∀ evaluated,
        evaluatedAt treeSha256 forest issuers definition inputsAt rateAt cutoffAt = .ok evaluated → _ :=
      fun cutoffAt hmem evaluated h => decideCutoff_spec h (hwithin cutoffAt hmem evaluated h)
    constructor
    · intro e h
      obtain ⟨cutoffAt, hmem, hraise⟩ := exists_of_mapM_error h
      cases hevaluated : evaluatedAt treeSha256 forest issuers definition inputsAt rateAt cutoffAt with
      | error error =>
        unfold decideCutoff at hraise
        rw [hevaluated] at hraise
        cases hraise
        exact Or.inl ⟨error, rfl⟩
      | ok evaluated =>
        obtain ⟨issuerId, hunlisted⟩ | ⟨decision, hok, -⟩ := hcutoff cutoffAt hmem evaluated hevaluated
        · rw [hunlisted] at hraise
          exact Or.inr ⟨issuerId, cutoffAt, (Except.error.inj hraise).symm⟩
        · rw [hok] at hraise
          cases hraise
    · intro decisions h decision hdecision
      obtain ⟨cutoffAt, hmem, hof⟩ := exists_of_mem_mapM h hdecision
      cases hevaluated : evaluatedAt treeSha256 forest issuers definition inputsAt rateAt cutoffAt with
      | error error =>
        unfold decideCutoff at hof
        rw [hevaluated] at hof
        cases hof
      | ok evaluated =>
        obtain ⟨issuerId, hunlisted⟩ | ⟨decision', hok, hportfolio⟩ := hcutoff cutoffAt hmem evaluated hevaluated
        · rw [hunlisted] at hof
          cases hof
        · obtain rfl := Except.ok.inj (hok.symm.trans hof)
          exact hportfolio

end

/-- No symbols have no weights, and their sum is zero. -/
theorem equalWeights_nil_sum : ¬ ∀ (quantization : Quantization) (symbols : List String), symbols.Nodup →
      symbols.length * (symbols.length - 1) ≤ 2 * 10 ^ quantization.decimalPlaces →
      ∃ weights, equalWeights symbols quantization = .ok weights ∧ weights.values.sum = 1 := by
  intro h
  obtain ⟨weights, hweights, hsum⟩ := h ⟨6, by decide⟩ [] List.nodup_nil (by decide)
  obtain rfl := Except.ok.inj hweights
  exact absurd hsum (by decide)

def oldListing : Dict String HistoryIssuer := Dict.ofList [("issuer:a", ⟨"issuer:a", "A", .nonFinancial⟩)]

def oldInputs : List IssuerInput := (issuerInputsFromRows none oldRows).toOption.getD []

/-- Six weights, and a cutoff that selects one issuer. -/
theorem equalWeights_are_portfolios_sample :
    (∃ weights, equalWeights ["f", "e", "d", "c", "b", "a"] ⟨6, by decide⟩ = .ok weights ∧ weights.values.sum = 1) ∧
    ∃ decisions, decideCutoffs pinnedHash registeredForest oldListing liveStrategyDefinition (fun _ => oldInputs)
        (fun _ => 1 / 20) [newYear] = .ok decisions ∧
      decisions.map CutoffDecision.selected = [["issuer:a"]] ∧
      ∀ decision ∈ decisions, ∃ target, targetPortfolio decision.cutoffAt decision.weights = .ok target ∧
        target.weights = decision.weights := by
  constructor
  · obtain ⟨weights, hweights, -, -, hsum, -⟩ := equalWeights_are_portfolios.1 ⟨6, by decide⟩ ["f", "e", "d", "c", "b", "a"]
      (by decide) (by decide) (by decide)
    exact ⟨weights, hweights, hsum⟩
  · have hrun : (decideCutoffs pinnedHash registeredForest oldListing liveStrategyDefinition (fun _ => oldInputs)
        (fun _ => 1 / 20) [newYear]).toOption.any fun decisions =>
          decisions.map CutoffDecision.selected = [["issuer:a"]] := by decide +kernel
    have hwithin : (evaluatedAt pinnedHash registeredForest oldListing liveStrategyDefinition (fun _ => oldInputs)
        (fun _ => 1 / 20) newYear).toOption.any fun evaluated =>
          ((selectedOf evaluated).filterMap (tickerOf oldListing)).Nodup ∧ (selectedOf evaluated).length ≤ 1 := by
      decide +kernel
    obtain ⟨decisions, hdecisions, hselected⟩ := exists_ok_of_any hrun
    refine ⟨decisions, hdecisions, of_decide_eq_true hselected, ?_⟩
    refine (equalWeights_are_portfolios.2.2 pinnedHash registeredForest oldListing liveStrategyDefinition (fun _ => oldInputs)
      (fun _ => 1 / 20) [newYear] ?_).2 decisions hdecisions
    intro cutoffAt hcutoff evaluated hevaluated
    obtain rfl := List.mem_singleton.mp hcutoff
    obtain ⟨evaluated', hevaluated', hboth⟩ := exists_ok_of_any hwithin
    obtain rfl := Except.ok.inj (hevaluated'.symm.trans hevaluated)
    obtain ⟨hdistinct, hone⟩ := of_decide_eq_true hboth
    refine ⟨hdistinct, ?_⟩
    have hzero : (selectedOf evaluated').length - 1 = 0 := by omega
    rw [hzero, Nat.mul_zero]
    exact Nat.zero_le _

end Strategy

end TrueAlpha
