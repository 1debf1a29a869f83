import TrueAlpha.Strategy.EvaluatorSpec

/-!
# The rules before the factors

`inputGate` is what `_evaluate_issuer` tests before any factor runs.  A decision of a class with a tree is the verdict of the
gate and then of the factors (`treeDecision_eq`, `treeDecision_eligible_iff`).
-/

namespace TrueAlpha.Strategy

inductive GateVerdict where
  | refused (reason : ExclusionReason) (confidence : Option ℚ)
  | passed (confidence : ℚ)
  deriving DecidableEq, Repr

def inputGate (definition : StrategyDefinition) (asOf : Instant) (consumed : List String) (issuer : IssuerInput) :
    Except FactorError GateVerdict :=
  let required := requiredReasons definition.valuationBasis consumed
  let maximumAgeDays := definition.eligibility.maximumInputAgeDays
  match missingRequiredReason issuer required with
  | some reason => .ok (.refused reason none)
  | none => do
    if ← hasStaleRequiredInput issuer (required.map Prod.fst) asOf maximumAgeDays then
      return .refused .staleRequiredInput none
    else if ← hasStalePeriod issuer asOf maximumAgeDays consumed then return .refused .stalePeriod none
    else
      let confidence ← consumedConfidenceFor issuer required
      if ∃ floor ∈ definition.eligibility.minimumConfidence, confidence < floor then
        return .refused .belowConfidenceFloor (some confidence)
      else return .passed confidence

variable {factors : DecisionFactors}

section

variable {forest : Forest} {tree : MetricTree} {cls : IssuerClass} {issuer : IssuerInput}
  {definition : StrategyDefinition} {riskFreeRate : ℚ} {asOf : Instant} {consumed : List String}
  {decision : EvaluatedDecision} {gap : Option ℚ} {confidence : ℚ}

def decisionOfVerdict (forest : Forest) (definition : StrategyDefinition) (riskFreeRate : ℚ) (tree : MetricTree)
    (cls : IssuerClass) (issuer : IssuerInput) : GateVerdict → Except FactorError (EvaluatedDecision × Option ℚ)
  | .refused reason confidence => .ok (excluded issuer.issuerId reason confidence (some tree.root), none)
  | .passed confidence => factorDecision forest definition tree cls issuer riskFreeRate confidence

theorem treeDecision_eq : treeDecision forest definition riskFreeRate asOf tree cls issuer = (do
    let consumed ← consumedInputKeys forest tree cls
    let verdict ← inputGate definition asOf consumed issuer
    decisionOfVerdict forest definition riskFreeRate tree cls issuer verdict) := by
  unfold treeDecision inputGate
  congr 1
  funext consumed
  dsimp only
  cases missingRequiredReason issuer (requiredReasons definition.valuationBasis consumed) with
  | some reason => rfl
  | none =>
    dsimp only
    rcases hasStaleRequiredInput issuer ((requiredReasons definition.valuationBasis consumed).map Prod.fst) asOf
      definition.eligibility.maximumInputAgeDays with e | stale
    · rfl
    · cases stale with
      | true => rfl
      | false =>
        rcases hasStalePeriod issuer asOf definition.eligibility.maximumInputAgeDays consumed with e | stalePeriod
        · rfl
        · cases stalePeriod with
          | true => rfl
          | false =>
            rcases consumedConfidenceFor issuer (requiredReasons definition.valuationBasis consumed) with e | confidence
            · rfl
            · simp only [ok_bind, Bool.false_eq_true, if_false]
              split_ifs <;> rfl

theorem inputGate_passed_iff : inputGate definition asOf consumed issuer = .ok (.passed confidence) ↔
    missingRequiredReason issuer (requiredReasons definition.valuationBasis consumed) = none ∧
      hasStaleRequiredInput issuer ((requiredReasons definition.valuationBasis consumed).map Prod.fst) asOf
        definition.eligibility.maximumInputAgeDays = .ok false ∧
      hasStalePeriod issuer asOf definition.eligibility.maximumInputAgeDays consumed = .ok false ∧
      consumedConfidenceFor issuer (requiredReasons definition.valuationBasis consumed) = .ok confidence ∧
      ∀ floor ∈ definition.eligibility.minimumConfidence, floor ≤ confidence := by
  unfold inputGate
  dsimp only
  cases missingRequiredReason issuer (requiredReasons definition.valuationBasis consumed) with
  | some reason => simp
  | none =>
    rcases hasStaleRequiredInput issuer ((requiredReasons definition.valuationBasis consumed).map Prod.fst) asOf
      definition.eligibility.maximumInputAgeDays with e | stale
    · simp [bind, Except.bind]
    · cases stale with
      | true => simp [pure, Except.pure, bind, Except.bind]
      | false =>
        rcases hasStalePeriod issuer asOf definition.eligibility.maximumInputAgeDays consumed with e | stalePeriod
        · simp [bind, Except.bind]
        · cases stalePeriod with
          | true => simp [pure, Except.pure, bind, Except.bind]
          | false =>
            rcases consumedConfidenceFor issuer (requiredReasons definition.valuationBasis consumed) with e | actual
            · simp [bind, Except.bind]
            · by_cases hfloor : ∃ floor ∈ definition.eligibility.minimumConfidence, actual < floor
              · have hnot : ¬ ∀ floor ∈ definition.eligibility.minimumConfidence, floor ≤ actual := by
                  obtain ⟨floor, hmem, hlt⟩ := hfloor
                  exact fun hall => absurd (hall floor hmem) (not_le.mpr hlt)
                simp only [ok_bind, Bool.false_eq_true, if_false, if_pos hfloor, pure_eq_ok_iff, reduceCtorEq, true_and,
                  Except.ok.injEq, false_iff, not_and]
                intro heq
                rw [← heq]
                exact hnot
              · have hall : ∀ floor ∈ definition.eligibility.minimumConfidence, floor ≤ actual :=
                  fun floor hmem => not_lt.mp fun hlt => hfloor ⟨floor, hmem, hlt⟩
                simp only [ok_bind, Bool.false_eq_true, if_false, if_neg hfloor, pure_eq_ok_iff, GateVerdict.passed.injEq,
                  true_and, Except.ok.injEq]
                constructor
                · rintro rfl
                  exact ⟨rfl, hall⟩
                · exact fun h => h.1

theorem grossProfitPerEmployee_names {facts : List Fact} {entityId : String} {result : FactorResult}
    (h : grossProfitPerEmployee forest tree cls facts entityId riskFreeRate = .ok result) :
    result.factor = tree.root ∧ result.entityId = entityId := by
  unfold grossProfitPerEmployee at h
  obtain ⟨_, -, h⟩ := bind_eq_ok_iff.mp h
  obtain ⟨_, -, h⟩ := bind_eq_ok_iff.mp h
  obtain ⟨leaves, -, h⟩ := bind_eq_ok_iff.mp h
  dsimp only at h
  split_ifs at h
  · obtain rfl := pure_eq_ok_iff.mp h
    exact ⟨rfl, rfl⟩
  · obtain rfl := pure_eq_ok_iff.mp h
    exact ⟨rfl, rfl⟩
  · obtain ⟨evaluation, -, h⟩ := bind_eq_ok_iff.mp h
    obtain rfl := pure_eq_ok_iff.mp h
    unfold resultOfEvaluation
    split <;> exact ⟨rfl, rfl⟩

theorem marketMultiple_names {factor denominator missing nonpositive entityId : String} {facts : List Fact}
    {result : FactorResult} (h : marketMultiple factor denominator missing nonpositive facts entityId = .ok result) :
    result.factor = factor ∧ result.entityId = entityId := by
  unfold marketMultiple at h
  obtain ⟨price, -, h⟩ := bind_eq_ok_iff.mp h
  obtain ⟨shares, -, h⟩ := bind_eq_ok_iff.mp h
  obtain ⟨divisor, -, h⟩ := bind_eq_ok_iff.mp h
  dsimp only at h
  split at h
  · split at h
    · split_ifs at h
      · obtain rfl := pure_eq_ok_iff.mp h
        exact ⟨rfl, rfl⟩
      · obtain rfl := pure_eq_ok_iff.mp h
        exact ⟨rfl, rfl⟩
      · obtain ⟨_, -, h⟩ := bind_eq_ok_iff.mp h
        obtain ⟨_, -, h⟩ := bind_eq_ok_iff.mp h
        split at h
        · obtain rfl := pure_eq_ok_iff.mp h
          exact ⟨rfl, rfl⟩
        · obtain ⟨_, -, h⟩ := bind_eq_ok_iff.mp h
          obtain rfl := pure_eq_ok_iff.mp h
          exact ⟨rfl, rfl⟩
    · obtain rfl := pure_eq_ok_iff.mp h
      exact ⟨rfl, rfl⟩
  · obtain rfl := pure_eq_ok_iff.mp h
    exact ⟨rfl, rfl⟩

structure DecisionFactors.Named (factors : DecisionFactors) (tree : MetricTree) (issuer : IssuerInput)
    (basis : ValuationBasis) : Prop where
  gppe : factors.gppe.factor = tree.root ∧ factors.gppe.entityId = issuer.issuerId
  multiple : factors.multiple.factor = basis.value ∧ factors.multiple.entityId = issuer.issuerId

theorem decisionFactors_named {basis : ValuationBasis}
    (h : decisionFactors forest tree cls issuer basis riskFreeRate = .ok factors) : factors.Named tree issuer basis := by
  obtain ⟨_, _, -, -, hgppe, -, hmultiple⟩ := decisionFactors_inv h
  refine ⟨grossProfitPerEmployee_names hgppe, ?_⟩
  cases basis with
  | priceToSales =>
    obtain ⟨_, -, hmultiple⟩ := hmultiple
    exact marketMultiple_names hmultiple
  | priceToGrossProfit =>
    obtain ⟨_, -, hmultiple⟩ := hmultiple
    exact marketMultiple_names hmultiple

theorem basis_not_labor (basis : ValuationBasis) : basis.value ∉ laborEfficiencyFactors := by
  cases basis <;> decide

theorem threeTierValuation_spec {gppe multiple result : FactorResult} {labor current : ℚ}
    (hgppe : gppe.factor = tree.root ∧ gppe.entityId = issuer.issuerId)
    (hmultiple : multiple.factor = definition.valuationBasis.value ∧ multiple.entityId = issuer.issuerId)
    (h : threeTierValuation [{ gppe with value := some labor }, { multiple with value := some current }]
      issuer.issuerId definition = .ok result) :
    (result.value.isSome ↔ tree.root ∈ laborEfficiencyFactors ∧ 0 < current) ∧
      (result.value.isSome → result.confidence = min gppe.confidence multiple.confidence) := by
  obtain ⟨hroot, hentity⟩ := hgppe
  obtain ⟨hbasis, hentity'⟩ := hmultiple
  have hother := basis_not_labor definition.valuationBasis
  unfold threeTierValuation at h
  obtain ⟨found, hfound, h⟩ := bind_eq_ok_iff.mp h
  dsimp only at h
  obtain ⟨foundMultiple, hfoundMultiple, h⟩ := bind_eq_ok_iff.mp h
  by_cases hlabor : tree.root ∈ laborEfficiencyFactors
  · have hne : tree.root ≠ definition.valuationBasis.value := fun heq => hother (heq ▸ hlabor)
    simp only [findResult, List.filter_cons, hroot, hentity, hbasis, hentity', hlabor, hother, and_true,
      decide_true, decide_false, if_true, Bool.false_eq_true, if_false, List.filter_nil, Except.ok.injEq] at hfound
    simp only [findResult, List.filter_cons, hroot, hentity, hbasis, hentity', List.mem_singleton, hne, and_true,
      decide_true, decide_false, if_true, Bool.false_eq_true, if_false, List.filter_nil, Except.ok.injEq] at hfoundMultiple
    subst hfound hfoundMultiple
    dsimp only [valued, Option.bind_some, Option.map_some] at h
    by_cases hpos : current ≤ 0
    · rw [if_pos hpos] at h
      obtain rfl := pure_eq_ok_iff.mp h
      have hnone : ¬ (none : Option ℚ).isSome := Bool.false_ne_true
      exact ⟨⟨fun hsome => (hnone hsome).elim, fun hboth => absurd hboth.2 (not_lt.mpr hpos)⟩, fun hsome => (hnone hsome).elim⟩
    · rw [if_neg hpos] at h
      obtain ⟨_, -, h⟩ := bind_eq_ok_iff.mp h
      obtain ⟨_, -, h⟩ := bind_eq_ok_iff.mp h
      obtain ⟨_, -, h⟩ := bind_eq_ok_iff.mp h
      obtain rfl := pure_eq_ok_iff.mp h
      exact ⟨⟨fun _ => ⟨hlabor, not_le.mp hpos⟩, fun _ => rfl⟩, fun _ => rfl⟩
  · simp only [findResult, List.filter_cons, hroot, hentity, hbasis, hentity', hlabor, hother, and_true,
      decide_false, Bool.false_eq_true, if_false, List.filter_nil, Except.ok.injEq] at hfound
    subst hfound
    dsimp only [valued, Option.bind_none] at h
    obtain rfl := pure_eq_ok_iff.mp h
    have hnone : ¬ (none : Option ℚ).isSome := Bool.false_ne_true
    exact ⟨⟨fun hsome => (hnone hsome).elim, fun hboth => absurd hboth.1 hlabor⟩, fun hsome => (hnone hsome).elim⟩

def DecisionFactors.Decides (factors : DecisionFactors) (definition : StrategyDefinition) (tree : MetricTree) : Prop :=
  factors.gppe.value.isSome ∧ tree.root ∈ laborEfficiencyFactors ∧ ∃ value ∈ factors.multiple.value,
    ∃ current, quantize value definition.valuationQuantization = .ok current ∧ 0 < current

def EvaluatedDecision.Stands (decision : EvaluatedDecision) (factors : DecisionFactors) : Prop :=
  decision.eligible = true ∧ decision.outcome ≠ .excluded ∧
    decision.confidence = some (min factors.gppe.confidence factors.multiple.confidence)

theorem valuedDecision_spec {laborValue multipleValue : ℚ} (hnamed : factors.Named tree issuer definition.valuationBasis)
    (h : valuedDecision definition tree issuer factors laborValue multipleValue = .ok (decision, gap)) :
    ∃ current, quantize multipleValue definition.valuationQuantization = .ok current ∧ decision.issuerId = issuer.issuerId ∧
      (tree.root ∈ laborEfficiencyFactors ∧ 0 < current → decision.Stands factors) ∧
      (¬ (tree.root ∈ laborEfficiencyFactors ∧ 0 < current) → decision.eligible = false ∧ decision.outcome = .excluded) := by
  obtain ⟨labor, current, result, band, -, hcurrent, hresult, -, hcases⟩ := valuedDecision_inv h
  obtain ⟨hsome, hconfidence⟩ := threeTierValuation_spec hnamed.gppe hnamed.multiple hresult
  refine ⟨current, hcurrent, ?_⟩
  obtain ⟨hnone, rfl⟩ | ⟨hgap, hvalued⟩ := hcases
  · have hnot : ¬ (tree.root ∈ laborEfficiencyFactors ∧ 0 < current) := by
      rw [← hsome, hnone]
      exact Bool.false_ne_true
    exact ⟨rfl, fun hyes => absurd hyes hnot, fun _ => ⟨rfl, rfl⟩⟩
  · refine ⟨hvalued.issuerId, fun _ => ⟨hvalued.eligible, hvalued.outcome, ?_⟩, fun hnot => absurd (hsome.mp hgap) hnot⟩
    rw [hvalued.confidence, hconfidence hgap]

theorem factorDecision_spec
    (h : factorDecision forest definition tree cls issuer riskFreeRate confidence = .ok (decision, gap)) :
    ∃ factors, decisionFactors forest tree cls issuer definition.valuationBasis riskFreeRate = .ok factors ∧
      decision.issuerId = issuer.issuerId ∧ (factors.Decides definition tree → decision.Stands factors) ∧
      (¬ factors.Decides definition tree → decision.eligible = false ∧ decision.outcome = .excluded) := by
  unfold factorDecision at h
  obtain ⟨factors, hfactors, h⟩ := bind_eq_ok_iff.mp h
  refine ⟨factors, hfactors, ?_⟩
  split at h
  · next labor multiple hlabor hmultiple =>
    obtain ⟨current, hcurrent, hid, hstands, hexcluded⟩ := valuedDecision_spec (decisionFactors_named hfactors) h
    have hdecides : factors.Decides definition tree ↔ tree.root ∈ laborEfficiencyFactors ∧ 0 < current := by
      constructor
      · rintro ⟨_, hroot, value, hvalue, current', hcurrent', hpos⟩
        cases hmultiple.symm.trans hvalue
        cases hcurrent.symm.trans hcurrent'
        exact ⟨hroot, hpos⟩
      · exact fun hboth => ⟨hlabor ▸ rfl, hboth.1, multiple, hmultiple, current, hcurrent, hboth.2⟩
    rw [hdecides]
    exact ⟨hid, hstands, hexcluded⟩
  · next hvalues =>
    obtain ⟨rfl, rfl⟩ := Prod.mk.inj (pure_eq_ok_iff.mp h)
    refine ⟨rfl, fun hdecides => ?_, fun _ => ⟨rfl, rfl⟩⟩
    obtain ⟨hgppe, _, value, hvalue, _⟩ := hdecides
    obtain ⟨labor, hlabor⟩ := Option.isSome_iff_exists.mp hgppe
    exact (hvalues labor value hlabor hvalue).elim

def Admitted (forest : Forest) (definition : StrategyDefinition) (riskFreeRate : ℚ) (asOf : Instant)
    (tree : MetricTree) (cls : IssuerClass) (issuer : IssuerInput) (factors : DecisionFactors) : Prop :=
  ∃ consumed confidence, consumedInputKeys forest tree cls = .ok consumed ∧
    inputGate definition asOf consumed issuer = .ok (.passed confidence) ∧
    decisionFactors forest tree cls issuer definition.valuationBasis riskFreeRate = .ok factors ∧
    factors.Decides definition tree

theorem treeDecision_spec (h : treeDecision forest definition riskFreeRate asOf tree cls issuer = .ok (decision, gap)) :
    decision.issuerId = issuer.issuerId ∧
    ((∃ factors, Admitted forest definition riskFreeRate asOf tree cls issuer factors ∧ decision.Stands factors) ∨
      ((∀ factors, ¬ Admitted forest definition riskFreeRate asOf tree cls issuer factors) ∧
        decision.eligible = false ∧ decision.outcome = .excluded)) := by
  rw [treeDecision_eq] at h
  obtain ⟨consumed, hconsumed, h⟩ := bind_eq_ok_iff.mp h
  obtain ⟨verdict, hverdict, h⟩ := bind_eq_ok_iff.mp h
  have hconsumed := liftForest_eq_ok_iff.mp hconsumed
  cases verdict with
  | refused reason confidence =>
    obtain ⟨rfl, rfl⟩ := Prod.mk.inj (Except.ok.inj h)
    refine ⟨rfl, .inr ⟨fun factors hadmitted => ?_, rfl, rfl⟩⟩
    obtain ⟨consumed', confidence', hconsumed', hpassed, _⟩ := hadmitted
    cases hconsumed.symm.trans hconsumed'
    cases hverdict.symm.trans hpassed
  | passed confidence =>
    obtain ⟨factors, hfactors, hid, hstands, hexcluded⟩ := factorDecision_spec h
    refine ⟨hid, ?_⟩
    by_cases hdecides : factors.Decides definition tree
    · exact .inl ⟨factors, ⟨consumed, confidence, hconsumed, hverdict, hfactors, hdecides⟩, hstands hdecides⟩
    · refine .inr ⟨fun factors' hadmitted => ?_, hexcluded hdecides⟩
      obtain ⟨_, _, _, _, hfactors', hdecides'⟩ := hadmitted
      cases hfactors.symm.trans hfactors'
      exact hdecides hdecides'

end

end TrueAlpha.Strategy
