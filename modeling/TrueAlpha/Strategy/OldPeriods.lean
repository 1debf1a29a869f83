import TrueAlpha.Strategy.Gateway

/-!
# Old fiscal periods through the gateway

The gateway builds the scalar record of a key without the period of its row, so the stale-period rule never refuses an input of
the gateway.  An old period is kept out exactly by another rule (`RefusedByAnotherRule`).
-/

namespace TrueAlpha.Strategy

section

variable {treeSha256 : Forest → MetricTree → String} {forest : Forest} {definition : StrategyDefinition}
  {cutoffAt : Instant} {riskFreeRate : ℚ} {treePins : Option (Dict String LaborEfficiencyTreePin)}
  {refusals : Dict String ExclusionReason} {trees : Dict IssuerClass MetricTree} {issuers : List IssuerInput}
  {issuer : IssuerInput} {decision : EvaluatedDecision} {decisions : List EvaluatedDecision} {tree : MetricTree}
  {cls : IssuerClass}

def issuerDecision (forest : Forest) (definition : StrategyDefinition) (cutoffAt : Instant) (riskFreeRate : ℚ)
    (trees : Dict IssuerClass MetricTree) (refusals : Dict String ExclusionReason) (issuer : IssuerInput) :
    Except FactorError EvaluatedDecision :=
  match refusals.get? issuer.issuerId with
  | some reason => .ok (excluded issuer.issuerId reason none none)
  | none => (evaluateIssuer forest definition riskFreeRate cutoffAt trees issuer).map Prod.fst

theorem issuerDecision_issuerId (h : issuerDecision forest definition cutoffAt riskFreeRate trees refusals issuer = .ok decision) :
    decision.issuerId = issuer.issuerId := by
  unfold issuerDecision at h
  split at h
  · cases h
    rfl
  · obtain ⟨⟨_, gap⟩, hpair, rfl⟩ := map_eq_ok_iff.mp h
    unfold evaluateIssuer at hpair
    split at hpair
    · cases hpair
      rfl
    · split at hpair
      · cases hpair
        rfl
      · exact (treeDecision_spec hpair).1

theorem map_issuerId_decisions {before : List EvaluatedDecision}
    (h : issuers.mapM (issuerDecision forest definition cutoffAt riskFreeRate trees refusals) = .ok before) :
    before.map EvaluatedDecision.issuerId = issuers.map IssuerInput.issuerId := by
  have hall := mapM_eq_ok_iff.mp h
  clear h
  induction hall with
  | nil => rfl
  | cons hhead _ ih => rw [List.map_cons, List.map_cons, ih, issuerDecision_issuerId hhead]

theorem evaluateCutoff_spec (hids : (issuers.map IssuerInput.issuerId).Nodup)
    (htrees : pinnedTrees treeSha256 forest definition treePins = .ok trees)
    (h : evaluateCutoff treeSha256 forest definition cutoffAt riskFreeRate treePins refusals issuers = .ok decisions) :
    (∀ decision ∈ decisions, ∃ issuer ∈ issuers, ∃ before, issuerDecision forest definition cutoffAt riskFreeRate trees
      refusals issuer = .ok before ∧ decision.issuerId = issuer.issuerId ∧ decision.eligible = before.eligible) ∧
    (∀ issuer ∈ issuers, ∃ decision ∈ decisions, ∃ before, issuerDecision forest definition cutoffAt riskFreeRate trees
      refusals issuer = .ok before ∧ decision.issuerId = issuer.issuerId ∧ decision.eligible = before.eligible) := by
  obtain ⟨trees', htrees', h⟩ := bind_eq_ok_iff.mp h
  cases htrees.symm.trans (liftForest_eq_ok_iff.mp htrees')
  obtain ⟨before, hbefore, h⟩ := bind_eq_ok_iff.mp h
  have hloop : issuers.mapM (issuerDecision forest definition cutoffAt riskFreeRate trees refusals) = .ok before := hbefore
  obtain ⟨weight, out, -, hout, hperm, -⟩ := rankAndSelect_spec definition (map_issuerId_decisions hloop ▸ hids)
  cases hout.symm.trans h
  have heligible : ∀ d, (selectionOf definition weight before d).eligible = d.eligible := by
    intro d
    unfold selectionOf ranked
    split_ifs <;> rfl
  constructor
  · intro decision hdecision
    obtain ⟨d, hd, rfl⟩ := List.mem_map.mp (hperm.mem_iff.mp hdecision)
    obtain ⟨issuer, hissuer, hof⟩ := exists_of_mem_mapM hloop hd
    refine ⟨issuer, hissuer, d, hof, ?_, heligible d⟩
    rw [issuerId_selectionOf, issuerDecision_issuerId hof]
  · intro issuer hissuer
    obtain ⟨d, hd, hof⟩ := mem_of_mapM hloop hissuer
    refine ⟨_, hperm.mem_iff.mpr (List.mem_map_of_mem hd), d, hof, ?_, heligible d⟩
    rw [issuerId_selectionOf, issuerDecision_issuerId hof]

end

/-! ## The rows that answer -/

def answerFor (answers : Dict String InputRow) (key : String) : Option InputRow :=
  match answers.get? key with
  | some row => some row
  | none =>
    if key = "pre_provision_profit" then answers.get? "gross_profit"
    else if key = "bank_net_revenue" then (answers.get? "pre_provision_profit").or (answers.get? "gross_profit")
    else none

def InputRow.OldPeriod (row : InputRow) (cutoffAt : Instant) (maximumAgeDays : ℕ) : Prop :=
  ∃ tag ∈ row.fiscalPeriod, ∃ finish, periodEndOf (some (.tag tag)) = .ok (some finish) ∧
    (maximumAgeDays : ℤ) < utcDate cutoffAt - finish

def ReadsOldPeriod (forest : Forest) (definition : StrategyDefinition) (cutoffAt : Instant) (rows : List InputRow)
    (tree : MetricTree) (cls : IssuerClass) (issuerId : String) : Prop :=
  ∃ keys answers, laborEfficiencyKeys forest tree cls = .ok keys ∧ (observed rows).scalars.get? issuerId = some answers ∧
    ∃ key ∈ keys, ∃ row, answerFor answers key = some row ∧ row.OldPeriod cutoffAt definition.eligibility.maximumInputAgeDays

inductive RefusedByAnotherRule (forest : Forest) (definition : StrategyDefinition) (cutoffAt : Instant) (riskFreeRate : ℚ)
    (refusals : Dict String ExclusionReason) (tree : MetricTree) (cls : IssuerClass) (issuer : IssuerInput) : Prop
  | plausibility {reason : ExclusionReason} (h : refusals.get? issuer.issuerId = some reason)
  | missing {consumed : List String} {reason : ExclusionReason} (hconsumed : consumedInputKeys forest tree cls = .ok consumed)
      (h : missingRequiredReason issuer (requiredReasons definition.valuationBasis consumed) = some reason)
  | stale {consumed : List String} (hconsumed : consumedInputKeys forest tree cls = .ok consumed)
      (h : hasStaleRequiredInput issuer ((requiredReasons definition.valuationBasis consumed).map Prod.fst) cutoffAt
        definition.eligibility.maximumInputAgeDays = .ok true)
  | uncertain {consumed : List String} {confidence floor : ℚ} (hconsumed : consumedInputKeys forest tree cls = .ok consumed)
      (hconfidence : consumedConfidenceFor issuer (requiredReasons definition.valuationBasis consumed) = .ok confidence)
      (hfloor : definition.eligibility.minimumConfidence = some floor) (h : confidence < floor)
  | undecided {factors : DecisionFactors}
      (hfactors : decisionFactors forest tree cls issuer definition.valuationBasis riskFreeRate = .ok factors)
      (h : ¬ factors.Decides definition tree)

section

variable {forest : Forest} {definition : StrategyDefinition} {cutoffAt : Instant} {riskFreeRate : ℚ}
  {refusals : Dict String ExclusionReason} {trees : Dict IssuerClass MetricTree} {issuer : IssuerInput}
  {decision : EvaluatedDecision} {tree : MetricTree} {cls : IssuerClass} {gap : Option ℚ}

theorem treeDecision_refused_iff
    (hperiods : ∀ key record, issuer.records.get? key = some record → record.1.period = none)
    (hunrefused : refusals.get? issuer.issuerId = none)
    (h : treeDecision forest definition riskFreeRate cutoffAt tree cls issuer = .ok (decision, gap)) :
    decision.eligible = false ↔ RefusedByAnotherRule forest definition cutoffAt riskFreeRate refusals tree cls issuer := by
  have hstands := (treeDecision_spec h).2
  constructor
  · intro hnot
    rw [treeDecision_eq] at h
    obtain ⟨consumed, hconsumed, h⟩ := bind_eq_ok_iff.mp h
    obtain ⟨verdict, hverdict, h⟩ := bind_eq_ok_iff.mp h
    have hconsumed := liftForest_eq_ok_iff.mp hconsumed
    cases verdict with
    | passed confidence =>
      obtain ⟨factors, hfactors, -, hdecides, -⟩ := factorDecision_spec h
      refine .undecided hfactors fun hdec => ?_
      rw [(hdecides hdec).1] at hnot
      cases hnot
    | refused reason confidence =>
      unfold inputGate at hverdict
      dsimp only at hverdict
      split at hverdict
      · next reason hmissing => exact .missing hconsumed hmissing
      · obtain ⟨stale, hstale, hverdict⟩ := bind_eq_ok_iff.mp hverdict
        cases stale with
        | true => exact .stale hconsumed hstale
        | false =>
          rw [hasStalePeriod_of_no_period hperiods, ok_bind] at hverdict
          obtain ⟨actual, hactual, hverdict⟩ := bind_eq_ok_iff.mp hverdict
          split_ifs at hverdict with hfloor
          · obtain ⟨floor, hmem, hlt⟩ := hfloor
            exact .uncertain hconsumed hactual hmem hlt
          · cases pure_eq_ok_iff.mp hverdict
  · intro hrefused
    obtain ⟨factors, hadmitted, -⟩ | ⟨-, hnot, -⟩ := hstands
    · obtain ⟨consumed, confidence, hconsumed, hpassed, hfactors, hdecides⟩ := hadmitted
      obtain ⟨hpresent, hfresh, -, hconfidence, hfloor⟩ := inputGate_passed_iff.mp hpassed
      cases hrefused with
      | plausibility hreason => cases hunrefused.symm.trans hreason
      | missing hconsumed' hmissing =>
        cases hconsumed.symm.trans hconsumed'
        cases hpresent.symm.trans hmissing
      | stale hconsumed' hstale =>
        cases hconsumed.symm.trans hconsumed'
        cases hfresh.symm.trans hstale
      | uncertain hconsumed' hconfidence' hmin hlt =>
        cases hconsumed.symm.trans hconsumed'
        cases hconfidence.symm.trans hconfidence'
        exact absurd (hfloor _ hmin) (not_le.mpr hlt)
      | undecided hfactors' hnot =>
        cases hfactors.symm.trans hfactors'
        exact absurd hdecides hnot
    · exact hnot

theorem issuerDecision_refused_iff
    (hperiods : ∀ key record, issuer.records.get? key = some record → record.1.period = none)
    (hcls : issuer.issuerClass = some cls) (htree : trees.get? cls = some tree)
    (h : issuerDecision forest definition cutoffAt riskFreeRate trees refusals issuer = .ok decision) :
    decision.eligible = false ↔ RefusedByAnotherRule forest definition cutoffAt riskFreeRate refusals tree cls issuer := by
  unfold issuerDecision at h
  split at h
  · next reason hreason =>
    cases h
    exact ⟨fun _ => .plausibility hreason, fun _ => rfl⟩
  · next hunrefused =>
    obtain ⟨⟨_, gap⟩, hpair, rfl⟩ := map_eq_ok_iff.mp h
    simp only [evaluateIssuer, hcls, htree] at hpair
    exact treeDecision_refused_iff hperiods hunrefused hpair

end

/-- An old fiscal period is kept out of a cutoff's decisions exactly when another rule refuses every issuer whose tree reads one.
-/
theorem old_periods_decide_nothing_iff (treeSha256 : Forest → MetricTree → String) (forest : Forest)
    (definition : StrategyDefinition) (cutoffAt : Instant) (riskFreeRate : ℚ)
    (treePins : Option (Dict String LaborEfficiencyTreePin)) (refusals : Dict String ExclusionReason)
    (classes : String → Option IssuerClass) (lookAhead : Option Instant) {rows : List InputRow}
    {inputs : List IssuerInput} {trees : Dict IssuerClass MetricTree} {decisions : List EvaluatedDecision}
    (hinputs : issuerInputsFromRows lookAhead rows = .ok inputs)
    (htrees : pinnedTrees treeSha256 forest definition treePins = .ok trees)
    (hrun : evaluateCutoff treeSha256 forest definition cutoffAt riskFreeRate treePins refusals
      (withClasses classes inputs) = .ok decisions) :
    (∀ decision ∈ decisions, ∀ cls tree, classes decision.issuerId = some cls → trees.get? cls = some tree →
      ReadsOldPeriod forest definition cutoffAt rows tree cls decision.issuerId → decision.eligible = false) ↔
    (∀ input ∈ withClasses classes inputs, ∀ cls tree, classes input.issuerId = some cls → trees.get? cls = some tree →
      ReadsOldPeriod forest definition cutoffAt rows tree cls input.issuerId →
        RefusedByAnotherRule forest definition cutoffAt riskFreeRate refusals tree cls input) := by
  have hids : ((withClasses classes inputs).map IssuerInput.issuerId).Nodup := by
    rw [withClasses, List.map_map]
    exact nodup_issuerId_inputs hinputs
  obtain ⟨hdecisions, hissuers⟩ := evaluateCutoff_spec hids htrees hrun
  have hperiods : ∀ input ∈ withClasses classes inputs, input.issuerClass = classes input.issuerId ∧
      ∀ key record, input.records.get? key = some record → record.1.period = none := by
    intro input hinput
    obtain ⟨bare, hbare, rfl⟩ := List.mem_map.mp hinput
    exact ⟨rfl, fun key record hrecord => records_period hinputs hbare hrecord⟩
  constructor
  · intro hout input hinput cls tree hcls htree hold
    obtain ⟨decision, hdecision, before, hbefore, hid, heligible⟩ := hissuers input hinput
    obtain ⟨hclass, hnone⟩ := hperiods input hinput
    rw [← issuerDecision_refused_iff hnone (hclass.trans hcls) htree hbefore, ← heligible]
    rw [← hid] at hcls hold
    exact hout decision hdecision cls tree hcls htree hold
  · intro hin decision hdecision cls tree hcls htree hold
    obtain ⟨input, hinput, before, hbefore, hid, heligible⟩ := hdecisions decision hdecision
    obtain ⟨hclass, hnone⟩ := hperiods input hinput
    rw [hid] at hcls hold
    rw [heligible, issuerDecision_refused_iff hnone (hclass.trans hcls) htree hbefore]
    exact hin input hinput cls tree hcls htree hold

/-! ### An issuer of 2015 -/

def pinnedHash (_ : Forest) (tree : MetricTree) : String :=
  if tree.key = "gppe" then uniformPin.treeSha256 else bankingPin.treeSha256

def liveTrees : Dict IssuerClass MetricTree :=
  ⟨[(.financial, Registry.gppeBankingTceTree), (.nonFinancial, Registry.gppeV0Tree), (.insurance, Registry.gppeV0Tree)],
    by decide⟩

def newYear : Instant := ordinal 2026 1 1 * microsPerDay

def recentRow (inputKey : String) (value : ℚ) (fiscalPeriod : Option String) : InputRow :=
  ⟨"issuer:a", inputKey, value, 1, fiscalPeriod, newYear - 10 * microsPerDay⟩

def oldRows : List InputRow :=
  let period := some "FY2015:FY:2015-01-01:2015-12-31"
  [recentRow "gross_profit" 1000000 period, recentRow "headcount" 2 period, recentRow "last_close" 10 none,
    recentRow "revenue" 2000000 none, recentRow "shares_outstanding" 100000 none, recentRow "total_assets" 5000000 period]

theorem oldRows_read : ReadsOldPeriod registeredForest liveStrategyDefinition newYear oldRows Registry.gppeV0Tree
    .nonFinancial "issuer:a" := by
  have hkeys : laborEfficiencyKeys registeredForest Registry.gppeV0Tree .nonFinancial =
      .ok ["gross_profit", "total_assets", "headcount"] := by decide +kernel
  have hanswers : ((observed oldRows).scalars.get? "issuer:a").any fun answers =>
      answerFor answers "gross_profit" = oldRows.head? := by decide +kernel
  obtain ⟨answers, hget, hrow⟩ := (Option.any_eq_true _ _).mp hanswers
  refine ⟨_, answers, hkeys, hget, "gross_profit", by simp, _, of_decide_eq_true hrow, ?_⟩
  exact ⟨_, rfl, ordinal 2015 12 31, by decide +kernel, by decide +kernel⟩

theorem oldRows_eligible : ∃ inputs decisions, issuerInputsFromRows none oldRows = .ok inputs ∧
    evaluateCutoff pinnedHash registeredForest liveStrategyDefinition newYear (1 / 20) none Dict.empty
      (withClasses (fun _ => some .nonFinancial) inputs) = .ok decisions ∧
    ∃ decision ∈ decisions, decision.issuerId = "issuer:a" ∧ decision.eligible = true := by
  have hrun : (issuerInputsFromRows none oldRows).toOption.any fun inputs =>
      (evaluateCutoff pinnedHash registeredForest liveStrategyDefinition newYear (1 / 20) none Dict.empty
        (withClasses (fun _ => some .nonFinancial) inputs)).toOption.any fun decisions =>
          decisions.any fun decision => decision.issuerId = "issuer:a" ∧ decision.eligible = true := by decide +kernel
  obtain ⟨inputs, hinputs, hrun⟩ := exists_ok_of_any hrun
  obtain ⟨decisions, hdecisions, hany⟩ := exists_ok_of_any hrun
  obtain ⟨decision, hmem, hdecision⟩ := List.any_eq_true.mp hany
  exact ⟨inputs, decisions, hinputs, hdecisions, decision, hmem, of_decide_eq_true hdecision⟩

theorem liveTrees_pinned : pinnedTrees pinnedHash registeredForest liveStrategyDefinition none = .ok liveTrees := rfl

/-- An issuer whose tree inputs all describe 2015 is eligible in 2026. -/
theorem old_period_decides : ∃ inputs decisions, issuerInputsFromRows none oldRows = .ok inputs ∧
    (oldRows.map InputRow.cell).Nodup ∧
    evaluateCutoff pinnedHash registeredForest liveStrategyDefinition newYear (1 / 20) none Dict.empty
      (withClasses (fun _ => some .nonFinancial) inputs) = .ok decisions ∧
    ReadsOldPeriod registeredForest liveStrategyDefinition newYear oldRows Registry.gppeV0Tree .nonFinancial "issuer:a" ∧
    ∃ decision ∈ decisions, decision.issuerId = "issuer:a" ∧ decision.eligible = true := by
  obtain ⟨inputs, decisions, hinputs, hdecisions, heligible⟩ := oldRows_eligible
  exact ⟨inputs, decisions, hinputs, by decide +kernel, hdecisions, oldRows_read, heligible⟩

theorem old_periods_decide_nothing_iff_sample : ∃ inputs, issuerInputsFromRows none oldRows = .ok inputs ∧
    ¬ ∀ input ∈ withClasses (fun _ => some .nonFinancial) inputs, ∀ cls tree, some .nonFinancial = some cls →
      liveTrees.get? cls = some tree →
      ReadsOldPeriod registeredForest liveStrategyDefinition newYear oldRows tree cls input.issuerId →
        RefusedByAnotherRule registeredForest liveStrategyDefinition newYear (1 / 20) Dict.empty tree cls input := by
  obtain ⟨inputs, decisions, hinputs, hdecisions, decision, hmem, hid, heligible⟩ := oldRows_eligible
  refine ⟨inputs, hinputs, fun hall => ?_⟩
  have hout := (old_periods_decide_nothing_iff pinnedHash registeredForest liveStrategyDefinition newYear (1 / 20) none
    Dict.empty (fun _ => some .nonFinancial) none hinputs liveTrees_pinned hdecisions).mpr hall
  have hnot := hout decision hmem .nonFinancial Registry.gppeV0Tree rfl rfl (hid ▸ oldRows_read)
  rw [heligible] at hnot
  cases hnot

end TrueAlpha.Strategy
