import TrueAlpha.Forest.Reach
import TrueAlpha.Topt.CapturedLeaves

/-!
# One labor efficiency in two engines

The evaluator reads the captured leaves as facts of its records, the core as fields of a snapshot.  The evaluator also requires
the inputs of its valuation basis, and lets another profit stand in for a bank's numerator.
-/

namespace TrueAlpha.Strategy

/-- `_missing_required_reason`, then `_facts_for` and `gross_profit_per_employee` under the class's tree. -/
def laborEfficiencyValue (forest : Forest) (definition : StrategyDefinition) (tree : MetricTree) (cls : IssuerClass)
    (issuer : IssuerInput) (riskFreeRate : ℚ) : Except FactorError (Option ℚ) := do
  let consumed ← consumedInputKeys forest tree cls
  match missingRequiredReason issuer (requiredReasons definition.valuationBasis consumed) with
  | some _ => return none
  | none =>
    let keys ← laborEfficiencyKeys forest tree cls
    let facts ← issuer.factsFor keys
    let result ← grossProfitPerEmployee forest tree cls facts issuer.issuerId riskFreeRate
    return result.value

end TrueAlpha.Strategy

namespace TrueAlpha.Topt

open Strategy

variable {definition : StrategyDefinition} {treeSha256 : Forest → MetricTree → String}

section

variable {snapshot : ToptCoreSnapshotInput} {gppeDefinition : GppeV0Definition} {tree : MetricTree}
  {cls : IssuerClass} {issuer : IssuerInput} {keys : List String} {node : MetricNode} {nodes : List MetricNode}

/-! ## The two engines -/

theorem registeredForest_keys : ∀ tree ∈ registeredForest.trees, (registeredForest.node tree.root).toOption.isSome ∧
    ∀ cls ∈ tree.applicability, (laborEfficiencyKeys registeredForest tree cls).toOption.isSome ∧
      (capitalAdjustedNode tree cls).toOption.isSome := by
  decide +kernel

theorem exists_laborEfficiencyKeys : ∀ tree ∈ registeredForest.trees, ∀ cls ∈ tree.applicability,
    (laborEfficiencyKeys registeredForest tree cls).toOption.isSome :=
  fun tree htree cls hcls => ((registeredForest_keys tree htree).2 cls hcls).1

theorem exists_capitalAdjustedNode : ∀ tree ∈ registeredForest.trees, ∀ cls ∈ tree.applicability,
    (capitalAdjustedNode tree cls).toOption.isSome :=
  fun tree htree cls hcls => ((registeredForest_keys tree htree).2 cls hcls).2

theorem capitalAdjustedNode_operand {name : String} (h : capitalAdjustedNode tree cls = .ok name) :
    ∃ decomposition names, tree.decompositionOf tree.root = some decomposition ∧
      decomposition.operands cls = some names ∧ name ∈ names := by
  unfold capitalAdjustedNode at h
  split at h
  · cases h
  · next decomposition hroot =>
    split_ifs at h
    split at h
    · next others hoperands =>
      cases h
      exact ⟨decomposition, _, hroot, hoperands, List.mem_cons_self⟩
    · cases h

theorem evaluatedGppe_available (invocationId : String) (htree : tree ∈ registeredForest.trees)
    (hcls : snapshot.operatingBranch ∈ tree.applicability) {collected : TreeInputs}
    (hconfidences : collected.confidences ≠ []) {evaluation : TreeEvaluation}
    (heval : evaluate registeredForest tree snapshot.operatingBranch collected.inputs = .ok evaluation) {value : ℚ}
    (hroot : (evaluation.values.get? tree.root).join = some value) :
    ∃ result, evaluatedGppe snapshot invocationId tree collected = .ok result ∧
      result.availability = .available ∧ result.gppe = some value := by
  obtain ⟨hundefined, hoperands⟩ := evaluate_defined htree hcls heval hroot
  obtain ⟨name, hname⟩ : ∃ name, capitalAdjustedNode tree snapshot.operatingBranch = .ok name := by
    have hsome := exists_capitalAdjustedNode tree htree _ hcls
    cases hnode : capitalAdjustedNode tree snapshot.operatingBranch with
    | error e =>
      rw [hnode] at hsome
      cases hsome
    | ok name => exact ⟨name, rfl⟩
  obtain ⟨decomposition, names, hdecomposition, hnames, hmem⟩ := capitalAdjustedNode_operand hname
  obtain ⟨profit, hprofit⟩ := hoperands decomposition hdecomposition names hnames name hmem
  have hnegative : UndefinedReason.negativeOperand ∉ evaluation.undefined.values := by
    rw [Dict.values, hundefined]
    exact List.not_mem_nil
  obtain ⟨first, rest, hlist⟩ := List.exists_cons_of_ne_nil hconfidences
  simp only [evaluatedGppe, hlist, heval, hname]
  rw [liftForest_eq_ok_iff.mpr rfl, ok_bind, liftForest_eq_ok_iff.mpr rfl, ok_bind, if_neg hnegative]
  simp only [hprofit, hroot, hundefined]
  exact ⟨_, rfl, rfl, rfl⟩

theorem headcount_value (htree : tree ∈ registeredForest.trees) (hcls : cls ∈ tree.applicability)
    (hsame : SameCaptured tree cls snapshot issuer) (hnodes : requiredInputs registeredForest tree cls = .ok nodes) :
    snapshot.headcount.bind ToptMetricInput.value = issuer.recorded "headcount" := by
  obtain ⟨node, hnode, -, -, -, hkey, hfield⟩ := registered_headcount tree htree cls hcls nodes hnodes
  exact value_of_capturedMetric (hsame nodes hnodes node hnode _ hfield "headcount" rfl _ rfl "headcount" hkey)

theorem staffed_iff (htree : tree ∈ registeredForest.trees) (hcls : cls ∈ tree.applicability)
    (hnodes : requiredInputs registeredForest tree cls = .ok nodes) :
    (∀ node ∈ nodes, Available issuer node ∧ Staffed issuer node) ↔
      (∀ node ∈ nodes, Available issuer node) ∧ ∃ headcount, issuer.recorded "headcount" = some headcount ∧ 0 < headcount := by
  obtain ⟨node, hnode, hemployees, hinput, hdefault, hkey, -⟩ := registered_headcount tree htree cls hcls nodes hnodes
  obtain ⟨hregistered, -⟩ := registered_leaves tree htree cls hcls nodes hnodes node hnode
  constructor
  · intro h
    refine ⟨fun node hnode => (h node hnode).1, ?_⟩
    cases hrecorded : issuer.recorded "headcount" with
    | none =>
      have hsome := (h node hnode).1 hinput "headcount" hkey hrecorded
      rw [hdefault] at hsome
      cases hsome
    | some headcount => exact ⟨headcount, rfl, (h node hnode).2 hinput hemployees "headcount" hkey headcount hrecorded⟩
  · rintro ⟨havailable, headcount, hrecorded, hpositive⟩ other hother
    refine ⟨havailable other hother, fun _ hemployees' key hkey' value hvalue => ?_⟩
    obtain ⟨hregistered', -⟩ := registered_leaves tree htree cls hcls nodes hnodes other hother
    rw [registered_keys other hregistered' node hregistered (hemployees'.trans hemployees.symm), hkey] at hkey'
    cases hkey'
    rw [hrecorded] at hvalue
    cases hvalue
    exact hpositive

theorem treeGppe_available_iff (invocationId : String) (gppeDefinition : GppeV0Definition)
    (htree : tree ∈ registeredForest.trees) (hcls : snapshot.operatingBranch ∈ tree.applicability)
    (hfresh : ∀ cell ∈ snapshot.cellInputs, cell.freshness = .fresh)
    (hsame : SameCaptured tree snapshot.operatingBranch snapshot issuer)
    (hnodes : requiredInputs registeredForest tree snapshot.operatingBranch = .ok nodes) (value : ℚ) :
    (∃ result, treeGppe snapshot invocationId gppeDefinition tree = .ok result ∧ result.availability = .available ∧
        result.gppe = some value) ↔
      (∀ node ∈ nodes, Available issuer node ∧ Staffed issuer node) ∧ ∃ collected evaluation,
        nodes.foldlM (collectInput snapshot gppeDefinition) ⟨Dict.empty, [], []⟩ = .ok collected ∧
        evaluate registeredForest tree snapshot.operatingBranch collected.inputs = .ok evaluation ∧
        (evaluation.values.get? tree.root).join = some value := by
  obtain ⟨collected, hcollected, hreasons, hconfidences⟩ := collectInput_total gppeDefinition htree hcls hsame hnodes
  have hinputs : collectGppeTreeInputs snapshot gppeDefinition tree = .ok collected := by
    unfold collectGppeTreeInputs
    rw [liftForest_eq_ok_iff.mpr hnodes, ok_bind, hcollected]
  have hfreshness : freshnessReasons snapshot = [] := by
    have hstale : ¬ ∃ cell ∈ snapshot.cellInputs, cell.freshness = .stale := by
      rintro ⟨cell, hcell, hstale⟩
      rw [hfresh cell hcell] at hstale
      cases hstale
    have hunknown : ¬ ∃ cell ∈ snapshot.cellInputs, cell.freshness = .unknown := by
      rintro ⟨cell, hcell, hunknown⟩
      rw [hfresh cell hcell] at hunknown
      cases hunknown
    simp only [freshnessReasons, snapshotFreshness, if_neg hstale, if_neg hunknown]
  have hheadcount := headcount_value htree hcls hsame hnodes
  unfold treeGppe
  rw [hinputs, ok_bind, staffed_iff htree hcls hnodes, hfreshness, List.append_nil, hheadcount]
  by_cases hnil : collected.reasons = []
  · rw [if_neg (not_not.mpr hnil)]
    have havailable := hreasons.mp hnil
    cases hrecorded : issuer.recorded "headcount" with
    | none =>
      refine ⟨fun ⟨_, hresult, _⟩ => (by cases hresult), ?_⟩
      rintro ⟨⟨-, headcount, hnone, -⟩, -⟩
      cases hnone
    | some headcount =>
      dsimp only
      by_cases hpositive : headcount ≤ 0
      · rw [if_pos hpositive]
        constructor
        · rintro ⟨result, hresult, hav, -⟩
          rw [unavailableGppe_availability hresult] at hav
          cases hav
        · rintro ⟨⟨-, other, hother, hlt⟩, -⟩
          cases hother
          exact absurd hpositive (not_le.mpr hlt)
      · rw [if_neg hpositive]
        constructor
        · rintro ⟨result, hresult, hav, hvalue⟩
          obtain ⟨evaluation, heval, hroot⟩ := evaluatedGppe_value hresult hav
          exact ⟨⟨havailable, headcount, rfl, not_le.mp hpositive⟩, collected, evaluation, hcollected, heval, hroot.trans hvalue⟩
        · rintro ⟨-, collected', evaluation, hcollected', heval, hroot⟩
          rw [hcollected] at hcollected'
          obtain rfl := Except.ok.inj hcollected'
          refine evaluatedGppe_available invocationId htree hcls (fun hempty => ?_) heval hroot
          obtain ⟨node, hnode, -, hinput, -, hkey, -⟩ := registered_headcount tree htree _ hcls nodes hnodes
          rw [hconfidences hempty node hnode hinput "headcount" hkey] at hrecorded
          cases hrecorded
  · rw [if_pos hnil]
    constructor
    · rintro ⟨result, hresult, hav, -⟩
      rw [unavailableGppe_availability hresult] at hav
      cases hav
    · rintro ⟨⟨havailable, -⟩, -⟩
      exact absurd (hreasons.mpr havailable) hnil

theorem computeToptGppe_eq
    {invocationId : String} (hinvocation : "topt-gppe-invocation:".isPrefixOf invocationId)
    (hlisted : snapshot.primaryListingUndeclared = false)
    (hbound : boundTree treeSha256 registeredForest definition none snapshot.operatingBranch = .ok tree)
    (hpins : ∀ pins, definitionPins definition = .ok pins → ∀ trees ∈ gppeDefinition.laborEfficiencyTrees, samePins trees pins) :
    computeToptGppe treeSha256 snapshot invocationId gppeDefinition definition =
      treeGppe snapshot invocationId gppeDefinition tree := by
  obtain ⟨pins, hpinned, -⟩ := bind_eq_ok_iff.mp hbound
  have hsame : ¬ ∃ trees ∈ gppeDefinition.laborEfficiencyTrees, ¬ samePins trees pins := by
    rintro ⟨trees, htrees, hother⟩
    exact hother (hpins pins hpinned trees htrees)
  have hpinned' : definitionPins definition = .ok pins := hpinned
  unfold computeToptGppe
  rw [if_neg (not_not.mpr hinvocation), if_neg (by rw [hlisted]; decide), liftForest_eq_ok_iff.mpr hpinned', ok_bind,
    if_neg hsame, hbound]

theorem dedup_length_le {α : Type} [DecidableEq α] {l : List α} {a : α} (h : ∀ b ∈ l, b = a) : l.dedup.length ≤ 1 := by
  rw [List.eq_replicate_of_mem h]
  cases l.length with
  | zero => simp
  | succ n => rw [List.replicate_dedup (Nat.succ_ne_zero n), List.length_singleton]

theorem grossProfitPerEmployee_iff (issuer : IssuerInput) (htree : tree ∈ registeredForest.trees) (hcls : cls ∈ tree.applicability)
    (hkeys : laborEfficiencyKeys registeredForest tree cls = .ok keys)
    (hnodes : requiredInputs registeredForest tree cls = .ok nodes) (riskFreeRate value : ℚ) :
    (∃ result, grossProfitPerEmployee registeredForest tree cls (issuer.recordFacts keys) issuer.issuerId riskFreeRate =
        .ok result ∧ result.value = some value) ↔
      (∀ node ∈ nodes, Available issuer node ∧ Staffed issuer node) ∧ ∃ leaves evaluation,
        nodes.foldlM (collectLeaf (issuer.recordFacts keys) issuer.issuerId riskFreeRate) ⟨Dict.empty, [], []⟩ =
          .ok leaves ∧ leaves.flags = [] ∧ evaluate registeredForest tree cls leaves.inputs = .ok evaluation ∧
        (evaluation.values.get? tree.root).join = some value := by
  obtain ⟨leaves, hleaves, hflags, hperiods⟩ := collectLeaf_total issuer htree hcls hkeys hnodes riskFreeRate
  constructor
  · rintro ⟨result, hresult, hvalue⟩
    obtain ⟨nodes', leaves', evaluation, hnodes', hleaves', hnil, heval, hroot⟩ := grossProfitPerEmployee_value hresult hvalue
    rw [hnodes] at hnodes'
    obtain rfl := Except.ok.inj hnodes'
    rw [hleaves] at hleaves'
    obtain rfl := Except.ok.inj hleaves'
    exact ⟨hflags.mp hnil, leaves, evaluation, hleaves, hnil, heval, hroot⟩
  · rintro ⟨-, leaves', evaluation, hleaves', hnil, heval, hroot⟩
    rw [hleaves] at hleaves'
    obtain rfl := Except.ok.inj hleaves'
    obtain ⟨root, hnode⟩ : ∃ root, registeredForest.node tree.root = .ok root := by
      have hsome := (registeredForest_keys tree htree).1
      cases hnode : registeredForest.node tree.root with
      | error e =>
        rw [hnode] at hsome
        cases hsome
      | ok root => exact ⟨root, rfl⟩
    have hperiod : ¬ 1 < (leaves.consumed.map Fact.fiscalPeriod).dedup.length := by
      rw [not_lt]
      apply dedup_length_le
      intro period hperiod
      obtain ⟨fact, hfact, rfl⟩ := List.mem_map.mp hperiod
      exact hperiods fact hfact
    unfold grossProfitPerEmployee
    rw [TrueAlpha.liftForest_eq_ok_iff.mpr hnode, ok_bind, TrueAlpha.liftForest_eq_ok_iff.mpr hnodes, ok_bind, hleaves, ok_bind]
    simp only [hnil, ne_eq, not_true_eq_false, if_false, if_neg hperiod]
    rw [TrueAlpha.liftForest_eq_ok_iff.mpr heval, ok_bind]
    exact ⟨_, rfl, (resultOfEvaluation_value).trans hroot⟩

def MarketCaptured (definition : StrategyDefinition) (issuer : IssuerInput) : Prop :=
  ∀ key ∈ inputKeys "price_to_sales" none, key ∉ recordedOnlyInputKeys definition.valuationBasis →
    (issuer.records.get? key).isSome

def NoStandIn (tree : MetricTree) (cls : IssuerClass) (issuer : IssuerInput) : Prop :=
  ∀ keys, laborEfficiencyKeys registeredForest tree cls = .ok keys → ∀ key ∈ keys,
    issuer.records.get? key = none → issuer.recordFor key = none

def AvailableGppe (treeSha256 : Forest → MetricTree → String) (snapshot : ToptCoreSnapshotInput) (invocationId : String)
    (gppeDefinition : GppeV0Definition) (definition : StrategyDefinition) (value : ℚ) : Prop :=
  ∃ result, computeToptGppe treeSha256 snapshot invocationId gppeDefinition definition = .ok result ∧
    result.availability = .available ∧ result.gppe = some value

theorem sameInputs_of_sameCaptured (hperiodic : ∀ key, issuer.periodicRecords.get? key = none)
    (hsame : SameCaptured tree cls snapshot issuer) : SameInputs tree cls snapshot issuer := by
  intro nodes hnodes node hnode name hname field hfield metric hmetric key hkey
  have hvalue := value_of_capturedMetric (hsame nodes hnodes node hnode name hname field hfield metric hmetric key hkey)
  have hcarried : issuer.carried key = (issuer.recorded key).toList := by
    simp only [IssuerInput.carried, hperiodic key, IssuerInput.recorded]
  rw [hcarried, hvalue]
  exact ⟨fun value h => Option.mem_toList.mp h, fun value h => Option.mem_toList.mpr h⟩

theorem input_of_captured (htree : tree ∈ registeredForest.trees) (hcls : cls ∈ tree.applicability)
    (hnodes : requiredInputs registeredForest tree cls = .ok nodes) (hnode : node ∈ nodes)
    (halias : node.aliasOf .definitionParameter = .ok none) : node.kind = .input := by
  obtain ⟨hregistered, hkind⟩ := registered_leaves tree htree cls hcls nodes hnodes node hnode
  rcases hkind with hinput | hparameter
  · exact hinput
  · rw [(registered_wellNamed node hregistered).1 hparameter] at halias
    cases halias

theorem validRecord_of_sameCaptured (htree : tree ∈ registeredForest.trees) (hcls : cls ∈ tree.applicability)
    (hsame : SameCaptured tree cls snapshot issuer) (hkeys : laborEfficiencyKeys registeredForest tree cls = .ok keys)
    (hnodes : requiredInputs registeredForest tree cls = .ok nodes) {key : String} (hkey : key ∈ keys)
    {record : Measure × ℚ} (hrecord : issuer.records.get? key = some record) : ValidRecord key record := by
  refine ⟨(registered_metrics tree htree cls hcls keys hkeys).2.1 key hkey, ?_⟩
  obtain ⟨node, hnode, halias, hinputKey⟩ := (mem_laborEfficiencyKeys hkeys hnodes).mp hkey
  obtain ⟨hregistered, -⟩ := registered_leaves tree htree cls hcls nodes hnodes node hnode
  have hinput := input_of_captured htree hcls hnodes hnode halias
  obtain ⟨field, hfields, hfield⟩ := registered_fields node hregistered hinput
  obtain ⟨metric, hmetric⟩ := exists_getAttribute snapshot hfields
  have hcaptured := hsame nodes hnodes node hnode _ hfield field.1 rfl metric hmetric key hinputKey
  rw [hrecord, Option.map_some, capturedMetric, Option.map_eq_some_iff] at hcaptured
  obtain ⟨⟨input, value⟩, -, hpair⟩ := hcaptured
  have hconfidence : input.confidence = record.2 := congrArg Prod.snd hpair
  rw [← hconfidence]
  exact input.confidence_range

/-- Where every leaf has its own record, the evaluator has a value exactly when the core has it and no required input is
missing. -/
theorem laborEfficiencyValue_iff
    {invocationId : String} (hinvocation : "topt-gppe-invocation:".isPrefixOf invocationId)
    (hlisted : snapshot.primaryListingUndeclared = false)
    (hfresh : ∀ cell ∈ snapshot.cellInputs, cell.freshness = .fresh)
    (hbound : boundTree treeSha256 registeredForest definition none snapshot.operatingBranch = .ok tree)
    (hpins : ∀ pins, definitionPins definition = .ok pins → ∀ trees ∈ gppeDefinition.laborEfficiencyTrees, samePins trees pins)
    (hperiodic : ∀ key, issuer.periodicRecords.get? key = none)
    (hsame : SameCaptured tree snapshot.operatingBranch snapshot issuer)
    (hkeys : laborEfficiencyKeys registeredForest tree snapshot.operatingBranch = .ok keys)
    (hdirect : ∀ key ∈ keys, issuer.recordFor key = issuer.records.get? key) {value : ℚ} :
    laborEfficiencyValue registeredForest definition tree snapshot.operatingBranch issuer gppeDefinition.riskFreeRate =
        .ok (some value) ↔
      missingRequiredReason issuer (requiredReasons definition.valuationBasis
          (sortedSet (inputKeys "price_to_sales" none ++ keys))) = none ∧
        AvailableGppe treeSha256 snapshot invocationId gppeDefinition definition value := by
  obtain ⟨htree, hcls⟩ := boundTree_spec hbound
  obtain ⟨nodes, hnodes, -⟩ := requiredInputs_spec htree hcls
  have hfacts : issuer.factsFor keys = .ok (issuer.recordFacts keys) :=
    factsFor_eq (fun key _ => hperiodic key) hdirect fun key hkey record hrecord =>
      validRecord_of_sameCaptured htree hcls hsame hkeys hnodes hkey hrecord
  have hfactor := grossProfitPerEmployee_iff issuer htree hcls hkeys hnodes gppeDefinition.riskFreeRate value
  have hcore := treeGppe_available_iff invocationId gppeDefinition htree hcls hfresh hsame hnodes value
  have hconsumed : consumedInputKeys registeredForest tree snapshot.operatingBranch =
      .ok (sortedSet (inputKeys "price_to_sales" none ++ keys)) := by
    unfold consumedInputKeys
    rw [hkeys, ok_bind]
    rfl
  unfold laborEfficiencyValue AvailableGppe
  rw [computeToptGppe_eq hinvocation hlisted hbound hpins, hcore, TrueAlpha.liftForest_eq_ok_iff.mpr hconsumed, ok_bind]
  cases hmissing : missingRequiredReason issuer (requiredReasons definition.valuationBasis
      (sortedSet (inputKeys "price_to_sales" none ++ keys))) with
  | some reason =>
    exact ⟨fun h => (by cases h), fun h => (by cases h.1)⟩
  | none =>
    dsimp only
    rw [TrueAlpha.liftForest_eq_ok_iff.mpr hkeys, ok_bind, hfacts, ok_bind]
    have hpure : (do
        let result ← grossProfitPerEmployee registeredForest tree snapshot.operatingBranch (issuer.recordFacts keys)
          issuer.issuerId gppeDefinition.riskFreeRate
        pure result.value) = (Except.ok (some value) : Except FactorError (Option ℚ)) ↔
        ∃ result, grossProfitPerEmployee registeredForest tree snapshot.operatingBranch (issuer.recordFacts keys)
          issuer.issuerId gppeDefinition.riskFreeRate = .ok result ∧ result.value = some value := by
      rw [bind_eq_ok_iff]
      exact exists_congr fun result => and_congr_right fun _ => pure_eq_ok_iff
    rw [hpure, hfactor]
    -- the loops collect the same inputs
    have hinputs : ∀ {leaves : LeafInputs} {collected : TreeInputs}, (∀ node ∈ nodes, Available issuer node) →
        nodes.foldlM (collectLeaf (issuer.recordFacts keys) issuer.issuerId gppeDefinition.riskFreeRate)
          ⟨Dict.empty, [], []⟩ = .ok leaves → leaves.flags = [] →
        nodes.foldlM (collectInput snapshot gppeDefinition) ⟨Dict.empty, [], []⟩ = .ok collected →
        collected.inputs = leaves.inputs := by
      intro leaves collected havailable hleaves hflags hcollected
      obtain ⟨collected', hcollected', hreasons, -⟩ := collectInput_total gppeDefinition htree hcls hsame hnodes
      rw [hcollected] at hcollected'
      obtain rfl := Except.ok.inj hcollected'
      exact collected_inputs_eq htree hcls (sameInputs_of_sameCaptured hperiodic hsame) hkeys hnodes hfacts
        (List.Subset.refl _) hcollected hleaves (hreasons.mpr havailable) hflags rfl
    constructor
    · rintro ⟨hall, leaves, evaluation, hleaves, hflags, heval, hroot⟩
      obtain ⟨collected, hcollected, -⟩ := collectInput_total gppeDefinition htree hcls hsame hnodes
      have heq := hinputs (fun node hnode => (hall node hnode).1) hleaves hflags hcollected
      exact ⟨rfl, hall, collected, evaluation, hcollected, heq ▸ heval, hroot⟩
    · rintro ⟨-, hall, collected, evaluation, hcollected, heval, hroot⟩
      obtain ⟨leaves, hleaves, hflags, -⟩ := collectLeaf_total issuer htree hcls hkeys hnodes gppeDefinition.riskFreeRate
      have hnil := hflags.mpr hall
      have heq := hinputs (fun node hnode => (hall node hnode).1) hleaves hnil hcollected
      exact ⟨hall, leaves, evaluation, hleaves, hnil, heq ▸ heval, hroot⟩

theorem recordFor_of_available (htree : tree ∈ registeredForest.trees) (hcls : cls ∈ tree.applicability)
    (hkeys : laborEfficiencyKeys registeredForest tree cls = .ok keys)
    (hnodes : requiredInputs registeredForest tree cls = .ok nodes) (havailable : ∀ node ∈ nodes, Available issuer node)
    {key : String} (hkey : key ∈ keys) : issuer.recordFor key = issuer.records.get? key := by
  unfold IssuerInput.recordFor
  cases hrecord : issuer.records.get? key with
  | some record => rfl
  | none =>
    obtain ⟨node, hnode, halias, hinputKey⟩ := (mem_laborEfficiencyKeys hkeys hnodes).mp hkey
    obtain ⟨hregistered, -⟩ := registered_leaves tree htree cls hcls nodes hnodes node hnode
    have hnamed := registered_wellNamed node hregistered
    have hinput := input_of_captured htree hcls hnodes hnode halias
    obtain ⟨key', hkey', hname⟩ := hnamed.exists_key hinput
    rw [hinputKey] at hkey'
    cases hkey'
    have hdefault : node.defaultWhenMissing.isSome :=
      havailable node hnode hinput key hinputKey (by rw [IssuerInput.recorded, hrecord, Option.map_none])
    -- a bank's numerator has no default
    have hbank : ¬ (node.key = "pre_provision_profit" ∨ node.key = "bank_net_revenue") := by
      intro h
      rw [(hnamed.2 hinput).2.2.2 h] at hdefault
      cases hdefault
    rw [not_or] at hbank
    have hpre : key ≠ "pre_provision_profit" := by
      rintro rfl
      exact hbank.1 hname.symm
    have hnet : key ≠ "bank_net_revenue" := by
      rintro rfl
      exact hbank.2 hname.symm
    dsimp only
    rw [if_neg hpre, if_neg hnet]

theorem missingRequiredReason_none (htree : tree ∈ registeredForest.trees) (hcls : cls ∈ tree.applicability)
    (hkeys : laborEfficiencyKeys registeredForest tree cls = .ok keys)
    (hnodes : requiredInputs registeredForest tree cls = .ok nodes) (havailable : ∀ node ∈ nodes, Available issuer node) (hmarket : MarketCaptured definition issuer) :
    missingRequiredReason issuer (requiredReasons definition.valuationBasis
      (sortedSet (inputKeys "price_to_sales" none ++ keys))) = none := by
  have hheld : ∀ entry ∈ requiredReasons definition.valuationBasis (sortedSet (inputKeys "price_to_sales" none ++ keys)),
      entry.1 ∈ issuer.records.keys := by
    intro entry hentry
    obtain ⟨hlisted, hcond⟩ := List.mem_filter.mp hentry
    obtain ⟨hconsumed, hbasis⟩ := of_decide_eq_true hcond
    rw [mem_sortedSet, List.mem_append] at hconsumed
    rw [Dict.mem_keys_iff, ← Option.isSome_iff_exists]
    rcases hconsumed with hps | hlabor
    · exact hmarket entry.1 hps hbasis
    · obtain ⟨node, hnode, halias, hinputKey⟩ := (mem_laborEfficiencyKeys hkeys hnodes).mp hlabor
      have hinput := input_of_captured htree hcls hnodes hnode halias
      cases hrecord : issuer.records.get? entry.1 with
      | some record => rfl
      | none =>
        have hdefault := havailable node hnode hinput entry.1 hinputKey
          (by rw [IssuerInput.recorded, hrecord, Option.map_none])
        exact absurd (List.mem_map_of_mem hlisted)
          (registered_required tree htree cls hcls nodes hnodes node hnode hinput hdefault entry.1 hinputKey)
  unfold missingRequiredReason
  rw [Option.map_eq_none_iff, List.find?_eq_none]
  intro entry hentry
  have hkey := hheld entry hentry
  rw [resolveBankNumeratorKey, if_pos hkey]
  simpa using hkey

/-- On a fresh snapshot with an issuer's inputs, the evaluator has the core's value when the inputs of the valuation basis are on
record, and the core the evaluator's when no other profit stands in for a leaf.  A required leaf off the record gives no value,
unless another profit stands in. -/
theorem labor_efficiency_in_two_engines {treeSha256 : Forest → MetricTree → String} {definition : StrategyDefinition}
    {gppeDefinition : GppeV0Definition} {snapshot : ToptCoreSnapshotInput} {issuer : IssuerInput} {tree : MetricTree}
    {invocationId : String} (hinvocation : "topt-gppe-invocation:".isPrefixOf invocationId)
    (hlisted : snapshot.primaryListingUndeclared = false)
    (hfresh : ∀ cell ∈ snapshot.cellInputs, cell.freshness = .fresh)
    (hbound : boundTree treeSha256 registeredForest definition none snapshot.operatingBranch = .ok tree)
    (hpins : ∀ pins, definitionPins definition = .ok pins → ∀ trees ∈ gppeDefinition.laborEfficiencyTrees, samePins trees pins)
    (hperiodic : ∀ key, issuer.periodicRecords.get? key = none)
    (hsame : SameCaptured tree snapshot.operatingBranch snapshot issuer) :
    let evaluated := laborEfficiencyValue registeredForest definition tree snapshot.operatingBranch issuer
      gppeDefinition.riskFreeRate
    let available := AvailableGppe treeSha256 snapshot invocationId gppeDefinition definition
    (MarketCaptured definition issuer → ∀ value, available value → evaluated = .ok (some value)) ∧
      (NoStandIn tree snapshot.operatingBranch issuer → ∀ value, evaluated = .ok (some value) → available value) ∧
      ∀ nodes, requiredInputs registeredForest tree snapshot.operatingBranch = .ok nodes → ∀ node ∈ nodes,
        node.kind = .input → node.defaultWhenMissing = none → ∀ key, inputKeyOf node = .ok key →
          issuer.records.get? key = none → ∀ value, ¬ available value ∧
            (NoStandIn tree snapshot.operatingBranch issuer → evaluated ≠ .ok (some value)) := by
  intro evaluated available
  obtain ⟨htree, hcls⟩ := boundTree_spec hbound
  obtain ⟨nodes, hnodes, -⟩ := requiredInputs_spec htree hcls
  obtain ⟨keys, hkeys⟩ : ∃ keys, laborEfficiencyKeys registeredForest tree snapshot.operatingBranch = .ok keys := by
    have hsome := exists_laborEfficiencyKeys tree htree _ hcls
    cases hkeys : laborEfficiencyKeys registeredForest tree snapshot.operatingBranch with
    | error e =>
      rw [hkeys] at hsome
      cases hsome
    | ok keys => exact ⟨keys, rfl⟩
  have hcore : ∀ value, available value → ∀ node ∈ nodes, Available issuer node := by
    intro value hvalue node hnode
    have hrun : AvailableGppe treeSha256 snapshot invocationId gppeDefinition definition value := hvalue
    unfold AvailableGppe at hrun
    rw [computeToptGppe_eq hinvocation hlisted hbound hpins,
      treeGppe_available_iff invocationId gppeDefinition htree hcls hfresh hsame hnodes] at hrun
    exact (hrun.1 node hnode).1
  have hiff : (∀ key ∈ keys, issuer.recordFor key = issuer.records.get? key) → ∀ value,
      evaluated = .ok (some value) ↔ missingRequiredReason issuer (requiredReasons definition.valuationBasis
        (sortedSet (inputKeys "price_to_sales" none ++ keys))) = none ∧ available value := by
    intro hdirect value
    exact laborEfficiencyValue_iff hinvocation hlisted hfresh hbound hpins hperiodic hsame hkeys hdirect
  have hevaluated : NoStandIn tree snapshot.operatingBranch issuer → ∀ value, evaluated = .ok (some value) → available value := by
    intro hstandIn value hvalue
    refine ((hiff (fun key hkey => ?_) value).mp hvalue).2
    cases hrecord : issuer.records.get? key with
    | none => exact hstandIn keys hkeys key hkey hrecord
    | some record => simp [IssuerInput.recordFor, hrecord]
  have hmissing : ∀ nodes', requiredInputs registeredForest tree snapshot.operatingBranch = .ok nodes' →
      ∀ node ∈ nodes', node.kind = .input → node.defaultWhenMissing = none → ∀ key, inputKeyOf node = .ok key →
        issuer.records.get? key = none → ∀ value, ¬ available value := by
    intro nodes' hnodes' node hnode hinput hdefault key hkey hrecord value hvalue
    rw [hnodes] at hnodes'
    obtain rfl := Except.ok.inj hnodes'
    have hsome := hcore value hvalue node hnode hinput key hkey (by rw [IssuerInput.recorded, hrecord, Option.map_none])
    rw [hdefault] at hsome
    cases hsome
  refine ⟨fun hmarket value hvalue => ?_, hevaluated, ?_⟩
  · have havailable := hcore value hvalue
    exact (hiff (fun key hkey => recordFor_of_available htree hcls hkeys hnodes havailable hkey) value).mpr
      ⟨missingRequiredReason_none htree hcls hkeys hnodes havailable hmarket, hvalue⟩
  · intro nodes' hnodes' node hnode hinput hdefault key hkey hrecord value
    have hnone := hmissing nodes' hnodes' node hnode hinput hdefault key hkey hrecord value
    exact ⟨hnone, fun hstandIn hvalue => hnone (hevaluated hstandIn value hvalue)⟩

end

instance (definition : StrategyDefinition) (issuer : IssuerInput) : Decidable (MarketCaptured definition issuer) := by
  unfold MarketCaptured
  infer_instance

/-- A bank of 1000 employees that carries a gross profit and no pre-provision profit. -/
theorem price_metric : (sampleMetric "market_price" 100).metric = "market_price" := rfl

theorem shares_metric : (sampleMetric "shares_outstanding" 100000000).metric = "shares_outstanding" := rfl

theorem sampleCells_known : ∀ cell ∈ ['0', '1', '2', '3'].map sampleCell, cell.knowableAt ≤ sampleLineage.cutoff := by
  decide +kernel

def bankSnapshot : ToptCoreSnapshotInput where
  lineage := sampleLineage
  operatingBranch := .financial
  cellInputs := ['0', '1', '2', '3'].map sampleCell
  grossProfit := some (sampleMetric "gross_profit" 1010000000)
  totalAssets := none
  headcount := some (sampleMetric "headcount" 1000)
  revenue := some (sampleMetric "revenue" 2000000000)
  preProvisionProfit := none
  marketValueComponents := [⟨"instrument:x", "listing:x", sampleMetric "market_price" 100,
    sampleMetric "shares_outstanding" 100000000, price_metric, shares_metric⟩]
  primaryListingUndeclared := false
  stockholdersEquity := some (sampleMetric "stockholders_equity" 500000000)
  preferredStockValue := some (sampleMetric "preferred_stock_value" 100000000)
  goodwill := some (sampleMetric "goodwill" 100000000)
  intangibleAssetsNetExcludingGoodwill := some (sampleMetric "intangible_assets_net_excluding_goodwill" 100000000)
  financialAssets := none
  financialReturns := none
  bankNetRevenue := none
  observations := sampleObservations_valid
  metrics := by simp [sampleMetric_valid]
  cells := sampleCells_sorted
  cells_known := sampleCells_known
  listings := by decide
  listed := by decide
  components := by simp [sampleMetric_valid]

def bankIssuer : IssuerInput where
  issuerId := "issuer:x"
  records := ⟨[("gross_profit", ⟨1010000000, .money "USD", none⟩, 9 / 10), ("headcount", ⟨1000, .units "issuer:x", none⟩, 9 / 10),
    ("stockholders_equity", ⟨500000000, .money "USD", none⟩, 9 / 10),
    ("preferred_stock_value", ⟨100000000, .money "USD", none⟩, 9 / 10),
    ("goodwill", ⟨100000000, .money "USD", none⟩, 9 / 10),
    ("intangible_assets_net_excluding_goodwill", ⟨100000000, .money "USD", none⟩, 9 / 10),
    ("revenue", ⟨2000000000, .money "USD", none⟩, 9 / 10),
    ("shares_outstanding", ⟨100000000, .units "issuer:x", none⟩, 9 / 10),
    ("last_close", ⟨100, .perUnit "USD" "issuer:x", none⟩, 9 / 10)], by simp⟩
  knowableAt := Dict.empty
  periodicRecords := Dict.empty
  issuerClass := some .financial

def unpricedIssuer : IssuerInput :=
  { sampleIssuer 1010000000 with records := (sampleIssuer 1010000000).records.erase "last_close" }

def availableValue (result : ToptGppeResult) : Option ℚ :=
  if result.availability = .available then result.gppe else none

def sampleGppe (snapshot : ToptCoreSnapshotInput) : Except ToptError (Option ℚ) :=
  (computeToptGppe liveTreeSha256 snapshot "topt-gppe-invocation:sample" sampleGppeDefinition
    liveStrategyDefinition).map availableValue

theorem sampleGppe_eq {snapshot : ToptCoreSnapshotInput} {value : Option ℚ} (h : sampleGppe snapshot = .ok value)
    (other : ℚ) : AvailableGppe liveTreeSha256 snapshot "topt-gppe-invocation:sample" sampleGppeDefinition
      liveStrategyDefinition other ↔ value = some other := by
  obtain ⟨result, hresult, rfl⟩ := map_eq_ok_iff.mp h
  unfold availableValue
  constructor
  · rintro ⟨result', hresult', havailable, hvalue⟩
    rw [hresult] at hresult'
    cases hresult'
    rw [if_pos havailable, hvalue]
  · intro hvalue
    split_ifs at hvalue with havailable
    exact ⟨result, hresult, havailable, hvalue⟩

/-- A company with every input: both engines compute one million. -/
theorem labor_efficiency_in_two_engines_sample :
    AvailableGppe liveTreeSha256 (sampleSnapshot 1010000000) "topt-gppe-invocation:sample" sampleGppeDefinition
        liveStrategyDefinition 1000000 ∧
      laborEfficiencyValue registeredForest liveStrategyDefinition Registry.gppeV0Tree .nonFinancial
        (sampleIssuer 1010000000) sampleGppeDefinition.riskFreeRate = .ok (some 1000000) := by
  have hrun : sampleGppe (sampleSnapshot 1010000000) = .ok (some 1000000) := by decide +kernel
  have havailable := (sampleGppe_eq hrun 1000000).mpr rfl
  have hbound : boundTree liveTreeSha256 registeredForest liveStrategyDefinition none
      (sampleSnapshot 1010000000).operatingBranch = .ok Registry.gppeV0Tree := rfl
  refine ⟨havailable, (labor_efficiency_in_two_engines (by decide +kernel) rfl (by decide +kernel) hbound ?_ (fun _ => rfl)
    (by decide +kernel)).1 (by decide +kernel) 1000000 havailable⟩
  rintro pins - trees htrees
  cases htrees

/-- A bank whose gross profit stands in has a value in the evaluator only, a company without a close in the core only. -/
theorem labor_efficiencies_disagree :
    (boundTree liveTreeSha256 registeredForest liveStrategyDefinition none bankSnapshot.operatingBranch =
          .ok Registry.gppeBankingTceTree ∧
        bankSnapshot.primaryListingUndeclared = false ∧ (∀ cell ∈ bankSnapshot.cellInputs, cell.freshness = .fresh) ∧
        bankIssuer.periodicRecords = Dict.empty ∧ MarketCaptured liveStrategyDefinition bankIssuer ∧
        SameCaptured Registry.gppeBankingTceTree .financial bankSnapshot bankIssuer ∧
        laborEfficiencyValue registeredForest liveStrategyDefinition Registry.gppeBankingTceTree .financial bankIssuer
          sampleGppeDefinition.riskFreeRate = .ok (some 1000000) ∧
        ∀ value, ¬ AvailableGppe liveTreeSha256 bankSnapshot "topt-gppe-invocation:sample" sampleGppeDefinition
          liveStrategyDefinition value) ∧
      SameCaptured Registry.gppeV0Tree .nonFinancial (sampleSnapshot 1010000000) unpricedIssuer ∧
      AvailableGppe liveTreeSha256 (sampleSnapshot 1010000000) "topt-gppe-invocation:sample" sampleGppeDefinition
        liveStrategyDefinition 1000000 ∧
      laborEfficiencyValue registeredForest liveStrategyDefinition Registry.gppeV0Tree .nonFinancial unpricedIssuer
        sampleGppeDefinition.riskFreeRate = .ok none := by
  have hbank : sampleGppe bankSnapshot = .ok none := by decide +kernel
  have hsample : sampleGppe (sampleSnapshot 1010000000) = .ok (some 1000000) := by decide +kernel
  refine ⟨⟨rfl, rfl, by decide +kernel, rfl, by decide +kernel, by decide +kernel, by decide +kernel, ?_⟩,
    by decide +kernel, (sampleGppe_eq hsample 1000000).mpr rfl, by decide +kernel⟩
  intro value havailable
  cases (sampleGppe_eq hbank value).mp havailable

end TrueAlpha.Topt
