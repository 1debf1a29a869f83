import TrueAlpha.Strategy.RecordFacts
import TrueAlpha.Topt.Agreement

/-!
# The captured leaves of a registered tree

A snapshot and an issuer input carry the same captured leaves (`SameCaptured`).  The core has no reason exactly when every leaf
is available (`collectInput_total`), the evaluator no flag when the headcount is also positive (`collectLeaf_total`).
-/

namespace TrueAlpha.Topt

open Strategy

theorem registered_metrics : ∀ tree ∈ registeredForest.trees, ∀ cls ∈ tree.applicability,
    ∀ keys, laborEfficiencyKeys registeredForest tree cls = .ok keys →
      (keys.map metricForKey).Nodup ∧ (∀ key ∈ keys, (unitFamilyOf (metricForKey key)).isSome) ∧
      ("pre_provision_profit" ∈ keys.map metricForKey → "gross_profit" ∉ keys.map metricForKey) ∧
      ("bank_net_revenue" ∈ keys.map metricForKey →
        "gross_profit" ∉ keys.map metricForKey ∧ "pre_provision_profit" ∉ keys.map metricForKey) := by
  decide +kernel

def snapshotFields : List (String × ToptCoreReasonCode) :=
  [("gross_profit", .missingGrossProfit), ("total_assets", .missingTotalAssets), ("headcount", .missingHeadcount),
    ("pre_provision_profit", .missingPreProvisionProfit), ("stockholders_equity", .missingStockholdersEquity),
    ("preferred_stock_value", .missingPreferredStockValue), ("goodwill", .missingGoodwill),
    ("intangible_assets_net_excluding_goodwill", .missingIntangibleAssetsNetExcludingGoodwill),
    ("financial_assets", .missingFinancialAssets), ("financial_returns", .missingFinancialReturns),
    ("bank_net_revenue", .missingBankNetRevenue)]

theorem registered_fields : ∀ node ∈ registeredForest.nodes, node.kind = .input →
    ∃ field ∈ snapshotFields, node.aliasOf .toptSnapshotField = .ok (some field.1) := by
  decide +kernel

variable {field : String × ToptCoreReasonCode}

theorem exists_getAttribute (snapshot : ToptCoreSnapshotInput)
    (h : field ∈ snapshotFields) : ∃ metric, snapshot.getAttribute field.1 = .ok metric := by
  simp only [snapshotFields, List.mem_cons, List.not_mem_nil, or_false] at h
  rcases h with rfl | rfl | rfl | rfl | rfl | rfl | rfl | rfl | rfl | rfl | rfl
  all_goals exact ⟨_, rfl⟩

theorem exists_missingMetricReason (metric : Option ToptMetricInput)
    (h : field ∈ snapshotFields) : ∃ reason, missingMetricReason metric field.1 = .ok reason := by
  have hcodes : ∀ field ∈ snapshotFields, missingCodes.find? (fun code => code.value = "missing_" ++ field.1) = some field.2 := by
    decide
  unfold missingMetricReason
  rw [hcodes field h]
  cases metric.bind ToptMetricInput.unavailableReason with
  | none => exact ⟨_, rfl⟩
  | some reason => exact ⟨_, rfl⟩

theorem registeredForest_required : ∀ tree ∈ registeredForest.trees, ∀ cls ∈ tree.applicability,
    ∀ nodes, requiredInputs registeredForest tree cls = .ok nodes → (∃ node ∈ nodes, node.key = "employees_total" ∧
        node.kind = .input ∧ node.defaultWhenMissing = none ∧ inputKeyOf node = .ok "headcount" ∧
        node.aliasOf .toptSnapshotField = .ok (some "headcount")) ∧
      ∀ node ∈ nodes, node.kind = .input → node.defaultWhenMissing.isSome →
        ∀ key, inputKeyOf node = .ok key → key ∉ requiredInputReasons.map Prod.fst := by
  decide +kernel

theorem registered_headcount : ∀ tree ∈ registeredForest.trees, ∀ cls ∈ tree.applicability,
    ∀ nodes, requiredInputs registeredForest tree cls = .ok nodes → ∃ node ∈ nodes, node.key = "employees_total" ∧
      node.kind = .input ∧ node.defaultWhenMissing = none ∧ inputKeyOf node = .ok "headcount" ∧
      node.aliasOf .toptSnapshotField = .ok (some "headcount") :=
  fun tree htree cls hcls nodes hnodes => (registeredForest_required tree htree cls hcls nodes hnodes).1

theorem registered_required : ∀ tree ∈ registeredForest.trees, ∀ cls ∈ tree.applicability,
    ∀ nodes, requiredInputs registeredForest tree cls = .ok nodes →
      ∀ node ∈ nodes, node.kind = .input → node.defaultWhenMissing.isSome →
        ∀ key, inputKeyOf node = .ok key → key ∉ requiredInputReasons.map Prod.fst :=
  fun tree htree cls hcls nodes hnodes => (registeredForest_required tree htree cls hcls nodes hnodes).2

/-! ## One set of captured inputs -/

def capturedMetric (metric : Option ToptMetricInput) : Option (ℚ × ℚ) :=
  (valued metric ToptMetricInput.value).map fun entry => (entry.2, entry.1.confidence)

def SameRecord (snapshot : ToptCoreSnapshotInput) (issuer : IssuerInput) (node : MetricNode) (field : String) : Prop :=
  ∀ metric, snapshot.getAttribute field = .ok metric → ∀ key, inputKeyOf node = .ok key →
    capturedMetric metric = (issuer.records.get? key).map fun record => (record.1.value, record.2)

instance (snapshot : ToptCoreSnapshotInput) (issuer : IssuerInput) (node : MetricNode) (field : String) :
    Decidable (SameRecord snapshot issuer node field) := by
  unfold SameRecord
  infer_instance

def SameCaptured (tree : MetricTree) (cls : IssuerClass) (snapshot : ToptCoreSnapshotInput) (issuer : IssuerInput) : Prop :=
  ∀ nodes, requiredInputs registeredForest tree cls = .ok nodes → ∀ node ∈ nodes,
    ∀ name, node.aliasOf .toptSnapshotField = .ok name → ∀ field, name = some field → SameRecord snapshot issuer node field

instance (tree : MetricTree) (cls : IssuerClass) (snapshot : ToptCoreSnapshotInput) (issuer : IssuerInput) :
    Decidable (SameCaptured tree cls snapshot issuer) := by
  unfold SameCaptured
  infer_instance

def Available (issuer : IssuerInput) (node : MetricNode) : Prop :=
  node.kind = .input → ∀ key, inputKeyOf node = .ok key → issuer.recorded key = none → node.defaultWhenMissing.isSome

def Staffed (issuer : IssuerInput) (node : MetricNode) : Prop :=
  node.kind = .input → node.key = "employees_total" → ∀ key, inputKeyOf node = .ok key →
    ∀ value, issuer.recorded key = some value → 0 < value

variable {metric : Option ToptMetricInput}

section

variable {snapshot : ToptCoreSnapshotInput} {gppeDefinition : GppeV0Definition} {tree : MetricTree}
  {cls : IssuerClass} {issuer : IssuerInput} {facts : List Fact} {keys : List String} {node : MetricNode}
  {nodes rest : List MetricNode}

theorem value_of_capturedMetric {key : String}
    (h : capturedMetric metric = (issuer.records.get? key).map fun record => (record.1.value, record.2)) :
    metric.bind ToptMetricInput.value = issuer.recorded key := by
  have hmap := congrArg (Option.map Prod.fst) h
  rw [Option.map_map] at hmap
  refine Eq.trans ?_ hmap
  cases metric with
  | none => rfl
  | some input => cases hvalue : input.value <;> simp [capturedMetric, valued, hvalue]

theorem resolveLeafFact_eq (issuer : IssuerInput) (htree : tree ∈ registeredForest.trees) (hcls : cls ∈ tree.applicability)
    (hkeys : laborEfficiencyKeys registeredForest tree cls = .ok keys) {key : String} (hkey : key ∈ keys) :
    resolveLeafFact (issuer.recordFacts keys) issuer.issuerId (metricForKey key) =
      .ok ((issuer.records.get? key).map (issuer.recordFact key)) := by
  obtain ⟨hnodup, -, hprovision, hbank⟩ := registered_metrics tree htree cls hcls keys hkeys
  have hmem : metricForKey key ∈ keys.map metricForKey := List.mem_map_of_mem hkey
  unfold resolveLeafFact
  rw [findFact_recordFacts hnodup hkey, ok_bind]
  cases hrecord : issuer.records.get? key with
  | some record => rfl
  | none =>
    rw [Option.map_none]
    dsimp only
    split_ifs with hpre hnet
    · exact findFact_recordFacts_none (hprovision (hpre ▸ hmem))
    · obtain ⟨hgross, hpre'⟩ := hbank (hnet ▸ hmem)
      rw [findFact_recordFacts_none hpre', ok_bind]
      exact findFact_recordFacts_none hgross
    · rfl

theorem collectLeaf_input {entityId : String} (riskFreeRate : ℚ) (halias : node.aliasOf .definitionParameter = .ok none)
    (hmetric : metricOf node = .ok node.key) {fact : Option Fact}
    (hfact : resolveLeafFact facts entityId node.key = .ok fact) (leaves : LeafInputs) :
    ∃ leaves', collectLeaf facts entityId riskFreeRate leaves node = .ok leaves' ∧
      (leaves'.flags = [] ↔ leaves.flags = [] ∧ (fact.bind Fact.value = none → node.defaultWhenMissing.isSome) ∧
        ∀ value, fact.bind Fact.value = some value → node.key = "employees_total" → 0 < value) ∧
      (leaves'.consumed = leaves.consumed ∨ ∃ found, fact = some found ∧ leaves'.consumed = leaves.consumed ++ [found]) := by
  unfold collectLeaf
  rw [TrueAlpha.liftForest_eq_ok_iff.mpr halias, ok_bind, if_neg (by decide),
    TrueAlpha.liftForest_eq_ok_iff.mpr hmetric, ok_bind, hfact, ok_bind]
  cases hvalued : valued fact Fact.value with
  | none =>
    have hnone := valued_eq_none_iff.mp hvalued
    refine ⟨_, rfl, ?_, .inl rfl⟩
    simp only [hnone, true_implies]
    by_cases hdefault : node.defaultWhenMissing.isSome
    · simp [hdefault]
    · by_cases hheld : missingLeafFlag node.key ∈ leaves.flags
      · simp [hdefault, hheld, List.ne_nil_of_mem hheld]
      · simp [hdefault, hheld]
  | some entry =>
    obtain ⟨found, value⟩ := entry
    obtain ⟨rfl, hvalue⟩ := valued_eq_some_iff.mp hvalued
    have hbind : (some found).bind Fact.value = some value := hvalue
    dsimp only
    by_cases hbad : node.key = "employees_total" ∧ value ≤ 0
    · rw [if_pos hbad]
      refine ⟨_, rfl, ?_, .inl rfl⟩
      simp only [hbind]
      constructor
      · intro h
        exact absurd h (by simp)
      · rintro ⟨-, -, hpositive⟩
        exact absurd (hpositive value rfl hbad.1) (not_lt.mpr hbad.2)
    · rw [if_neg hbad]
      refine ⟨_, rfl, ?_, .inr ⟨found, rfl, rfl⟩⟩
      simp only [hbind]
      constructor
      · intro h
        refine ⟨h, (fun hnone => by cases hnone), fun other hother hkey => ?_⟩
        cases hother
        exact not_le.mp fun hle => hbad ⟨hkey, hle⟩
      · exact fun h => h.1

/-- The evaluator's loop over the leaves returns, without a flag exactly when every leaf is available and the headcount is
positive. -/
theorem collectLeaf_total (issuer : IssuerInput) (htree : tree ∈ registeredForest.trees) (hcls : cls ∈ tree.applicability)
    (hkeys : laborEfficiencyKeys registeredForest tree cls = .ok keys)
    (hnodes : requiredInputs registeredForest tree cls = .ok nodes) (riskFreeRate : ℚ) :
    ∃ leaves, nodes.foldlM (collectLeaf (issuer.recordFacts keys) issuer.issuerId riskFreeRate)
        ⟨Dict.empty, [], []⟩ = .ok leaves ∧
      (leaves.flags = [] ↔ ∀ node ∈ nodes, Available issuer node ∧ Staffed issuer node) ∧
      ∀ fact ∈ leaves.consumed, fact.fiscalPeriod = none := by
  refine foldlM_total (fun done (leaves : LeafInputs) =>
    (leaves.flags = [] ↔ ∀ node ∈ done, Available issuer node ∧ Staffed issuer node) ∧
      ∀ fact ∈ leaves.consumed, fact.fiscalPeriod = none) nodes (by simp) ?_
  intro done node post leaves hsplit ⟨hflags, hperiods⟩
  obtain ⟨hregistered, hkind⟩ := registered_leaves tree htree cls hcls nodes hnodes node (by simp [hsplit])
  have hnamed := registered_wellNamed node hregistered
  simp only [List.forall_mem_append, List.forall_mem_singleton]
  rcases hkind with hinput | hparameter
  · obtain ⟨halias, hmetric, -⟩ := hnamed.2 hinput
    obtain ⟨key, hkey, hname⟩ := hnamed.exists_key hinput
    have hmem : key ∈ keys := (mem_laborEfficiencyKeys hkeys hnodes).mpr ⟨node, by simp [hsplit], halias, hkey⟩
    have hfact := resolveLeafFact_eq issuer htree hcls hkeys hmem
    rw [hname] at hfact
    have hvalue : ((issuer.records.get? key).map (issuer.recordFact key)).bind Fact.value = issuer.recorded key := by
      cases hrecord : issuer.records.get? key <;> simp [IssuerInput.recorded, IssuerInput.recordFact, hrecord]
    obtain ⟨leaves', hstep, hiff, hconsumed⟩ := collectLeaf_input riskFreeRate halias hmetric hfact leaves
    have havailable : Available issuer node ↔ (issuer.recorded key = none → node.defaultWhenMissing.isSome) := by
      constructor
      · exact fun h => h hinput key hkey
      · intro h _ key' hkey'
        rw [hkey] at hkey'
        cases hkey'
        exact h
    have hstaffed : Staffed issuer node ↔
        ∀ value, issuer.recorded key = some value → node.key = "employees_total" → 0 < value := by
      constructor
      · exact fun h value hrecorded hemployees => h hinput hemployees key hkey value hrecorded
      · intro h _ hemployees key' hkey' value hrecorded
        rw [hkey] at hkey'
        cases hkey'
        exact h value hrecorded hemployees
    refine ⟨leaves', hstep, ?_, ?_⟩
    · rw [hiff, hflags, hvalue, havailable, hstaffed]
    · rcases hconsumed with heq | ⟨found, hfound, heq⟩
      · rw [heq]
        exact hperiods
      · rw [heq]
        intro fact hmem'
        rcases List.mem_append.mp hmem' with hold | hnew
        · exact hperiods fact hold
        · rw [List.mem_singleton.mp hnew]
          obtain ⟨record, -, rfl⟩ := Option.map_eq_some_iff.mp hfound
          rfl
  · have hrate := hnamed.1 hparameter
    refine ⟨{ leaves with inputs := leaves.inputs.set node.key (some riskFreeRate) }, ?_, ?_, hperiods⟩
    · unfold collectLeaf
      rw [TrueAlpha.liftForest_eq_ok_iff.mpr hrate, ok_bind, if_pos rfl]
      rfl
    · have hinput : node.kind ≠ .input := by
        rw [hparameter]
        decide
      have hvacuous : Available issuer node ∧ Staffed issuer node := ⟨fun h => absurd h hinput, fun h => absurd h hinput⟩
      exact hflags.trans ⟨fun h => ⟨h, hvacuous⟩, fun h => h.1⟩

theorem collectInput_input (gppeDefinition : GppeV0Definition) (halias : node.aliasOf .definitionParameter = .ok none)
    {field : String} (hfield : node.aliasOf .toptSnapshotField = .ok (some field))
    (hmetric : snapshot.getAttribute field = .ok metric)
    (hreason : ∃ reason, missingMetricReason metric field = .ok reason) (state : TreeInputs) :
    ∃ state', collectInput snapshot gppeDefinition state node = .ok state' ∧ (state'.reasons = [] ↔ state.reasons = [] ∧
        (metric.bind ToptMetricInput.value = none → node.defaultWhenMissing.isSome)) ∧
      (state'.confidences = [] → state.confidences = [] ∧ metric.bind ToptMetricInput.value = none) := by
  unfold collectInput
  rw [liftForest_eq_ok_iff.mpr halias, ok_bind]
  dsimp only
  rw [liftForest_eq_ok_iff.mpr hfield, ok_bind]
  dsimp only
  rw [hmetric, ok_bind]
  cases hvalued : valued metric ToptMetricInput.value with
  | some entry =>
    obtain ⟨input, value⟩ := entry
    obtain ⟨rfl, hvalue⟩ := valued_eq_some_iff.mp hvalued
    have hbind : (some input).bind ToptMetricInput.value = some value := hvalue
    refine ⟨_, rfl, ?_, ?_⟩
    · simp [hbind]
    · intro h
      exact absurd h (by simp)
  | none =>
    have hnone := valued_eq_none_iff.mp hvalued
    dsimp only
    by_cases hdefault : node.defaultWhenMissing.isSome
    · rw [if_pos hdefault]
      exact ⟨_, rfl, by simp [hdefault], fun h => ⟨h, hnone⟩⟩
    · rw [if_neg hdefault]
      obtain ⟨reason, hreason⟩ := hreason
      rw [hreason, ok_bind]
      refine ⟨_, rfl, ?_, fun h => ⟨h, hnone⟩⟩
      simp [hnone, hdefault]

/-- The core's loop over the leaves returns, without a reason exactly when every leaf is available, with a confidence for each
leaf on record. -/
theorem collectInput_total (gppeDefinition : GppeV0Definition) (htree : tree ∈ registeredForest.trees)
    (hcls : cls ∈ tree.applicability) (hsame : SameCaptured tree cls snapshot issuer)
    (hnodes : requiredInputs registeredForest tree cls = .ok nodes) :
    ∃ state, nodes.foldlM (collectInput snapshot gppeDefinition) ⟨Dict.empty, [], []⟩ = .ok state ∧
      (state.reasons = [] ↔ ∀ node ∈ nodes, Available issuer node) ∧
      (state.confidences = [] → ∀ node ∈ nodes, node.kind = .input → ∀ key, inputKeyOf node = .ok key →
        issuer.recorded key = none) := by
  refine foldlM_total (fun done (state : TreeInputs) =>
    (state.reasons = [] ↔ ∀ node ∈ done, Available issuer node) ∧
      (state.confidences = [] → ∀ node ∈ done, node.kind = .input → ∀ key, inputKeyOf node = .ok key →
        issuer.recorded key = none)) nodes (by simp) ?_
  intro done node post state hsplit ⟨hreasons, hconfidences⟩
  have hnode : node ∈ nodes := by simp [hsplit]
  obtain ⟨hregistered, hkind⟩ := registered_leaves tree htree cls hcls nodes hnodes node hnode
  have hnamed := registered_wellNamed node hregistered
  simp only [List.forall_mem_append, List.forall_mem_singleton]
  rcases hkind with hinput | hparameter
  · obtain ⟨halias, -⟩ := hnamed.2 hinput
    obtain ⟨key, hkey, -⟩ := hnamed.exists_key hinput
    obtain ⟨field, hfields, hfield⟩ := registered_fields node hregistered hinput
    obtain ⟨metric, hmetric⟩ := exists_getAttribute snapshot hfields
    have hvalue : metric.bind ToptMetricInput.value = issuer.recorded key :=
      value_of_capturedMetric (hsame nodes hnodes node hnode _ hfield field.1 rfl metric hmetric key hkey)
    obtain ⟨state', hstep, hiff, hconfidence⟩ := collectInput_input gppeDefinition halias hfield hmetric
      (exists_missingMetricReason metric hfields) state
    refine ⟨state', hstep, ?_, ?_⟩
    · rw [hiff, hreasons, hvalue]
      refine and_congr_right fun _ => ⟨fun h _ key' hkey' => ?_, fun h => h hinput key hkey⟩
      rw [hkey] at hkey'
      cases hkey'
      exact h
    · intro hnil
      obtain ⟨hold, hnone⟩ := hconfidence hnil
      refine ⟨hconfidences hold, fun _ key' hkey' => ?_⟩
      rw [hkey] at hkey'
      cases hkey'
      rw [← hvalue, hnone]
  · have hinput : node.kind ≠ .input := by
      rw [hparameter]
      decide
    refine ⟨{ state with inputs := state.inputs.set node.key (some gppeDefinition.riskFreeRate) }, ?_, ?_, ?_⟩
    · unfold collectInput
      rw [liftForest_eq_ok_iff.mpr (hnamed.1 hparameter), ok_bind]
      rfl
    · exact hreasons.trans ⟨fun h => ⟨h, fun hkind => absurd hkind hinput⟩, fun h => h.1⟩
    · exact fun hnil => ⟨hconfidences hnil, fun hkind => absurd hkind hinput⟩

end

end TrueAlpha.Topt
