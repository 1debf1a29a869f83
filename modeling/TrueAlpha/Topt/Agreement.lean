import TrueAlpha.Contracts.TierBands
import TrueAlpha.Strategy.EvaluatorSpec
import TrueAlpha.Topt.Core

/-!
# One issuer in two engines

The TOPT core and the strategy evaluator compute one labor efficiency, but the evaluator looks its tier up after the
quantization of the definition.  So they agree exactly when no deciding bound lies between the two values.
-/

namespace TrueAlpha.Topt

open Strategy

variable {treeSha256 : Forest → MetricTree → String}

/-! ## What the core computes -/

variable {reasons : List ToptCoreReasonCode}

section

variable {snapshot : ToptCoreSnapshotInput} {gppeResult : ToptGppeResult} {core : ToptCoreResult}
  {invocationId : String} {gppeDefinition : GppeV0Definition} {definition : StrategyDefinition}
  {tree : MetricTree}

theorem unavailableGppe_availability
    (h : unavailableGppe snapshot invocationId reasons = .ok gppeResult) :
    gppeResult.availability = .unavailable := by
  unfold unavailableGppe at h
  split_ifs at h
  cases h
  rfl

theorem unavailableCore_availability
    (h : unavailableCore snapshot gppeResult invocationId reasons = .ok core) :
    core.availability = .unavailable := by
  unfold unavailableCore at h
  split_ifs at h
  cases h
  rfl

theorem computeToptCore_tier (h : computeToptCore treeSha256 snapshot gppeResult invocationId definition = .ok core)
    (havailable : core.availability = .available) :
    gppeResult.availability = .available ∧ ∃ value band, gppeResult.gppe = some value ∧
      bandFor definition.tierValuation.bands value = .ok band ∧ core.tier = some band.tier ∧
      core.targetPgpLower = some band.targetLowerBound ∧ core.targetPgpUpper = some band.targetUpperBound := by
  have hunavailable : ∀ reasons, unavailableCore snapshot gppeResult invocationId reasons ≠ .ok core := by
    intro reasons hcore
    rw [unavailableCore_availability hcore] at havailable
    cases havailable
  unfold computeToptCore computeToptCoreIn at h
  split_ifs at h with _ _ _ hgppe
  · exact absurd h (hunavailable _)
  · refine ⟨by cases ha : gppeResult.availability <;> simp_all, ?_⟩
    unfold availableCoreIn at h
    obtain ⟨_, -, h⟩ := bind_eq_ok_iff.mp h
    obtain ⟨_, -, h⟩ := bind_eq_ok_iff.mp h
    obtain ⟨_, -, h⟩ := bind_eq_ok_iff.mp h
    dsimp only at h
    split_ifs at h
    · exact absurd h (hunavailable _)
    · split at h
      · next gppe profit revenue numerator hvalue _ _ _ =>
        split at h
        · unfold valuedCoreIn at h
          obtain ⟨_, -, h⟩ := bind_eq_ok_iff.mp h
          obtain ⟨_, -, h⟩ := bind_eq_ok_iff.mp h
          obtain ⟨_, -, h⟩ := bind_eq_ok_iff.mp h
          obtain ⟨band, hband, h⟩ := bind_eq_ok_iff.mp h
          obtain ⟨_, -, h⟩ := bind_eq_ok_iff.mp h
          obtain ⟨_, -, h⟩ := bind_eq_ok_iff.mp h
          obtain ⟨_, -, h⟩ := bind_eq_ok_iff.mp h
          obtain rfl := pure_eq_ok_iff.mp h
          exact ⟨gppe, band, hvalue, liftBands_eq_ok_iff.mp hband, rfl, rfl, rfl⟩
        · cases h
      · cases h

theorem evaluatedGppe_value {collected : TreeInputs} (h : evaluatedGppe snapshot invocationId tree collected = .ok gppeResult)
    (havailable : gppeResult.availability = .available) :
    ∃ evaluation, evaluate registeredForest tree snapshot.operatingBranch collected.inputs = .ok evaluation ∧
      (evaluation.values.get? tree.root).join = gppeResult.gppe := by
  unfold evaluatedGppe at h
  split at h
  · cases h
  · obtain ⟨evaluation, heval, h⟩ := bind_eq_ok_iff.mp h
    obtain ⟨_, -, h⟩ := bind_eq_ok_iff.mp h
    refine ⟨evaluation, liftForest_eq_ok_iff.mp heval, ?_⟩
    split_ifs at h
    · rw [unavailableGppe_availability h] at havailable
      cases havailable
    · split at h
      · next hroot _ =>
        obtain rfl := pure_eq_ok_iff.mp h
        exact hroot
      · cases h

theorem computeToptGppe_value
    (h : computeToptGppe treeSha256 snapshot invocationId gppeDefinition definition = .ok gppeResult)
    (havailable : gppeResult.availability = .available) :
    ∃ tree collected evaluation, boundTree treeSha256 registeredForest definition none snapshot.operatingBranch = .ok tree ∧
      collectGppeTreeInputs snapshot gppeDefinition tree = .ok collected ∧ collected.reasons = [] ∧
      evaluate registeredForest tree snapshot.operatingBranch collected.inputs = .ok evaluation ∧
      (evaluation.values.get? tree.root).join = gppeResult.gppe := by
  have hunavailable : ∀ reasons, unavailableGppe snapshot invocationId reasons ≠ .ok gppeResult := by
    intro reasons hgppe
    rw [unavailableGppe_availability hgppe] at havailable
    cases havailable
  unfold computeToptGppe at h
  split_ifs at h
  · exact absurd h (hunavailable _)
  · obtain ⟨_, -, h⟩ := bind_eq_ok_iff.mp h
    split_ifs at h
    split at h
    · exact absurd h (hunavailable _)
    · cases h
    · next tree htree =>
      unfold treeGppe at h
      obtain ⟨collected, hcollected, h⟩ := bind_eq_ok_iff.mp h
      dsimp only at h
      split_ifs at h with hreasons
      · exact absurd h (hunavailable _)
      · split at h
        · cases h
        · split_ifs at h
          · exact absurd h (hunavailable _)
          · obtain ⟨evaluation, hvalue⟩ := evaluatedGppe_value h havailable
            have hnil : collected.reasons = [] := (List.append_eq_nil_iff.mp (not_not.mp hreasons)).1
            exact ⟨tree, collected, evaluation, htree, hcollected, hnil, hvalue⟩

end

/-- The rate is the only parameter, and a captured input is one metric under one key.  A bank's numerator has no default. -/
def WellNamed (node : MetricNode) : Prop :=
  (node.kind = .parameter → node.aliasOf .definitionParameter = .ok (some "risk_free_rate")) ∧
    (node.kind = .input → node.aliasOf .definitionParameter = .ok none ∧ metricOf node = .ok node.key ∧
      (inputKeyOf node).map metricForKey = .ok node.key ∧
      (node.key = "pre_provision_profit" ∨ node.key = "bank_net_revenue" → node.defaultWhenMissing = none))

instance (node : MetricNode) : Decidable (WellNamed node) := inferInstanceAs (Decidable (_ ∧ _))

theorem registeredForest_leaves : (∀ node ∈ registeredForest.nodes, WellNamed node) ∧
    (∀ node ∈ registeredForest.nodes, ∀ node' ∈ registeredForest.nodes,
      node.key = node'.key → inputKeyOf node = inputKeyOf node') ∧
    ∀ tree ∈ registeredForest.trees, ∀ cls ∈ tree.applicability,
      ∀ nodes, requiredInputs registeredForest tree cls = .ok nodes → ∀ node ∈ nodes,
        node ∈ registeredForest.nodes ∧ (node.kind = .input ∨ node.kind = .parameter) := by
  decide +kernel

theorem registered_wellNamed : ∀ node ∈ registeredForest.nodes, WellNamed node := registeredForest_leaves.1

theorem WellNamed.exists_key {node : MetricNode} (h : WellNamed node) (hinput : node.kind = .input) :
    ∃ key, inputKeyOf node = .ok key ∧ metricForKey key = node.key := by
  have hmap := (h.2 hinput).2.2.1
  cases hkey : inputKeyOf node with
  | error e =>
    rw [hkey] at hmap
    cases hmap
  | ok key =>
    rw [hkey] at hmap
    exact ⟨key, rfl, Except.ok.inj hmap⟩

theorem registered_keys : ∀ node ∈ registeredForest.nodes, ∀ node' ∈ registeredForest.nodes,
    node.key = node'.key → inputKeyOf node = inputKeyOf node' :=
  registeredForest_leaves.2.1

theorem registered_leaves : ∀ tree ∈ registeredForest.trees, ∀ cls ∈ tree.applicability,
    ∀ nodes, requiredInputs registeredForest tree cls = .ok nodes → ∀ node ∈ nodes,
      node ∈ registeredForest.nodes ∧ (node.kind = .input ∨ node.kind = .parameter) :=
  registeredForest_leaves.2.2

/-! ## One set of inputs -/

def SameLeaf (snapshot : ToptCoreSnapshotInput) (issuer : IssuerInput) (node : MetricNode) (field : String) : Prop :=
  ∀ metric, snapshot.getAttribute field = .ok metric → ∀ key, inputKeyOf node = .ok key →
    (∀ value ∈ issuer.carried key, metric.bind ToptMetricInput.value = some value) ∧
      ∀ value, metric.bind ToptMetricInput.value = some value → value ∈ issuer.carried key

instance (snapshot : ToptCoreSnapshotInput) (issuer : IssuerInput) (node : MetricNode) (field : String) :
    Decidable (SameLeaf snapshot issuer node field) := by
  unfold SameLeaf
  infer_instance

def SameInputs (tree : MetricTree) (cls : IssuerClass) (snapshot : ToptCoreSnapshotInput) (issuer : IssuerInput) : Prop :=
  ∀ nodes, requiredInputs registeredForest tree cls = .ok nodes → ∀ node ∈ nodes,
    ∀ name, node.aliasOf .toptSnapshotField = .ok name → ∀ field, name = some field → SameLeaf snapshot issuer node field

instance (tree : MetricTree) (cls : IssuerClass) (snapshot : ToptCoreSnapshotInput) (issuer : IssuerInput) :
    Decidable (SameInputs tree cls snapshot issuer) := by
  unfold SameInputs
  infer_instance

variable {state state' : TreeInputs} {rest : List MetricNode}

section

variable {snapshot : ToptCoreSnapshotInput} {gppeDefinition : GppeV0Definition} {tree : MetricTree}
  {cls : IssuerClass} {issuer : IssuerInput} {facts : List Fact} {keys : List String} {node : MetricNode}
  {nodes : List MetricNode}

theorem fact_of_metric (htree : tree ∈ registeredForest.trees) (hcls : cls ∈ tree.applicability)
    (hkeys : laborEfficiencyKeys registeredForest tree cls = .ok keys)
    (hnodes : requiredInputs registeredForest tree cls = .ok nodes) (hfacts : issuer.factsFor keys = .ok facts)
    (hnode : node ∈ nodes) {key : String} (hkey : inputKeyOf node = .ok key) {fact : Fact} (hfact : fact ∈ facts)
    (hmetric : fact.metric = node.key) : ∃ more, issuer.factsOfKey key = .ok more ∧ fact ∈ more := by
  obtain ⟨key', hkey', more, hmore, hmem⟩ := (factsFor_spec hfacts).2 fact hfact
  obtain ⟨node', hnode', halias', hinput'⟩ := (mem_laborEfficiencyKeys hkeys hnodes).mp hkey'
  obtain ⟨hregistered, -⟩ := registered_leaves tree htree cls hcls nodes hnodes node hnode
  obtain ⟨hregistered', hkind'⟩ := registered_leaves tree htree cls hcls nodes hnodes node' hnode'
  have hinput : node'.kind = .input := by
    obtain h | h := hkind'
    · exact h
    · rw [(registered_wellNamed node' hregistered').1 h] at halias'
      cases halias'
  have hname : metricForKey key' = node'.key := by
    obtain ⟨key'', hkey'', hname⟩ := (registered_wellNamed node' hregistered').exists_key hinput
    rw [hinput'] at hkey''
    rw [Except.ok.inj hkey'', hname]
  have hsame : node.key = node'.key := by
    rw [← hmetric, (factsOfKey_names hmore fact hmem).2, hname]
  rw [registered_keys node hregistered node' hregistered' hsame, hinput'] at hkey
  obtain rfl := Except.ok.inj hkey
  exact ⟨more, hmore, hmem⟩

theorem leafFact_value (htree : tree ∈ registeredForest.trees) (hcls : cls ∈ tree.applicability)
    (hsame : SameInputs tree cls snapshot issuer) (hkeys : laborEfficiencyKeys registeredForest tree cls = .ok keys)
    (hnodes : requiredInputs registeredForest tree cls = .ok nodes) (hfacts : issuer.factsFor keys = .ok facts)
    (hnode : node ∈ nodes) (hinput : node.kind = .input) {field : String}
    (hfield : node.aliasOf .toptSnapshotField = .ok (some field)) {metric : Option ToptMetricInput}
    (hmetric : snapshot.getAttribute field = .ok metric)
    (hdefault : metric.bind ToptMetricInput.value = none → node.defaultWhenMissing.isSome) {fact : Option Fact}
    (hfact : resolveLeafFact facts issuer.issuerId node.key = .ok fact) :
    fact.bind Fact.value = metric.bind ToptMetricInput.value := by
  obtain ⟨hregistered, -⟩ := registered_leaves tree htree cls hcls nodes hnodes node hnode
  obtain ⟨halias, -, -, hbank⟩ := (registered_wellNamed node hregistered).2 hinput
  obtain ⟨key, hkey, hname⟩ := (registered_wellNamed node hregistered).exists_key hinput
  have hcarried : ∀ value, value ∈ issuer.carried key ↔ metric.bind ToptMetricInput.value = some value := by
    obtain ⟨hleft, hright⟩ := hsame nodes hnodes node hnode _ hfield field rfl metric hmetric key hkey
    exact fun value => ⟨hleft value, hright value⟩
  have hmem : key ∈ keys := (mem_laborEfficiencyKeys hkeys hnodes).mpr ⟨node, hnode, halias, hkey⟩
  obtain ⟨more, hmore, hsub⟩ := (factsFor_spec hfacts).1 key hmem
  -- the facts of the metric of the leaf are the facts of its key, and so carried values
  have hfactOf : ∀ fact ∈ facts, fact.metric = node.key → fact ∈ more := by
    intro fact hfact hmetric'
    obtain ⟨more', hmore', hin⟩ := fact_of_metric htree hcls hkeys hnodes hfacts hnode hkey hfact hmetric'
    rw [hmore] at hmore'
    exact Except.ok.inj hmore' ▸ hin
  unfold resolveLeafFact at hfact
  obtain ⟨found, hfound, hfact⟩ := bind_eq_ok_iff.mp hfact
  cases hvalue : metric.bind ToptMetricInput.value with
  | some value =>
    have hin : value ∈ issuer.carried key := (hcarried value).mpr hvalue
    cases found with
    | none =>
      obtain ⟨fact', hfact', -⟩ := exists_fact_of_carried hmore hin
      obtain ⟨hentity, hnamed⟩ := factsOfKey_names hmore fact' hfact'
      exact absurd (hnamed.trans hname) (findFact_none hfound fact' (hsub hfact') hentity)
    | some fact' =>
      obtain rfl := pure_eq_ok_iff.mp hfact
      obtain ⟨hfact', -, hmetric'⟩ := findFact_some hfound
      obtain ⟨value', hvalue', hfactValue⟩ :=
        carried_of_fact hmore (Or.inl (List.ne_nil_of_mem hin)) (hfactOf fact' hfact' hmetric')
      have heq : value' = value := by
        have h := (hcarried value').mp hvalue'
        rw [hvalue] at h
        exact (Option.some.inj h).symm
      simp [hfactValue, heq]
  | none =>
    have hnil : issuer.carried key = [] := by
      rw [List.eq_nil_iff_forall_not_mem]
      intro value hin
      rw [(hcarried value).mp hin] at hvalue
      cases hvalue
    have hnotBank : ¬ (node.key = "pre_provision_profit" ∨ node.key = "bank_net_revenue") := by
      intro h
      have hsome := hdefault hvalue
      rw [hbank h] at hsome
      cases hsome
    have hkeyNames : key ≠ "pre_provision_profit" ∧ key ≠ "bank_net_revenue" := by
      constructor
      · rintro rfl
        exact hnotBank (Or.inl hname.symm)
      · rintro rfl
        exact hnotBank (Or.inr hname.symm)
    cases found with
    | some fact' =>
      obtain ⟨hfact', -, hmetric'⟩ := findFact_some hfound
      obtain ⟨value', hvalue', -⟩ := carried_of_fact hmore (Or.inr hkeyNames) (hfactOf fact' hfact' hmetric')
      rw [hnil] at hvalue'
      cases hvalue'
    | none =>
      rw [not_or] at hnotBank
      simp only [hnotBank.1, hnotBank.2, if_false] at hfact
      obtain rfl := pure_eq_ok_iff.mp hfact
      rfl

theorem collectInput_spec (h : collectInput snapshot gppeDefinition state node = .ok state') (hreasons : state'.reasons = []) :
    state.reasons = [] ∧ ((∃ parameter value, node.aliasOf .definitionParameter = .ok (some parameter) ∧
          gppeDefinition.getAttribute parameter = .ok value ∧
          state'.inputs = state.inputs.set node.key (some value)) ∨
        ∃ field metric, node.aliasOf .toptSnapshotField = .ok (some field) ∧ snapshot.getAttribute field = .ok metric ∧
          (metric.bind ToptMetricInput.value = none → node.defaultWhenMissing.isSome) ∧
          node.aliasOf .definitionParameter = .ok none ∧
          state'.inputs = state.inputs.set node.key (metric.bind ToptMetricInput.value)) := by
  unfold collectInput at h
  obtain ⟨parameter, hparameter, h⟩ := bind_eq_ok_iff.mp h
  have hparameter := liftForest_eq_ok_iff.mp hparameter
  cases parameter with
  | some name =>
    obtain ⟨value, hvalue, h⟩ := bind_eq_ok_iff.mp h
    obtain rfl := pure_eq_ok_iff.mp h
    exact ⟨hreasons, .inl ⟨name, value, hparameter, hvalue, rfl⟩⟩
  | none =>
    obtain ⟨name, hname, h⟩ := bind_eq_ok_iff.mp h
    have hname := liftForest_eq_ok_iff.mp hname
    cases name with
    | none => cases h
    | some field =>
      obtain ⟨metric, hmetric, h⟩ := bind_eq_ok_iff.mp h
      cases hvalued : valued metric ToptMetricInput.value with
      | some pair =>
        obtain ⟨input, value⟩ := pair
        obtain ⟨rfl, hvalue⟩ := valued_eq_some_iff.mp hvalued
        simp only [hvalued] at h
        obtain rfl := pure_eq_ok_iff.mp h
        exact ⟨hreasons, .inr ⟨field, some input, hname, hmetric, by simp [hvalue], hparameter, by simp [hvalue]⟩⟩
      | none =>
        have hnone := valued_eq_none_iff.mp hvalued
        simp only [hvalued] at h
        split_ifs at h with hdefault
        · obtain rfl := pure_eq_ok_iff.mp h
          exact ⟨hreasons, .inr ⟨field, metric, hname, hmetric, fun _ => hdefault, hparameter, by rw [hnone]⟩⟩
        · obtain ⟨reason, -, h⟩ := bind_eq_ok_iff.mp h
          obtain rfl := pure_eq_ok_iff.mp h
          exact absurd hreasons (by simp)

theorem reasons_of_collect
    (h : rest.foldlM (collectInput snapshot gppeDefinition) state = .ok state') (hreasons : state'.reasons = []) :
    state.reasons = [] := by
  induction rest generalizing state with
  | nil =>
    obtain rfl := foldlM_nil_eq_ok.mp h
    exact hreasons
  | cons node rest ih =>
    obtain ⟨middle, hstep, hrest⟩ := foldlM_cons_eq_ok.mp h
    exact (collectInput_spec hstep (ih hrest)).1

theorem flags_of_collect {entityId : String} {riskFreeRate : ℚ} {leaves leaves' : LeafInputs}
    (h : rest.foldlM (collectLeaf facts entityId riskFreeRate) leaves = .ok leaves')
    (hflags : leaves'.flags = []) : leaves.flags = [] := by
  induction rest generalizing leaves with
  | nil =>
    obtain rfl := foldlM_nil_eq_ok.mp h
    exact hflags
  | cons node rest ih =>
    obtain ⟨middle, hstep, hrest⟩ := foldlM_cons_eq_ok.mp h
    exact (collectLeaf_spec hstep (ih hrest)).1

theorem collected_inputs_eq (htree : tree ∈ registeredForest.trees) (hcls : cls ∈ tree.applicability)
    (hsame : SameInputs tree cls snapshot issuer) (hkeys : laborEfficiencyKeys registeredForest tree cls = .ok keys)
    (hnodes : requiredInputs registeredForest tree cls = .ok nodes) (hfacts : issuer.factsFor keys = .ok facts) (hrest : rest ⊆ nodes) {leaves leaves' : LeafInputs}
    (hcore : rest.foldlM (collectInput snapshot gppeDefinition) state = .ok state')
    (hleaf : rest.foldlM (collectLeaf facts issuer.issuerId gppeDefinition.riskFreeRate) leaves = .ok leaves')
    (hreasons : state'.reasons = []) (hflags : leaves'.flags = []) (heq : state.inputs = leaves.inputs) :
    state'.inputs = leaves'.inputs := by
  induction rest generalizing state leaves with
  | nil =>
    obtain rfl := foldlM_nil_eq_ok.mp hcore
    obtain rfl := foldlM_nil_eq_ok.mp hleaf
    exact heq
  | cons node rest ih =>
    obtain ⟨hnode, hrest⟩ := List.cons_subset.mp hrest
    obtain ⟨state₁, hcore, hcoreRest⟩ := foldlM_cons_eq_ok.mp hcore
    obtain ⟨leaves₁, hleaf, hleafRest⟩ := foldlM_cons_eq_ok.mp hleaf
    obtain ⟨-, hcoreStep⟩ := collectInput_spec hcore (reasons_of_collect hcoreRest hreasons)
    obtain ⟨-, hleafStep⟩ := collectLeaf_spec hleaf (flags_of_collect hleafRest hflags)
    obtain ⟨hregistered, hkind⟩ := registered_leaves tree htree cls hcls nodes hnodes node hnode
    have hnamed := registered_wellNamed node hregistered
    refine ih hrest hcoreRest hleafRest ?_
    obtain hinput | hparameter := hkind
    · obtain ⟨hnone, hmetricOf, -⟩ := hnamed.2 hinput
      obtain ⟨_, _, halias, -⟩ | ⟨field, metric, hfield, hmetric, hdefault, -, hset⟩ := hcoreStep
      · rw [hnone] at halias
        cases halias
      · obtain ⟨halias, -⟩ | ⟨name, fact, -, hname, hfact, hset'⟩ := hleafStep
        · rw [hnone] at halias
          cases halias
        · rw [hmetricOf] at hname
          obtain rfl := Except.ok.inj hname
          rw [hset, hset', heq, leafFact_value htree hcls hsame hkeys hnodes hfacts hnode hinput hfield hmetric
            hdefault hfact]
    · have hrate := hnamed.1 hparameter
      obtain ⟨parameter, value, halias, hvalue, hset⟩ | ⟨_, _, _, _, _, hnone, _⟩ := hcoreStep
      · rw [hrate] at halias
        cases halias
        obtain ⟨-, hset'⟩ | ⟨_, _, hne, -⟩ := hleafStep
        · rw [hset, hset', heq, Except.ok.inj hvalue]
        · exact absurd hrate hne
      · rw [hrate] at hnone
        cases hnone

end

section

variable (treeSha256)

def laborEfficiencyOf (definition : StrategyDefinition) (gppeDefinition : GppeV0Definition)
    (snapshot : ToptCoreSnapshotInput) : Except ToptError (Option ℚ) := do
  let tree ← boundTree treeSha256 registeredForest definition none snapshot.operatingBranch
  let collected ← collectGppeTreeInputs snapshot gppeDefinition tree
  let evaluation ← evaluate registeredForest tree snapshot.operatingBranch collected.inputs
  return (evaluation.values.get? tree.root).join

end

def quantizedEfficiency (definition : StrategyDefinition) (value : ℚ) : ℚ :=
  roundTo ((10 : ℚ) ^ (-(definition.laborEfficiencyQuantization.decimalPlaces : ℤ))) value

def decisionTarget (definition : StrategyDefinition) (decision : EvaluatedDecision) : Option (ℚ × ℚ) :=
  match decision.capitalAdjustedLaborEfficiency.map (tierBand definition) with
  | some (.ok band) => some (band.targetLowerBound, band.targetUpperBound)
  | _ => none

def coreTarget (core : ToptCoreResult) : Option (ℚ × ℚ) :=
  match core.targetPgpLower, core.targetPgpUpper with
  | some lower, some upper => some (lower, upper)
  | _, _ => none

theorem quantize_eq {value laborEfficiency : ℚ} {definition : StrategyDefinition}
    (h : Strategy.quantize value definition.laborEfficiencyQuantization = .ok laborEfficiency) :
    laborEfficiency = quantizedEfficiency definition value := by
  unfold Strategy.quantize computed Context.quantize at h
  split at h
  · next found hfound =>
    cases h
    dsimp only at hfound
    split_ifs at hfound
    exact (Option.some.inj hfound).symm
  · cases h

/-- The tiers and target bands agree exactly when no deciding bound separates the labor efficiency from the quantized one. -/
theorem tier_agreement_iff {definition : StrategyDefinition} {gppeDefinition : GppeV0Definition}
    {snapshot : ToptCoreSnapshotInput} {issuer : IssuerInput} {asOf : Instant}
    {trees : Dict IssuerClass MetricTree} {gppeInvocationId invocationId : String} {gppeResult : ToptGppeResult}
    {core : ToptCoreResult} {decision : EvaluatedDecision} {gap : Option ℚ}
    (hpinned : pinnedTrees treeSha256 registeredForest definition none = .ok trees)
    (hclass : issuer.issuerClass = some snapshot.operatingBranch)
    (hsame : ∀ tree, boundTree treeSha256 registeredForest definition none snapshot.operatingBranch = .ok tree →
      SameInputs tree snapshot.operatingBranch snapshot issuer)
    (hgppe : computeToptGppe treeSha256 snapshot gppeInvocationId gppeDefinition definition = .ok gppeResult)
    (hcore : computeToptCore treeSha256 snapshot gppeResult invocationId definition = .ok core)
    (havailable : core.availability = .available)
    (hdecision : evaluateIssuer registeredForest definition gppeDefinition.riskFreeRate asOf trees issuer = .ok (decision, gap))
    (hdecided : decision.outcome ≠ .excluded) :
    (decision.tier = core.tier ∧ decisionTarget definition decision = coreTarget core) ↔
      ∀ value, laborEfficiencyOf treeSha256 definition gppeDefinition snapshot = .ok (some value) →
        ∀ bound ∈ decidingBounds definition.tierValuation.bands,
          (value < bound ↔ quantizedEfficiency definition value < bound) := by
  obtain ⟨hgppeAvailable, value, coreBand, hvalue, hcoreBand, hcoreTier, hlower, hupper⟩ := computeToptCore_tier hcore havailable
  obtain ⟨tree, collected, evaluation, htree, hcollected, hreasons, heval, hroot⟩ := computeToptGppe_value hgppe hgppeAvailable
  obtain ⟨hregistered, happlies⟩ := boundTree_spec htree
  -- the evaluator reads the same tree
  have hdecisionTree : treeDecision registeredForest definition gppeDefinition.riskFreeRate asOf tree
      snapshot.operatingBranch issuer = .ok (decision, gap) := by
    unfold evaluateIssuer at hdecision
    rw [hclass] at hdecision
    dsimp only at hdecision
    cases hget : trees.get? snapshot.operatingBranch with
    | none =>
      rw [hget] at hdecision
      cases hdecision
      exact absurd rfl hdecided
    | some pinned =>
      rw [hget] at hdecision
      have hbound := boundTree_of_pinnedTrees hpinned hget
      rw [htree] at hbound
      rw [Except.ok.inj hbound]
      exact hdecision
  obtain ⟨value', hcomputed, laborEfficiency, band, hquantized, hband, htier, hlabor⟩ := treeDecision_tier hdecisionTree hdecided
  -- and computes the same value from the same inputs
  have hvalues : value' = value := by
    obtain ⟨keys, facts, nodes, leaves, evaluation', hkeys, hfacts, hnodes, hleaves, hflags, heval', hroot'⟩ := hcomputed
    unfold collectGppeTreeInputs at hcollected
    obtain ⟨nodes', hnodes', hcollected⟩ := bind_eq_ok_iff.mp hcollected
    rw [liftForest_eq_ok_iff, hnodes] at hnodes'
    obtain rfl := Except.ok.inj hnodes'
    have hinputs : collected.inputs = leaves.inputs :=
      collected_inputs_eq hregistered happlies (hsame tree htree) hkeys hnodes hfacts (List.Subset.refl _)
        hcollected hleaves hreasons hflags rfl
    rw [hinputs, heval'] at heval
    obtain rfl := Except.ok.inj heval
    rw [hroot', hvalue] at hroot
    exact Option.some.inj hroot
  subst hvalues
  rw [quantize_eq hquantized] at hband hlabor
  have hefficiency : laborEfficiencyOf treeSha256 definition gppeDefinition snapshot = .ok (some value') := by
    unfold laborEfficiencyOf
    rw [liftForest_eq_ok_iff.mpr htree, ok_bind, hcollected, ok_bind, liftForest_eq_ok_iff.mpr heval, ok_bind, hroot, hvalue]
    rfl
  have htiers := TierValuation.tier_eq_iff hcoreBand hband
  constructor
  · rintro ⟨hsameTier, -⟩ value hvalueOf
    rw [hefficiency] at hvalueOf
    obtain rfl := Option.some.inj (Except.ok.inj hvalueOf)
    rw [htier, hcoreTier] at hsameTier
    exact htiers.mp (Option.some.inj hsameTier).symm
  · intro hseparated
    have hsameTier := htiers.mpr (hseparated value' hefficiency)
    have hsameBand := TierValuation.band_eq_of_tier_eq hcoreBand hband hsameTier
    subst hsameBand
    refine ⟨htier.trans hcoreTier.symm, ?_⟩
    have hband' : tierBand definition (quantizedEfficiency definition value') = .ok coreBand := hband
    simp [decisionTarget, coreTarget, hlabor, hlower, hupper, hband']

/-! ## A value just below a bound -/

def liveTreeSha256 (_ : Forest) (tree : MetricTree) : String :=
  if tree.key = "gppe" then uniformPin.treeSha256 else bankingPin.treeSha256

def sampleCutoff : Instant := ordinal 2026 3 31 * microsPerDay + 86399 * 1000000

def sampleObservation (digit : Char) : String := "normalized-observation:" ++ String.ofList (List.replicate 64 digit)

def sampleLineage : ToptLineage where
  snapshotId := "topt-core-snapshot"
  runId := "capture-run"
  releaseManifestId := "release-manifest"
  universeId := "universe"
  universeVersion := "1"
  universeSha256 := "0"
  cutoff := sampleCutoff
  issuerId := "issuer:x"
  instrumentId := "instrument:x"
  listingId := "listing:x"
  observationIds := ['0', '1', '2', '3'].map sampleObservation

theorem toList_append_replicate (stem : String) (c : Char) (n : ℕ) :
    (stem ++ String.ofList (List.replicate (n + 1) c)).toList = stem.toList ++ c :: List.replicate n c := by
  rw [String.toList_append, String.toList_ofList, List.replicate_succ]

theorem toList_sampleObservation (c : Char) :
    (sampleObservation c).toList = "normalized-observation:".toList ++ c :: List.replicate 63 c :=
  toList_append_replicate _ c 63

theorem sampleObservation_lt {c d : Char} (h : c < d) : sampleObservation c < sampleObservation d := by
  rw [String.lt_iff_toList_lt, toList_sampleObservation, toList_sampleObservation]
  exact List.append_left_lt (List.cons_lt_cons_iff.mpr (.inl h))

theorem sampleObservation_valid {c : Char} (h : c ∈ "0123456789abcdef".toList) :
    isObservationId (sampleObservation c) = true := by
  rw [isObservationId, toList_sampleObservation]
  generalize "normalized-observation:".toList = stem, "0123456789abcdef".toList = digits at h ⊢
  simp [h]

theorem sampleObservations_sorted : sampleLineage.observationIds.Pairwise (· < ·) :=
  List.pairwise_map.mpr ((by decide : ['0', '1', '2', '3'].Pairwise (· < ·)).imp sampleObservation_lt)

theorem sampleObservations_valid : validObservationIds sampleLineage.observationIds = true := by
  refine decide_eq_true ⟨by decide, by decide, sampleObservations_sorted, List.all_eq_true.mpr ?_⟩
  intro id hid
  obtain ⟨digit, hdigit, rfl⟩ := List.mem_map.mp hid
  exact sampleObservation_valid ((by decide : ['0', '1', '2', '3'] ⊆ "0123456789abcdef".toList) hdigit)

theorem sample_confidence : 0 ≤ (9 / 10 : ℚ) ∧ (9 / 10 : ℚ) ≤ 1 := by norm_num

def sampleMetric (metric : String) (value : ℚ) : ToptMetricInput :=
  ⟨sampleObservation '0', metric, some value, 9 / 10, sampleCutoff - microsPerDay, none, sample_confidence, nofun⟩

theorem sampleMetric_valid (metric : String) (value : ℚ) : validMetric sampleLineage metric (sampleMetric metric value) := by
  have hmem : sampleObservation '0' ∈ sampleLineage.observationIds := List.mem_cons_self
  have hknown : sampleCutoff - microsPerDay ≤ sampleCutoff := sub_le_self _ (by decide)
  exact decide_eq_true ⟨rfl, hmem, hknown⟩

def sampleCell (digit : Char) : ToptCellQualityInput :=
  ⟨sampleObservation digit, 9 / 10, sampleCutoff - microsPerDay, .fresh, sample_confidence⟩

theorem sampleCells_sorted : sortedBy id ((['0', '1', '2', '3'].map sampleCell).map ToptCellQualityInput.inputId) =
    sampleLineage.observationIds :=
  (sampleObservations_sorted.imp le_of_lt).insertionSort_eq

def sampleSnapshot (grossProfit : ℚ) : ToptCoreSnapshotInput where
  lineage := sampleLineage
  operatingBranch := .nonFinancial
  cellInputs := ['0', '1', '2', '3'].map sampleCell
  grossProfit := some (sampleMetric "gross_profit" grossProfit)
  totalAssets := some (sampleMetric "total_assets" 200000000)
  headcount := some (sampleMetric "headcount" 1000)
  revenue := some (sampleMetric "revenue" 2000000000)
  preProvisionProfit := none
  marketValueComponents := [⟨"instrument:x", "listing:x", sampleMetric "market_price" 100,
    sampleMetric "shares_outstanding" 100000000, rfl, rfl⟩]
  primaryListingUndeclared := false
  stockholdersEquity := none
  preferredStockValue := none
  goodwill := none
  intangibleAssetsNetExcludingGoodwill := none
  financialAssets := none
  financialReturns := none
  bankNetRevenue := none
  observations := sampleObservations_valid
  metrics := by simp [sampleMetric_valid]
  cells := sampleCells_sorted
  cells_known := by decide +kernel
  listings := by decide
  listed := by decide
  components := by simp [sampleMetric_valid]

def sampleIssuer (grossProfit : ℚ) : IssuerInput where
  issuerId := "issuer:x"
  records := ⟨[("gross_profit", ⟨grossProfit, .money "USD", none⟩, 9 / 10),
    ("total_assets", ⟨200000000, .money "USD", none⟩, 9 / 10),
    ("headcount", ⟨1000, .units "issuer:x", none⟩, 9 / 10),
    ("revenue", ⟨2000000000, .money "USD", none⟩, 9 / 10),
    ("shares_outstanding", ⟨100000000, .units "issuer:x", none⟩, 9 / 10),
    ("last_close", ⟨100, .perUnit "USD" "issuer:x", none⟩, 9 / 10)], by simp⟩
  knowableAt := ⟨["gross_profit", "total_assets", "headcount", "revenue", "shares_outstanding", "last_close"].map
    fun key => (key, sampleCutoff - microsPerDay), by decide⟩
  periodicRecords := Dict.empty
  issuerClass := some .nonFinancial

def sampleGppeDefinition : GppeV0Definition := ⟨1 / 20, none, by norm_num⟩

def sampleCore (grossProfit : ℚ) : Except ToptError (ToptGppeResult × ToptCoreResult) := do
  let gppeResult ← computeToptGppe liveTreeSha256 (sampleSnapshot grossProfit) "topt-gppe-invocation:sample"
    sampleGppeDefinition liveStrategyDefinition
  let core ← computeToptCore liveTreeSha256 (sampleSnapshot grossProfit) gppeResult "topt-core-invocation:sample"
    liveStrategyDefinition
  return (gppeResult, core)

def sampleDecision (grossProfit : ℚ) : Except FactorError (Dict IssuerClass MetricTree × EvaluatedDecision × Option ℚ) := do
  let trees ← pinnedTrees liveTreeSha256 registeredForest liveStrategyDefinition none
  let decision ← evaluateIssuer registeredForest liveStrategyDefinition sampleGppeDefinition.riskFreeRate
    sampleCutoff trees (sampleIssuer grossProfit)
  return (trees, decision)

theorem sampleCore_eq_ok {grossProfit : ℚ} {gppeResult : ToptGppeResult} {core : ToptCoreResult}
    (h : sampleCore grossProfit = .ok (gppeResult, core)) :
    computeToptGppe liveTreeSha256 (sampleSnapshot grossProfit) "topt-gppe-invocation:sample" sampleGppeDefinition
        liveStrategyDefinition = .ok gppeResult ∧
      computeToptCore liveTreeSha256 (sampleSnapshot grossProfit) gppeResult "topt-core-invocation:sample"
        liveStrategyDefinition = .ok core := by
  obtain ⟨gppeResult', hgppe, h⟩ := bind_eq_ok_iff.mp h
  obtain ⟨core', hcore, h⟩ := bind_eq_ok_iff.mp h
  obtain ⟨rfl, rfl⟩ := Prod.mk.inj (pure_eq_ok_iff.mp h)
  exact ⟨hgppe, hcore⟩

theorem sampleDecision_eq_ok {grossProfit : ℚ} {trees : Dict IssuerClass MetricTree}
    {decision : EvaluatedDecision} {gap : Option ℚ} (h : sampleDecision grossProfit = .ok (trees, decision, gap)) :
    pinnedTrees liveTreeSha256 registeredForest liveStrategyDefinition none = .ok trees ∧
      evaluateIssuer registeredForest liveStrategyDefinition sampleGppeDefinition.riskFreeRate sampleCutoff trees
        (sampleIssuer grossProfit) = .ok (decision, gap) := by
  obtain ⟨trees', hpinned, h⟩ := bind_eq_ok_iff.mp h
  obtain ⟨decision', hdecision, h⟩ := bind_eq_ok_iff.mp h
  obtain ⟨rfl, rfl⟩ := Prod.mk.inj (pure_eq_ok_iff.mp h)
  exact ⟨mapError_eq_ok_iff.mp hpinned, hdecision⟩

/-- A labor efficiency of exactly one million: both engines say `tech`. -/
theorem tier_agreement_iff_sample : ∃ gppeResult core trees decision gap,
      sampleCore 1010000000 = .ok (gppeResult, core) ∧ sampleDecision 1010000000 = .ok (trees, decision, gap) ∧
      core.tier = some .tech ∧ decision.tier = core.tier ∧
      decisionTarget liveStrategyDefinition decision = coreTarget core := by
  obtain ⟨⟨gppeResult, core⟩, hcoreRun, hcoreCheck⟩ : ∃ result, sampleCore 1010000000 = .ok result ∧
      decide (result.2.availability = .available ∧ result.2.tier = some .tech) :=
    exists_ok_of_any (by decide +kernel)
  obtain ⟨⟨trees, decision, gap⟩, hrun, hcheck⟩ : ∃ result, sampleDecision 1010000000 = .ok result ∧
      decide (result.2.1.outcome ≠ .excluded) :=
    exists_ok_of_any (by decide +kernel)
  obtain ⟨havailable, htier⟩ := of_decide_eq_true hcoreCheck
  obtain ⟨hgppe, hcore⟩ := sampleCore_eq_ok hcoreRun
  obtain ⟨hpinned, hdecision⟩ := sampleDecision_eq_ok hrun
  have hefficiency : laborEfficiencyOf liveTreeSha256 liveStrategyDefinition sampleGppeDefinition
      (sampleSnapshot 1010000000) = .ok (some 1000000) := by decide +kernel
  refine ⟨gppeResult, core, trees, decision, gap, hcoreRun, hrun, htier, ?_⟩
  refine (tier_agreement_iff hpinned rfl (by decide +kernel) hgppe hcore havailable hdecision
    (of_decide_eq_true hcheck)).mpr ?_
  intro value hvalue
  rw [hefficiency] at hvalue
  obtain rfl := Option.some.inj (Except.ok.inj hvalue)
  decide +kernel

/-- 999999.999 is `traditional` for the core and, rounded to a million, `tech` for the evaluator. -/
theorem tiers_disagree : ∃ gppeResult core trees decision gap,
      pinnedTrees liveTreeSha256 registeredForest liveStrategyDefinition none = .ok trees ∧
      (sampleIssuer 1009999999).issuerClass = some (sampleSnapshot 1009999999).operatingBranch ∧
      (∀ tree, boundTree liveTreeSha256 registeredForest liveStrategyDefinition none
          (sampleSnapshot 1009999999).operatingBranch = .ok tree →
        SameInputs tree (sampleSnapshot 1009999999).operatingBranch (sampleSnapshot 1009999999) (sampleIssuer 1009999999)) ∧
      computeToptGppe liveTreeSha256 (sampleSnapshot 1009999999) "topt-gppe-invocation:sample" sampleGppeDefinition
        liveStrategyDefinition = .ok gppeResult ∧
      computeToptCore liveTreeSha256 (sampleSnapshot 1009999999) gppeResult "topt-core-invocation:sample"
        liveStrategyDefinition = .ok core ∧
      core.availability = .available ∧
      evaluateIssuer registeredForest liveStrategyDefinition sampleGppeDefinition.riskFreeRate sampleCutoff trees
        (sampleIssuer 1009999999) = .ok (decision, gap) ∧
      decision.outcome ≠ .excluded ∧
      core.tier = some .traditional ∧ decision.tier = some .tech ∧
      coreTarget core = some (15 / 2, 10) ∧
      decisionTarget liveStrategyDefinition decision = some (1143 / 100, 1429 / 100) := by
  obtain ⟨⟨gppeResult, core⟩, hcoreRun, hcoreCheck⟩ : ∃ result, sampleCore 1009999999 = .ok result ∧
      decide (result.2.availability = .available ∧ result.2.tier = some .traditional ∧ coreTarget result.2 = some (15 / 2, 10)) :=
    exists_ok_of_any (by decide +kernel)
  obtain ⟨⟨trees, decision, gap⟩, hrun, hcheck⟩ : ∃ result, sampleDecision 1009999999 = .ok result ∧
      decide (result.2.1.outcome ≠ .excluded ∧ result.2.1.tier = some .tech ∧
        decisionTarget liveStrategyDefinition result.2.1 = some (1143 / 100, 1429 / 100)) :=
    exists_ok_of_any (by decide +kernel)
  obtain ⟨havailable, hcoreTier, hcoreTarget⟩ := of_decide_eq_true hcoreCheck
  obtain ⟨hdecided, htier, htarget⟩ := of_decide_eq_true hcheck
  obtain ⟨hgppe, hcore⟩ := sampleCore_eq_ok hcoreRun
  obtain ⟨hpinned, hdecision⟩ := sampleDecision_eq_ok hrun
  exact ⟨gppeResult, core, trees, decision, gap, hpinned, rfl, by decide +kernel, hgppe, hcore, havailable,
    hdecision, hdecided, hcoreTier, htier, hcoreTarget, htarget⟩

example : laborEfficiencyOf liveTreeSha256 liveStrategyDefinition sampleGppeDefinition (sampleSnapshot 1009999999) =
    .ok (some (999999999 / 1000)) := by decide +kernel

end TrueAlpha.Topt
