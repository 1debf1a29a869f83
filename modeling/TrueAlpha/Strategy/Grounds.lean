import TrueAlpha.Strategy.OldPeriods
import TrueAlpha.Strategy.Rules
import TrueAlpha.Topt.CapturedLeaves

/-!
# What an eligible decision rests on

On a registered tree each key of a decision has exactly one fact, at least as confident as the decision.  The rules test the
record of a key, the decision reads its periodic records (`eligible_grounds_iff`).
-/

namespace TrueAlpha.Strategy

open Topt

def multipleKeys (forest : Forest) (tree : MetricTree) (cls : IssuerClass) (basis : ValuationBasis) :
    Except ForestError (List String) :=
  match basis with
  | .priceToSales => .ok (inputKeys "price_to_sales" (some cls))
  | .priceToGrossProfit => do
    let node ← operatingNumeratorNode forest tree cls
    let numerator ← inputKeyOf node
    return (inputKeys "price_to_gross_profit" (some cls)).map fun key =>
      if key = "gross_profit" ∨ key = "pre_provision_profit" then numerator else key

def mandatoryKeys (forest : Forest) (tree : MetricTree) (cls : IssuerClass) : Except ForestError (List String) := do
  let nodes ← requiredInputs forest tree cls
  let keys ← (nodes.filter fun node => node.defaultWhenMissing.isNone).mapM capturedKey
  return keys.filterMap id

def decisionKeys (forest : Forest) (tree : MetricTree) (cls : IssuerClass) (basis : ValuationBasis) :
    Except ForestError (List String) := do
  let leaves ← mandatoryKeys forest tree cls
  let multiple ← multipleKeys forest tree cls basis
  return leaves ++ multiple

def IssuerInput.Answers (issuer : IssuerInput) (key : String) (fact : Fact) : Prop :=
  ∃ facts, issuer.factsOfKey key = .ok facts ∧ facts ≠ [] ∧ ∀ other ∈ facts, other = fact

section

variable {issuer : IssuerInput} {key metric : String} {keys : List String} {facts : List Fact} {fact : Fact}

section

variable (hfacts : issuer.factsFor keys = .ok facts)

include hfacts

theorem answers_of_findFact (hkey : key ∈ keys) (hunique : ∀ other ∈ keys, metricForKey other = metricForKey key → other = key)
    (hfind : findFact facts issuer.issuerId (metricForKey key) = .ok (some fact)) : issuer.Answers key fact := by
  obtain ⟨more, hmore, hsub⟩ := (factsFor_spec hfacts).1 key hkey
  obtain ⟨hmem, hentity, hmetric⟩ := findFact_some hfind
  refine ⟨more, hmore, ?_, ?_⟩
  · obtain ⟨other, hother, found, hfound, hin⟩ := (factsFor_spec hfacts).2 fact hmem
    obtain rfl := hunique other hother ((factsOfKey_names hfound fact hin).2.symm.trans hmetric)
    rw [hmore] at hfound
    obtain rfl := Except.ok.inj hfound
    exact List.ne_nil_of_mem hin
  · intro other hother
    obtain ⟨hid, hname⟩ := factsOfKey_names hmore other hother
    unfold findFact at hfind
    split at hfind
    · cases hfind
    · next found hfilter =>
      obtain rfl := Option.some.inj (Except.ok.inj hfind)
      have hin : other ∈ facts.filter fun fact => fact.entityId = issuer.issuerId ∧ fact.metric = metricForKey key :=
        List.mem_filter.mpr ⟨hsub hother, by simp [hid, hname]⟩
      rw [hfilter] at hin
      exact List.mem_singleton.mp hin
    · cases hfind

theorem factsOfKey_of_findFact_none (hkey : key ∈ keys)
    (hfind : findFact facts issuer.issuerId (metricForKey key) = .ok none) : issuer.factsOfKey key = .ok [] := by
  obtain ⟨more, hmore, hsub⟩ := (factsFor_spec hfacts).1 key hkey
  have hnil : more = [] := by
    rw [List.eq_nil_iff_forall_not_mem]
    intro other hother
    obtain ⟨hid, hname⟩ := factsOfKey_names hmore other hother
    exact findFact_none hfind other (hsub hother) hid hname
  rw [hmore, hnil]

theorem findFact_eq_none (h : metric ∉ keys.map metricForKey) : findFact facts issuer.issuerId metric = .ok none := by
  have hfilter : (facts.filter fun fact => fact.entityId = issuer.issuerId ∧ fact.metric = metric) = [] := by
    rw [List.filter_eq_nil_iff]
    intro fact hfact hmatch
    obtain ⟨other, hother, more, hmore, hin⟩ := (factsFor_spec hfacts).2 fact hfact
    have hname := (factsOfKey_names hmore fact hin).2
    have hmetric : fact.metric = metric := (of_decide_eq_true hmatch).2
    exact h (List.mem_map.mpr ⟨other, hother, hname.symm.trans hmetric⟩)
  rw [findFact, hfilter]

end

theorem value_of_mem_factsOfKey (h : issuer.factsOfKey key = .ok facts) (hfact : fact ∈ facts) :
    ∃ value, fact.value = some value := by
  simp only [IssuerInput.factsOfKey] at h
  split at h
  · obtain ⟨entry, -, hentry⟩ := exists_of_mem_mapM h hfact
    exact ⟨_, (factOf_spec hentry).2.2⟩
  · split at h
    · cases h
      cases hfact
    · obtain ⟨found, hfound, h⟩ := bind_eq_ok_iff.mp h
      obtain rfl := pure_eq_ok_iff.mp h
      obtain rfl := List.mem_singleton.mp hfact
      exact ⟨_, (factOf_spec hfound).2.2⟩

theorem IssuerInput.Answers.value (h : issuer.Answers key fact) : ∃ value, fact.value = some value := by
  obtain ⟨facts, hfacts, hne, hall⟩ := h
  obtain ⟨other, hother⟩ := List.exists_mem_of_ne_nil facts hne
  exact hall other hother ▸ value_of_mem_factsOfKey hfacts hother

end

/-! ## The facts of the tree -/

section

variable {facts : List Fact} {node : MetricNode} {nodes : List MetricNode} {entityId : String} {riskFreeRate : ℚ}
  {leaves leaves' : LeafInputs}

/-- A captured leaf without a flag: its fact is consumed, and there is one unless the leaf has a default. -/
def LeafRead (facts : List Fact) (entityId : String) (leaves : LeafInputs) (node : MetricNode) : Prop :=
  node.aliasOf .definitionParameter = .ok none → ∃ metric fact, metricOf node = .ok metric ∧
    resolveLeafFact facts entityId metric = .ok fact ∧
    (∀ found value, fact = some found → found.value = some value → found ∈ leaves.consumed) ∧
    (node.defaultWhenMissing = none → fact.isSome)

theorem LeafRead.mono (h : LeafRead facts entityId leaves node) (hsub : leaves.consumed ⊆ leaves'.consumed) :
    LeafRead facts entityId leaves' node := by
  intro halias
  obtain ⟨metric, fact, hmetric, hfact, hconsumed, hdefault⟩ := h halias
  exact ⟨metric, fact, hmetric, hfact, fun found value hfound hvalue => hsub (hconsumed found value hfound hvalue), hdefault⟩

theorem collectLeaf_read (h : collectLeaf facts entityId riskFreeRate leaves node = .ok leaves') (hflags : leaves'.flags = []) :
    leaves.flags = [] ∧ leaves.consumed ⊆ leaves'.consumed ∧ LeafRead facts entityId leaves' node := by
  have hnone := (collectLeaf_spec h hflags).1
  unfold collectLeaf at h
  obtain ⟨parameter, hparameter, h⟩ := bind_eq_ok_iff.mp h
  have hparameter := liftForest_eq_ok_iff.mp hparameter
  by_cases hrate : parameter = some "risk_free_rate"
  · rw [if_pos hrate] at h
    obtain rfl := pure_eq_ok_iff.mp h
    refine ⟨hnone, List.Subset.refl _, fun halias => ?_⟩
    rw [hparameter, hrate] at halias
    cases halias
  · rw [if_neg hrate] at h
    obtain ⟨metric, hmetric, h⟩ := bind_eq_ok_iff.mp h
    have hmetric := liftForest_eq_ok_iff.mp hmetric
    obtain ⟨fact, hfact, h⟩ := bind_eq_ok_iff.mp h
    cases hvalued : valued fact Fact.value with
    | none =>
      simp only [hvalued] at h
      obtain rfl := pure_eq_ok_iff.mp h
      have hbind := valued_eq_none_iff.mp hvalued
      refine ⟨hnone, List.Subset.refl _, fun _ => ⟨metric, fact, hmetric, hfact, ?_, fun hdefault => ?_⟩⟩
      · rintro found value rfl hvalue
        rw [Option.bind_some, hvalue] at hbind
        cases hbind
      · dsimp only at hflags
        rw [hnone, hdefault] at hflags
        simp at hflags
    | some pair =>
      obtain ⟨found, value⟩ := pair
      obtain ⟨rfl, hvalue⟩ := valued_eq_some_iff.mp hvalued
      simp only [hvalued] at h
      by_cases hstaff : metric = "employees_total" ∧ value ≤ 0
      · rw [if_pos hstaff] at h
        obtain rfl := pure_eq_ok_iff.mp h
        exact absurd hflags (by simp)
      · rw [if_neg hstaff] at h
        obtain rfl := pure_eq_ok_iff.mp h
        refine ⟨hnone, List.subset_append_left _ _, fun _ => ⟨metric, some found, hmetric, hfact, ?_, fun _ => rfl⟩⟩
        rintro other _ hother _
        obtain rfl := Option.some.inj hother
        exact List.mem_append_right _ (List.mem_singleton_self _)

theorem collectLeaves_read (h : nodes.foldlM (collectLeaf facts entityId riskFreeRate) ⟨Dict.empty, [], []⟩ = .ok leaves)
    (hflags : leaves.flags = []) : ∀ node ∈ nodes, LeafRead facts entityId leaves node := by
  -- the invariant: a state without a flag has read what came before
  refine foldlM_inv (fun done leaves => leaves.flags = [] → ∀ node ∈ done, LeafRead facts entityId leaves node) h
    (fun _ _ hmem => (List.not_mem_nil hmem).elim) ?_ hflags
  intro done node rest before after _ ih hstep hafter node' hmem
  obtain ⟨hbefore, hsub, hread⟩ := collectLeaf_read hstep hafter
  obtain hdone | hlast := List.mem_append.mp hmem
  · exact (ih hbefore node' hdone).mono hsub
  · obtain rfl := List.mem_singleton.mp hlast
    exact hread

end

section

variable {forest : Forest} {tree : MetricTree} {cls : IssuerClass} {issuer : IssuerInput} {facts : List Fact}
  {keys : List String} {nodes : List MetricNode} {node : MetricNode} {riskFreeRate : ℚ} {result : FactorResult}
  {basis : ValuationBasis} {key : String}

theorem grossProfitPerEmployee_read {entityId : String}
    (h : grossProfitPerEmployee forest tree cls facts entityId riskFreeRate = .ok result) (hvalue : result.value.isSome)
    (hnodes : requiredInputs forest tree cls = .ok nodes) : ∃ leaves, (∀ node ∈ nodes, LeafRead facts entityId leaves node) ∧
      ∀ fact ∈ leaves.consumed, result.confidence ≤ fact.confidence := by
  obtain ⟨nodes', leaves, evaluation, hnodes', hleaves, hflags, -, rfl⟩ := grossProfitPerEmployee_inv h hvalue
  obtain rfl := Except.ok.inj (hnodes.symm.trans hnodes')
  refine ⟨leaves, collectLeaves_read hleaves hflags, fun fact hfact => ?_⟩
  unfold resultOfEvaluation at hvalue ⊢
  split at hvalue
  · have hmem : fact.confidence ∈ leaves.consumed.map Fact.confidence := List.mem_map_of_mem hfact
    dsimp only
    cases hconfidences : leaves.consumed.map Fact.confidence with
    | nil =>
      rw [hconfidences] at hmem
      cases hmem
    | cons first rest =>
      rw [hconfidences] at hmem
      have hall := (foldl_min_le_iff rest first).mp le_rfl
      obtain hfirst | hrest := List.mem_cons.mp hmem
      · exact hfirst ▸ hall.1
      · exact hall.2 _ hrest
  · cases hvalue

theorem resolveLeafFact_answers (htree : tree ∈ registeredForest.trees) (hcls : cls ∈ tree.applicability)
    (hkeys : laborEfficiencyKeys registeredForest tree cls = .ok keys) (hfacts : issuer.factsFor keys = .ok facts)
    (hkey : key ∈ keys) {fact : Option Fact}
    (hfact : resolveLeafFact facts issuer.issuerId (metricForKey key) = .ok fact) :
    (∃ found, fact = some found ∧ issuer.Answers key found) ∨ fact = none ∧ issuer.factsOfKey key = .ok [] := by
  obtain ⟨hnodup, -, hprovision, hbank⟩ := registered_metrics tree htree cls hcls keys hkeys
  have hmem : metricForKey key ∈ keys.map metricForKey := List.mem_map_of_mem hkey
  unfold resolveLeafFact at hfact
  obtain ⟨found, hfound, hfact⟩ := bind_eq_ok_iff.mp hfact
  cases found with
  | some found =>
    obtain rfl := pure_eq_ok_iff.mp hfact
    refine .inl ⟨found, rfl, answers_of_findFact hfacts hkey (fun other hother hname => ?_) hfound⟩
    exact List.inj_on_of_nodup_map hnodup hother hkey hname
  | none =>
    refine .inr ⟨?_, factsOfKey_of_findFact_none hfacts hkey hfound⟩
    dsimp only at hfact
    by_cases hpre : metricForKey key = "pre_provision_profit"
    · rw [if_pos hpre, findFact_eq_none hfacts (hprovision (hpre ▸ hmem))] at hfact
      exact (Except.ok.inj hfact).symm
    · rw [if_neg hpre] at hfact
      by_cases hnet : metricForKey key = "bank_net_revenue"
      · obtain ⟨hgross, hpre'⟩ := hbank (hnet ▸ hmem)
        rw [if_pos hnet, findFact_eq_none hfacts hpre', ok_bind, findFact_eq_none hfacts hgross] at hfact
        exact (Except.ok.inj hfact).symm
      · rw [if_neg hnet] at hfact
        exact (pure_eq_ok_iff.mp hfact).symm

theorem leaf_answers (htree : tree ∈ registeredForest.trees) (hcls : cls ∈ tree.applicability)
    (hkeys : laborEfficiencyKeys registeredForest tree cls = .ok keys) (hfacts : issuer.factsFor keys = .ok facts)
    (hnodes : requiredInputs registeredForest tree cls = .ok nodes)
    (h : grossProfitPerEmployee registeredForest tree cls facts issuer.issuerId riskFreeRate = .ok result)
    (hvalue : result.value.isSome) (hnode : node ∈ nodes) (hcaptured : capturedKey node = .ok (some key)) :
    (∃ fact, issuer.Answers key fact ∧ result.confidence ≤ fact.confidence) ∨
      node.defaultWhenMissing.isSome ∧ issuer.factsOfKey key = .ok [] := by
  obtain ⟨leaves, hread, hbound⟩ := grossProfitPerEmployee_read h hvalue hnodes
  obtain ⟨halias, hinput⟩ := capturedKey_eq_some_iff.mp hcaptured
  obtain ⟨hregistered, hkind⟩ := registered_leaves tree htree cls hcls nodes hnodes node hnode
  have hinputKind : node.kind = .input := by
    obtain hkind | hkind := hkind
    · exact hkind
    · rw [(registered_wellNamed node hregistered).1 hkind] at halias
      cases halias
  obtain ⟨key', hkey', hname⟩ := (registered_wellNamed node hregistered).exists_key hinputKind
  obtain rfl := Except.ok.inj (hinput.symm.trans hkey')
  obtain ⟨metric, fact, hmetric, hfact, hconsumed, hdefault⟩ := hread node hnode halias
  obtain rfl : node.key = metric := Except.ok.inj (((registered_wellNamed node hregistered).2 hinputKind).2.1.symm.trans hmetric)
  have hmem : key ∈ keys := (mem_laborEfficiencyKeys hkeys hnodes).mpr ⟨node, hnode, halias, hinput⟩
  rw [← hname] at hfact
  obtain ⟨found, rfl, hanswers⟩ | ⟨rfl, hnil⟩ := resolveLeafFact_answers htree hcls hkeys hfacts hmem hfact
  · obtain ⟨value, hfound⟩ := hanswers.value
    exact .inl ⟨found, hanswers, hbound found (hconsumed found value rfl hfound)⟩
  · refine .inr ⟨?_, hnil⟩
    cases hnone : node.defaultWhenMissing with
    | some value => rfl
    | none => cases hdefault hnone

end

/-! ## The facts of the multiple -/

section

variable {forest : Forest} {tree : MetricTree} {cls : IssuerClass} {issuer : IssuerInput} {facts : List Fact}
  {keys : List String} {result : FactorResult} {basis : ValuationBasis} {riskFreeRate : ℚ} {factors : DecisionFactors}

theorem marketMultiple_read {factor denominator missing nonpositive entityId : String}
    (h : marketMultiple factor denominator missing nonpositive facts entityId = .ok result) (hvalue : result.value.isSome) :
    ∃ price shares divisor, findFact facts entityId "price" = .ok (some price) ∧
      findFact facts entityId "shares_outstanding" = .ok (some shares) ∧
      findFact facts entityId denominator = .ok (some divisor) ∧
      result.confidence = min (min price.confidence shares.confidence) divisor.confidence := by
  unfold marketMultiple at h
  obtain ⟨price, hprice, h⟩ := bind_eq_ok_iff.mp h
  obtain ⟨shares, hshares, h⟩ := bind_eq_ok_iff.mp h
  obtain ⟨divisor, hdivisor, h⟩ := bind_eq_ok_iff.mp h
  dsimp only at h
  split at h
  · split at h
    · split_ifs at h
      · obtain rfl := pure_eq_ok_iff.mp h
        cases hvalue
      · obtain rfl := pure_eq_ok_iff.mp h
        cases hvalue
      · obtain ⟨_, -, h⟩ := bind_eq_ok_iff.mp h
        obtain ⟨_, -, h⟩ := bind_eq_ok_iff.mp h
        split at h
        · obtain rfl := pure_eq_ok_iff.mp h
          cases hvalue
        · obtain ⟨_, -, h⟩ := bind_eq_ok_iff.mp h
          obtain rfl := pure_eq_ok_iff.mp h
          exact ⟨_, _, _, hprice, hshares, hdivisor, rfl⟩
    · obtain rfl := pure_eq_ok_iff.mp h
      cases hvalue
  · obtain rfl := pure_eq_ok_iff.mp h
    cases hvalue

theorem multipleFactsFor_read (h : multipleFactsFor forest tree cls issuer .priceToGrossProfit = .ok facts) :
    ∃ keys own, multipleKeys forest tree cls .priceToGrossProfit = .ok keys ∧ issuer.factsFor keys = .ok own ∧
      ∀ entityId metric, metric ≠ "gross_profit" → findFact facts entityId metric = findFact own entityId metric := by
  unfold multipleFactsFor at h
  dsimp only at h
  rw [if_pos rfl] at h
  obtain ⟨node, hnode, h⟩ := bind_eq_ok_iff.mp h
  obtain ⟨numerator, hnumerator, h⟩ := bind_eq_ok_iff.mp h
  obtain ⟨own, hown, h⟩ := bind_eq_ok_iff.mp h
  refine ⟨_, own, ?_, hown, fun entityId metric hmetric => ?_⟩
  · simp only [multipleKeys, liftForest_eq_ok_iff.mp hnode, liftForest_eq_ok_iff.mp hnumerator, ok_bind]
    rfl
  · split_ifs at h
    · obtain rfl := pure_eq_ok_iff.mp h
      rfl
    · split at h
      · obtain rfl := pure_eq_ok_iff.mp h
        apply findFact_append_of_ne
        intro fact hfact
        obtain rfl := List.mem_singleton.mp hfact
        exact hmetric.symm
      · obtain rfl := pure_eq_ok_iff.mp h
        rfl

def MultipleOfTree (leaves keys : List String) : Prop := "last_close" ∈ keys ∧ "shares_outstanding" ∈ keys ∧
    (∀ key ∈ keys, key = "last_close" ∨ key = "shares_outstanding" ∨ key ∈ leaves) ∧
    (∀ key ∈ keys, metricForKey key = "price" → key = "last_close") ∧
    ∀ key ∈ keys, metricForKey key = "shares_outstanding" → key = "shares_outstanding"

instance (leaves keys : List String) : Decidable (MultipleOfTree leaves keys) := by
  unfold MultipleOfTree
  infer_instance

theorem registered_multiple : ∀ tree ∈ registeredForest.trees, ∀ cls ∈ tree.applicability,
    ∀ leaves, mandatoryKeys registeredForest tree cls = .ok leaves →
    ∀ keys, multipleKeys registeredForest tree cls .priceToGrossProfit = .ok keys → MultipleOfTree leaves keys := by
  decide +kernel

theorem mandatory_leaf {nodes : List MetricNode} (hnodes : requiredInputs forest tree cls = .ok nodes)
    (hkeys : mandatoryKeys forest tree cls = .ok keys) {key : String} (hkey : key ∈ keys) :
    ∃ node ∈ nodes, node.defaultWhenMissing = none ∧ capturedKey node = .ok (some key) := by
  unfold mandatoryKeys at hkeys
  rw [hnodes, ok_bind] at hkeys
  obtain ⟨found, hfound, hkeys⟩ := bind_eq_ok_iff.mp hkeys
  obtain rfl := pure_eq_ok_iff.mp hkeys
  have hsome : some key ∈ found := by simpa using hkey
  obtain ⟨node, hnode, hcaptured⟩ := exists_of_mem_mapM hfound hsome
  obtain ⟨hmem, hdefault⟩ := List.mem_filter.mp hnode
  exact ⟨node, hmem, Option.isNone_iff_eq_none.mp hdefault, hcaptured⟩

theorem multiple_answers (htree : tree ∈ registeredForest.trees) (hcls : cls ∈ tree.applicability)
    (h : MultipleOf registeredForest tree cls issuer basis result) (hvalue : result.value.isSome)
    {leaves : List String} (hleaves : mandatoryKeys registeredForest tree cls = .ok leaves)
    (hkeys : multipleKeys registeredForest tree cls basis = .ok keys) {key : String} (hkey : key ∈ keys) :
    key ∈ leaves ∨ ∃ fact, issuer.Answers key fact ∧ result.confidence ≤ fact.confidence := by
  cases basis with
  | priceToSales =>
    obtain ⟨facts, hfacts, h⟩ := h
    obtain rfl := Except.ok.inj hkeys
    obtain ⟨price, shares, divisor, hprice, hshares, hdivisor, hconfidence⟩ := marketMultiple_read h hvalue
    rw [hconfidence]
    have hin : key = "last_close" ∨ key = "shares_outstanding" ∨ key = "revenue" := by
      simpa [inputKeys, factorInputs, inputKeyForMetric, inputKeyAliases] using hkey
    refine .inr ?_
    obtain rfl | rfl | rfl := hin
    · exact ⟨price, answers_of_findFact hfacts (by decide) (by decide) hprice, by simp⟩
    · exact ⟨shares, answers_of_findFact hfacts (by decide) (by decide) hshares, by simp⟩
    · exact ⟨divisor, answers_of_findFact hfacts (by decide) (by decide) hdivisor, by simp⟩
  | priceToGrossProfit =>
    obtain ⟨facts, hfacts, h⟩ := h
    obtain ⟨keys', own, hkeys', hown, hsame⟩ := multipleFactsFor_read hfacts
    obtain rfl := Except.ok.inj (hkeys.symm.trans hkeys')
    obtain ⟨hclose, houtstanding, hof, hpriceKey, hsharesKey⟩ := registered_multiple tree htree cls hcls leaves hleaves _ hkeys
    obtain ⟨price, shares, divisor, hprice, hshares, -, hconfidence⟩ := marketMultiple_read h hvalue
    rw [hsame _ _ (by decide)] at hprice hshares
    rw [hconfidence]
    obtain rfl | rfl | hleaf := hof key hkey
    · exact .inr ⟨price, answers_of_findFact hown hclose hpriceKey hprice, by simp⟩
    · exact .inr ⟨shares, answers_of_findFact hown houtstanding hsharesKey hshares, by simp⟩
    · exact .inl hleaf

theorem decisionFactors_answers (htree : tree ∈ registeredForest.trees) (hcls : cls ∈ tree.applicability)
    (h : decisionFactors registeredForest tree cls issuer basis riskFreeRate = .ok factors)
    (hgppe : factors.gppe.value.isSome) (hmultiple : factors.multiple.value.isSome)
    {labor multiple leaves : List String} (hlabor : laborEfficiencyKeys registeredForest tree cls = .ok labor)
    (hkeys : multipleKeys registeredForest tree cls basis = .ok multiple)
    (hleaves : mandatoryKeys registeredForest tree cls = .ok leaves) :
    (∀ key ∈ leaves ++ multiple, ∃ fact, issuer.Answers key fact ∧
      min factors.gppe.confidence factors.multiple.confidence ≤ fact.confidence) ∧
    ∀ key ∈ labor, ∀ facts, issuer.factsOfKey key = .ok facts → ∀ fact ∈ facts,
      min factors.gppe.confidence factors.multiple.confidence ≤ fact.confidence := by
  obtain ⟨labor', facts, hlabor', hfacts, hresult, -, hmultipleOf⟩ := decisionFactors_inv h
  obtain rfl := Except.ok.inj (hlabor.symm.trans hlabor')
  obtain ⟨nodes, hnodes, -⟩ := bind_eq_ok_iff.mp hlabor
  have hleaf : ∀ key ∈ leaves, ∃ fact, issuer.Answers key fact ∧
      min factors.gppe.confidence factors.multiple.confidence ≤ fact.confidence := by
    intro key hkey
    obtain ⟨node, hnode, hdefault, hcaptured⟩ := mandatory_leaf hnodes hleaves hkey
    obtain ⟨fact, hanswers, hle⟩ | ⟨hsome, -⟩ := leaf_answers htree hcls hlabor hfacts hnodes hresult hgppe hnode hcaptured
    · exact ⟨fact, hanswers, (min_le_left _ _).trans hle⟩
    · rw [hdefault] at hsome
      cases hsome
  refine ⟨fun key hkey => ?_, fun key hkey more hmore fact hfact => ?_⟩
  · obtain hmem | hmem := List.mem_append.mp hkey
    · exact hleaf key hmem
    · obtain hmem | ⟨fact, hanswers, hle⟩ := multiple_answers htree hcls hmultipleOf hmultiple hleaves hkeys hmem
      · exact hleaf key hmem
      · exact ⟨fact, hanswers, (min_le_right _ _).trans hle⟩
  · obtain ⟨node, hnode, hcaptured⟩ := (mem_laborEfficiencyKeys hlabor hnodes).mp hkey
    obtain ⟨found, ⟨facts', hfacts', -, hall⟩, hle⟩ | ⟨-, hnil⟩ := leaf_answers htree hcls hlabor hfacts hnodes hresult
      hgppe hnode (capturedKey_eq_some_iff.mpr hcaptured)
    · obtain rfl := Except.ok.inj (hmore.symm.trans hfacts')
      rw [hall fact hfact]
      exact (min_le_left _ _).trans hle
    · obtain rfl := Except.ok.inj (hmore.symm.trans hnil)
      cases hfact

end

/-! ## Eligible decisions -/

/-- For each key the decision read one fact of a young and confident observation, none less confident than it is. -/
structure Rests (definition : StrategyDefinition) (asOf : Instant) (tree : MetricTree) (cls : IssuerClass)
    (issuer : IssuerInput) (decision : EvaluatedDecision) : Prop where
  pointInTime : ∀ item ∈ issuer.knowableAt.items, item.2 ≤ asOf
  inputs : ∃ keys, decisionKeys registeredForest tree cls definition.valuationBasis = .ok keys ∧
    ∀ key ∈ keys, ∃ fact, issuer.Answers key fact ∧
      (∃ instant ∈ issuer.knowableAt.get? (resolveBankNumeratorKey key issuer.records.keys),
        asOf - instant ≤ (definition.eligibility.maximumInputAgeDays : ℤ) * microsPerDay) ∧
      ∀ floor ∈ definition.eligibility.minimumConfidence, floor ≤ fact.confidence
  bounded : ∃ labor multiple confidence, laborEfficiencyKeys registeredForest tree cls = .ok labor ∧
    multipleKeys registeredForest tree cls definition.valuationBasis = .ok multiple ∧
    decision.confidence = some confidence ∧ ∀ key ∈ labor ++ multiple, ∀ facts, issuer.factsOfKey key = .ok facts →
      ∀ fact ∈ facts, confidence ≤ fact.confidence

def PeriodicConfident (definition : StrategyDefinition) (consumed : List String) (issuer : IssuerInput) : Prop :=
  ∀ key ∈ requiredKeys definition consumed, ∀ periods ∈ issuer.periodicRecords.get? key, ∀ record ∈ periods.values,
    ∀ floor ∈ definition.eligibility.minimumConfidence, floor ≤ record.2

section

variable {issuer : IssuerInput} {definition : StrategyDefinition} {asOf : Instant} {consumed : List String}
  {key : String} {facts : List Fact} {fact : Fact} {tree : MetricTree} {cls : IssuerClass} {riskFreeRate : ℚ}
  {decision : EvaluatedDecision} {gap : Option ℚ}

theorem factOf_confidence {entityId metric : String} {measure : Measure} {confidence : ℚ} {period : Option String}
    (h : factOf entityId metric measure confidence period = .ok fact) : fact.confidence = confidence := by
  unfold factOf at h
  split_ifs at h
  cases h
  rfl

theorem confidence_of_mem_factsOfKey (h : issuer.factsOfKey key = .ok facts) (hfact : fact ∈ facts) :
    (∃ periods ∈ issuer.periodicRecords.get? key, ∃ record ∈ periods.values, fact.confidence = record.2) ∨
      ∃ record ∈ issuer.recordFor key, fact.confidence = record.2 := by
  simp only [IssuerInput.factsOfKey] at h
  split at h
  · next periods hperiods =>
    obtain ⟨entry, hentry, hof⟩ := exists_of_mem_mapM h hfact
    have hitem : entry ∈ periods.items := (mem_sortedBy _).mp hentry
    exact .inl ⟨periods, hperiods, entry.2, List.mem_map.mpr ⟨entry, hitem, rfl⟩, factOf_confidence hof⟩
  · split at h
    · cases h
      cases hfact
    · next measure confidence hrecord =>
      obtain ⟨found, hfound, h⟩ := bind_eq_ok_iff.mp h
      obtain rfl := pure_eq_ok_iff.mp h
      obtain rfl := List.mem_singleton.mp hfact
      exact .inr ⟨(measure, confidence), hrecord, factOf_confidence hfound⟩

theorem exists_fact_of_periodic (h : issuer.factsOfKey key = .ok facts) {periods : Dict String (Measure × ℚ)}
    (hperiods : issuer.periodicRecords.get? key = some periods) {record : Measure × ℚ} (hrecord : record ∈ periods.values) :
    ∃ fact ∈ facts, fact.confidence = record.2 := by
  simp only [IssuerInput.factsOfKey, hperiods] at h
  obtain ⟨entry, hentry, rfl⟩ := List.mem_map.mp hrecord
  obtain ⟨fact, hfact, hof⟩ := mem_of_mapM h ((mem_sortedBy _).mpr hentry)
  exact ⟨fact, hfact, factOf_confidence hof⟩

theorem confident_of_mem_factsOfKey (hpassed : PassedRules definition asOf consumed issuer)
    (hperiodic : PeriodicConfident definition consumed issuer) (hkey : key ∈ requiredKeys definition consumed)
    (h : issuer.factsOfKey key = .ok facts) (hfact : fact ∈ facts) :
    ∀ floor ∈ definition.eligibility.minimumConfidence, floor ≤ fact.confidence := by
  intro floor hfloor
  obtain ⟨periods, hperiods, record, hrecord, heq⟩ | ⟨record, hrecord, heq⟩ := confidence_of_mem_factsOfKey h hfact
  · exact heq ▸ hperiodic key hkey periods hperiods record hrecord floor hfloor
  · exact heq ▸ hpassed.confident key hkey record hrecord floor hfloor

theorem factorDecision_reason {forest : Forest} {confidence : ℚ}
    (h : factorDecision forest definition tree cls issuer riskFreeRate confidence = .ok (decision, gap)) :
    decision.exclusionReason ≠ some .belowConfidenceFloor := by
  unfold factorDecision at h
  obtain ⟨factors, -, h⟩ := bind_eq_ok_iff.mp h
  split at h
  · obtain ⟨_, _, _, _, -, -, -, -, ⟨-, rfl⟩ | ⟨-, hvalued⟩⟩ := valuedDecision_inv h
    · exact nofun
    · rw [hvalued.exclusionReason]
      exact nofun
  · obtain ⟨rfl, rfl⟩ := Prod.mk.inj (pure_eq_ok_iff.mp h)
    have hreasons : ∀ entry ∈ flagReasons, entry.2 ≠ .belowConfidenceFloor := by decide
    intro hreason
    have hfound := Option.some.inj hreason
    cases hfind : flagReasons.find? fun entry => entry.1 ∈ factors.gppe.flags ++ factors.multiple.flags with
    | none =>
      rw [hfind] at hfound
      cases hfound
    | some entry =>
      rw [hfind] at hfound
      exact hreasons entry (List.mem_of_find?_eq_some hfind) hfound

theorem resolveBankNumeratorKey_congr {keys keys' : List String} (h : ∀ key, key ∈ keys ↔ key ∈ keys') (key : String) :
    resolveBankNumeratorKey key keys = resolveBankNumeratorKey key keys' := by
  simp only [resolveBankNumeratorKey, h]

theorem registered_required : ∀ tree ∈ registeredForest.trees, ∀ cls ∈ tree.applicability,
    ∀ basis ∈ [ValuationBasis.priceToSales, .priceToGrossProfit],
    (decisionKeys registeredForest tree cls basis).toOption.isSome ∧
    ∀ consumed, consumedInputKeys registeredForest tree cls = .ok consumed →
    ∀ keys, decisionKeys registeredForest tree cls basis = .ok keys →
      ∀ key ∈ keys, key ∈ (requiredReasons basis consumed).map Prod.fst := by
  decide +kernel

theorem mem_bases (basis : ValuationBasis) : basis ∈ [ValuationBasis.priceToSales, .priceToGrossProfit] := by
  cases basis <;> decide

theorem factsOfKey_of_required {forest : Forest} {basis : ValuationBasis} {factors : DecisionFactors}
    (h : decisionFactors forest tree cls issuer basis riskFreeRate = .ok factors)
    (hconsumed : consumedInputKeys forest tree cls = .ok consumed) (hkey : key ∈ requiredKeys definition consumed) :
    ∃ facts, issuer.factsOfKey key = .ok facts := by
  obtain ⟨labor, facts, hlabor, hfacts, -, ⟨sales, hsales⟩, -⟩ := decisionFactors_inv h
  unfold consumedInputKeys at hconsumed
  rw [hlabor, ok_bind] at hconsumed
  obtain rfl := pure_eq_ok_iff.mp hconsumed
  obtain ⟨entry, hentry, rfl⟩ := List.mem_map.mp hkey
  have hin : entry.1 ∈ sortedSet (inputKeys "price_to_sales" none ++ labor) := (of_decide_eq_true (List.mem_filter.mp hentry).2).1
  obtain hmarket | hleaf := List.mem_append.mp (mem_sortedSet.mp hin)
  · obtain ⟨more, hmore, -⟩ := (factsFor_spec hsales).1 _ hmarket
    exact ⟨more, hmore⟩
  · obtain ⟨more, hmore, -⟩ := (factsFor_spec hfacts).1 _ hleaf
    exact ⟨more, hmore⟩

theorem rests_of_admitted (htree : tree ∈ registeredForest.trees) (hcls : cls ∈ tree.applicability)
    (hsame : ∀ key, key ∈ issuer.records.keys ↔ key ∈ issuer.knowableAt.keys) {factors : DecisionFactors}
    (hadmitted : Admitted registeredForest definition riskFreeRate asOf tree cls issuer factors)
    (hstands : decision.Stands factors)
    (hperiodic : ∀ consumed, consumedInputKeys registeredForest tree cls = .ok consumed →
      PassedRules definition asOf consumed issuer → PeriodicConfident definition consumed issuer) :
    Rests definition asOf tree cls issuer decision := by
  obtain ⟨consumed, confidence, hconsumed, hgate, hfactors, hgppe, -, value, hvalue, -⟩ := hadmitted
  have hpassed := passedRules_of_inputGate hgate
  obtain ⟨hsome, hrequired⟩ := registered_required tree htree cls hcls _ (mem_bases definition.valuationBasis)
  obtain ⟨keys, hkeys⟩ : ∃ keys, decisionKeys registeredForest tree cls definition.valuationBasis = .ok keys := by
    cases hkeys : decisionKeys registeredForest tree cls definition.valuationBasis with
    | error e =>
      rw [hkeys] at hsome
      cases hsome
    | ok keys => exact ⟨keys, rfl⟩
  have hmem := hrequired consumed hconsumed keys hkeys
  obtain ⟨leaves, hleaves, hrest⟩ := bind_eq_ok_iff.mp hkeys
  obtain ⟨multiple, hmultiple, hpure⟩ := bind_eq_ok_iff.mp hrest
  obtain rfl := pure_eq_ok_iff.mp hpure
  obtain ⟨labor, facts, hlabor, -⟩ := decisionFactors_inv hfactors
  obtain ⟨hanswers, hlow⟩ := decisionFactors_answers htree hcls hfactors hgppe (hvalue ▸ rfl) hlabor hmultiple hleaves
  refine ⟨hpassed.pointInTime, ⟨_, hkeys, fun key hkey => ?_⟩, ⟨labor, multiple, _, hlabor, hmultiple, hstands.2.2, ?_⟩⟩
  · obtain ⟨fact, hanswer, -⟩ := hanswers key hkey
    refine ⟨fact, hanswer, ?_, ?_⟩
    · obtain ⟨instant, hinstant⟩ := hpassed.known key (hmem key hkey)
      rw [resolveBankNumeratorKey_congr hsame]
      refine ⟨instant, hinstant, not_lt.mp fun hold => ?_⟩
      exact hpassed.young key (hmem key hkey) ⟨instant, hinstant, hold⟩
    · obtain ⟨facts, hfacts, hne, hall⟩ := hanswer
      obtain ⟨other, hother⟩ := List.exists_mem_of_ne_nil facts hne
      obtain rfl := hall other hother
      exact confident_of_mem_factsOfKey hpassed (hperiodic consumed hconsumed hpassed) (hmem key hkey) hfacts hother
  · intro key hkey facts hfacts fact hfact
    obtain hmem | hmem := List.mem_append.mp hkey
    · exact hlow key hmem facts hfacts fact hfact
    · obtain ⟨found, ⟨facts', hfacts', -, hall⟩, hle⟩ := hanswers key (List.mem_append_right _ hmem)
      obtain rfl := Except.ok.inj (hfacts.symm.trans hfacts')
      rw [hall fact hfact]
      exact hle

/-- A decision rests on what it read and an excluded one has the first failing rule's reason, exactly when the periodic records
reach the floor whenever the records pass. -/
theorem treeDecision_rests_iff (htree : tree ∈ registeredForest.trees) (hcls : cls ∈ tree.applicability)
    (hsame : ∀ key, key ∈ issuer.records.keys ↔ key ∈ issuer.knowableAt.keys)
    (hrun : treeDecision registeredForest definition riskFreeRate asOf tree cls issuer = .ok (decision, gap)) :
    ((decision.outcome ≠ .excluded → Rests definition asOf tree cls issuer decision) ∧
      ∀ consumed, consumedInputKeys registeredForest tree cls = .ok consumed →
        ∀ reason, FirstFailure definition asOf consumed issuer reason →
          decision.outcome = .excluded ∧ decision.exclusionReason = some reason) ↔
    ∀ consumed, consumedInputKeys registeredForest tree cls = .ok consumed →
      PassedRules definition asOf consumed issuer → PeriodicConfident definition consumed issuer := by
  have hspec := (treeDecision_spec hrun).2
  rw [treeDecision_eq] at hrun
  obtain ⟨own, hown, hrun⟩ := bind_eq_ok_iff.mp hrun
  obtain ⟨verdict, hverdict, hrun⟩ := bind_eq_ok_iff.mp hrun
  have hown := liftForest_eq_ok_iff.mp hown
  constructor
  · rintro ⟨-, hfailure⟩ consumed hconsumed hpassed key hkey periods hperiods record hrecord floor hfloor
    obtain rfl := Except.ok.inj (hown.symm.trans hconsumed)
    obtain ⟨confidence, rfl⟩ := inputGate_of_passedRules hverdict hpassed
    obtain ⟨factors, hfactors, -⟩ := factorDecision_spec hrun
    by_contra hlt
    -- the facts of the key were read, so the periodic record is an uncertain fact
    obtain ⟨facts, hfacts⟩ := factsOfKey_of_required hfactors hown hkey
    obtain ⟨fact, hfact, heq⟩ := exists_fact_of_periodic hfacts hperiods hrecord
    have huncertain : issuer.Uncertain definition key := ⟨facts, hfacts, fact, hfact, floor, hfloor, heq ▸ not_le.mp hlt⟩
    have hreason := hfailure own hown .belowConfidenceFloor
      (.uncertain hpassed.present hpassed.young hpassed.periods ⟨key, hkey, huncertain⟩)
    exact factorDecision_reason hrun hreason.2
  · intro hperiodic
    refine ⟨fun hne => ?_, fun consumed hconsumed reason hfailure => ?_⟩
    · obtain ⟨factors, hadmitted, hstands⟩ | ⟨-, -, hexcluded⟩ := hspec
      · exact rests_of_admitted htree hcls hsame hadmitted hstands hperiodic
      · exact absurd hexcluded hne
    · obtain rfl := Except.ok.inj (hown.symm.trans hconsumed)
      obtain ⟨confidence, rfl⟩ | ⟨⟨confidence, rfl⟩, key, hkey, facts, hfacts, fact, hfact, floor, hfloor, hlt⟩ :=
        inputGate_of_firstFailure hverdict hfailure
      · obtain ⟨rfl, rfl⟩ := Prod.mk.inj (Except.ok.inj hrun)
        exact ⟨rfl, rfl⟩
      · have hpassed := passedRules_of_inputGate hverdict
        have hle := confident_of_mem_factsOfKey hpassed (hperiodic own hown hpassed) hkey hfacts hfact floor hfloor
        exact absurd hlt (not_lt.mpr hle)

end

theorem maximum_age_valid : 1 ≤ 455 ∧ 455 ≤ 730 := by decide

def floorDefinition : StrategyDefinition :=
  { liveStrategyDefinition with eligibility := ⟨some (1 / 2), 455, by rintro _ ⟨⟩; norm_num, maximum_age_valid⟩ }

def unsureRows : List InputRow :=
  [recentRow "gross_profit" 1000000 none, recentRow "headcount" 2 none, recentRow "last_close" 10 none,
    recentRow "revenue" 2000000 none,
    { recentRow "shares_outstanding" 100000 (some "FY2025:FY:2025-01-01:2025-12-31") with confidence := 1 / 10 },
    recentRow "shares_outstanding" 100000 none, recentRow "total_assets" 5000000 none]

theorem unsureRows_run : ∃ inputs input decision gap, issuerInputsFromRows none unsureRows = .ok inputs ∧
    input ∈ withClasses (fun _ => some .nonFinancial) inputs ∧ input.issuerClass = some .nonFinancial ∧
    (∀ key, key ∈ input.records.keys ↔ key ∈ input.knowableAt.keys) ∧
    evaluateIssuer registeredForest floorDefinition (1 / 20) newYear liveTrees input = .ok (decision, gap) ∧
    decision.outcome ≠ .excluded ∧ (∃ facts, input.factsOfKey "shares_outstanding" = .ok facts ∧
      ∃ fact ∈ facts, fact.confidence < 1 / 2) := by
  have hrun : (issuerInputsFromRows none unsureRows).toOption.any fun inputs =>
      (withClasses (fun _ => some .nonFinancial) inputs).any fun input =>
        (evaluateIssuer registeredForest floorDefinition (1 / 20) newYear liveTrees input).toOption.any fun pair =>
          input.issuerClass = some .nonFinancial ∧ input.records.keys = input.knowableAt.keys ∧
          pair.1.outcome ≠ .excluded ∧ ((input.factsOfKey "shares_outstanding").toOption.any fun facts =>
            facts.any fun fact => fact.confidence < 1 / 2) := by decide +kernel
  obtain ⟨inputs, hinputs, hrun⟩ := exists_ok_of_any hrun
  obtain ⟨input, hinput, hrun⟩ := List.any_eq_true.mp hrun
  obtain ⟨⟨decision, gap⟩, hdecision, hrun⟩ := exists_ok_of_any hrun
  obtain ⟨hcls, hkeys, houtcome, hfacts⟩ := of_decide_eq_true hrun
  obtain ⟨facts, hfacts, hany⟩ := exists_ok_of_any hfacts
  obtain ⟨fact, hfact, hlt⟩ := List.any_eq_true.mp hany
  refine ⟨inputs, input, decision, gap, hinputs, hinput, hcls, fun key => by rw [hkeys], hdecision, houtcome, facts, hfacts,
    fact, hfact, of_decide_eq_true hlt⟩

theorem floorTrees_pinned : pinnedTrees pinnedHash registeredForest floorDefinition none = .ok liveTrees := rfl

theorem not_rests_of_uncertain {issuer : IssuerInput} {decision : EvaluatedDecision} {facts : List Fact} {fact : Fact}
    (hfacts : issuer.factsOfKey "shares_outstanding" = .ok facts) (hfact : fact ∈ facts) (hlt : fact.confidence < 1 / 2) :
    ¬ Rests floorDefinition newYear Registry.gppeV0Tree .nonFinancial issuer decision := by
  rintro ⟨-, ⟨keys, hkeys, hall⟩, -⟩
  have hmem : ∀ keys, decisionKeys registeredForest Registry.gppeV0Tree .nonFinancial floorDefinition.valuationBasis =
      .ok keys → "shares_outstanding" ∈ keys := by decide +kernel
  obtain ⟨found, ⟨facts', hfacts', -, hsame⟩, -, hfloor⟩ := hall _ (hmem keys hkeys)
  obtain rfl := Except.ok.inj (hfacts.symm.trans hfacts')
  have hle := hfloor (1 / 2) rfl
  rw [← hsame fact hfact] at hle
  exact absurd hlt (not_lt.mpr hle)

end TrueAlpha.Strategy
