import TrueAlpha.Strategy.Evaluator

/-!
# What a decision rests on

The spec lemmas of the evaluator: which facts an issuer gives for its input keys, what the labor
efficiency of a result is computed from, and how the tier of a decision that is not excluded comes about
(`Decided`).
-/

namespace TrueAlpha.Strategy

def IssuerInput.carried (issuer : IssuerInput) (key : String) : List ℚ :=
  match issuer.periodicRecords.get? key with
  | some periods => periods.values.map fun record => record.1.value
  | none => ((issuer.records.get? key).map fun record => record.1.value).toList

variable {value : ℚ}

section

variable {issuer : IssuerInput} {key : String} {keys : List String} {facts : List Fact}

theorem factOf_spec {entityId metric : String} {measure : Measure} {confidence : ℚ}
    {period : Option String} {fact : Fact} (h : factOf entityId metric measure confidence period = .ok fact) :
    fact.entityId = entityId ∧ fact.metric = metric ∧ fact.value = some measure.value := by
  unfold factOf at h
  split_ifs at h
  cases h
  exact ⟨rfl, rfl, rfl⟩

section

variable (h : issuer.factsOfKey key = .ok facts)

include h

theorem factsOfKey_names : ∀ fact ∈ facts, fact.entityId = issuer.issuerId ∧ fact.metric = metricForKey key := by
  intro fact hfact
  simp only [IssuerInput.factsOfKey] at h
  split at h
  · obtain ⟨entry, -, hentry⟩ := exists_of_mem_mapM h hfact
    exact ⟨(factOf_spec hentry).1, (factOf_spec hentry).2.1⟩
  · split at h
    · cases h
      cases hfact
    · obtain ⟨found, hfound, h⟩ := bind_eq_ok_iff.mp h
      obtain rfl := pure_eq_ok_iff.mp h
      obtain rfl := List.mem_singleton.mp hfact
      exact ⟨(factOf_spec hfound).1, (factOf_spec hfound).2.1⟩

theorem exists_fact_of_carried (hvalue : value ∈ issuer.carried key) : ∃ fact ∈ facts, fact.value = some value := by
  simp only [IssuerInput.factsOfKey] at h
  unfold IssuerInput.carried at hvalue
  cases hperiods : issuer.periodicRecords.get? key with
  | some periods =>
    simp only [hperiods, List.mem_map] at h hvalue
    obtain ⟨record, hrecord, rfl⟩ := hvalue
    obtain ⟨entry, hentry, rfl⟩ := List.mem_map.mp hrecord
    obtain ⟨fact, hfact, hof⟩ := mem_of_mapM h ((mem_sortedBy _).mpr hentry)
    exact ⟨fact, hfact, (factOf_spec hof).2.2⟩
  | none =>
    simp only [hperiods] at h hvalue
    cases hrecord : issuer.records.get? key with
    | none => simp [hrecord] at hvalue
    | some record =>
      have hfor : issuer.recordFor key = some record := by simp [IssuerInput.recordFor, hrecord]
      simp only [hfor] at h
      obtain ⟨fact, hfact, h⟩ := bind_eq_ok_iff.mp h
      obtain rfl := pure_eq_ok_iff.mp h
      refine ⟨fact, List.mem_singleton_self fact, ?_⟩
      rw [(factOf_spec hfact).2.2]
      simpa [hrecord, eq_comm] using hvalue

theorem carried_of_fact
    (hkey : issuer.carried key ≠ [] ∨ key ≠ "pre_provision_profit" ∧ key ≠ "bank_net_revenue")
    {fact : Fact} (hfact : fact ∈ facts) : ∃ value ∈ issuer.carried key, fact.value = some value := by
  simp only [IssuerInput.factsOfKey] at h
  unfold IssuerInput.carried at hkey ⊢
  cases hperiods : issuer.periodicRecords.get? key with
  | some periods =>
    simp only [hperiods] at h
    obtain ⟨entry, hentry, hof⟩ := exists_of_mem_mapM h hfact
    refine ⟨entry.2.1.value, ?_, (factOf_spec hof).2.2⟩
    have hitem : entry ∈ periods.items := (mem_sortedBy _).mp hentry
    exact List.mem_map.mpr ⟨entry.2, List.mem_map.mpr ⟨entry, hitem, rfl⟩, rfl⟩
  | none =>
    simp only [hperiods] at h hkey
    cases hrecord : issuer.records.get? key with
    | none =>
      have hnames : key ≠ "pre_provision_profit" ∧ key ≠ "bank_net_revenue" := by simpa [hrecord] using hkey
      have hfor : issuer.recordFor key = none := by
        simp [IssuerInput.recordFor, hrecord, hnames.1, hnames.2]
      simp only [hfor] at h
      cases h
      cases hfact
    | some record =>
      have hfor : issuer.recordFor key = some record := by simp [IssuerInput.recordFor, hrecord]
      simp only [hfor] at h
      obtain ⟨found, hfound, h⟩ := bind_eq_ok_iff.mp h
      obtain rfl := pure_eq_ok_iff.mp h
      obtain rfl := List.mem_singleton.mp hfact
      exact ⟨record.1.value, by simp, (factOf_spec hfound).2.2⟩

end

theorem factsFor_spec (h : issuer.factsFor keys = .ok facts) :
    (∀ key ∈ keys, ∃ more, issuer.factsOfKey key = .ok more ∧ more ⊆ facts) ∧
      ∀ fact ∈ facts, ∃ key ∈ keys, ∃ more, issuer.factsOfKey key = .ok more ∧ fact ∈ more := by
  refine foldlM_inv (fun done facts => (∀ key ∈ done, ∃ more, issuer.factsOfKey key = .ok more ∧ more ⊆ facts) ∧
    ∀ fact ∈ facts, ∃ key ∈ done, ∃ more, issuer.factsOfKey key = .ok more ∧ fact ∈ more) h (by simp) ?_
  intro done key rest collected collected' _ ih hstep
  obtain ⟨more, hmore, hpure⟩ := bind_eq_ok_iff.mp hstep
  obtain rfl := pure_eq_ok_iff.mp hpure
  constructor
  · intro key' hkey'
    obtain hdone | hlast := List.mem_append.mp hkey'
    · obtain ⟨more', hmore', hsub⟩ := ih.1 key' hdone
      exact ⟨more', hmore', List.Subset.trans hsub (List.subset_append_left _ _)⟩
    · obtain rfl := List.mem_singleton.mp hlast
      exact ⟨more, hmore, List.subset_append_right _ _⟩
  · intro fact hfact
    obtain hold | hnew := List.mem_append.mp hfact
    · obtain ⟨key', hkey', hmore'⟩ := ih.2 fact hold
      exact ⟨key', List.mem_append_left _ hkey', hmore'⟩
    · exact ⟨key, by simp, more, hmore, hnew⟩

end

/-! ## Labor efficiency -/

variable {entityId : String}

section

variable {facts : List Fact} {node : MetricNode} {riskFreeRate : ℚ}

theorem collectLeaf_spec {leaves leaves' : LeafInputs}
    (h : collectLeaf facts entityId riskFreeRate leaves node = .ok leaves') (hflags : leaves'.flags = []) :
    leaves.flags = [] ∧ ((node.aliasOf .definitionParameter = .ok (some "risk_free_rate") ∧
          leaves'.inputs = leaves.inputs.set node.key (some riskFreeRate)) ∨
        ∃ metric fact, node.aliasOf .definitionParameter ≠ .ok (some "risk_free_rate") ∧
          metricOf node = .ok metric ∧ resolveLeafFact facts entityId metric = .ok fact ∧
          leaves'.inputs = leaves.inputs.set node.key (fact.bind Fact.value)) := by
  unfold collectLeaf at h
  obtain ⟨parameter, hparameter, h⟩ := bind_eq_ok_iff.mp h
  have hparameter := liftForest_eq_ok_iff.mp hparameter
  split_ifs at h with hrate
  · obtain rfl := pure_eq_ok_iff.mp h
    exact ⟨hflags, .inl ⟨hrate ▸ hparameter, rfl⟩⟩
  · have hne : node.aliasOf .definitionParameter ≠ .ok (some "risk_free_rate") := by
      rw [hparameter]
      exact fun heq => hrate (Except.ok.inj heq)
    obtain ⟨metric, hmetric, h⟩ := bind_eq_ok_iff.mp h
    have hmetric := liftForest_eq_ok_iff.mp hmetric
    obtain ⟨fact, hfact, h⟩ := bind_eq_ok_iff.mp h
    cases hvalued : valued fact Fact.value with
    | none =>
      simp only [hvalued] at h
      obtain rfl := pure_eq_ok_iff.mp h
      have hnone := valued_eq_none_iff.mp hvalued
      refine ⟨?_, .inr ⟨metric, fact, hne, hmetric, hfact, by rw [hnone]⟩⟩
      dsimp only at hflags
      split_ifs at hflags with hkept
      · exact hflags
      · exact absurd hflags (by simp)
    | some pair =>
      obtain ⟨found, value⟩ := pair
      obtain ⟨rfl, hvalue⟩ := valued_eq_some_iff.mp hvalued
      simp only [hvalued] at h
      split_ifs at h
      · obtain rfl := pure_eq_ok_iff.mp h
        exact absurd hflags (by simp)
      · obtain rfl := pure_eq_ok_iff.mp h
        exact ⟨hflags, .inr ⟨metric, some found, hne, hmetric, hfact, by simp [hvalue]⟩⟩

end

section

variable {forest : Forest} {tree : MetricTree} {cls : IssuerClass} {keys : List String}
  {nodes : List MetricNode}

theorem capturedKey_eq_some_iff {node : MetricNode} {key : String} : capturedKey node = .ok (some key) ↔
    node.aliasOf .definitionParameter = .ok none ∧ inputKeyOf node = .ok key := by
  unfold capturedKey
  cases halias : node.aliasOf .definitionParameter with
  | error e => exact ⟨nofun, nofun⟩
  | ok parameter =>
    cases parameter with
    | none => cases hkey : inputKeyOf node <;> simp
    | some name => simp [pure_eq_ok_iff]

theorem mem_laborEfficiencyKeys (hkeys : laborEfficiencyKeys forest tree cls = .ok keys)
    (hnodes : requiredInputs forest tree cls = .ok nodes) {key : String} :
    key ∈ keys ↔ ∃ node ∈ nodes, node.aliasOf .definitionParameter = .ok none ∧ inputKeyOf node = .ok key := by
  unfold laborEfficiencyKeys at hkeys
  rw [hnodes, ok_bind] at hkeys
  obtain ⟨found, hfound, hkeys⟩ := bind_eq_ok_iff.mp hkeys
  obtain rfl := pure_eq_ok_iff.mp hkeys
  constructor
  · intro hmem
    have hsome : some key ∈ found := by simpa using hmem
    obtain ⟨node, hnode, hkey⟩ := exists_of_mem_mapM hfound hsome
    exact ⟨node, hnode, capturedKey_eq_some_iff.mp hkey⟩
  · rintro ⟨node, hnode, hkey⟩
    obtain ⟨key', hmem, hkey'⟩ := mem_of_mapM hfound hnode
    rw [capturedKey_eq_some_iff.mpr hkey] at hkey'
    obtain rfl := Except.ok.inj hkey'
    simpa using hmem

end

def ComputedEfficiency (forest : Forest) (tree : MetricTree) (cls : IssuerClass) (issuer : IssuerInput)
    (riskFreeRate value : ℚ) : Prop :=
  ∃ keys facts nodes leaves evaluation, laborEfficiencyKeys forest tree cls = .ok keys ∧
    issuer.factsFor keys = .ok facts ∧ requiredInputs forest tree cls = .ok nodes ∧
    nodes.foldlM (collectLeaf facts issuer.issuerId riskFreeRate) ⟨Dict.empty, [], []⟩ = .ok leaves ∧
    leaves.flags = [] ∧ evaluate forest tree cls leaves.inputs = .ok evaluation ∧
    (evaluation.values.get? tree.root).join = some value

variable {factors : DecisionFactors} {laborValue multipleValue : ℚ} {basis : ValuationBasis}

section

variable {forest : Forest} {tree : MetricTree} {cls : IssuerClass} {issuer : IssuerInput}
  {definition : StrategyDefinition} {riskFreeRate : ℚ} {asOf : Instant}
  {trees : Dict IssuerClass MetricTree} {decision : EvaluatedDecision} {gap : Option ℚ}

theorem resultOfEvaluation_value {evaluation : TreeEvaluation} {confidence : ℚ} :
    (resultOfEvaluation tree entityId evaluation confidence).value = (evaluation.values.get? tree.root).join := by
  unfold resultOfEvaluation
  split
  · next value h => exact h.symm
  · next h => exact h.symm

theorem grossProfitPerEmployee_inv {facts : List Fact} {result : FactorResult}
    (h : grossProfitPerEmployee forest tree cls facts entityId riskFreeRate = .ok result) (hvalue : result.value.isSome) :
    ∃ nodes leaves evaluation, requiredInputs forest tree cls = .ok nodes ∧
      nodes.foldlM (collectLeaf facts entityId riskFreeRate) ⟨Dict.empty, [], []⟩ = .ok leaves ∧
      leaves.flags = [] ∧ evaluate forest tree cls leaves.inputs = .ok evaluation ∧
      result = resultOfEvaluation tree entityId evaluation (match leaves.consumed.map Fact.confidence with
        | [] => 1
        | confidence :: rest => rest.foldl min confidence) := by
  unfold grossProfitPerEmployee at h
  obtain ⟨_, -, h⟩ := bind_eq_ok_iff.mp h
  obtain ⟨nodes, hnodes, h⟩ := bind_eq_ok_iff.mp h
  obtain ⟨leaves, hleaves, h⟩ := bind_eq_ok_iff.mp h
  dsimp only at h
  split_ifs at h with hflags hperiods
  · obtain rfl := pure_eq_ok_iff.mp h
    cases hvalue
  · obtain rfl := pure_eq_ok_iff.mp h
    cases hvalue
  · obtain ⟨evaluation, heval, h⟩ := bind_eq_ok_iff.mp h
    exact ⟨nodes, leaves, evaluation, liftForest_eq_ok_iff.mp hnodes, hleaves, not_not.mp hflags,
      liftForest_eq_ok_iff.mp heval, (pure_eq_ok_iff.mp h).symm⟩

theorem grossProfitPerEmployee_value {facts : List Fact} {result : FactorResult} (h : grossProfitPerEmployee forest tree cls facts entityId riskFreeRate = .ok result)
    (hvalue : result.value = some value) :
    ∃ nodes leaves evaluation, requiredInputs forest tree cls = .ok nodes ∧
      nodes.foldlM (collectLeaf facts entityId riskFreeRate) ⟨Dict.empty, [], []⟩ = .ok leaves ∧
      leaves.flags = [] ∧ evaluate forest tree cls leaves.inputs = .ok evaluation ∧
      (evaluation.values.get? tree.root).join = some value := by
  obtain ⟨nodes, leaves, evaluation, hnodes, hleaves, hflags, heval, rfl⟩ := grossProfitPerEmployee_inv h (by rw [hvalue]; rfl)
  rw [resultOfEvaluation_value] at hvalue
  exact ⟨nodes, leaves, evaluation, hnodes, hleaves, hflags, heval, hvalue⟩

def MultipleOf (forest : Forest) (tree : MetricTree) (cls : IssuerClass) (issuer : IssuerInput) (basis : ValuationBasis)
    (multiple : FactorResult) : Prop :=
  match basis with
  | .priceToSales => ∃ facts, issuer.factsFor (inputKeys "price_to_sales" none) = .ok facts ∧
      priceToSales facts issuer.issuerId = .ok multiple
  | .priceToGrossProfit => ∃ facts, multipleFactsFor forest tree cls issuer .priceToGrossProfit = .ok facts ∧
      priceToGrossProfit facts issuer.issuerId = .ok multiple

theorem decisionFactors_inv
    (h : decisionFactors forest tree cls issuer basis riskFreeRate = .ok factors) :
    ∃ keys facts, laborEfficiencyKeys forest tree cls = .ok keys ∧ issuer.factsFor keys = .ok facts ∧
      grossProfitPerEmployee forest tree cls facts issuer.issuerId riskFreeRate = .ok factors.gppe ∧
      (∃ sales, issuer.factsFor (inputKeys "price_to_sales" none) = .ok sales) ∧
      MultipleOf forest tree cls issuer basis factors.multiple := by
  unfold decisionFactors at h
  obtain ⟨keys, hkeys, h⟩ := bind_eq_ok_iff.mp h
  obtain ⟨facts, hfacts, h⟩ := bind_eq_ok_iff.mp h
  obtain ⟨gppe, hgppe, h⟩ := bind_eq_ok_iff.mp h
  obtain ⟨salesFacts, hsalesFacts, h⟩ := bind_eq_ok_iff.mp h
  obtain ⟨sales, hsales, h⟩ := bind_eq_ok_iff.mp h
  refine ⟨keys, facts, liftForest_eq_ok_iff.mp hkeys, hfacts, ?_⟩
  cases basis with
  | priceToSales =>
    obtain rfl := pure_eq_ok_iff.mp h
    exact ⟨hgppe, ⟨salesFacts, hsalesFacts⟩, salesFacts, hsalesFacts, hsales⟩
  | priceToGrossProfit =>
    obtain ⟨multipleFacts, hmultipleFacts, h⟩ := bind_eq_ok_iff.mp h
    obtain ⟨multiple, hmultiple, h⟩ := bind_eq_ok_iff.mp h
    obtain rfl := pure_eq_ok_iff.mp h
    exact ⟨hgppe, ⟨salesFacts, hsalesFacts⟩, multipleFacts, hmultipleFacts, hmultiple⟩

theorem decisionFactors_value
    (h : decisionFactors forest tree cls issuer basis riskFreeRate = .ok factors)
    (hvalue : factors.gppe.value = some value) :
    ComputedEfficiency forest tree cls issuer riskFreeRate value := by
  obtain ⟨keys, facts, hkeys, hfacts, hgppe, -⟩ := decisionFactors_inv h
  obtain ⟨nodes, leaves, evaluation, hrest⟩ := grossProfitPerEmployee_value hgppe hvalue
  exact ⟨keys, facts, nodes, leaves, evaluation, hkeys, hfacts, hrest⟩

structure EvaluatedDecision.Valued (decision : EvaluatedDecision) (issuer : IssuerInput) (laborEfficiency : ℚ)
    (band : TierBand) (tierResult : FactorResult) : Prop where
  issuerId : decision.issuerId = issuer.issuerId
  capitalAdjustedLaborEfficiency : decision.capitalAdjustedLaborEfficiency = some laborEfficiency
  tier : decision.tier = some band.tier
  eligible : decision.eligible = true
  outcome : decision.outcome ≠ .excluded
  exclusionReason : decision.exclusionReason = none
  confidence : decision.confidence = some tierResult.confidence

theorem valuedDecision_inv
    (h : valuedDecision definition tree issuer factors laborValue multipleValue = .ok (decision, gap)) :
    ∃ laborEfficiency currentMultiple tierResult band,
      quantize laborValue definition.laborEfficiencyQuantization = .ok laborEfficiency ∧
      quantize multipleValue definition.valuationQuantization = .ok currentMultiple ∧
      threeTierValuation [{ factors.gppe with value := some laborEfficiency },
        { factors.multiple with value := some currentMultiple }] issuer.issuerId definition = .ok tierResult ∧
      tierBand definition laborEfficiency = .ok band ∧
      ((tierResult.value = none ∧ decision = excluded issuer.issuerId .missingMarketValueInput
          (some tierResult.confidence) (some tree.root)) ∨
        (tierResult.value.isSome ∧ decision.Valued issuer laborEfficiency band tierResult)) := by
  unfold valuedDecision at h
  obtain ⟨_, -, h⟩ := bind_eq_ok_iff.mp h
  obtain ⟨_, -, h⟩ := bind_eq_ok_iff.mp h
  obtain ⟨laborEfficiency, hlabor, h⟩ := bind_eq_ok_iff.mp h
  obtain ⟨_, -, h⟩ := bind_eq_ok_iff.mp h
  obtain ⟨currentMultiple, hmultiple, h⟩ := bind_eq_ok_iff.mp h
  obtain ⟨tierResult, htier, h⟩ := bind_eq_ok_iff.mp h
  obtain ⟨band, hband, h⟩ := bind_eq_ok_iff.mp h
  obtain ⟨_, -, h⟩ := bind_eq_ok_iff.mp h
  obtain ⟨_, -, h⟩ := bind_eq_ok_iff.mp h
  refine ⟨laborEfficiency, currentMultiple, tierResult, band, hlabor, hmultiple, htier, liftBands_eq_ok_iff.mp hband, ?_⟩
  cases hgap : tierResult.value with
  | none =>
    simp only [hgap] at h
    obtain ⟨rfl, rfl⟩ := Prod.mk.inj (pure_eq_ok_iff.mp h)
    exact .inl ⟨rfl, rfl⟩
  | some value =>
    simp only [hgap] at h
    obtain ⟨_, -, h⟩ := bind_eq_ok_iff.mp h
    by_cases habove : band.targetUpperBound < currentMultiple
    · rw [if_pos habove] at h
      obtain ⟨rfl, rfl⟩ := Prod.mk.inj (pure_eq_ok_iff.mp h)
      exact .inr ⟨rfl, rfl, rfl, rfl, rfl, nofun, rfl, rfl⟩
    · rw [if_neg habove] at h
      obtain ⟨rfl, rfl⟩ := Prod.mk.inj (pure_eq_ok_iff.mp h)
      exact .inr ⟨rfl, rfl, rfl, rfl, rfl, nofun, rfl, rfl⟩

def TierOf (definition : StrategyDefinition) (decision : EvaluatedDecision) (value : ℚ) : Prop :=
  ∃ laborEfficiency band, quantize value definition.laborEfficiencyQuantization = .ok laborEfficiency ∧
    tierBand definition laborEfficiency = .ok band ∧ decision.tier = some band.tier ∧
    decision.capitalAdjustedLaborEfficiency = some laborEfficiency

theorem valuedDecision_tier
    (h : valuedDecision definition tree issuer factors laborValue multipleValue = .ok (decision, gap))
    (hne : decision.outcome ≠ .excluded) : TierOf definition decision laborValue := by
  obtain ⟨laborEfficiency, _, _, band, hlabor, _, _, hband, ⟨_, rfl⟩ | ⟨_, hvalued⟩⟩ := valuedDecision_inv h
  · exact absurd rfl hne
  · exact ⟨laborEfficiency, band, hlabor, hband, hvalued.tier, hvalued.capitalAdjustedLaborEfficiency⟩

theorem factorDecision_tier {consumedConfidence : ℚ}
    (h : factorDecision forest definition tree cls issuer riskFreeRate consumedConfidence = .ok (decision, gap))
    (hne : decision.outcome ≠ .excluded) :
    ∃ value, ComputedEfficiency forest tree cls issuer riskFreeRate value ∧ TierOf definition decision value := by
  unfold factorDecision at h
  obtain ⟨factors, hfactors, h⟩ := bind_eq_ok_iff.mp h
  split at h
  · next laborValue multipleValue hlabor _ =>
    exact ⟨laborValue, decisionFactors_value hfactors hlabor, valuedDecision_tier h hne⟩
  · obtain ⟨rfl, rfl⟩ := Prod.mk.inj (pure_eq_ok_iff.mp h)
    exact absurd rfl hne

theorem treeDecision_tier (h : treeDecision forest definition riskFreeRate asOf tree cls issuer = .ok (decision, gap))
    (hne : decision.outcome ≠ .excluded) :
    ∃ value, ComputedEfficiency forest tree cls issuer riskFreeRate value ∧ TierOf definition decision value := by
  have hexcluded : ∀ reason confidence, pure (excluded issuer.issuerId reason confidence (some tree.root), none) =
      (.ok (decision, gap) : Except FactorError (EvaluatedDecision × Option ℚ)) → False := by
    intro reason confidence hpure
    obtain ⟨rfl, rfl⟩ := Prod.mk.inj (pure_eq_ok_iff.mp hpure)
    exact hne rfl
  unfold treeDecision at h
  obtain ⟨consumed, -, h⟩ := bind_eq_ok_iff.mp h
  dsimp only at h
  split at h
  · exact (hexcluded _ _ h).elim
  · obtain ⟨stale, -, h⟩ := bind_eq_ok_iff.mp h
    cases stale with
    | true => exact (hexcluded _ _ h).elim
    | false =>
      obtain ⟨stalePeriod, -, h⟩ := bind_eq_ok_iff.mp h
      cases stalePeriod with
      | true => exact (hexcluded _ _ h).elim
      | false =>
        obtain ⟨confidence, -, h⟩ := bind_eq_ok_iff.mp h
        split_ifs at h
        · exact (hexcluded _ _ h).elim
        · exact factorDecision_tier h hne

end

end TrueAlpha.Strategy
