import TrueAlpha.Factors.PegSpec
import TrueAlpha.Strategy.Grounds

/-!
# The ratio of price, earnings and growth selects nothing

Two inputs that differ in net income only have decisions that differ in the fields of the ratio only: no rule and no other
factor reads it (`treeDecision_alike`), and the ranking does not read the ratio (`rankAndSelect_alike`).
-/

namespace TrueAlpha.Strategy

def withoutPeg (decision : EvaluatedDecision) : EvaluatedDecision :=
  { decision with peg := none, pegRank := none, pegReasonCodes := [] }

structure SameButNetIncome (a b : IssuerInput) : Prop where
  issuerId : a.issuerId = b.issuerId
  issuerClass : a.issuerClass = b.issuerClass
  knowableAt : a.knowableAt = b.knowableAt
  records : ∀ key, key ≠ "net_income" → a.records.get? key = b.records.get? key
  periodicRecords : ∀ key, key ≠ "net_income" → a.periodicRecords.get? key = b.periodicRecords.get? key

def AnnualTags (tags : List String) : Prop :=
  ∃ finishOf : String → Date, (∀ tag ∈ tags, 1 ≤ finishOf tag ∧ finishOf tag ≤ lastDate ∧
      ∃ filingFiscalYear, encodeAnnual (finishOf tag) filingFiscalYear = some tag) ∧
    ∀ tag ∈ tags, ∀ tag' ∈ tags, finishOf tag = finishOf tag' → tag = tag'

def IssuerInput.AnnualEarnings (issuer : IssuerInput) : Prop :=
  ∀ periods ∈ issuer.periodicRecords.get? "net_income", AnnualTags periods.keys

def IssuerInput.RatedEarnings (issuer : IssuerInput) : Prop :=
  (∀ record ∈ issuer.recordFor "net_income", 0 ≤ record.2 ∧ record.2 ≤ 1) ∧
    ∀ periods ∈ issuer.periodicRecords.get? "net_income", ∀ record ∈ periods.values, 0 ≤ record.2 ∧ record.2 ≤ 1

variable {required : List (String × ExclusionReason)}

section

variable {a b : IssuerInput} {definition : StrategyDefinition} {asOf : Instant} {consumed keys : List String}
  {key : String} {tree : MetricTree} {cls : IssuerClass} {riskFreeRate : ℚ}

section

variable (h : SameButNetIncome a b)

include h

theorem SameButNetIncome.recordFor_eq (hkey : key ≠ "net_income") : a.recordFor key = b.recordFor key := by
  unfold IssuerInput.recordFor
  rw [h.records key hkey, h.records "pre_provision_profit" (by decide), h.records "gross_profit" (by decide)]

theorem SameButNetIncome.factsOfKey_eq (hkey : key ≠ "net_income") : a.factsOfKey key = b.factsOfKey key := by
  unfold IssuerInput.factsOfKey
  rw [h.periodicRecords key hkey, h.recordFor_eq hkey, h.issuerId]

theorem SameButNetIncome.factsFor_eq (keys : List String) (hkeys : "net_income" ∉ keys) : a.factsFor keys = b.factsFor keys := by
  unfold IssuerInput.factsFor
  have hloop : ∀ facts, keys.foldlM (fun facts key => do
      let more ← a.factsOfKey key
      return facts ++ more) facts = keys.foldlM (fun facts key => do
      let more ← b.factsOfKey key
      return facts ++ more) facts := by
    induction keys with
    | nil => exact fun facts => rfl
    | cons key keys ih =>
      intro facts
      rw [List.mem_cons, not_or] at hkeys
      rw [List.foldlM_cons, List.foldlM_cons, h.factsOfKey_eq (Ne.symm hkeys.1)]
      congr 1
      funext facts'
      exact ih hkeys.2 facts'
  exact hloop []

theorem SameButNetIncome.missingRequiredReason_eq
    (hrequired : ∀ entry ∈ required, entry.1 ≠ "net_income") :
    missingRequiredReason a required = missingRequiredReason b required := by
  unfold missingRequiredReason
  congr 1
  induction required with
  | nil => rfl
  | cons entry required ih =>
    rw [List.forall_mem_cons] at hrequired
    have hiff : (resolveBankNumeratorKey entry.1 a.records.keys ∉ a.records.keys) ↔
        resolveBankNumeratorKey entry.1 b.records.keys ∉ b.records.keys := by
      rw [resolved_mem_iff, resolved_mem_iff, IssuerInput.Missing, IssuerInput.Missing, h.recordFor_eq hrequired.1]
    rw [List.find?_cons, List.find?_cons, decide_eq_decide.mpr hiff, ih hrequired.2]

theorem SameButNetIncome.consumedConfidenceFor_eq
    (hrequired : ∀ entry ∈ required, entry.1 ≠ "net_income") :
    consumedConfidenceFor a required = consumedConfidenceFor b required := by
  unfold consumedConfidenceFor
  congr 1
  apply List.filterMap_congr
  intro entry hentry
  rw [get?_resolveBankNumeratorKey, get?_resolveBankNumeratorKey, h.recordFor_eq (hrequired entry hentry)]

theorem SameButNetIncome.hasStaleRequiredInput_eq (maximumAgeDays : ℕ) :
    hasStaleRequiredInput a keys asOf maximumAgeDays = hasStaleRequiredInput b keys asOf maximumAgeDays := by
  unfold hasStaleRequiredInput
  rw [h.knowableAt, h.issuerId]

theorem SameButNetIncome.hasStalePeriod_eq (maximumAgeDays : ℕ) (hkeys : "net_income" ∉ keys) :
    hasStalePeriod a asOf maximumAgeDays keys = hasStalePeriod b asOf maximumAgeDays keys := by
  induction keys with
  | nil => rfl
  | cons key keys ih =>
    rw [List.mem_cons, not_or] at hkeys
    rw [hasStalePeriod, hasStalePeriod, h.recordFor_eq (Ne.symm hkeys.1), ih hkeys.2]

theorem SameButNetIncome.inputGate_eq (hconsumed : "net_income" ∉ consumed) :
    inputGate definition asOf consumed a = inputGate definition asOf consumed b := by
  have hrequired : ∀ entry ∈ requiredReasons definition.valuationBasis consumed, entry.1 ≠ "net_income" := by
    intro entry hentry heq
    have hmem := (of_decide_eq_true (List.mem_filter.mp hentry).2).1
    exact hconsumed (heq ▸ hmem)
  unfold inputGate
  dsimp only
  rw [h.missingRequiredReason_eq hrequired, h.consumedConfidenceFor_eq hrequired, h.hasStaleRequiredInput_eq,
    h.hasStalePeriod_eq _ hconsumed]

end

theorem registered_without_net_income : ∀ tree ∈ registeredForest.trees, ∀ cls ∈ tree.applicability,
    (∀ keys, laborEfficiencyKeys registeredForest tree cls = .ok keys → "net_income" ∉ keys) ∧
    (∀ keys, consumedInputKeys registeredForest tree cls = .ok keys → "net_income" ∉ keys) ∧
    ∀ keys, multipleKeys registeredForest tree cls .priceToGrossProfit = .ok keys → "net_income" ∉ keys := by
  decide +kernel

theorem SameButNetIncome.multipleFactsFor_eq (h : SameButNetIncome a b) (htree : tree ∈ registeredForest.trees)
    (hcls : cls ∈ tree.applicability) : multipleFactsFor registeredForest tree cls a .priceToGrossProfit =
      multipleFactsFor registeredForest tree cls b .priceToGrossProfit := by
  unfold multipleFactsFor
  dsimp only
  rw [if_pos rfl, if_pos rfl]
  rcases hnode : operatingNumeratorNode registeredForest tree cls with e | node
  · rfl
  · rcases hkey : inputKeyOf node with e | numerator
    · simp only [liftForest_ok, ok_bind, hkey]
      rfl
    · have hkeys : multipleKeys registeredForest tree cls .priceToGrossProfit = .ok
          ((inputKeys ValuationBasis.priceToGrossProfit.value (some cls)).map fun key =>
            if key = "gross_profit" ∨ key = "pre_provision_profit" then numerator else key) := by
        simp only [multipleKeys, hnode, hkey, ok_bind]
        rfl
      simp only [liftForest_ok, ok_bind, hkey, h.factsFor_eq _ ((registered_without_net_income tree htree cls hcls).2.2 _ hkeys)]

theorem SameButNetIncome.decisionFactors_eq (h : SameButNetIncome a b) (htree : tree ∈ registeredForest.trees)
    (hcls : cls ∈ tree.applicability) (basis : ValuationBasis) :
    decisionFactors registeredForest tree cls a basis riskFreeRate =
      decisionFactors registeredForest tree cls b basis riskFreeRate := by
  unfold decisionFactors
  rcases hkeys : laborEfficiencyKeys registeredForest tree cls with e | keys
  · rfl
  · have hlabor := h.factsFor_eq _ ((registered_without_net_income tree htree cls hcls).1 keys hkeys)
    have hsales := h.factsFor_eq (inputKeys "price_to_sales" none) (by decide)
    change (a.factsFor keys >>= _) = (b.factsFor keys >>= _)
    cases basis with
    | priceToSales => rw [hlabor, hsales, h.issuerId]
    | priceToGrossProfit => rw [hlabor, hsales, h.issuerId, h.multipleFactsFor_eq htree hcls]

theorem exists_factOf {entityId metric : String} (hmetric : (unitFamilyOf metric).isSome) (measure : Measure) {confidence : ℚ}
    (hrange : 0 ≤ confidence ∧ confidence ≤ 1) (period : Option String) : factOf entityId metric measure confidence period =
      .ok ⟨entityId, metric, some measure.value, confidence, period, some measure.unit⟩ := by
  have hknown : ¬ (unitFamilyOf metric).isNone := by
    obtain ⟨family, hfamily⟩ := Option.isSome_iff_exists.mp hmetric
    rw [hfamily]
    exact Bool.false_ne_true
  rw [factOf, if_neg hknown, if_neg (not_or.mpr ⟨not_lt.mpr hrange.1, not_lt.mpr hrange.2⟩)]

theorem unit_of_mem_factsOfKey {facts : List Fact} (h : a.factsOfKey key = .ok facts) {fact : Fact} (hfact : fact ∈ facts) :
    fact.unit.isSome := by
  have hunit : ∀ {measure : Measure} {confidence : ℚ} {period : Option String} {fact : Fact},
      factOf a.issuerId (metricForKey key) measure confidence period = .ok fact → fact.unit.isSome := by
    intro measure confidence period fact hof
    unfold factOf at hof
    split_ifs at hof
    cases hof
    rfl
  simp only [IssuerInput.factsOfKey] at h
  split at h
  · obtain ⟨entry, -, hentry⟩ := exists_of_mem_mapM h hfact
    exact hunit hentry
  · split at h
    · cases h
      cases hfact
    · obtain ⟨found, hfound, h⟩ := bind_eq_ok_iff.mp h
      obtain rfl := pure_eq_ok_iff.mp h
      obtain rfl := List.mem_singleton.mp hfact
      exact hunit hfound

theorem AnnualTags.parse {tags : List String} (h : AnnualTags tags) : ∃ finishOf : String → Date,
    (∀ tag ∈ tags, parseAnnual tag = .ok none ∨ ∃ period, parseAnnual tag = .ok (some period) ∧ period.finish = finishOf tag) ∧
    ∀ tag ∈ tags, ∀ tag' ∈ tags, finishOf tag = finishOf tag' → tag = tag' := by
  obtain ⟨finishOf, hencoded, hdistinct⟩ := h
  refine ⟨finishOf, fun tag htag => ?_, hdistinct⟩
  obtain ⟨hmin, hmax, filing, hencode⟩ := hencoded tag htag
  exact parseAnnual_encodeAnnual hmin hmax hencode

theorem exists_earnings (htags : a.AnnualEarnings) (hrated : a.RatedEarnings) :
    ∃ facts, a.factsOfKey "net_income" = .ok facts ∧ (∀ fact ∈ facts, ∀ tag ∈ fact.fiscalPeriod, parseAnnual tag ≠ .error ()) ∧
      facts.Pairwise fun x y => ∀ finish, x.annualEnd = some finish → y.annualEnd ≠ some finish := by
  have hmetric : (unitFamilyOf (metricForKey "net_income")).isSome := by decide
  unfold IssuerInput.factsOfKey
  dsimp only
  cases hperiods : a.periodicRecords.get? "net_income" with
  | none =>
    dsimp only
    cases hrecord : a.recordFor "net_income" with
    | none => exact ⟨[], rfl, nofun, .nil⟩
    | some record =>
      obtain ⟨measure, confidence⟩ := record
      dsimp only
      rw [exists_factOf hmetric measure (hrated.1 _ hrecord), ok_bind]
      refine ⟨_, rfl, fun fact hfact tag htag => ?_, List.pairwise_singleton _ _⟩
      obtain rfl := List.mem_singleton.mp hfact
      cases htag
  | some periods =>
    dsimp only
    obtain ⟨finishOf, hparse, hdistinct⟩ := (htags periods hperiods).parse
    -- one fact for each entry, in the order of the tags
    have hentry : ∀ entry ∈ sortedBy Prod.fst periods.items, entry.1 ∈ periods.keys ∧
        factOf a.issuerId (metricForKey "net_income") entry.2.1 entry.2.2 (some entry.1) =
          .ok ⟨a.issuerId, metricForKey "net_income", some entry.2.1.value, entry.2.2, some entry.1, some entry.2.1.unit⟩ := by
      intro entry hentry
      have hitem : entry ∈ periods.items := (mem_sortedBy _).mp hentry
      exact ⟨List.mem_map_of_mem hitem, exists_factOf hmetric _ (hrated.2 periods hperiods _ (List.mem_map_of_mem hitem)) _⟩
    have hsorted : (sortedBy Prod.fst periods.items).Pairwise fun x y => x.1 ≠ y.1 := by
      have hnodup : (periods.items.map Prod.fst).Nodup := periods.nodup_keys
      have hperm := ((perm_sortedBy Prod.fst periods.items).map Prod.fst).nodup_iff.mpr hnodup
      exact List.pairwise_map.mp hperm
    rw [mapM_congr_mem fun entry hmem => (hentry entry hmem).2, mapM_ok]
    refine ⟨_, rfl, ?_, ?_⟩
    · intro fact hfact tag htag
      obtain ⟨entry, hmem, rfl⟩ := List.mem_map.mp hfact
      cases htag
      obtain hnone | ⟨period, hperiod, -⟩ := hparse entry.1 (hentry entry hmem).1
      · rw [hnone]
        exact nofun
      · rw [hperiod]
        exact nofun
    · rw [List.pairwise_map]
      refine hsorted.imp_of_mem fun {x y} hx hy hne finish hfinish hfinish' => hne ?_
      have hend : ∀ entry ∈ sortedBy Prod.fst periods.items, ∀ finish,
          (Fact.mk a.issuerId (metricForKey "net_income") (some entry.2.1.value) entry.2.2 (some entry.1)
            (some entry.2.1.unit)).annualEnd = some finish → finish = finishOf entry.1 := by
        intro entry hmem finish hfinish
        simp only [Fact.annualEnd, Option.bind_some] at hfinish
        obtain hnone | ⟨period, hperiod, heq⟩ := hparse entry.1 (hentry entry hmem).1
        · rw [hnone] at hfinish
          cases hfinish
        · rw [hperiod] at hfinish
          cases hfinish
          exact heq
      exact hdistinct _ (hentry x hx).1 _ (hentry y hy).1 ((hend x hx _ hfinish).symm.trans (hend y hy _ hfinish'))

/-! ## The ratio of two inputs -/

theorem factsFor_append_singleton (issuer : IssuerInput) (keys : List String) (key : String) :
    issuer.factsFor (keys ++ [key]) = (do
      let facts ← issuer.factsFor keys
      let more ← issuer.factsOfKey key
      return facts ++ more) := by
  unfold IssuerInput.factsFor
  rw [List.foldlM_append]
  congr 1
  funext facts
  rw [List.foldlM_cons]
  cases issuer.factsOfKey key <;> rfl

theorem exists_peg_of_market {market earnings : List Fact} {price shares : Option Fact}
    (hunits : ∀ fact ∈ market, fact.unit.isSome ∧ fact.metric ≠ "net_income")
    (hprice : findFact market a.issuerId "price" = .ok price)
    (hshares : findFact market a.issuerId "shares_outstanding" = .ok shares)
    (hearnings : a.factsOfKey "net_income" = .ok earnings)
    (htags : ∀ fact ∈ earnings, ∀ tag ∈ fact.fiscalPeriod, parseAnnual tag ≠ .error ())
    (hapart : earnings.Pairwise fun x y => ∀ finish, x.annualEnd = some finish → y.annualEnd ≠ some finish) :
    ∃ result, peg (market ++ earnings) a.issuerId .historicalCagr 3 = .ok result := by
  have hmetric : ∀ fact ∈ earnings, fact.metric = "net_income" := fun fact hfact => (factsOfKey_names hearnings fact hfact).2
  have hfind : ∀ metric, metric ≠ "net_income" →
      findFact (market ++ earnings) a.issuerId metric = findFact market a.issuerId metric := by
    intro metric hne
    apply findFact_append_of_ne
    intro fact hfact heq
    exact hne (heq.symm.trans (hmetric fact hfact))
  obtain ⟨series, hseries⟩ := @exists_annualByPeriodEnd earnings a.issuerId "net_income" htags hapart
  refine exists_peg (by omega) ?_ ((hfind "price" (by decide)).trans hprice)
    ((hfind "shares_outstanding" (by decide)).trans hshares)
    ((annualByPeriodEnd_append_of_ne fun fact hfact => (hunits fact hfact).2).trans hseries)
  intro fact hfact
  obtain hmarket | hearning := List.mem_append.mp hfact
  · exact (hunits fact hmarket).1
  · exact unit_of_mem_factsOfKey hearnings hearning

theorem peg_error {facts : List Fact} {entityId : String} {e : FactorError} (h : (do
      let _ ← findFact facts entityId "price"
      findFact facts entityId "shares_outstanding") = .error e) :
    peg facts entityId .historicalCagr 3 = .error e := by
  unfold peg
  dsimp only
  rw [if_neg (by omega), if_neg (not_guided_of_historical facts entityId)]
  rcases hprice : findFact facts entityId "price" with e' | price
  · rw [hprice] at h
    obtain rfl : e' = e := Except.error.inj h
    rfl
  · rw [hprice, ok_bind] at h
    rw [ok_bind, h]
    rfl

def RatiosAlike (a b : IssuerInput) : Prop :=
  Alike (fun facts facts' => Alike (fun _ _ => True) (peg facts a.issuerId .historicalCagr 3)
    (peg facts' b.issuerId .historicalCagr 3)) (a.factsFor (inputKeys "peg" none)) (b.factsFor (inputKeys "peg" none))

theorem peg_alike (h : SameButNetIncome a b) (htags : a.AnnualEarnings) (hrated : a.RatedEarnings)
    (htags' : b.AnnualEarnings) (hrated' : b.RatedEarnings) : RatiosAlike a b := by
  unfold RatiosAlike
  obtain ⟨earnings, hearnings, hparse, hapart⟩ := exists_earnings htags hrated
  obtain ⟨earnings', hearnings', hparse', hapart'⟩ := exists_earnings htags' hrated'
  have hkeys : inputKeys "peg" none = ["last_close", "shares_outstanding"] ++ ["net_income"] := by decide
  rw [hkeys, factsFor_append_singleton, factsFor_append_singleton, hearnings, hearnings',
    h.factsFor_eq ["last_close", "shares_outstanding"] (by decide)]
  rcases hmarket : b.factsFor ["last_close", "shares_outstanding"] with e | market
  · exact .error e
  · refine Alike.ok ?_
    have hunits : ∀ fact ∈ market, fact.unit.isSome ∧ fact.metric ≠ "net_income" := by
      intro fact hfact
      obtain ⟨key, hkey, more, hmore, hin⟩ := (factsFor_spec hmarket).2 fact hfact
      refine ⟨unit_of_mem_factsOfKey hmore hin, ?_⟩
      rw [(factsOfKey_names hmore fact hin).2]
      have hnames : ∀ key ∈ ["last_close", "shares_outstanding"], metricForKey key ≠ "net_income" := by decide
      exact hnames key hkey
    have hfind : ∀ {issuer : IssuerInput} {earnings : List Fact}, issuer.factsOfKey "net_income" = .ok earnings →
        ∀ entityId metric, metric ≠ "net_income" → findFact (market ++ earnings) entityId metric = findFact market entityId metric := by
      intro issuer earnings hearnings entityId metric hne
      apply findFact_append_of_ne
      intro fact hfact heq
      exact hne (heq.symm.trans (factsOfKey_names hearnings fact hfact).2)
    rcases hprice : findFact market b.issuerId "price" with e | price
    · rw [peg_error (e := e), peg_error (e := e)]
      · exact .error e
      · rw [hfind hearnings' _ _ (by decide), hprice]
        rfl
      · rw [hfind hearnings _ _ (by decide), h.issuerId, hprice]
        rfl
    · rcases hshares : findFact market b.issuerId "shares_outstanding" with e | shares
      · rw [peg_error (e := e), peg_error (e := e)]
        · exact .error e
        · rw [hfind hearnings' _ _ (by decide), hprice, ok_bind, hfind hearnings' _ _ (by decide), hshares]
        · rw [hfind hearnings _ _ (by decide), h.issuerId, hprice, ok_bind, hfind hearnings _ _ (by decide), hshares]
      · obtain ⟨result, hresult⟩ := exists_peg_of_market (a := a) hunits (h.issuerId ▸ hprice) (h.issuerId ▸ hshares) hearnings
          hparse hapart
        obtain ⟨result', hresult'⟩ := exists_peg_of_market (a := b) hunits hprice hshares hearnings' hparse' hapart'
        rw [hresult, hresult']
        exact .ok trivial

def SameButPeg (x y : EvaluatedDecision × Option ℚ) : Prop := withoutPeg x.1 = withoutPeg y.1 ∧ x.2 = y.2

theorem valuedDecision_alike (h : SameButNetIncome a b) (hpeg : RatiosAlike a b) (factors : DecisionFactors) (laborValue multipleValue : ℚ) :
    Alike SameButPeg (valuedDecision definition tree a factors laborValue multipleValue)
      (valuedDecision definition tree b factors laborValue multipleValue) := by
  unfold valuedDecision
  refine hpeg.bind fun facts facts' hratio => hratio.bind fun result result' _ => ?_
  rw [h.issuerId]
  -- from here on the two runs compute the same, and differ in the fields of the ratio
  refine .bind_self fun laborEfficiency => .bind_self fun currentSales => .bind_self fun currentMultiple =>
    .bind_self fun tierResult => .bind_self fun band => .bind_self fun midpoint => .bind_self fun targetMultiple => ?_
  cases tierResult.value with
  | none => exact .ok ⟨rfl, rfl⟩
  | some gap =>
    refine .bind_self fun valuationGap => ?_
    split_ifs <;> exact .ok ⟨rfl, rfl⟩

theorem factorDecision_alike (h : SameButNetIncome a b) (htree : tree ∈ registeredForest.trees)
    (hcls : cls ∈ tree.applicability) (hpeg : RatiosAlike a b) (confidence : ℚ) :
    Alike SameButPeg (factorDecision registeredForest definition tree cls a riskFreeRate confidence)
      (factorDecision registeredForest definition tree cls b riskFreeRate confidence) := by
  unfold factorDecision
  rw [h.decisionFactors_eq htree hcls, h.issuerId]
  refine .bind_self fun factors => ?_
  split
  · exact valuedDecision_alike h hpeg factors _ _
  · exact .ok ⟨rfl, rfl⟩

theorem treeDecision_alike (h : SameButNetIncome a b) (htree : tree ∈ registeredForest.trees)
    (hcls : cls ∈ tree.applicability) (hpeg : RatiosAlike a b) :
    Alike SameButPeg (treeDecision registeredForest definition riskFreeRate asOf tree cls a)
      (treeDecision registeredForest definition riskFreeRate asOf tree cls b) := by
  rw [treeDecision_eq, treeDecision_eq]
  rcases hconsumed : consumedInputKeys registeredForest tree cls with e | consumed
  · exact .error _
  · rw [liftForest_ok, ok_bind, ok_bind, h.inputGate_eq ((registered_without_net_income tree htree cls hcls).2.1 _ hconsumed)]
    refine .bind_self fun verdict => ?_
    cases verdict with
    | refused reason confidence =>
      unfold decisionOfVerdict
      rw [h.issuerId]
      exact .ok ⟨rfl, rfl⟩
    | passed confidence => exact factorDecision_alike h htree hcls hpeg confidence

end

/-! ## The ranking -/

theorem withoutPeg_ranked (definition : StrategyDefinition) (weight : ℚ) (decision : EvaluatedDecision) (rank : ℕ) :
    withoutPeg (ranked definition weight decision rank) = ranked definition weight (withoutPeg decision) rank := by
  unfold ranked
  split_ifs <;> rfl

section

variable (definition : StrategyDefinition) (weight : ℚ) (decisions : List EvaluatedDecision)

theorem candidates_withoutPeg : candidates (decisions.map withoutPeg) = (candidates decisions).map withoutPeg := by
  unfold candidates
  rw [List.filter_map]
  rfl

def neutralOut : List EvaluatedDecision :=
  sortedBy EvaluatedDecision.issuerId ((decisions.filter fun decision => ¬ isCandidate decision).map withoutPeg ++
    (((sortedBy gapKey (candidates decisions)).map withoutPeg).zipIdx 1).map fun entry =>
      ranked definition weight entry.1 entry.2)

theorem map_withoutPeg_out : (sortedBy EvaluatedDecision.issuerId
    (placedResolved decisions ++ placedRanked definition weight decisions)).map withoutPeg =
      neutralOut definition weight decisions := by
  rw [← sortedBy_map EvaluatedDecision.issuerId EvaluatedDecision.issuerId withoutPeg fun _ => rfl, neutralOut, List.map_append]
  congr 2
  · rw [placedResolved, List.map_map]
    rfl
  · rw [placedRanked, List.zipIdx_map, List.zipIdx_map, List.map_map, List.map_map, List.map_map]
    refine List.map_congr_left fun entry _ => ?_
    exact withoutPeg_ranked definition weight _ _

theorem neutralOut_withoutPeg : neutralOut definition weight (decisions.map withoutPeg) = neutralOut definition weight decisions := by
  have hresolved : ((decisions.map withoutPeg).filter fun decision => ¬ isCandidate decision) =
      (decisions.filter fun decision => ¬ isCandidate decision).map withoutPeg := by
    rw [List.filter_map]
    rfl
  have hidem : withoutPeg ∘ withoutPeg = withoutPeg := rfl
  rw [neutralOut, neutralOut, hresolved, candidates_withoutPeg, sortedBy_map gapKey gapKey withoutPeg fun _ => rfl,
    List.map_map, List.map_map, hidem]

end

theorem rankAndSelect_alike (definition : StrategyDefinition) {decisions decisions' : List EvaluatedDecision}
    (h : decisions.map withoutPeg = decisions'.map withoutPeg) :
    Alike (fun out out' => out.map withoutPeg = out'.map withoutPeg) (rankAndSelect definition decisions)
      (rankAndSelect definition decisions') := by
  have hcount : (candidates decisions).length = (candidates decisions').length := by
    have hlength := congrArg List.length (congrArg candidates h)
    simpa [candidates_withoutPeg] using hlength
  obtain ⟨weight, hweight⟩ := exists_selectionWeight definition (candidates decisions).length
  rw [rankAndSelect_eq definition weight hweight, rankAndSelect_eq definition weight (hcount ▸ hweight)]
  refine .ok ?_
  rw [map_withoutPeg_out, map_withoutPeg_out, ← neutralOut_withoutPeg, h, neutralOut_withoutPeg]

section

variable {a b : IssuerInput} {definition : StrategyDefinition} {asOf : Instant} {riskFreeRate : ℚ}
  {treeSha256 : Forest → MetricTree → String} {treePins : Option (Dict String LaborEfficiencyTreePin)}
  {trees : Dict IssuerClass MetricTree}

theorem evaluateIssuer_alike (htrees : pinnedTrees treeSha256 registeredForest definition treePins = .ok trees)
    (h : SameButNetIncome a b) (hpeg : RatiosAlike a b) :
    Alike SameButPeg (evaluateIssuer registeredForest definition riskFreeRate asOf trees a)
      (evaluateIssuer registeredForest definition riskFreeRate asOf trees b) := by
  unfold evaluateIssuer
  rw [h.issuerClass, h.issuerId]
  cases b.issuerClass with
  | none => exact .ok ⟨rfl, rfl⟩
  | some cls =>
    cases htree : trees.get? cls with
    | none =>
      simp only [htree]
      exact .ok ⟨rfl, rfl⟩
    | some tree =>
      simp only [htree]
      obtain ⟨hmem, hcls⟩ := boundTree_spec (boundTree_of_pinnedTrees htrees htree)
      exact treeDecision_alike h hmem hcls hpeg

end

/-- Two inputs that agree outside of net income, which both tag by distinct annual periods and rate in the range. -/
structure NetIncomeVariant (a b : IssuerInput) : Prop where
  same : SameButNetIncome a b
  annual : a.AnnualEarnings ∧ b.AnnualEarnings
  rated : a.RatedEarnings ∧ b.RatedEarnings

theorem evaluateCutoff_alike (treeSha256 : Forest → MetricTree → String) (definition : StrategyDefinition)
    (cutoffAt : Instant) (riskFreeRate : ℚ) (treePins : Option (Dict String LaborEfficiencyTreePin))
    (refusals : Dict String ExclusionReason) {issuers issuers' : List IssuerInput}
    (h : List.Forall₂ NetIncomeVariant issuers issuers') :
    Alike (fun out out' => out.map withoutPeg = out'.map withoutPeg)
      (evaluateCutoff treeSha256 registeredForest definition cutoffAt riskFreeRate treePins refusals issuers)
      (evaluateCutoff treeSha256 registeredForest definition cutoffAt riskFreeRate treePins refusals issuers') := by
  unfold evaluateCutoff
  rcases htrees : pinnedTrees treeSha256 registeredForest definition treePins with e | trees
  · exact .error _
  · rw [liftForest_ok, ok_bind, ok_bind]
    refine (Alike.mapM (S := fun x y => withoutPeg x = withoutPeg y) (h.imp fun a b hab => ?_)).bind
      fun decisions decisions' hsame => rankAndSelect_alike definition ?_
    · rw [hab.same.issuerId]
      cases refusals.get? b.issuerId with
      | some reason => exact .ok rfl
      | none =>
        have hpeg := peg_alike hab.same hab.annual.1 hab.rated.1 hab.annual.2 hab.rated.2
        exact (evaluateIssuer_alike htrees hab.same hpeg).map fun _ _ hsame => hsame.1
    · rw [← List.forall₂_eq_eq_eq, List.forall₂_map_left_iff, List.forall₂_map_right_iff]
      exact hsame

def earnerRecords : Dict String (Measure × ℚ) :=
  let measure (unit : MeasureUnit) (value : ℚ) : Measure × ℚ := (⟨value, unit, none⟩, 1)
  let dollars : MeasureUnit := .money "USD"
  let shares : MeasureUnit := .units "issuer:a"
  let perShare : MeasureUnit := .perUnit "USD" "issuer:a"
  Dict.ofList [("gross_profit", measure dollars 1000000), ("headcount", measure shares 2), ("last_close", measure perShare 10),
    ("revenue", measure dollars 2000000), ("shares_outstanding", measure shares 100000), ("total_assets", measure dollars 5000000)]

def earnerYears : List (String × Date) :=
  [("FY2021:FY:2021-01-01:2021-12-31", ordinal 2021 12 31), ("FY2022:FY:2022-01-01:2022-12-31", ordinal 2022 12 31),
    ("FY2023:FY:2023-01-01:2023-12-31", ordinal 2023 12 31), ("FY2024:FY:2024-01-01:2024-12-31", ordinal 2024 12 31)]

def earner (earlier later confidence : ℚ) : IssuerInput where
  issuerId := "issuer:a"
  records := earnerRecords.set "net_income" (⟨later, .money "USD", none⟩, confidence)
  knowableAt := Dict.ofList (("net_income" :: earnerRecords.keys).map fun key => (key, newYear - 10 * microsPerDay))
  periodicRecords := Dict.empty.set "net_income" (Dict.ofList (earnerYears.map fun year =>
    (year.1, (⟨if year.2 = ordinal 2024 12 31 then later else earlier, .money "USD", none⟩, confidence))))
  issuerClass := some .nonFinancial

theorem earner_same (earlier later confidence earlier' later' confidence' : ℚ) :
    SameButNetIncome (earner earlier later confidence) (earner earlier' later' confidence') where
  issuerId := rfl
  issuerClass := rfl
  knowableAt := rfl
  records := fun key hkey => by
    simp only [earner, Dict.get?_set, if_neg (Ne.symm hkey)]
  periodicRecords := fun key hkey => by
    simp only [earner, Dict.get?_set, if_neg (Ne.symm hkey)]

theorem earner_annual (earlier later confidence : ℚ) : (earner earlier later confidence).AnnualEarnings := by
  rintro periods ⟨⟩
  change AnnualTags (earnerYears.map Prod.fst)
  have hspec : ∀ tag ∈ earnerYears.map Prod.fst, 1 ≤ ((Dict.ofList earnerYears).get? tag).getD 0 ∧
      ((Dict.ofList earnerYears).get? tag).getD 0 ≤ lastDate ∧
      encodeAnnual (((Dict.ofList earnerYears).get? tag).getD 0) none = some tag := by decide +kernel
  refine ⟨fun tag => ((Dict.ofList earnerYears).get? tag).getD 0, fun tag htag => ?_, by decide +kernel⟩
  obtain ⟨hmin, hmax, hencode⟩ := hspec tag htag
  exact ⟨hmin, hmax, none, hencode⟩

example : earnerYears.map (fun year => encodeAnnual year.2 none) = earnerYears.map (fun year => some year.1) := by
  decide +kernel

theorem earner_rated {earlier later confidence : ℚ} (h : 0 ≤ confidence ∧ confidence ≤ 1) :
    (earner earlier later confidence).RatedEarnings := by
  refine ⟨?_, ?_⟩
  · rintro record ⟨⟩
    exact h
  · rintro periods ⟨⟩ record hrecord
    change record ∈ earnerYears.map fun year =>
      ((⟨if year.2 = ordinal 2024 12 31 then later else earlier, .money "USD", none⟩ : Measure), confidence) at hrecord
    obtain ⟨year, -, rfl⟩ := List.mem_map.mp hrecord
    exact h

end TrueAlpha.Strategy
