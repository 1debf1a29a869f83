import TrueAlpha.Datahub.AnnualValues

/-!
# The order of the entries of a document

The figure of a period end is the first of its best entries, so it does not depend on their order exactly when the best entries
agree (`serialization_order_iff`); then neither do the fields and the bundle.
-/

namespace TrueAlpha.Datahub

open Strategy (OperatingBranch)

def Reordered (facts facts' : CompanyFacts) : Prop :=
  ∀ taxonomy concept unit, (facts'.entries taxonomy concept unit).Perm (facts.entries taxonomy concept unit)

def CompanyFacts.withEntries (facts : CompanyFacts) (taxonomy concept unit : String) (entries : List FactEntry) : CompanyFacts :=
  Dict.set facts taxonomy (((facts.get? taxonomy).getD Dict.empty).set concept
    ((facts.units taxonomy concept).set unit entries))

theorem CompanyFacts.entries_withEntries (facts : CompanyFacts) (taxonomy concept unit : String)
    (entries : List FactEntry) (taxonomy' concept' unit' : String) :
    (facts.withEntries taxonomy concept unit entries).entries taxonomy' concept' unit' =
      if taxonomy = taxonomy' ∧ concept = concept' ∧ unit = unit' then entries
      else facts.entries taxonomy' concept' unit' := by
  unfold withEntries CompanyFacts.entries CompanyFacts.units
  by_cases htaxonomy : taxonomy = taxonomy'
  · subst htaxonomy
    rw [Dict.get?_set_self, Option.getD_some]
    by_cases hconcept : concept = concept'
    · subst hconcept
      rw [Dict.get?_set_self, Option.getD_some, Dict.get?_set]
      by_cases hunit : unit = unit'
      · simp [hunit]
      · simp [hunit]
    · rw [Dict.get?_set_of_ne _ _ hconcept]
      simp [hconcept]
  · rw [Dict.get?_set_of_ne _ _ htaxonomy]
    simp [htaxonomy]

variable {γ : Type} {reader : Reader} {facts facts' : CompanyFacts} {unit : String} {cutoff : Date}

def BestOfPeriod (reader : Reader) (facts : CompanyFacts) (unit : String) (cutoff : Date) (concept : ConceptRef)
    (datum : Datum) : Prop :=
  Asserts reader facts unit cutoff concept datum ∧ ∀ other, Asserts reader facts unit cutoff concept other →
    other.periodEnd = datum.periodEnd → datum.order ≤ other.order

def TiesAgree (φ : Datum → γ) (reader : Reader) (facts : CompanyFacts) (unit : String) (cutoff : Date)
    (concept : ConceptRef) : Prop :=
  ∀ datum datum', BestOfPeriod reader facts unit cutoff concept datum →
    BestOfPeriod reader facts unit cutoff concept datum' → datum.periodEnd = datum'.periodEnd → φ datum = φ datum'

variable {periodEnd : Date}

theorem isBest_eligible_iff {concept : ConceptRef} {datum : Datum} :
    IsBest Datum.order ((facts.entries concept.taxonomy concept.concept unit).map
        (eligibleAt (fun entry => annualDatum reader entry unit) cutoff periodEnd)) datum ↔
      BestOfPeriod reader facts unit cutoff concept datum ∧ datum.periodEnd = periodEnd := by
  unfold IsBest BestOfPeriod
  simp only [mem_eligible_iff]
  constructor
  · rintro ⟨⟨hasserts, rfl⟩, hleast⟩
    exact ⟨⟨hasserts, fun other hother hend => hleast other ⟨hother, hend⟩⟩, rfl⟩
  · rintro ⟨⟨hasserts, hleast⟩, rfl⟩
    exact ⟨⟨hasserts, rfl⟩, fun other hother => hleast other hother.1 hother.2⟩

theorem annualValues_reordered_iff (φ : Datum → γ) (concept : ConceptRef) : (∀ facts', Reordered facts facts' → ∀ periodEnd,
      ((annualValuesByPeriodEnd reader facts' concept.taxonomy concept.concept unit cutoff).get? periodEnd).map φ =
        ((annualValuesByPeriodEnd reader facts concept.taxonomy concept.concept unit cutoff).get? periodEnd).map φ) ↔
      TiesAgree φ reader facts unit cutoff concept := by
  have hperm := fun periodEnd => firstBest_perm_iff Datum.order
    (eligibleAt (fun entry => annualDatum reader entry unit) cutoff periodEnd) φ
    (facts.entries concept.taxonomy concept.concept unit)
  simp only [isBest_eligible_iff] at hperm
  simp only [get?_annualValuesByPeriodEnd]
  constructor
  · intro hsame datum datum' hbest hbest' hend
    refine (hperm datum'.periodEnd).mp (fun entries hentries => ?_) datum datum' ⟨hbest, hend⟩ ⟨hbest', rfl⟩
    have hreordered : Reordered facts (facts.withEntries concept.taxonomy concept.concept unit entries) := by
      intro taxonomy' concept' unit'
      rw [CompanyFacts.entries_withEntries]
      split_ifs with hat
      · obtain ⟨rfl, rfl, rfl⟩ := hat
        exact hentries
      · exact List.Perm.refl _
    have h := hsame _ hreordered datum'.periodEnd
    rw [CompanyFacts.entries_withEntries, if_pos ⟨rfl, rfl, rfl⟩] at h
    exact h
  · intro hagree facts' hreordered periodEnd
    refine (hperm periodEnd).mpr (fun datum datum' hbest hbest' => ?_) _ (hreordered _ _ _)
    exact hagree datum datum' hbest.1 hbest'.1 (hbest.2.trans hbest'.2.symm)

def Series.Same (values values' : Series) : Prop := ∀ periodEnd, values'.get? periodEnd = values.get? periodEnd

namespace Series.Same

variable {values values' other other' : Series}

section

variable (h : values.Same values')

include h

theorem mem_keys : periodEnd ∈ values'.keys ↔ periodEnd ∈ values.keys := by
  rw [Dict.mem_keys_iff, Dict.mem_keys_iff, h periodEnd]

theorem mem_values {datum : Datum} : datum ∈ values'.values ↔ datum ∈ values.values := by
  constructor
  · intro hdatum
    obtain ⟨periodEnd, hget⟩ := Dict.exists_get?_of_mem_values hdatum
    exact Dict.mem_values_of_get? ((h periodEnd).symm.trans hget)
  · intro hdatum
    obtain ⟨periodEnd, hget⟩ := Dict.exists_get?_of_mem_values hdatum
    exact Dict.mem_values_of_get? ((h periodEnd).trans hget)

theorem latest : Datahub.latest values' = Datahub.latest values := by
  unfold Datahub.latest
  rw [max?_congr_mem fun periodEnd => h.mem_keys]
  exact congrArg _ (funext h)

theorem sharedEnds (hother : other.Same other') :
    periodEnd ∈ Datahub.sharedEnds values' other' ↔ periodEnd ∈ Datahub.sharedEnds values other := by
  unfold Datahub.sharedEnds
  simp only [List.mem_filter, decide_eq_true_eq, h.mem_keys, hother.mem_keys]

theorem differenceAtSharedPeriod (hother : other.Same other') :
    Datahub.differenceAtSharedPeriod values' other' = Datahub.differenceAtSharedPeriod values other := by
  unfold Datahub.differenceAtSharedPeriod
  rw [max?_congr_mem fun periodEnd => h.sharedEnds hother]
  simp only [h _, hother _]

theorem sumAtSharedPeriod (hother : other.Same other') :
    Datahub.sumAtSharedPeriod values' other' = Datahub.sumAtSharedPeriod values other := by
  unfold Datahub.sumAtSharedPeriod
  rw [max?_congr_mem fun periodEnd => h.sharedEnds hother]
  simp only [h _, hother _]

theorem sortedItems : sortedBy Prod.fst values'.items = sortedBy Prod.fst values.items := by
  refine sortedBy_eq_of_perm Prod.fst ?_ values'.nodup
  refine (List.perm_ext_iff_of_nodup (List.Nodup.of_map _ values'.nodup) (List.Nodup.of_map _ values.nodup)).mpr ?_
  rintro ⟨periodEnd, datum⟩
  rw [← Dict.get?_eq_some_iff, ← Dict.get?_eq_some_iff, h periodEnd]

end

end Series.Same

theorem find?_same {f f' : ConceptRef → Series} (hsame : ∀ concept, (f concept).Same (f' concept)) (p : Series → Bool)
    (hp : ∀ values values', values.Same values' → p values' = p values) (concepts : List ConceptRef) :
    Option.Rel Series.Same ((concepts.map f).find? p) ((concepts.map f').find? p) := by
  induction concepts with
  | nil => exact .none
  | cons concept rest ih =>
    rw [List.map_cons, List.map_cons, List.find?_cons, List.find?_cons, hp _ _ (hsame concept)]
    cases p (f concept) with
    | true => exact .some (hsame concept)
    | false => exact ih

theorem firstSeries_same {first first' second second' : Option Series} (hfirst : Option.Rel Series.Same first first')
    (hsecond : Option.Rel Series.Same second second') :
    Series.Same ((first.or second).getD Dict.empty) ((first'.or second').getD Dict.empty) := by
  cases hfirst with
  | some h => exact h
  | none =>
    cases hsecond with
    | some h => exact h
    | none => exact fun _ => rfl

theorem preferredVariant_eq (reader : Reader) (facts : CompanyFacts) (concepts : List ConceptRef) (unit : String)
    (cutoff : Date) : preferredVariant reader facts concepts unit cutoff = (((concepts.map fun concept =>
          annualValuesByPeriodEnd reader facts concept.taxonomy concept.concept unit cutoff).find?
            fun values => values.values.any fun datum => datum.rank = 0).or
        ((concepts.map fun concept =>
          annualValuesByPeriodEnd reader facts concept.taxonomy concept.concept unit cutoff).find?
            fun values => values.keys ≠ [])).getD Dict.empty := by
  unfold preferredVariant
  dsimp only
  cases List.find? (fun values : Series => values.values.any fun datum => datum.rank = 0) (concepts.map fun concept =>
    annualValuesByPeriodEnd reader facts concept.taxonomy concept.concept unit cutoff) with
  | none => rfl
  | some values => rfl

def AllTiesAgree (reader : Reader) (facts : CompanyFacts) (cutoff : Date) : Prop :=
  ∀ unit concept, TiesAgree id reader facts unit cutoff concept

section

variable (hties : AllTiesAgree reader facts cutoff) (hreordered : Reordered facts facts')

include hties hreordered

theorem annualValues_same (taxonomy concept unit : String) :
    (annualValuesByPeriodEnd reader facts taxonomy concept unit cutoff).Same
      (annualValuesByPeriodEnd reader facts' taxonomy concept unit cutoff) := by
  intro periodEnd
  have h := (annualValues_reordered_iff id ⟨taxonomy, concept⟩).mpr (hties unit ⟨taxonomy, concept⟩) facts' hreordered
    periodEnd
  rwa [Option.map_id, id, id] at h

theorem mergeVariants_same (concepts : List ConceptRef) :
    (mergeVariants reader facts concepts unit cutoff).Same (mergeVariants reader facts' concepts unit cutoff) := by
  intro periodEnd
  rw [get?_mergeVariants, get?_mergeVariants]
  simp only [annualValues_same hties hreordered _ _ _ periodEnd]

theorem preferredVariant_same (concepts : List ConceptRef) :
    (preferredVariant reader facts concepts unit cutoff).Same (preferredVariant reader facts' concepts unit cutoff) := by
  have hsame := fun concept : ConceptRef =>
    annualValues_same hties hreordered concept.taxonomy concept.concept unit
  have hstatement := find?_same hsame (fun values : Series => values.values.any fun datum => datum.rank = 0)
    (fun values values' h => by simp only [List.any_eq, h.mem_values, decide_eq_true_eq]) concepts
  have hreported := find?_same hsame (fun values : Series => values.keys ≠ [])
    (fun values values' h => by simp only [ne_eq, List.eq_nil_iff_forall_not_mem, h.mem_keys]) concepts
  rw [preferredVariant_eq, preferredVariant_eq]
  exact firstSeries_same hstatement hreported

theorem resolveField_same (ruleset : ConceptMappingRuleset) (field : String) :
    (resolveField reader facts ruleset field cutoff).Same (resolveField reader facts' ruleset field cutoff) := by
  intro periodEnd
  unfold resolveField
  cases ruleset.mappingFor field with
  | none => rfl
  | some mapping =>
    cases hkind : mapping.kind with
    | fallback =>
      simp only [hkind]
      exact preferredVariant_same hties hreordered _ periodEnd
    | synonym =>
      simp only [hkind]
      exact mergeVariants_same hties hreordered _ periodEnd

end

section

variable {series series' : String → Series} (h : ∀ field, (series field).Same (series' field))

include h

theorem tierAt_same (periodEnd : Date) (fields : List String) :
    tierAt series' periodEnd fields = tierAt series periodEnd fields := by
  simp only [tierAt, h _ periodEnd]

theorem bankAssets_same : bankAssets series' = bankAssets series := by
  have hends : ∀ fields : List String, (fields.flatMap fun field => (series' field).keys).max? =
      (fields.flatMap fun field => (series field).keys).max? := by
    intro fields
    refine max?_congr_mem fun periodEnd => ?_
    simp only [List.mem_flatMap, (h _).mem_keys]
  simp only [bankAssets, hends, tierAt_same h]

theorem operatingAssets_same : operatingAssets series' = operatingAssets series := by
  simp only [operatingAssets, cashAssets, combinedAssets, tierAt_same h, (h _).latest]

theorem investmentReturns_same : investmentReturns series' = investmentReturns series := by
  simp only [investmentReturns, tierAt_same h, (h _).latest]

theorem tangibleAt_same (periodEnd : Date) : tangibleAt series' periodEnd = tangibleAt series periodEnd := by
  have hintangibles : intangiblesAt series' periodEnd = intangiblesAt series periodEnd := by
    simp only [intangiblesAt, h _ periodEnd]
  unfold tangibleAt
  rw [hintangibles, h "stockholders_equity" periodEnd, h "preferred_stock_value" periodEnd, h "goodwill" periodEnd]

end

section

variable (hties : AllTiesAgree reader facts cutoff) (hreordered : Reordered facts facts')
  (ruleset : ConceptMappingRuleset) (branch : OperatingBranch)

include hties hreordered

theorem operatingFigures_reordered :
    operatingFigures reader facts' ruleset cutoff branch = operatingFigures reader facts ruleset cutoff branch := by
  have h := resolveField_same hties hreordered ruleset
  have hends : (resolveField reader facts' ruleset "revenue" cutoff).keys.max? =
      (resolveField reader facts ruleset "revenue" cutoff).keys.max? := max?_congr_mem fun _ => (h "revenue").mem_keys
  simp only [operatingFigures, preProvisionProfit, bankNetRevenue, insurancePreClaimsProfit, grossProfit, (h _).latest,
    (h _).differenceAtSharedPeriod (h _), (h _).sumAtSharedPeriod (h _), hends]

theorem financialComponents_reordered :
    financialComponents reader facts' ruleset cutoff branch = financialComponents reader facts ruleset cutoff branch := by
  have h := resolveField_same hties hreordered ruleset
  simp only [financialComponents, bankAssets_same h, operatingAssets_same h, investmentReturns_same h]

theorem tangibleCommonEquityComponents_reordered : tangibleCommonEquityComponents reader facts' ruleset cutoff branch =
      tangibleCommonEquityComponents reader facts ruleset cutoff branch := by
  have h := resolveField_same hties hreordered ruleset
  have hends := sortedSet_congr_mem fun _ => (h "stockholders_equity").sharedEnds (h "goodwill")
  simp only [tangibleCommonEquityComponents, hends, funext (tangibleAt_same h)]

end

theorem statementPeriodEnds_reordered (hreordered : Reordered facts facts') (ruleset : ConceptMappingRuleset) :
    statementPeriodEnds reader facts' ruleset cutoff = statementPeriodEnds reader facts ruleset cutoff := by
  have hknown : ∀ (taxonomy concept unit : String) (entry : FactEntry),
      entry ∈ knownEntries reader cutoff (facts'.entries taxonomy concept unit) ↔
        entry ∈ knownEntries reader cutoff (facts.entries taxonomy concept unit) := by
    intro taxonomy concept unit entry
    simp only [knownEntries, List.mem_filter, (hreordered taxonomy concept unit).mem_iff]
  refine statementPeriodEnds_congr fun statement => ?_
  simp only [mem_statementEntries, hknown]

/-! ## The bundle -/

theorem latest_periodEnd {values : Series} (hends : ∀ periodEnd datum, values.get? periodEnd = some datum →
    datum.periodEnd = periodEnd) : (latest values).map Datum.periodEnd = values.keys.max? := by
  cases hlatest : latest values with
  | none => rw [latest_eq_none_iff.mp hlatest, List.max?_nil, Option.map_none]
  | some datum =>
    obtain ⟨periodEnd, hget, hlast⟩ := latest_eq_some hlatest
    rw [Option.map_some, hends _ _ hget]
    exact (List.max?_eq_some_iff.mpr ⟨(Dict.mem_keys_iff _ _).mpr ⟨datum, hget⟩, hlast⟩).symm

theorem segmentedShares_reordered (hreordered : Reordered facts facts') (ruleset : ConceptMappingRuleset) :
    (segmentedShares reader facts' ruleset cutoff).map Datum.periodEnd =
      (segmentedShares reader facts ruleset cutoff).map Datum.periodEnd := by
  unfold segmentedShares
  cases ruleset.mappingFor "shares_outstanding" with
  | none => rfl
  | some mapping =>
    let candidates : CompanyFacts → List FactEntry := fun facts => mapping.concepts.flatMap fun concept =>
      facts.entries concept.taxonomy concept.concept mapping.unit
    let held : CompanyFacts → Series := fun facts =>
      (candidates facts).foldl (collectDatum (fun entry => segmentedDatum reader entry mapping.unit) cutoff) Dict.empty
    have hget : ∀ facts periodEnd, (held facts).get? periodEnd = firstBest Datum.order ((candidates facts).map
        (eligibleAt (fun entry => segmentedDatum reader entry mapping.unit) cutoff periodEnd)) :=
      fun facts periodEnd => get?_foldl_collectDatum ..
    have hends : ∀ facts periodEnd datum, (held facts).get? periodEnd = some datum → datum.periodEnd = periodEnd := by
      intro facts periodEnd datum hdatum
      rw [hget] at hdatum
      obtain ⟨entry, -, heligible⟩ := List.mem_map.mp (isBest_of_firstBest _ hdatum).1
      exact (eligibleAt_eq_some_iff.mp heligible).2.2
    have hmem : ∀ entry, entry ∈ candidates facts' ↔ entry ∈ candidates facts := by
      intro entry
      simp only [candidates, List.mem_flatMap, (hreordered _ _ _).mem_iff]
    have hkeys : ∀ periodEnd, periodEnd ∈ (held facts').keys ↔ periodEnd ∈ (held facts).keys := by
      intro periodEnd
      rw [← not_iff_not, ← Dict.get?_eq_none_iff, ← Dict.get?_eq_none_iff, hget, hget, firstBest_eq_none_iff,
        firstBest_eq_none_iff]
      simp only [List.forall_mem_map, hmem]
    have hfold : ∀ facts : CompanyFacts, mapping.concepts.foldl (fun candidates concept =>
        (facts.entries concept.taxonomy concept.concept mapping.unit).foldl
          (collectDatum (fun entry => segmentedDatum reader entry mapping.unit) cutoff) candidates) Dict.empty =
        held facts := fun facts => List.foldl_flatMap.symm
    simp only [hfold]
    rw [latest_periodEnd (hends facts'), latest_periodEnd (hends facts), max?_congr_mem hkeys]

theorem freshShares_periodEnd (maximumInputAgeDays : ℤ) (datum : Option Datum) :
    (freshShares cutoff maximumInputAgeDays datum).map Datum.periodEnd =
      (datum.map Datum.periodEnd).filter fun periodEnd => cutoff - periodEnd ≤ maximumInputAgeDays := by
  unfold freshShares
  cases datum with
  | none => rfl
  | some datum =>
    rw [Option.map_some, Option.filter_some, Option.filter_some]
    split_ifs <;> rfl

theorem newestPeriodEnd_eq (candidates : List (Option Datum)) :
    newestPeriodEnd candidates = ((candidates.map fun datum => datum.map Datum.periodEnd).filterMap id).max? := by
  have hcommute : (candidates.filterMap id).map Datum.periodEnd =
      (candidates.map fun datum => datum.map Datum.periodEnd).filterMap id := by
    rw [List.map_filterMap, List.filterMap_map]
    rfl
  rw [newestPeriodEnd, hcommute]

/-- They give the same bundle: the segmented share count has the same period end, the earnings agree by period, and the other
figures are equal. -/
structure BundleFigures.Same (figures figures' : BundleFigures) : Prop where
  segmented : figures'.segmented.map Datum.periodEnd = figures.segmented.map Datum.periodEnd
  earnings : figures.earningsPeriods.Same figures'.earningsPeriods
  others : { figures' with segmented := figures.segmented, earningsPeriods := figures.earningsPeriods } = figures

theorem bundleFigures_reordered (hties : AllTiesAgree reader facts cutoff) (hreordered : Reordered facts facts')
    (ruleset : ConceptMappingRuleset) (maximumInputAgeDays : ℤ) (branch : OperatingBranch) :
    (bundleFigures reader facts ruleset cutoff maximumInputAgeDays branch).Same
      (bundleFigures reader facts' ruleset cutoff maximumInputAgeDays branch) := by
  have h := resolveField_same hties hreordered ruleset
  have hsegmented : (segmentedSharesDatum reader facts' ruleset cutoff maximumInputAgeDays).map Datum.periodEnd =
      (segmentedSharesDatum reader facts ruleset cutoff maximumInputAgeDays).map Datum.periodEnd := by
    rw [segmentedSharesDatum, segmentedSharesDatum, freshShares_periodEnd, freshShares_periodEnd,
      segmentedShares_reordered hreordered]
  refine ⟨?_, h "net_income", ?_⟩
  · simp only [bundleFigures, (h _).latest]
    split_ifs
    · exact hsegmented
    · rfl
  · simp only [bundleFigures, (h _).latest, operatingFigures_reordered hties hreordered,
      financialComponents_reordered hties hreordered, tangibleCommonEquityComponents_reordered hties hreordered,
      statementPeriodEnds_reordered hreordered, newestPeriodEnd_eq, List.map_cons, List.map_nil]
    split_ifs
    · rw [hsegmented]
    · rfl

namespace BundleFigures.Same

variable {figures figures' : BundleFigures}

theorem isSome (h : figures.Same figures') : figures'.segmented.isSome = figures.segmented.isSome := by
  rw [← Option.isSome_map, h.segmented, Option.isSome_map]

theorem knowable (h : figures.Same figures') :
    (figures'.resolved.map Datum.filed).max? = (figures.resolved.map Datum.filed).max? := by
  have hothers : ({ figures' with segmented := figures.segmented, earningsPeriods := figures.earningsPeriods } :
      BundleFigures).resolved = figures.resolved := by rw [h.others]
  refine max?_congr_mem fun filed => ?_
  rw [List.mem_map, List.mem_map]
  refine exists_congr fun datum => and_congr_left fun _ => ?_
  rw [← hothers]
  unfold resolved
  rw [List.mem_append, List.mem_append, h.earnings.mem_values]
  rfl

theorem vintages (h : figures.Same figures') : figures'.vintages = figures.vintages := by
  have hothers : ({ figures' with segmented := figures.segmented, earningsPeriods := figures.earningsPeriods } :
      BundleFigures).vintages = figures.vintages := by rw [h.others]
  have hincome : figures'.netIncome = figures.netIncome := h.earnings.latest
  rw [← hothers]
  unfold BundleFigures.vintages
  rw [hincome]
  rfl

end BundleFigures.Same

theorem buildBundle_reordered (hties : AllTiesAgree reader facts cutoff) (hreordered : Reordered facts facts')
    (ruleset : ConceptMappingRuleset) (maximumInputAgeDays : ℤ) (dumps : CompanyFacts → String)
    (rawBytes rawBytes' : Option String) (branch : OperatingBranch) :
    let bundle := buildBundle reader facts ruleset cutoff maximumInputAgeDays dumps rawBytes branch
    let bundle' := buildBundle reader facts' ruleset cutoff maximumInputAgeDays dumps rawBytes' branch
    bundle' = { bundle with rawBytes := bundle'.rawBytes, document := bundle'.document } := by
  have h := bundleFigures_reordered hties hreordered ruleset maximumInputAgeDays branch
  unfold buildBundle
  generalize bundleFigures reader facts ruleset cutoff maximumInputAgeDays branch = figures at h ⊢
  generalize bundleFigures reader facts' ruleset cutoff maximumInputAgeDays branch = figures' at h ⊢
  obtain ⟨segmented', earnings', rfl⟩ : ∃ segmented' earnings', figures' =
      { figures with segmented := segmented', earningsPeriods := earnings' } := by
    refine ⟨figures'.segmented, figures'.earningsPeriods, ?_⟩
    rw [← h.others]
  have hincome : valueOf (latest earnings') = valueOf figures.netIncome := congrArg _ h.earnings.latest
  have hsegmented : segmented'.isSome = figures.segmented.isSome := h.isSome
  have hperiods : sortedBy Prod.fst earnings'.items = sortedBy Prod.fst figures.earningsPeriods.items := h.earnings.sortedItems
  simp only [h.knowable, h.vintages, BundleFigures.netIncome, BundleFigures.shares, sharesBasisOf, hsegmented,
    hperiods] at hincome ⊢
  rw [hincome]

/-- For one concept, what is seen of its figures is the same for every order of the entries exactly when the best figures of each
period end look the same; for the document, figures, fields and bundle are the same exactly when these are equal. -/
theorem serialization_order_iff (reader : Reader) (facts : CompanyFacts) (cutoff : Date) :
    (∀ (γ : Type) (φ : Datum → γ) (concept : ConceptRef) (unit : String), (∀ facts', Reordered facts facts' → ∀ periodEnd,
        ((annualValuesByPeriodEnd reader facts' concept.taxonomy concept.concept unit cutoff).get? periodEnd).map φ =
          ((annualValuesByPeriodEnd reader facts concept.taxonomy concept.concept unit cutoff).get? periodEnd).map φ) ↔
        TiesAgree φ reader facts unit cutoff concept) ∧
    ((∀ facts', Reordered facts facts' →
      (∀ taxonomy concept unit, (annualValuesByPeriodEnd reader facts taxonomy concept unit cutoff).Same
        (annualValuesByPeriodEnd reader facts' taxonomy concept unit cutoff)) ∧
      (∀ ruleset field, (resolveField reader facts ruleset field cutoff).Same
        (resolveField reader facts' ruleset field cutoff)) ∧
      ∀ ruleset maximumInputAgeDays dumps rawBytes rawBytes' branch,
        let bundle := buildBundle reader facts ruleset cutoff maximumInputAgeDays dumps rawBytes branch
        let bundle' := buildBundle reader facts' ruleset cutoff maximumInputAgeDays dumps rawBytes' branch
        bundle' = { bundle with rawBytes := bundle'.rawBytes, document := bundle'.document }) ↔
      AllTiesAgree reader facts cutoff) := by
  refine ⟨fun γ φ concept unit => annualValues_reordered_iff φ concept, ?_, ?_⟩
  · intro hsame unit concept
    refine (annualValues_reordered_iff id concept).mp fun facts' hreordered periodEnd => ?_
    rw [(hsame facts' hreordered).1 concept.taxonomy concept.concept unit periodEnd]
  · intro hties facts' hreordered
    exact ⟨fun taxonomy concept unit => annualValues_same hties hreordered taxonomy concept unit,
      fun ruleset field => resolveField_same hties hreordered ruleset field,
      fun ruleset maximumInputAgeDays dumps rawBytes rawBytes' branch =>
        buildBundle_reordered hties hreordered ruleset maximumInputAgeDays dumps rawBytes rawBytes' branch⟩

def spanReader : Reader where
  date text := if text = "2023-01-01" then some 738521 else filingReader.date text
  decimal text := if text = "190" then some 190 else filingReader.decimal text

def cumulativeEntry : FactEntry := { revenueEntry "2025-02-14" "190" with start := some "2023-01-01" }

/-- Both years tie, so the document's first entry gives the revenue. -/
theorem serialization_order_decides : Reordered (revenueDocument [revenueEntry "2025-02-14" "100", cumulativeEntry])
      (revenueDocument [cumulativeEntry, revenueEntry "2025-02-14" "100"]) ∧
    ((annualValuesByPeriodEnd spanReader (revenueDocument [revenueEntry "2025-02-14" "100", cumulativeEntry]) "us-gaap"
      "Revenues" "USD" 739432).get? 739251).map Datum.value = some 100 ∧
    ((annualValuesByPeriodEnd spanReader (revenueDocument [cumulativeEntry, revenueEntry "2025-02-14" "100"]) "us-gaap"
      "Revenues" "USD" 739432).get? 739251).map Datum.value = some 190 ∧
    (buildBundle spanReader (revenueDocument [revenueEntry "2025-02-14" "100", cumulativeEntry]) revenueRuleset 739432
      455 (fun _ => "") none .nonFinancial).revenue = some 100 ∧
    (buildBundle spanReader (revenueDocument [cumulativeEntry, revenueEntry "2025-02-14" "100"]) revenueRuleset 739432
      455 (fun _ => "") none .nonFinancial).revenue = some 190 := by
  refine ⟨?_, by decide +kernel, by decide +kernel, by decide +kernel, by decide +kernel⟩
  intro taxonomy concept unit
  rw [revenueDocument_entries, revenueDocument_entries]
  split
  · exact List.Perm.swap _ _ _
  · exact List.Perm.refl _

end TrueAlpha.Datahub
