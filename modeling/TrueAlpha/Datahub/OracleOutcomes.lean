import TrueAlpha.Datahub.SettledSession
import TrueAlpha.Datahub.VendorOracle

/-!
# The outcomes of the independent parse

On one concept both parsers find the newest period, but the oracle keeps its first entry and the adapter its newest filing
(`revenue_agrees_iff`).  A witness is read up to the day of the cutoff, and is knowable at the end of its day
(`witness_not_newer_iff`).
-/

namespace TrueAlpha.Datahub

variable {l : List VendorFact} {a b : VendorFact}

namespace VendorOracle

variable {reader : Reader} {facts facts' : CompanyFacts} {ruleset : ConceptMappingRuleset} {cutoff : Date} {concept : String}

def IsFirst (l : List VendorFact) (a : VendorFact) : Prop :=
  ∃ i : ℕ, l[i]? = some a ∧ ∀ (j : ℕ) (b : VendorFact), l[j]? = some b →
    b.periodEnd < a.periodEnd ∨ b.periodEnd = a.periodEnd ∧ i ≤ j

def IsCurrent (l : List VendorFact) (a : VendorFact) : Prop :=
  a ∈ l ∧ ∀ b ∈ l, b.periodEnd < a.periodEnd ∨ b.periodEnd = a.periodEnd ∧ b.filed ≤ a.filed

structure OneConcept (reader : Reader) (facts : CompanyFacts) (ruleset : ConceptMappingRuleset) (cutoff : Date)
    (concepts : List ConceptRef) (concept : String) : Prop where
  mapping : ruleset.mappingFor "revenue" = some ⟨"revenue", "USD", .synonym, concepts⟩
  declared : ⟨"us-gaap", concept⟩ ∈ concepts
  only : ∀ other ∈ concepts, other ≠ ⟨"us-gaap", concept⟩ → facts.entries other.taxonomy other.concept "USD" = []
  onlyOracle : ∀ other ∈ revenueConcepts ruleset, other ≠ concept → facts.entries "us-gaap" other "USD" = []
  read : ∀ entry ∈ facts.entries "us-gaap" concept "USD", ReadByBoth reader concept entry
  known : annualEntries reader facts cutoff concept ≠ []
  untied : ((annualEntries reader facts cutoff concept).map fun fact => (fact.periodEnd, fact.filed)).Nodup

theorem isFirst_of_firstBest {a : VendorFact}
    (h : firstBest (fun fact => -fact.periodEnd) (l.map some) = some a) : IsFirst l a := by
  obtain ⟨i, hi, hleast⟩ := firstBest_spec _ h
  refine ⟨i, by simpa using hi, fun j b hj => ?_⟩
  have hle := hleast j b (by rw [List.getElem?_map, hj, Option.map_some])
  rw [Prod.Lex.toLex_le_toLex, neg_lt_neg_iff, neg_inj] at hle
  exact hle.imp id fun h => ⟨h.1.symm, h.2⟩

theorem IsFirst.eq (h : IsFirst l a) (h' : IsFirst l b) : a = b := by
  obtain ⟨i, hi, hfirst⟩ := h
  obtain ⟨j, hj, hfirst'⟩ := h'
  have hij : i = j := by
    rcases hfirst j b hj with hlt | ⟨heq, hle⟩ <;> rcases hfirst' i a hi with hlt' | ⟨heq', hle'⟩
    · exact absurd hlt (not_lt.mpr hlt'.le)
    · exact absurd heq'.symm hlt.ne
    · exact absurd heq.symm hlt'.ne
    · exact le_antisymm hle hle'
  rw [hij, hj] at hi
  exact (Option.some.inj hi).symm

theorem IsCurrent.eq (hties : (l.map fun fact => (fact.periodEnd, fact.filed)).Nodup)
    (h : IsCurrent l a) (h' : IsCurrent l b) : a = b := by
  refine List.inj_on_of_nodup_map hties h.1 h'.1 ?_
  rcases h.2 b h'.1 with hlt | ⟨heq, hle⟩ <;> rcases h'.2 a h.1 with hlt' | ⟨heq', hle'⟩
  · exact absurd hlt (not_lt.mpr hlt'.le)
  · exact absurd heq'.symm hlt.ne
  · exact absurd heq.symm hlt'.ne
  · rw [heq', le_antisymm hle' hle]

section OneConcept

variable {concepts : List ConceptRef} (h : OneConcept reader facts ruleset cutoff concepts concept)

include h

theorem OneConcept.revenue_eq : revenue reader facts ruleset cutoff =
      firstBest (fun fact => -fact.periodEnd) ((annualEntries reader facts cutoff concept).map some) := by
  have hmem : concept ∈ revenueConcepts ruleset := mem_distinct.mpr <| List.mem_append_left _ <| List.mem_flatMap.mpr
      ⟨"revenue", List.mem_cons_self, List.mem_filterMap.mpr ⟨_, by rw [h.mapping]; exact h.declared, by simp⟩⟩
  have hnodup : (revenueConcepts ruleset).Nodup := nodup_distinct _
  rw [revenue, latestAcrossVariants, flatMap_of_only hnodup hmem fun other hother hne => ?_]
  rw [annualEntries, h.onlyOracle other hother hne]
  rfl

theorem OneConcept.rank_eq {datum : Datum} (hasserts : Asserts reader facts "USD" cutoff ⟨"us-gaap", concept⟩ datum) :
    datum.rank = 0 := by
  obtain ⟨-, entry, hentry, hdatum⟩ := hasserts
  obtain ⟨⟨datum', hdatum', hform⟩, -⟩ := h.read entry hentry
  rw [hdatum] at hdatum'
  cases hdatum'
  simp [Datum.rank, hform]

theorem OneConcept.mem_annualEntries_iff {fact : VendorFact} : fact ∈ annualEntries reader facts cutoff concept ↔
      ∃ datum, Asserts reader facts "USD" cutoff ⟨"us-gaap", concept⟩ datum ∧ fact = oracleFact concept datum := by
  simp only [annualEntries, List.mem_filter, List.mem_filterMap, decide_eq_true_eq]
  constructor
  · rintro ⟨⟨entry, hentry, hfact⟩, hknown⟩
    obtain ⟨⟨datum, hdatum, -⟩, -⟩ := h.read entry hentry
    cases fact_eq_of_datum hdatum hfact
    exact ⟨datum, ⟨hknown, entry, hentry, hdatum⟩, rfl⟩
  · rintro ⟨datum, ⟨hknown, entry, hentry, hdatum⟩, rfl⟩
    obtain ⟨-, fact, hfact⟩ := h.read entry hentry
    exact ⟨⟨entry, hentry, hfact.trans (congrArg some (fact_eq_of_datum hdatum hfact))⟩, hknown⟩

theorem OneConcept.exists_latest : ∃ datum, latest (resolveField reader facts ruleset "revenue" cutoff) = some datum ∧
      IsCurrent (annualEntries reader facts cutoff concept) (oracleFact concept datum) := by
  have hseries : resolveField reader facts ruleset "revenue" cutoff = mergeVariants reader facts concepts "USD" cutoff := by
    simp only [resolveField, h.mapping]
  have hkey : ∀ fact ∈ annualEntries reader facts cutoff concept,
      fact.periodEnd ∈ (mergeVariants reader facts concepts "USD" cutoff).keys := by
    intro fact hfact
    obtain ⟨datum, hasserts, rfl⟩ := h.mem_annualEntries_iff.mp hfact
    exact mem_keys_mergeVariants.mpr ⟨_, h.declared, datum, hasserts, rfl⟩
  rw [hseries]
  cases hlatest : latest (mergeVariants reader facts concepts "USD" cutoff) with
  | none =>
    obtain ⟨fact, hfact⟩ := List.exists_mem_of_ne_nil _ h.known
    have hmem := hkey fact hfact
    rw [latest_eq_none_iff.mp hlatest] at hmem
    cases hmem
  | some datum =>
    obtain ⟨periodEnd, hget, hlast⟩ := latest_eq_some hlatest
    obtain ⟨i, other, hother, hasserts, rfl, hleast⟩ := mergeVariants_least hget
    -- an asserted figure is of the one concept
    have hconcept : other = ⟨"us-gaap", concept⟩ := by
      by_contra hne
      obtain ⟨-, entry, hentry, -⟩ := hasserts
      rw [h.only other (List.mem_of_getElem? hother) hne] at hentry
      cases hentry
    subst hconcept
    refine ⟨datum, rfl, h.mem_annualEntries_iff.mpr ⟨datum, hasserts, rfl⟩, fun fact hfact => ?_⟩
    rcases (hlast _ (hkey fact hfact)).lt_or_eq with hlt | heq
    · exact .inl hlt
    · obtain ⟨datum', hasserts', rfl⟩ := h.mem_annualEntries_iff.mp hfact
      have hle := hleast i _ datum' hother hasserts' heq
      rw [h.rank_eq hasserts, h.rank_eq hasserts', Prod.Lex.toLex_le_toLex, Prod.Lex.toLex_le_toLex] at hle
      simp only [lt_irrefl, true_and, false_or, neg_le_neg_iff] at hle
      exact .inr ⟨heq, hle⟩

theorem OneConcept.exists_revenue : ∃ witness, revenue reader facts ruleset cutoff = some witness ∧
      IsFirst (annualEntries reader facts cutoff concept) witness := by
  cases hrevenue : revenue reader facts ruleset cutoff with
  | none =>
    rw [h.revenue_eq, firstBest_eq_none_iff] at hrevenue
    obtain ⟨fact, hfact⟩ := List.exists_mem_of_ne_nil _ h.known
    cases hrevenue _ (List.mem_map_of_mem hfact)
  | some witness => exact ⟨witness, rfl, isFirst_of_firstBest (h.revenue_eq ▸ hrevenue)⟩

end OneConcept

theorem IsFirst.periodEnd_eq (h : IsFirst l a) (h' : IsCurrent l b) : a.periodEnd = b.periodEnd := by
  obtain ⟨i, hi, hfirst⟩ := h
  obtain ⟨j, hj⟩ := List.mem_iff_getElem?.mp h'.1
  rcases h'.2 a (List.mem_of_getElem? hi) with hlt | ⟨heq, -⟩
  · rcases hfirst j b hj with hlt' | ⟨heq', -⟩
    · exact absurd hlt (not_lt.mpr hlt'.le)
    · exact heq'.symm
  · exact heq

theorem compare_agrees {input : FactorInput} {witness : VendorFact} {tolerance value : ℚ}
    (hrevenue : revenue reader facts ruleset cutoff = some witness) (hvalue : witness.value = value) (hne : value ≠ 0)
    (htolerance : 0 ≤ tolerance) (hserved : (input.metric .revenue).bind ServedMetric.value = some value) :
    (compareIndependentParse reader ruleset input .revenue (some facts) cutoff tolerance (some "USD")).result = .agree := by
  simp [compareIndependentParse, independentParser, Option.filter, hrevenue, hserved, hvalue, hne, htolerance,
    not_lt.mpr (mul_self_nonneg value)]

end VendorOracle

open VendorOracle in
/-- On one concept the oracle has the period of the served revenue.  It has its value, and the comparison agrees, exactly when the
period's first entry has the value of its newest filing, which is not zero. -/
theorem revenue_agrees_iff {reader : Reader} {facts : CompanyFacts} {ruleset : ConceptMappingRuleset} {cutoff : Date}
    {concepts : List ConceptRef} {concept : String} (h : OneConcept reader facts ruleset cutoff concepts concept) :
    ∃ witness datum, revenue reader facts ruleset cutoff = some witness ∧
      latest (resolveField reader facts ruleset "revenue" cutoff) = some datum ∧ witness.periodEnd = datum.periodEnd ∧
      ((witness.value = datum.value ∧ ∀ (input : FactorInput) (tolerance : ℚ), 0 ≤ tolerance →
          (input.metric .revenue).bind ServedMetric.value = some datum.value →
          (compareIndependentParse reader ruleset input .revenue (some facts) cutoff tolerance (some "USD")).result = .agree) ↔
        ∃ first current, IsFirst (annualEntries reader facts cutoff concept) first ∧
          IsCurrent (annualEntries reader facts cutoff concept) current ∧ first.value = current.value ∧ current.value ≠ 0) := by
  obtain ⟨witness, hrevenue, hfirst⟩ := h.exists_revenue
  obtain ⟨datum, hlatest, hcurrent⟩ := h.exists_latest
  refine ⟨witness, datum, hrevenue, hlatest, hfirst.periodEnd_eq hcurrent, ?_, ?_⟩
  · rintro ⟨hvalue, hagree⟩
    refine ⟨witness, oracleFact concept datum, hfirst, hcurrent, hvalue, fun hzero => ?_⟩
    have hresult := hagree ⟨"", fun _ => some ⟨some datum.value, "", "USD"⟩⟩ 0 le_rfl rfl
    have hwitness : witness.value = 0 := hvalue.trans hzero
    simp [compareIndependentParse, independentParser, Option.filter, hrevenue, hwitness] at hresult
  · rintro ⟨first, current, hfirst', hcurrent', hvalue, hne⟩
    cases hfirst'.eq hfirst
    cases IsCurrent.eq h.untied hcurrent' hcurrent
    exact ⟨hvalue, fun input tolerance htolerance hserved => compare_agrees hrevenue hvalue hne htolerance hserved⟩

/-! ## A restated year -/

def restatedDocument : CompanyFacts := revenueDocument [revenueEntry "2025-02-14" "100", revenueEntry "2026-02-13" "90"]

open VendorOracle in
theorem oneConcept_restated {cutoff : Date} (h : cutoff = 739432 ∨ cutoff = 739700) :
    OneConcept filingReader restatedDocument revenueRuleset cutoff [⟨"us-gaap", "Revenues"⟩] "Revenues" where
  mapping := rfl
  declared := List.mem_cons_self
  only other hother hne := absurd (List.mem_singleton.mp hother) hne
  onlyOracle other _ hne := by
    rw [restatedDocument, revenueDocument_entries, if_neg fun hentries => hne hentries.2.1.symm]
  read entry hentry := by
    rw [restatedDocument, revenueDocument_entries, if_pos ⟨rfl, rfl, rfl⟩] at hentry
    simp only [List.mem_cons, List.not_mem_nil, or_false] at hentry
    rcases hentry with rfl | rfl
    · exact ⟨⟨_, rfl, by decide⟩, _, rfl⟩
    · exact ⟨⟨_, rfl, by decide⟩, _, rfl⟩
  known := by rcases h with rfl | rfl <;> decide +kernel
  untied := by rcases h with rfl | rfl <;> decide +kernel

theorem revenue_agrees_restated :
    ∃ witness datum, VendorOracle.revenue filingReader restatedDocument revenueRuleset 739432 = some witness ∧
      latest (resolveField filingReader restatedDocument revenueRuleset "revenue" 739432) = some datum ∧
      witness.periodEnd = datum.periodEnd := by
  obtain ⟨witness, datum, hwitness, hdatum, hend, -⟩ := revenue_agrees_iff (oneConcept_restated (.inl rfl))
  exact ⟨witness, datum, hwitness, hdatum, hend⟩

/-- The filing of 2026 restates the year: the adapter serves 90, the oracle reads 100. -/
theorem restated_revenue_disagrees :
    VendorOracle.OneConcept filingReader restatedDocument revenueRuleset 739700 [⟨"us-gaap", "Revenues"⟩] "Revenues" ∧
    (latest (resolveField filingReader restatedDocument revenueRuleset "revenue" 739700)).map Datum.value = some 90 ∧
    (VendorOracle.revenue filingReader restatedDocument revenueRuleset 739700).map VendorFact.value = some 100 ∧
    (compareIndependentParse filingReader revenueRuleset ⟨"issuer", fun _ => some ⟨some 90, "observation", "USD"⟩⟩ .revenue
      (some restatedDocument) 739700 (1 / 20) (some "USD")).result = .disagree :=
  ⟨oneConcept_restated (.inr rfl), by decide +kernel, by decide +kernel, by decide +kernel⟩

/-! ## The outcomes of a run -/

structure OracleStore where
  fetchOf : String → Option ℕ
  currencyOf : String → Option String
  document : ℕ → Option CompanyFacts
  tolerance : ℚ

def OracleStore.one (facts : CompanyFacts) : OracleStore := ⟨fun _ => some 0, fun _ => none, fun _ => some facts, 0⟩

def servedInput : FactorInput := ⟨"issuer", fun _ => some ⟨some 100, "observation", "USD"⟩⟩

def independentFields : List IndependentField := [.revenue, .grossProfit, .totalAssets]

def financialObservation (input : FactorInput) : Option String :=
  independentFields.findSome? fun field => (input.metric field).map ServedMetric.inputId

def observationOf (inputs : List FactorInput) (issuerId : String) : Option String :=
  (inputs.reverse.find? fun input => input.issuerId = issuerId).bind financialObservation

section

variable (reader : Reader) (ruleset : ConceptMappingRuleset)

def independentParseOutcomes (store : OracleStore) (cutoff : Instant) (inputs : List FactorInput) : List OracleOutcome :=
  inputs.flatMap fun input =>
    let observation := observationOf inputs input.issuerId
    let facts := (observation.bind store.fetchOf).bind store.document
    independentFields.map fun field =>
      compareIndependentParse reader ruleset input field facts (utcDate cutoff) store.tolerance (observation.bind store.currencyOf)

def OracleStore.SameUntil (day : Date) (store store' : OracleStore) : Prop :=
  store' = { store with document := store'.document } ∧
    ∀ id, Option.Rel (Datahub.SameUntil reader day) (store.document id) (store'.document id)

def NotNewer (cutoff : Instant) (store store' : OracleStore) (inputs : List FactorInput) : Prop :=
  (∀ outcome ∈ independentParseOutcomes reader ruleset store cutoff inputs, outcome.oracleValue.isSome →
    ∃ instant ∈ outcome.knowableAt, instant ≤ cutoff) ∧
  independentParseOutcomes reader ruleset store' cutoff inputs = independentParseOutcomes reader ruleset store cutoff inputs

def Quiet (cutoff : Instant) (store : OracleStore) : Prop :=
  accessionInstant (utcDate cutoff) ≤ cutoff ∨ ∀ id, ∀ facts ∈ store.document id, ∀ taxonomy concept unit,
    ∀ entry ∈ facts.entries taxonomy concept unit, entry.filed.bind reader.date ≠ some (utcDate cutoff)

end

namespace VendorOracle

variable {reader : Reader} {facts facts' : CompanyFacts} {ruleset : ConceptMappingRuleset} {day : Date} {concept : String}
  {witness : VendorFact} {field : IndependentField}

theorem annualFact_filed {entry : FactEntry} (h : annualFact reader concept entry = some witness) :
    entry.filed.bind reader.date = some witness.filed := by
  simp only [annualFact, Option.bind_eq_bind, Option.bind_eq_some_iff, Option.filter_eq_some_iff] at h
  obtain ⟨filedRaw, ⟨hraw, -⟩, _, -, _, -, filed, hfiled, _, -, _, -, h⟩ := h
  split at h
  · cases h
  · obtain ⟨value, -, rfl⟩ := Option.map_eq_some_iff.mp h
    rw [hraw, Option.bind_some, hfiled]

theorem annualEntries_known (l : List FactEntry) :
    ((knownEntries reader day l).filterMap (annualFact reader concept)).filter (fun fact => decide (fact.filed ≤ day)) =
      (l.filterMap (annualFact reader concept)).filter fun fact => decide (fact.filed ≤ day) := by
  induction l with
  | nil => rfl
  | cons entry l ih =>
    cases hfact : annualFact reader concept entry with
    | none =>
      rw [knownEntries, List.filter_cons]
      split_ifs <;> simp only [List.filterMap_cons, hfact] <;> exact ih
    | some fact =>
      by_cases hlate : day < fact.filed
      · have hafter : filedAfter reader day entry = true := by
          rw [filedAfter, annualFact_filed hfact, Option.any_some, decide_eq_true hlate]
        simp only [knownEntries, List.filter_cons, hafter, Bool.not_true, Bool.false_eq_true, if_false, List.filterMap_cons, hfact,
          decide_eq_true_eq, not_le.mpr hlate]
        exact ih
      · have hbefore : filedAfter reader day entry = false := by
          rw [filedAfter, annualFact_filed hfact, Option.any_some, decide_eq_false hlate]
        simp only [knownEntries, List.filter_cons, hbefore, Bool.not_false, if_true, List.filterMap_cons, hfact,
          decide_eq_true_eq, not_lt.mp hlate]
        exact congrArg _ ih

theorem independentParser_congr {day' : Date} (h : annualEntries reader facts' day' = annualEntries reader facts day)
    (field : IndependentField) : independentParser reader ruleset facts' day' field = independentParser reader ruleset facts day field := by
  cases field <;> simp only [independentParser, revenue, totalAssets, grossProfit, derivedGrossProfit, latestAcrossVariants,
    allPeriods, h]

theorem independentParser_sameUntil (h : SameUntil reader day facts facts') (field : IndependentField) :
    independentParser reader ruleset facts' day field = independentParser reader ruleset facts day field := by
  refine independentParser_congr (funext fun concept => ?_) field
  rw [annualEntries, annualEntries, ← annualEntries_known, h, annualEntries_known]

theorem filed_le_of_mem {concepts : List String} (h : witness ∈ concepts.flatMap (annualEntries reader facts day)) :
    witness.filed ≤ day := by
  obtain ⟨concept, -, hmem⟩ := List.mem_flatMap.mp h
  exact of_decide_eq_true (List.mem_filter.mp hmem).2

theorem latestAcrossVariants_filed {concepts : List String} (h : latestAcrossVariants reader facts day concepts = some witness) :
    witness.filed ≤ day := by
  obtain ⟨fact, hfact, heq⟩ := List.mem_map.mp (isBest_of_firstBest _ h).1
  cases heq
  exact filed_le_of_mem hfact

theorem independentParser_filed (h : independentParser reader ruleset facts day field = some witness) : witness.filed ≤ day := by
  cases field with
  | revenue => exact latestAcrossVariants_filed h
  | totalAssets => exact latestAcrossVariants_filed h
  | grossProfit =>
    have hmem := (isBest_of_firstBest _ h).1
    simp only [List.mem_cons, List.not_mem_nil, or_false] at hmem
    rcases hmem with hdirect | hderived
    · exact latestAcrossVariants_filed hdirect.symm
    · rw [eq_comm] at hderived
      simp only [derivedGrossProfit, Option.bind_eq_bind, Option.pure_def, Option.bind_eq_some_iff, Option.some.injEq] at hderived
      obtain ⟨_, -, revenue, hrevenue, cost, hcost, rfl⟩ := hderived
      exact max_le (filed_le_of_mem (List.mem_of_find?_eq_some hrevenue)) (filed_le_of_mem (List.mem_of_find?_eq_some hcost))

end VendorOracle

section

variable {reader : Reader} {ruleset : ConceptMappingRuleset} {cutoff : Instant} {store store' : OracleStore}
  {inputs : List FactorInput}

theorem compare_of_witness {input : FactorInput} {field : IndependentField} {facts : CompanyFacts} {day : Date} {tolerance : ℚ}
    {currency : Option String} {witness : VendorFact} (h : independentParser reader ruleset facts day field = some witness) :
    let outcome := compareIndependentParse reader ruleset input field (some facts) day tolerance currency
    outcome.oracleValue = some witness.value ∧ outcome.knowableAt = some (accessionInstant witness.filed) := by
  simp only [compareIndependentParse, h]
  split
  · exact ⟨rfl, rfl⟩
  · split_ifs <;> exact ⟨rfl, rfl⟩

theorem exists_witness_of_compare {input : FactorInput} {field : IndependentField} {facts : Option CompanyFacts} {day : Date}
    {tolerance : ℚ} {currency : Option String}
    (h : (compareIndependentParse reader ruleset input field facts day tolerance currency).oracleValue.isSome) :
    ∃ document ∈ facts, ∃ witness, independentParser reader ruleset document day field = some witness := by
  cases facts with
  | none => cases h
  | some document =>
    cases hparser : independentParser reader ruleset document day field with
    | none => simp [compareIndependentParse, hparser] at h
    | some witness => exact ⟨document, rfl, witness, hparser⟩

theorem independentParser_settled (hquiet : Quiet reader cutoff store) {id : ℕ} {facts : CompanyFacts}
    (hfacts : store.document id = some facts) (field : IndependentField) :
    independentParser reader ruleset facts (utcDate cutoff) field =
      independentParser reader ruleset facts (lastSettledAccessionDate cutoff) field := by
  unfold lastSettledAccessionDate
  split_ifs with hover
  · rfl
  · refine VendorOracle.independentParser_congr (funext fun concept => List.filter_congr fun fact hfact => ?_) field
    obtain ⟨entry, hentry, hread⟩ := List.mem_filterMap.mp hfact
    have hday := (hquiet.resolve_left hover) id facts hfacts _ concept _ entry hentry
    rw [VendorOracle.annualFact_filed hread, ne_eq, Option.some.injEq] at hday
    exact decide_eq_decide.mpr ⟨fun hle => Int.le_sub_one_of_lt (lt_of_le_of_ne hle hday), fun hle => hle.trans (Int.sub_le_self _ (by decide))⟩

theorem notNewer_of_quiet (hquiet : Quiet reader cutoff store) (hquiet' : Quiet reader cutoff store')
    (h : store.SameUntil reader (lastSettledAccessionDate cutoff) store') : NotNewer reader ruleset cutoff store store' inputs := by
  constructor
  · intro outcome houtcome hvalue
    obtain ⟨input, -, hfield⟩ := List.mem_flatMap.mp houtcome
    obtain ⟨field, -, rfl⟩ := List.mem_map.mp hfield
    obtain ⟨facts, hfacts, witness, hparser⟩ := exists_witness_of_compare hvalue
    obtain ⟨id, -, hdocument⟩ := Option.bind_eq_some_iff.mp hfacts
    rw [hfacts]
    refine ⟨_, (compare_of_witness hparser).2, ?_⟩
    rw [independentParser_settled hquiet hdocument] at hparser
    exact accessionInstant_le_iff.mpr (VendorOracle.independentParser_filed hparser)
  · unfold independentParseOutcomes
    obtain ⟨hsame, hdocuments⟩ := h
    congr 1
    funext input
    refine List.map_congr_left fun field _ => ?_
    rw [hsame]
    cases (observationOf inputs input.issuerId).bind store.fetchOf with
    | none => rfl
    | some id =>
      have hid := hdocuments id
      simp only [Option.bind_some]
      cases hfacts : store.document id <;> cases hfacts' : store'.document id <;> rw [hfacts, hfacts'] at hid <;> cases hid
      · rename_i facts facts' hrel
        have hparser : ∀ field, independentParser reader ruleset facts' (utcDate cutoff) field =
            independentParser reader ruleset facts (utcDate cutoff) field := by
          intro field
          rw [independentParser_settled hquiet' hfacts', VendorOracle.independentParser_sameUntil hrel,
            independentParser_settled hquiet hfacts]
        simp only [compareIndependentParse, hparser]

theorem exists_witness_of_day (hdate : ∀ text, reader.date text = fromIsoFormat text) (hdecimal : reader.decimal "100" = some 100)
    (hrevenue : "Revenues" ∈ VendorOracle.revenueConcepts ruleset) {day : Date} (hday : InCalendar day) :
    ∃ facts witness, VendorOracle.revenue reader facts ruleset day = some witness ∧ witness.filed = day := by
  have hread : VendorOracle.annualFact reader "Revenues" (revenueEntry (String.ofList (isoChars day)) "100") =
      some ⟨100, 739251, "Revenues", day⟩ := by
    have hfiled := fromIsoFormat_isoChars hday.1 hday.2
    have htext : String.ofList (isoChars day) ≠ "" := by
      intro hempty
      rw [hempty] at hfiled
      cases hfiled
    have hend : fromIsoFormat "2024-12-31" = some 739251 := by decide +kernel
    have hstart : fromIsoFormat "2024-01-01" = some 738886 := by decide +kernel
    simp [VendorOracle.annualFact, revenueEntry, readStart, Option.filter, htext, hdate, hfiled, hend, hstart, hdecimal,
      annualMinimumDays]
  refine ⟨revenueDocument [revenueEntry (String.ofList (isoChars day)) "100"], ⟨100, 739251, "Revenues", day⟩, ?_, rfl⟩
  have hnodup : (VendorOracle.revenueConcepts ruleset).Nodup := nodup_distinct _
  rw [VendorOracle.revenue, VendorOracle.latestAcrossVariants, VendorOracle.flatMap_of_only hnodup hrevenue fun other _ hne => ?_]
  · simp [VendorOracle.annualEntries, revenueDocument_entries, hread, firstBest]
  · simp [VendorOracle.annualEntries, revenueDocument_entries, Ne.symm hne]

end

/-- The witnesses of all runs with a cutoff are as old as the run, and see nothing newer, exactly when the cutoff ends its UTC
day; at any cutoff they are and do where no document has an entry of that day. -/
theorem witness_not_newer_iff (reader : Reader) (hdate : ∀ text, reader.date text = fromIsoFormat text)
    (hdecimal : reader.decimal "100" = some 100) (ruleset : ConceptMappingRuleset)
    (hrevenue : "Revenues" ∈ VendorOracle.revenueConcepts ruleset) (cutoff : Instant) (hcutoff : InCalendar (utcDate cutoff)) :
    ((∀ store store' inputs, store.SameUntil reader (lastSettledAccessionDate cutoff) store' →
        NotNewer reader ruleset cutoff store store' inputs) ↔ accessionInstant (utcDate cutoff) ≤ cutoff) ∧
      ∀ store store' inputs, store.SameUntil reader (lastSettledAccessionDate cutoff) store' → Quiet reader cutoff store →
        Quiet reader cutoff store' → NotNewer reader ruleset cutoff store store' inputs := by
  refine ⟨⟨fun h => ?_, fun h store store' inputs hsame => notNewer_of_quiet (.inl h) (.inl h) hsame⟩,
    fun store store' inputs hsame hquiet hquiet' => notNewer_of_quiet hquiet hquiet' hsame⟩
  by_contra hover
  obtain ⟨facts, witness, hwitness, hfiled⟩ := exists_witness_of_day hdate hdecimal hrevenue hcutoff
  obtain ⟨hknown, -⟩ := h (.one facts) (.one facts) [servedInput] ⟨rfl, fun _ => .some fun _ _ _ => rfl⟩
  obtain ⟨hvalue, hinstant⟩ :=
    @compare_of_witness reader ruleset servedInput .revenue facts (utcDate cutoff) 0 none witness hwitness
  obtain ⟨instant, hmem, hle⟩ := hknown _ (List.mem_flatMap.mpr ⟨servedInput, List.mem_cons_self,
    List.mem_map.mpr ⟨.revenue, List.mem_cons_self, rfl⟩⟩) (Option.isSome_iff_exists.mpr ⟨_, hvalue⟩)
  cases hinstant.symm.trans hmem
  exact hover (hfiled ▸ hle)

theorem witness_not_newer_day_over :
    NotNewer quarterReader revenueRuleset (accessionInstant 739400) (.one quarterFacts) (.one quarterFacts) [servedInput] :=
  (witness_not_newer_iff quarterReader (fun _ => rfl) (by decide) revenueRuleset (by decide) (accessionInstant 739400)
    (by rw [utcDate_accessionInstant]; decide)).1.mpr (by rw [utcDate_accessionInstant]) _ _ _ ⟨rfl, fun _ => .some fun _ _ _ => rfl⟩

/-- At noon of its day a filing's figure is the witness, though it is knowable at midnight. -/
theorem witness_newer_at_noon :
    (independentParseOutcomes quarterReader revenueRuleset (.one (revenueDocument [revenueEntry "2025-02-14" "100"]))
      (739296 * microsPerDay + 43200 * 1000000) [servedInput]).head?.map (fun outcome => (outcome.oracleValue, outcome.knowableAt)) =
        some (some 100, some (accessionInstant 739296)) ∧
    ¬ accessionInstant 739296 ≤ 739296 * microsPerDay + 43200 * 1000000 := by
  decide +kernel

end TrueAlpha.Datahub
