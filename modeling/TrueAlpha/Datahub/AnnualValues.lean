import TrueAlpha.Datahub.BundlePointInTime
import TrueAlpha.Lib.FirstBest

/-!
# The annual values of a concept, and of its synonyms

The figure of a period end is the first best of its eligible entries: the lowest rank and then the latest filing for one
concept, the lowest rank over the synonyms.  The two loops compose to one lexicographic order (`merge_variants_order`).
-/

namespace TrueAlpha.Datahub

def Datum.order (datum : Datum) : ℤ ×ₗ ℤ := toLex (datum.rank, -datum.filed)

def eligibleAt (read : FactEntry → Option Datum) (cutoff periodEnd : Date) (entry : FactEntry) : Option Datum :=
  (read entry).filter fun datum => datum.filed ≤ cutoff ∧ datum.periodEnd = periodEnd

variable {periodEnd : Date} {datum : Datum}

theorem eligibleAt_eq_some_iff {read : FactEntry → Option Datum} {cutoff : Date} {entry : FactEntry} :
    eligibleAt read cutoff periodEnd entry = some datum ↔
      read entry = some datum ∧ datum.filed ≤ cutoff ∧ datum.periodEnd = periodEnd := by
  rw [eligibleAt, Option.filter_eq_some_iff, decide_eq_true_iff]

theorem recordBetterDatum_eq (values : Series) (datum : Datum) :
    recordBetterDatum values datum = keepBetter Datum.order values datum.periodEnd datum := by
  unfold recordBetterDatum keepBetter
  cases values.get? datum.periodEnd with
  | none => rfl
  | some existing => exact if_congr Iff.rfl rfl rfl

theorem get?_collectDatum (read : FactEntry → Option Datum) (cutoff periodEnd : Date) (values : Series)
    (entry : FactEntry) : (collectDatum read cutoff values entry).get? periodEnd =
      better Datum.order (values.get? periodEnd) (eligibleAt read cutoff periodEnd entry) := by
  unfold collectDatum eligibleAt
  cases read entry with
  | none => exact (better_none_right _ _).symm
  | some datum =>
    rw [Option.filter_some]
    by_cases hfiled : cutoff < datum.filed
    · simp [hfiled, not_le.mpr hfiled]
    · simp only [if_neg hfiled, recordBetterDatum_eq, get?_keepBetter, not_lt.mp hfiled, true_and, decide_eq_true_eq]

theorem get?_foldl_collectDatum (read : FactEntry → Option Datum) (cutoff periodEnd : Date) (entries : List FactEntry) :
    (entries.foldl (collectDatum read cutoff) Dict.empty).get? periodEnd =
      firstBest Datum.order (entries.map (eligibleAt read cutoff periodEnd)) := by
  induction entries using List.reverseRecOn with
  | nil => rfl
  | append_singleton entries entry ih =>
    rw [List.foldl_append, List.map_append, List.map_singleton, firstBest_concat, ← ih]
    exact get?_collectDatum read cutoff periodEnd _ entry

variable (reader : Reader) (facts : CompanyFacts) (unit : String) (cutoff : Date)

theorem get?_annualValuesByPeriodEnd (taxonomy concept : String) (periodEnd : Date) :
    (annualValuesByPeriodEnd reader facts taxonomy concept unit cutoff).get? periodEnd =
      firstBest Datum.order ((facts.entries taxonomy concept unit).map
        (eligibleAt (fun entry => annualDatum reader entry unit) cutoff periodEnd)) :=
  get?_foldl_collectDatum ..

theorem mergeDatum_eq (merged : Series) (item : Date × Datum) :
    mergeDatum merged item = keepBetter Datum.rank merged item.1 item.2 := by
  unfold mergeDatum keepBetter
  cases merged.get? item.1 with
  | none => rfl
  | some existing => exact if_congr Iff.rfl rfl rfl

theorem get?_mergeVariants (concepts : List ConceptRef) (periodEnd : Date) :
    (mergeVariants reader facts concepts unit cutoff).get? periodEnd = firstBest Datum.rank (concepts.map fun concept =>
        (annualValuesByPeriodEnd reader facts concept.taxonomy concept.concept unit cutoff).get? periodEnd) := by
  induction concepts using List.reverseRecOn with
  | nil => rfl
  | append_singleton concepts concept ih =>
    have hnodup := (annualValuesByPeriodEnd reader facts concept.taxonomy concept.concept unit cutoff).nodup
    have hstep : mergeVariants reader facts (concepts ++ [concept]) unit cutoff =
        (annualValuesByPeriodEnd reader facts concept.taxonomy concept.concept unit cutoff).items.foldl mergeDatum
          (mergeVariants reader facts concepts unit cutoff) := by
      rw [mergeVariants, List.foldl_append]
      rfl
    rw [List.map_append, List.map_singleton, firstBest_concat, ← ih, hstep, funext₂ mergeDatum_eq]
    exact get?_foldl_keepBetter Datum.rank _ hnodup _ periodEnd

/-! ## One order of all entries -/

def Asserts (concept : ConceptRef) (datum : Datum) : Prop := datum.filed ≤ cutoff ∧
    ∃ entry ∈ facts.entries concept.taxonomy concept.concept unit, annualDatum reader entry unit = some datum

variable {reader facts unit cutoff} {concept : ConceptRef}

theorem Asserts.mono (h : Asserts reader facts unit cutoff concept datum) {cutoff' : Date} (hle : cutoff ≤ cutoff') :
    Asserts reader facts unit cutoff' concept datum :=
  ⟨h.1.trans hle, h.2⟩

theorem mem_eligible_iff : some datum ∈ (facts.entries concept.taxonomy concept.concept unit).map
        (eligibleAt (fun entry => annualDatum reader entry unit) cutoff periodEnd) ↔
      Asserts reader facts unit cutoff concept datum ∧ datum.periodEnd = periodEnd := by
  rw [List.mem_map]
  simp only [eligibleAt_eq_some_iff, Asserts]
  constructor
  · rintro ⟨entry, hentry, hread, hfiled, hend⟩
    exact ⟨⟨hfiled, entry, hentry, hread⟩, hend⟩
  · rintro ⟨⟨hfiled, entry, hentry, hread⟩, hend⟩
    exact ⟨entry, hentry, hread, hfiled, hend⟩

theorem asserts_of_get?
    (h : (annualValuesByPeriodEnd reader facts concept.taxonomy concept.concept unit cutoff).get? periodEnd = some datum) :
    Asserts reader facts unit cutoff concept datum ∧ datum.periodEnd = periodEnd ∧
      ∀ datum', Asserts reader facts unit cutoff concept datum' → datum'.periodEnd = periodEnd → datum.order ≤ datum'.order := by
  rw [get?_annualValuesByPeriodEnd] at h
  obtain ⟨hmem, hleast⟩ := isBest_of_firstBest _ h
  obtain ⟨hasserts, hend⟩ := mem_eligible_iff.mp hmem
  exact ⟨hasserts, hend, fun datum' hasserts' hend' => hleast datum' (mem_eligible_iff.mpr ⟨hasserts', hend'⟩)⟩

theorem exists_get?_of_asserts {concept : ConceptRef} {datum : Datum} (h : Asserts reader facts unit cutoff concept datum) :
    ∃ held, (annualValuesByPeriodEnd reader facts concept.taxonomy concept.concept unit cutoff).get? datum.periodEnd =
      some held := by
  rw [get?_annualValuesByPeriodEnd]
  cases hbest : firstBest Datum.order ((facts.entries concept.taxonomy concept.concept unit).map
      (eligibleAt (fun entry => annualDatum reader entry unit) cutoff datum.periodEnd)) with
  | some held => exact ⟨held, rfl⟩
  | none => cases (firstBest_eq_none_iff _).mp hbest _ (mem_eligible_iff.mpr ⟨h, rfl⟩)

theorem mem_keys_mergeVariants {concepts : List ConceptRef} : periodEnd ∈ (mergeVariants reader facts concepts unit cutoff).keys ↔
      ∃ concept ∈ concepts, ∃ datum, Asserts reader facts unit cutoff concept datum ∧ datum.periodEnd = periodEnd := by
  rw [Dict.mem_keys_iff]
  constructor
  · rintro ⟨datum, hdatum⟩
    rw [get?_mergeVariants] at hdatum
    obtain ⟨concept, hconcept, hheld⟩ := List.mem_map.mp (isBest_of_firstBest _ hdatum).1
    obtain ⟨hasserts, hend, -⟩ := asserts_of_get? hheld
    exact ⟨concept, hconcept, datum, hasserts, hend⟩
  · rintro ⟨concept, hconcept, datum, hasserts, rfl⟩
    obtain ⟨held, hheld⟩ := exists_get?_of_asserts hasserts
    cases hmerged : (mergeVariants reader facts concepts unit cutoff).get? datum.periodEnd with
    | some found => exact ⟨found, rfl⟩
    | none =>
      rw [get?_mergeVariants] at hmerged
      have hnone := (firstBest_eq_none_iff _).mp hmerged _ (List.mem_map_of_mem hconcept)
      rw [hheld] at hnone
      cases hnone

theorem mergeVariants_least {concepts : List ConceptRef}
    (h : (mergeVariants reader facts concepts unit cutoff).get? periodEnd = some datum) :
    ∃ (i : ℕ) (concept : ConceptRef), concepts[i]? = some concept ∧ Asserts reader facts unit cutoff concept datum ∧
      datum.periodEnd = periodEnd ∧ ∀ (j : ℕ) (concept' : ConceptRef) (datum' : Datum),
        concepts[j]? = some concept' → Asserts reader facts unit cutoff concept' datum' →
        datum'.periodEnd = periodEnd →
        (toLex (datum.rank, toLex (i, -datum.filed)) : ℤ ×ₗ ℕ ×ₗ ℤ) ≤ toLex (datum'.rank, toLex (j, -datum'.filed)) := by
  rw [get?_mergeVariants] at h
  obtain ⟨i, hi, hleast⟩ := firstBest_spec _ h
  rw [List.getElem?_map, Option.map_eq_some_iff] at hi
  obtain ⟨concept, hconcept, hheld⟩ := hi
  obtain ⟨hasserts, hend, horder⟩ := asserts_of_get? hheld
  refine ⟨i, concept, hconcept, hasserts, hend, fun j concept' datum' hconcept' hasserts' hend' => ?_⟩
  obtain ⟨held', hheld'⟩ := exists_get?_of_asserts hasserts'
  rw [hend'] at hheld'
  -- the figure that the other concept holds comes between the two
  have hconcepts := hleast j held' (by rw [List.getElem?_map, hconcept', Option.map_some, hheld'])
  have hwithin := (asserts_of_get? hheld').2.2 datum' hasserts' hend'
  rw [Prod.Lex.toLex_le_toLex] at hconcepts ⊢
  rw [Datum.order, Datum.order, Prod.Lex.toLex_le_toLex] at hwithin
  rcases hconcepts with hrank | ⟨hrank, hij⟩
  · rcases hwithin with hrank' | ⟨hrank', -⟩
    · exact Or.inl (hrank.trans hrank')
    · exact Or.inl (hrank.trans_eq hrank')
  · rcases hwithin with hrank' | ⟨hrank', hfiled⟩
    · exact Or.inl (hrank.trans_lt hrank')
    · refine Or.inr ⟨hrank.trans hrank', Prod.Lex.toLex_le_toLex.mpr ?_⟩
      rcases Nat.lt_or_eq_of_le hij with hlt | rfl
      · exact Or.inl hlt
      · rw [hconcept] at hconcept'
        cases hconcept'
        rw [hheld] at hheld'
        cases hheld'
        exact Or.inr ⟨rfl, hfiled⟩

theorem latest_eq_none_iff {values : Series} : latest values = none ↔ values.keys = [] := by
  unfold latest
  cases hmax : values.keys.max? with
  | none => simp [List.max?_eq_none_iff.mp hmax]
  | some periodEnd =>
    have hmem := (List.max?_eq_some_iff.mp hmax).1
    obtain ⟨datum, hdatum⟩ := (Dict.mem_keys_iff _ _).mp hmem
    refine iff_of_false ?_ (List.ne_nil_of_mem hmem)
    rw [Option.bind_some, hdatum]
    exact Option.some_ne_none datum

theorem latest_eq_some {values : Series} (h : latest values = some datum) :
    ∃ periodEnd, values.get? periodEnd = some datum ∧ ∀ periodEnd' ∈ values.keys, periodEnd' ≤ periodEnd := by
  obtain ⟨periodEnd, hmax, hget⟩ := Option.bind_eq_some_iff.mp h
  exact ⟨periodEnd, hget, (List.max?_eq_some_iff.mp hmax).2⟩

/-- The synonyms resolve by statement form, declaration and filing date: the least eligible figure is held for a period end, every
eligible one is, and a later cutoff only adds period ends. -/
theorem merge_variants_order (reader : Reader) (facts : CompanyFacts) (concepts : List ConceptRef) (unit : String)
    (cutoff : Date) :
    (∀ periodEnd datum, (mergeVariants reader facts concepts unit cutoff).get? periodEnd = some datum →
      ∃ (i : ℕ) (concept : ConceptRef), concepts[i]? = some concept ∧ Asserts reader facts unit cutoff concept datum ∧
        datum.periodEnd = periodEnd ∧ ∀ (j : ℕ) (concept' : ConceptRef) (datum' : Datum),
          concepts[j]? = some concept' → Asserts reader facts unit cutoff concept' datum' →
          datum'.periodEnd = periodEnd →
          (toLex (datum.rank, toLex (i, -datum.filed)) : ℤ ×ₗ ℕ ×ₗ ℤ) ≤ toLex (datum'.rank, toLex (j, -datum'.filed))) ∧
    (∀ periodEnd, periodEnd ∈ (mergeVariants reader facts concepts unit cutoff).keys ↔
      ∃ concept ∈ concepts, ∃ datum, Asserts reader facts unit cutoff concept datum ∧ datum.periodEnd = periodEnd) ∧
    ∀ cutoff', cutoff ≤ cutoff' →
      (mergeVariants reader facts concepts unit cutoff).keys ⊆ (mergeVariants reader facts concepts unit cutoff').keys ∧
      ∀ datum, latest (mergeVariants reader facts concepts unit cutoff) = some datum →
        ∃ datum', latest (mergeVariants reader facts concepts unit cutoff') = some datum' ∧
          datum.periodEnd ≤ datum'.periodEnd := by
  refine ⟨fun periodEnd datum => mergeVariants_least, fun periodEnd => mem_keys_mergeVariants, fun cutoff' hle => ?_⟩
  have hsub : (mergeVariants reader facts concepts unit cutoff).keys ⊆
      (mergeVariants reader facts concepts unit cutoff').keys := by
    intro periodEnd hend
    obtain ⟨concept, hconcept, datum, hasserts, hperiod⟩ := mem_keys_mergeVariants.mp hend
    exact mem_keys_mergeVariants.mpr ⟨concept, hconcept, datum, hasserts.mono hle, hperiod⟩
  refine ⟨hsub, fun datum hlatest => ?_⟩
  obtain ⟨periodEnd, hget, -⟩ := latest_eq_some hlatest
  obtain ⟨-, -, -, -, rfl, -⟩ := mergeVariants_least hget
  have hmem := hsub ((Dict.mem_keys_iff _ _).mpr ⟨datum, hget⟩)
  cases hlatest' : latest (mergeVariants reader facts concepts unit cutoff') with
  | none =>
    rw [latest_eq_none_iff.mp hlatest'] at hmem
    cases hmem
  | some datum' =>
    obtain ⟨periodEnd', hget', hlast⟩ := latest_eq_some hlatest'
    obtain ⟨-, -, -, -, rfl, -⟩ := mergeVariants_least hget'
    exact ⟨datum', rfl, hlast _ hmem⟩

/-- A restatement that becomes knowable leaves the latest period end where it was, or later. -/
theorem merge_variants_order_restatement : ∃ datum,
    latest (mergeVariants filingReader (revenueDocument [revenueEntry "2025-02-14" "100", revenueEntry "2026-02-13" "90"])
      [⟨"us-gaap", "Revenues"⟩] "USD" 739700) = some datum ∧ 739251 ≤ datum.periodEnd := by
  have hlatest : latest (mergeVariants filingReader
      (revenueDocument [revenueEntry "2025-02-14" "100", revenueEntry "2026-02-13" "90"])
      [⟨"us-gaap", "Revenues"⟩] "USD" 739432) =
        some (entryDatum (revenueEntry "2025-02-14" "100") 100 739296 739251 (some 738886)) := by decide +kernel
  exact ((merge_variants_order filingReader _ _ "USD" 739432).2.2 739700 (by decide)).2 _ hlatest

end TrueAlpha.Datahub
