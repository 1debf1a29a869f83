import TrueAlpha.Datahub.BundleSources

/-!
# The financial bundle is point in time

Two documents that differ only in entries filed after a cutoff (`SameUntil`) have the same series, segmented share count,
statement dates and bundle, since the loops skip such entries.
-/

namespace TrueAlpha.Datahub

open Strategy (OperatingBranch)

variable {reader : Reader} {facts facts' : CompanyFacts} {ruleset : ConceptMappingRuleset} {cutoff : Date}

def filedAfter (reader : Reader) (cutoff : Date) (entry : FactEntry) : Bool :=
  (entry.filed.bind reader.date).any fun filed => cutoff < filed

def knownEntries (reader : Reader) (cutoff : Date) (entries : List FactEntry) : List FactEntry :=
  entries.filter fun entry => !filedAfter reader cutoff entry

def SameUntil (reader : Reader) (cutoff : Date) (facts facts' : CompanyFacts) : Prop :=
  ∀ taxonomy concept unit, knownEntries reader cutoff (facts'.entries taxonomy concept unit) =
    knownEntries reader cutoff (facts.entries taxonomy concept unit)

def KeepsFiled (reader : Reader) (read : FactEntry → Option Datum) : Prop :=
  ∀ entry datum, read entry = some datum → entry.filed.bind reader.date = some datum.filed

theorem annualDatum_keepsFiled (reader : Reader) (unit : String) : KeepsFiled reader fun entry => annualDatum reader entry unit := by
  intro entry datum h
  simp only [annualDatum] at h
  split at h
  · cases h
  · simp only [Option.bind_eq_bind, Option.bind_eq_some_iff] at h
    obtain ⟨filedRaw, hraw, _, _, _, _, filed, hfiled, _, _, _, _, h⟩ := h
    split at h
    · cases h
    · obtain ⟨value, -, rfl⟩ := Option.map_eq_some_iff.1 h
      rw [hraw, Option.bind_some, hfiled]
      rfl

theorem segmentedDatum_keepsFiled (reader : Reader) (unit : String) :
    KeepsFiled reader fun entry => segmentedDatum reader entry unit := by
  intro entry datum h
  simp only [segmentedDatum] at h
  split at h
  · cases h
  · simp only [Option.bind_eq_bind, Option.bind_eq_some_iff] at h
    obtain ⟨filedRaw, hraw, _, _, _, _, h⟩ := h
    split at h
    · cases h
    · simp only [Option.bind_eq_some_iff] at h
      obtain ⟨filed, hfiled, _, _, h⟩ := h
      obtain ⟨value, -, rfl⟩ := Option.map_eq_some_iff.1 h
      rw [hraw, Option.bind_some, hfiled]
      rfl

variable {entry : FactEntry} {read : FactEntry → Option Datum}

theorem collectDatum_filedAfter (hread : KeepsFiled reader read) (values : Series) (h : filedAfter reader cutoff entry = true) :
    collectDatum read cutoff values entry = values := by
  unfold collectDatum
  cases hr : read entry with
  | none => rfl
  | some datum =>
    rw [filedAfter, hread entry datum hr, Option.any_some, decide_eq_true_iff] at h
    exact if_pos h

theorem foldl_collectDatum_known (hread : KeepsFiled reader read) (entries : List FactEntry) (values : Series) :
    (knownEntries reader cutoff entries).foldl (collectDatum read cutoff) values =
      entries.foldl (collectDatum read cutoff) values := by
  induction entries generalizing values with
  | nil => rfl
  | cons entry rest ih =>
    rw [List.foldl_cons, ← ih, knownEntries, List.filter_cons]
    cases h : filedAfter reader cutoff entry with
    | true =>
      rw [collectDatum_filedAfter hread values h]
      rfl
    | false => rfl

section

variable (h : SameUntil reader cutoff facts facts')

include h

theorem annualValues_sameUntil (taxonomy concept unit : String) :
    annualValuesByPeriodEnd reader facts' taxonomy concept unit cutoff =
      annualValuesByPeriodEnd reader facts taxonomy concept unit cutoff := by
  have hread := annualDatum_keepsFiled reader unit
  unfold annualValuesByPeriodEnd
  rw [← foldl_collectDatum_known hread, h taxonomy concept unit, foldl_collectDatum_known hread]

theorem resolveField_sameUntil (field : String) :
    resolveField reader facts' ruleset field cutoff = resolveField reader facts ruleset field cutoff := by
  simp only [resolveField, preferredVariant, mergeVariants, annualValues_sameUntil h]

theorem segmentedShares_sameUntil :
    segmentedShares reader facts' ruleset cutoff = segmentedShares reader facts ruleset cutoff := by
  have hfold : ∀ (taxonomy concept unit : String) (values : Series), (facts'.entries taxonomy concept unit).foldl
          (collectDatum (fun entry => segmentedDatum reader entry unit) cutoff) values =
        (facts.entries taxonomy concept unit).foldl
          (collectDatum (fun entry => segmentedDatum reader entry unit) cutoff) values := by
    intro taxonomy concept unit values
    have hread := segmentedDatum_keepsFiled reader unit
    rw [← foldl_collectDatum_known hread, h taxonomy concept unit, foldl_collectDatum_known hread]
  simp only [segmentedShares, hfold]

end

theorem mem_units_flatten {units : Dict String (List FactEntry)} :
    entry ∈ units.values.flatten ↔ ∃ unit, entry ∈ (units.get? unit).getD [] := by
  rw [List.mem_flatten]
  constructor
  · rintro ⟨entries, hentries, hmem⟩
    obtain ⟨unit, hunit⟩ := Dict.exists_get?_of_mem_values hentries
    exact ⟨unit, by rw [hunit]; exact hmem⟩
  · rintro ⟨unit, hmem⟩
    cases hunit : units.get? unit with
    | none =>
      rw [hunit] at hmem
      cases hmem
    | some entries =>
      rw [hunit] at hmem
      exact ⟨entries, Dict.mem_values_of_get? hunit, hmem⟩

variable {statement : String × Date × Date}

theorem statementEntry_filed
    (h : statementEntry reader entry = some statement) :
    entry.filed.bind reader.date = some statement.2.1 := by
  simp only [statementEntry, Option.bind_eq_bind, Option.bind_eq_some_iff] at h
  obtain ⟨form, -, filedRaw, hraw, endRaw, -, h⟩ := h
  split at h
  · cases h
  · simp only [Option.bind_eq_some_iff] at h
    obtain ⟨filed, hfiled, periodEnd, -, h⟩ := h
    cases h
    rw [hraw, Option.bind_some, hfiled]

theorem mem_statementEntries : statement ∈ statementEntries reader facts ruleset cutoff ↔
      statement.2.1 ≤ cutoff ∧ ∃ concept ∈ ((ruleset.mappingFor "total_assets").map FieldMapping.concepts).getD [],
        ∃ unit, ∃ entry ∈ knownEntries reader cutoff (facts.entries concept.taxonomy concept.concept unit),
          statementEntry reader entry = some statement := by
  simp only [statementEntries, List.mem_filterMap, List.mem_flatMap, mem_units_flatten, Option.filter_eq_some_iff,
    decide_eq_true_iff]
  constructor
  · rintro ⟨entry, ⟨concept, hconcept, unit, hmem⟩, hread, hfiled⟩
    have hknown : filedAfter reader cutoff entry = false := by
      rw [filedAfter, statementEntry_filed hread, Option.any_some, decide_eq_false_iff_not]
      exact not_lt.2 hfiled
    exact ⟨hfiled, concept, hconcept, unit, entry, List.mem_filter.2 ⟨hmem, by rw [hknown]; rfl⟩, hread⟩
  · rintro ⟨hfiled, concept, hconcept, unit, entry, hmem, hread⟩
    exact ⟨entry, ⟨concept, hconcept, unit, (List.mem_filter.1 hmem).1⟩, hread, hfiled⟩

theorem statementPeriodEnds_congr (hmem : ∀ statement, statement ∈ statementEntries reader facts' ruleset cutoff ↔
      statement ∈ statementEntries reader facts ruleset cutoff) :
    statementPeriodEnds reader facts' ruleset cutoff = statementPeriodEnds reader facts ruleset cutoff := by
  unfold statementPeriodEnds
  apply Prod.ext
  · apply max?_congr_mem
    intro periodEnd
    simp only [List.mem_map, hmem]
  · apply max?_congr_mem
    intro periodEnd
    simp only [List.mem_map, List.mem_filter, hmem]

theorem statementPeriodEnds_sameUntil (h : SameUntil reader cutoff facts facts') :
    statementPeriodEnds reader facts' ruleset cutoff = statementPeriodEnds reader facts ruleset cutoff := by
  refine statementPeriodEnds_congr fun statement => ?_
  simp only [mem_statementEntries, h _ _ _]

theorem bundleFigures_sameUntil (h : SameUntil reader cutoff facts facts') (maximumInputAgeDays : ℤ) (branch : OperatingBranch) :
    bundleFigures reader facts' ruleset cutoff maximumInputAgeDays branch =
      bundleFigures reader facts ruleset cutoff maximumInputAgeDays branch := by
  have hoperating : operatingFigures reader facts' ruleset cutoff branch =
      operatingFigures reader facts ruleset cutoff branch := by
    simp only [operatingFigures, preProvisionProfit, bankNetRevenue, insurancePreClaimsProfit, grossProfit,
      resolveField_sameUntil h]
  have hfinancial : financialComponents reader facts' ruleset cutoff branch =
      financialComponents reader facts ruleset cutoff branch := by
    simp only [financialComponents, resolveField_sameUntil h]
  have htangible : tangibleCommonEquityComponents reader facts' ruleset cutoff branch =
      tangibleCommonEquityComponents reader facts ruleset cutoff branch := by
    simp only [tangibleCommonEquityComponents, resolveField_sameUntil h]
  simp only [bundleFigures, segmentedSharesDatum, hoperating, hfinancial, htangible, resolveField_sameUntil h,
    segmentedShares_sameUntil h, statementPeriodEnds_sameUntil h]

/-! ## The bundle -/

def FinancialFactsBundle.numbers (bundle : FinancialFactsBundle) : List ℚ :=
  [bundle.grossProfit, bundle.totalAssets, bundle.sharesOutstanding, bundle.revenue, bundle.preProvisionProfit,
    bundle.netIncome, bundle.financialAssets, bundle.financialReturns, bundle.stockholdersEquity,
    bundle.preferredStockValue, bundle.goodwill, bundle.intangibleAssetsNetExcludingGoodwill,
    bundle.bankNetRevenue].filterMap id ++ bundle.netIncomeByPeriod.map Prod.snd

def FinancialFactsBundle.allVintages (bundle : FinancialFactsBundle) : List Vintage :=
  bundle.vintages.map Prod.snd ++ bundle.netIncomeVintages.map Prod.snd

theorem utcDate_accessionInstant (day : Date) : utcDate (accessionInstant day) = day := by
  have hdiv : ∀ n : ℤ, (n * 86400000000 + 86399999999) / 86400000000 = n := by
    intro n
    omega
  exact hdiv day

section Bundle

variable {maximumInputAgeDays : ℤ} {dumps : CompanyFacts → String} {rawBytes : Option String}
  {branch : OperatingBranch}

theorem exists_figure_of_mem_numbers {value : ℚ}
    (h : value ∈ (buildBundle reader facts ruleset cutoff maximumInputAgeDays dumps rawBytes branch).numbers) :
    ∃ datum ∈ (bundleFigures reader facts ruleset cutoff maximumInputAgeDays branch).resolved, datum.value = value := by
  rcases List.mem_append.1 h with h | h
  · obtain ⟨figure, hfigure, hvalue⟩ := List.mem_filterMap.1 h
    have hreported : ∃ datum, some datum ∈ (bundleFigures reader facts ruleset cutoff maximumInputAgeDays
        branch).reported ∧ datum.value = value := by
      have hpick : ∀ datum ∈ (bundleFigures reader facts ruleset cutoff maximumInputAgeDays branch).reported,
          figure = valueOf datum → ∃ d, some d ∈ (bundleFigures reader facts ruleset cutoff maximumInputAgeDays
            branch).reported ∧ d.value = value := by
        intro datum hdatum hfig
        rw [hfig, id, valueOf, Option.map_eq_some_iff] at hvalue
        obtain ⟨d, rfl, hd⟩ := hvalue
        exact ⟨d, hdatum, hd⟩
      simp only [BundleFigures.reported, List.forall_mem_cons] at hpick
      obtain ⟨p₁, p₂, p₃, -, p₅, p₆, -, p₈, p₉, p₁₀, p₁₁, p₁₂, p₁₃, p₁₄, p₁₅, -⟩ := hpick
      simp only [buildBundle, List.mem_cons, List.not_mem_nil, or_false] at hfigure
      rcases hfigure with h | h | h | h | h | h | h | h | h | h | h | h | h
      · exact p₁ h
      · exact p₅ h
      · exact p₆ h
      · exact p₈ h
      · exact p₂ h
      · exact p₉ h
      · exact p₁₀ h
      · exact p₁₁ h
      · exact p₁₂ h
      · exact p₁₃ h
      · exact p₁₄ h
      · exact p₁₅ h
      · exact p₃ h
    obtain ⟨datum, hdatum, hvalue⟩ := hreported
    exact ⟨datum, mem_resolved_of_reported hdatum, hvalue⟩
  · obtain ⟨item, hitem, rfl⟩ := List.mem_map.1 h
    obtain ⟨period, hperiod, rfl⟩ := List.mem_map.1 hitem
    have hmem := (mem_sortedBy Prod.fst).1 hperiod
    exact ⟨period.2, List.mem_append_right _ (List.mem_map.2 ⟨period, hmem, rfl⟩), rfl⟩

theorem exists_figure_of_mem_vintages {vintage : Vintage}
    (h : vintage ∈ (buildBundle reader facts ruleset cutoff maximumInputAgeDays dumps rawBytes branch).allVintages) :
    ∃ datum ∈ (bundleFigures reader facts ruleset cutoff maximumInputAgeDays branch).resolved, vintageOf datum = vintage := by
  rcases List.mem_append.1 h with h | h
  · obtain ⟨item, hitem, rfl⟩ := List.mem_map.1 h
    obtain ⟨figure, hfigure, hitem⟩ := List.mem_filterMap.1 hitem
    obtain ⟨datum, hdatum, rfl⟩ := Option.map_eq_some_iff.1 hitem
    refine ⟨datum, mem_resolved_of_reported ?_, rfl⟩
    rw [← hdatum]
    exact List.mem_map_of_mem hfigure
  · obtain ⟨item, hitem, rfl⟩ := List.mem_map.1 h
    obtain ⟨period, hperiod, rfl⟩ := List.mem_map.1 hitem
    have hmem := (mem_sortedBy Prod.fst).1 hperiod
    exact ⟨period.2, List.mem_append_right _ (List.mem_map.2 ⟨period, hmem, rfl⟩), rfl⟩

theorem sourced_at_knowable (dumps : CompanyFacts → String) (rawBytes : Option String) {datum : Datum}
    (h : datum ∈ (bundleFigures reader facts ruleset cutoff maximumInputAgeDays branch).resolved) :
    ∃ instant, (buildBundle reader facts ruleset cutoff maximumInputAgeDays dumps rawBytes branch).knowableAt =
      some instant ∧ Sourced reader facts (utcDate instant) datum := by
  set resolved := (bundleFigures reader facts ruleset cutoff maximumInputAgeDays branch).resolved with hresolved
  have hfiled : datum.filed ∈ resolved.map Datum.filed := List.mem_map_of_mem h
  cases hmax : (resolved.map Datum.filed).max? with
  | none =>
    rw [List.max?_eq_none_iff] at hmax
    rw [hmax] at hfiled
    cases hfiled
  | some day =>
    have hle : datum.filed ≤ day := (List.max?_eq_some_iff.1 hmax).2 _ hfiled
    refine ⟨accessionInstant day, ?_, ?_⟩
    · show (resolved.map Datum.filed).max?.map accessionInstant = some (accessionInstant day)
      rw [hmax, Option.map_some]
    · rw [utcDate_accessionInstant]
      exact (sourced_resolved h).at_filed.mono hle

theorem knowableAt_le_cutoff {instant : Instant}
    (h : (buildBundle reader facts ruleset cutoff maximumInputAgeDays dumps rawBytes branch).knowableAt =
      some instant) : utcDate instant ≤ cutoff := by
  obtain ⟨day, hday, rfl⟩ := Option.map_eq_some_iff.1 h
  obtain ⟨datum, hdatum, rfl⟩ := List.mem_map.1 (List.max?_eq_some_iff.1 hday).1
  rw [utcDate_accessionInstant]
  exact (sourced_resolved hdatum).filed_le

/-- A document that differs only in entries filed after the cutoff gives the same bundle, but for the bytes and the kept document.
Every number and vintage rests on entries filed by the bundle's date, which is not after the cutoff. -/
theorem build_bundle_point_in_time (reader : Reader) (ruleset : ConceptMappingRuleset) (cutoff : Date)
    (maximumInputAgeDays : ℤ) (dumps : CompanyFacts → String) (branch : OperatingBranch)
    {facts facts' : CompanyFacts} (rawBytes rawBytes' : Option String) (h : SameUntil reader cutoff facts facts') :
    let bundle := buildBundle reader facts ruleset cutoff maximumInputAgeDays dumps rawBytes branch
    let bundle' := buildBundle reader facts' ruleset cutoff maximumInputAgeDays dumps rawBytes' branch
    bundle' = { bundle with rawBytes := bundle'.rawBytes, document := bundle'.document } ∧
      (∀ value ∈ bundle.numbers, ∃ instant, bundle.knowableAt = some instant ∧
        ∃ datum, Sourced reader facts (utcDate instant) datum ∧ datum.value = value) ∧
      (∀ vintage ∈ bundle.allVintages, ∃ instant, bundle.knowableAt = some instant ∧
        ∃ datum, Sourced reader facts (utcDate instant) datum ∧ vintageOf datum = vintage) ∧
      ∀ instant, bundle.knowableAt = some instant → utcDate instant ≤ cutoff := by
  refine ⟨?_, ?_, ?_, fun instant => knowableAt_le_cutoff⟩
  · unfold buildBundle
    rw [bundleFigures_sameUntil h]
  · intro value hvalue
    obtain ⟨datum, hdatum, rfl⟩ := exists_figure_of_mem_numbers hvalue
    obtain ⟨instant, hinstant, hsourced⟩ := sourced_at_knowable dumps rawBytes hdatum
    exact ⟨instant, hinstant, datum, hsourced, rfl⟩
  · intro vintage hvintage
    obtain ⟨datum, hdatum, rfl⟩ := exists_figure_of_mem_vintages hvintage
    obtain ⟨instant, hinstant, hsourced⟩ := sourced_at_knowable dumps rawBytes hdatum
    exact ⟨instant, hinstant, datum, hsourced, rfl⟩

end Bundle

def filingReader : Reader where
  date text :=
    if text = "2024-01-01" then some 738886
    else if text = "2024-12-31" then some 739251
    else if text = "2025-02-14" then some 739296
    else if text = "2026-02-13" then some 739660
    else none
  decimal text := if text = "100" then some 100 else if text = "90" then some 90 else none

def revenueEntry (filed val : String) : FactEntry :=
  { filed := some filed, «end» := some "2024-12-31", start := some "2024-01-01", val := some val, form := some "10-K",
    accn := none, fy := some (.number 2024), fp := some "FY", segment := none, document := none }

def revenueDocument (entries : List FactEntry) : CompanyFacts :=
  Dict.ofList [("us-gaap", Dict.ofList [("Revenues", Dict.ofList [("USD", entries)])])]

theorem revenueDocument_entries (entries : List FactEntry) (taxonomy concept unit : String) :
    (revenueDocument entries).entries taxonomy concept unit =
      if "us-gaap" = taxonomy ∧ "Revenues" = concept ∧ "USD" = unit then entries else [] := by
  have hone : ∀ {α : Type} (key key' : String) (value : α),
      (Dict.ofList [(key, value)]).get? key' = if key = key' then some value else none := by
    intro α key key' value
    exact Dict.get?_set Dict.empty key key' value
  unfold CompanyFacts.entries CompanyFacts.units revenueDocument
  rw [hone]
  by_cases ht : "us-gaap" = taxonomy
  · rw [if_pos ht, Option.getD_some, hone]
    by_cases hc : "Revenues" = concept
    · rw [if_pos hc, Option.getD_some, hone]
      by_cases hu : "USD" = unit
      · simp [ht, hc, hu]
      · simp [hu]
    · simp [hc]
  · simp [ht]

def revenueRuleset : ConceptMappingRuleset := ⟨[⟨"revenue", "USD", .synonym, [⟨"us-gaap", "Revenues"⟩]⟩]⟩

theorem sameUntil_restatement : SameUntil filingReader 739432 (revenueDocument [revenueEntry "2025-02-14" "100"])
    (revenueDocument [revenueEntry "2025-02-14" "100", revenueEntry "2026-02-13" "90"]) := by
  intro taxonomy concept unit
  rw [revenueDocument_entries, revenueDocument_entries]
  split
  · decide
  · rfl

theorem build_bundle_point_in_time_restatement :
    let bundle := buildBundle filingReader (revenueDocument [revenueEntry "2025-02-14" "100"]) revenueRuleset 739432 455
      (fun _ => "") none .nonFinancial
    bundle.numbers = [100] ∧
      (buildBundle filingReader (revenueDocument [revenueEntry "2025-02-14" "100", revenueEntry "2026-02-13" "90"])
        revenueRuleset 739432 455 (fun _ => "") none .nonFinancial).revenue = bundle.revenue ∧
      ∃ instant, bundle.knowableAt = some instant ∧ ∃ datum,
        Sourced filingReader (revenueDocument [revenueEntry "2025-02-14" "100"]) (utcDate instant) datum ∧ datum.value = 100 := by
  intro bundle
  have hnumbers : bundle.numbers = [100] := by decide +kernel
  have h := build_bundle_point_in_time filingReader revenueRuleset 739432 455 (fun _ => "") .nonFinancial none none
    sameUntil_restatement
  refine ⟨hnumbers, ?_, h.2.1 100 ?_⟩
  · rw [h.1]
  · rw [hnumbers]
    exact List.mem_singleton.2 rfl

end TrueAlpha.Datahub
