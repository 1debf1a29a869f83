import TrueAlpha.Datahub.BundlePointInTime
import TrueAlpha.Datahub.StandardsPlanner

/-!
# When a filled cell stays closed

A filled cell of the newest annual filing stays closed exactly when no later observation draws its revenue from an annual
filing: a quarterly balance sheet moves such an observation past the fact.
-/

namespace TrueAlpha.Datahub

open Strategy (OperatingBranch)

structure AnnualFiling where
  form : String
  filed : Date
  annual : form ∈ annualForms
  deriving DecidableEq

abbrev FilingHistory := ℕ → List AnnualFiling

inductive Written (history : FilingHistory) : StandardsTables → Prop
  | empty : Written history .empty
  /-- `extract_headcount` of an annual filing, for its own CIK or for a successor. -/
  | extract {tables tables' : StandardsTables} (before : Written history tables)
      {document : StandardsTables.FilingDocument} {filing : AnnualFiling} (filed : filing ∈ history document.cik)
      (form : document.form = filing.form) (date : document.filingDate = filing.filed) {recordCik : ℕ}
      {chosen : StandardsTables.ChosenHeadcount} {fetchId factId : ℕ} (fresh : ∀ stored ∈ tables.facts, stored.id < factId)
      (step : tables.extractHeadcount document recordCik chosen fetchId factId = .ok tables') : Written history tables'
  /-- Another producer's `record_headcount`. -/
  | record {tables tables' : StandardsTables} (before : Written history tables) {fact : HeadcountFact}
      (fresh : ∀ stored ∈ tables.facts, stored.id < fact.id) (step : tables.recordHeadcount fact = .ok tables') : Written history tables'
  /-- The capture of company facts, whose annual revenue comes from an annual filing. -/
  | capture {tables : StandardsTables} (before : Written history tables) (cik : ℕ) (bundle : FinancialFactsBundle)
      {reader : Reader} {facts : CompanyFacts} {ruleset : ConceptMappingRuleset} {cutoff : Date}
      {maximumInputAgeDays : ℤ} {dumps : CompanyFacts → String} {rawBytes : Option String} {branch : OperatingBranch}
      (built : bundle = buildBundle reader facts ruleset cutoff maximumInputAgeDays dumps rawBytes branch)
      (filed : ∀ vintage form, bundle.vintages.lookup "revenue" = some vintage → vintage.form = some form →
        form ∈ annualForms → ∃ filing ∈ history cik, filing.form = form ∧ filing.filed = vintage.filed)
      (headcount : Option Instant) : Written history (tables.captureBundle cik bundle cutoff headcount)

namespace StandardsTables

variable {tables tables' : StandardsTables}

theorem eq_of_recordHeadcount {fact : HeadcountFact} (h : tables.recordHeadcount fact = .ok tables') :
    tables' = { tables with facts := tables.facts ++ [fact] } := by
  unfold recordHeadcount at h
  split_ifs at h
  · rw [bind_eq_ok_iff] at h
    obtain ⟨_, _, h⟩ := h
    exact (pure_eq_ok_iff.mp h).symm
  · exact (pure_eq_ok_iff.mp h).symm

theorem of_extractHeadcount {document : FilingDocument} {recordCik fetchId factId : ℕ}
    {chosen : ChosenHeadcount} (h : tables.extractHeadcount document recordCik chosen fetchId factId = .ok tables') :
    tables'.observations = tables.observations ∧
      (∀ row ∈ tables'.fetches.rows, row ∈ tables.fetches.rows ∨ row = fetchOf document fetchId) ∧
      (tables'.facts = tables.facts ∨ ∃ fact : HeadcountFact, fact.id = factId ∧ tables'.facts = tables.facts ++ [fact]) := by
  unfold extractHeadcount at h
  split_ifs at h
  · cases h
    exact ⟨rfl, fun row => .inl, .inl rfl⟩
  · have htables := eq_of_recordHeadcount h
    subst htables
    refine ⟨rfl, fun row hrow => ?_, .inr ⟨_, rfl, rfl⟩⟩
    by_cases hholds : tables.fetches.Holds (fetchOf document fetchId)
    · simp only [AppendOnly.insert_of_holds hholds] at hrow
      exact .inl hrow
    · simp only [(AppendOnly.insert_of_not_holds hholds).1] at hrow
      exact (List.mem_append.mp hrow).imp id List.mem_singleton.mp

end StandardsTables

namespace Written

variable {history : FilingHistory} {tables : StandardsTables}

theorem fetch_filed (h : Written history tables) {row : FilingFetch} (hrow : row ∈ tables.fetches.rows) :
    ∃ filing ∈ history row.cik, row.form = some filing.form ∧ row.sourcePublishedAt = some (accessionInstant filing.filed) := by
  induction h with
  | empty => cases hrow
  | extract _ filed form date _ step ih =>
    rcases (StandardsTables.of_extractHeadcount step).2.1 row hrow with hold | rfl
    · exact ih hold
    · refine ⟨_, filed, ?_, ?_⟩
      · simp only [StandardsTables.fetchOf, form]
      · simp only [StandardsTables.fetchOf, date]
  | record _ _ step ih =>
    rw [StandardsTables.eq_of_recordHeadcount step] at hrow
    exact ih hrow
  | capture _ _ _ _ _ _ ih => exact ih hrow

theorem nodup_concat_id {facts : List HeadcountFact} (h : (facts.map HeadcountFact.id).Nodup) {fact : HeadcountFact}
    (hfresh : ∀ stored ∈ facts, stored.id < fact.id) : ((facts ++ [fact]).map HeadcountFact.id).Nodup := by
  rw [List.map_append, List.map_singleton]
  refine h.append (List.nodup_singleton _) (List.disjoint_singleton.mpr fun hmem => ?_)
  obtain ⟨stored, hstored, hid⟩ := List.mem_map.mp hmem
  exact absurd hid (hfresh stored hstored).ne

theorem nodup_ids (h : Written history tables) : (tables.facts.map HeadcountFact.id).Nodup := by
  induction h with
  | empty => exact List.nodup_nil
  | extract _ _ _ _ fresh step ih =>
    rcases (StandardsTables.of_extractHeadcount step).2.2 with hsame | ⟨fact, hid, hfacts⟩
    · rwa [hsame]
    · rw [hfacts]
      exact nodup_concat_id ih (hid ▸ fresh)
  | record _ fresh step ih =>
    rw [StandardsTables.eq_of_recordHeadcount step]
    exact nodup_concat_id ih fresh
  | capture _ _ _ _ _ _ ih => exact ih

end Written

structure FromNewestFiling (history : FilingHistory) (cik : ℕ) (cutoff : Instant) (fact : HeadcountFact) : Prop where
  extracted : ∃ filing ∈ history cik, accessionInstant filing.filed = fact.knowableAt
  newest : ∀ filing ∈ history cik, accessionInstant filing.filed ≤ cutoff → accessionInstant filing.filed ≤ fact.knowableAt

structure Fills (history : FilingHistory) (standard : MetricStandard) (cik : ℕ) (cutoff : Instant)
    (fact : HeadcountFact) : Prop where
  evidence : fact.source ∈ standard.evidenceBearingSources
  recent : cutoff - standard.maxAgeDays * microsPerDay ≤ fact.knowableAt
  filing : FromNewestFiling history cik cutoff fact

def NewerLanded (tables : StandardsTables) (cik : ℕ) (cutoff : Instant) (fact : HeadcountFact) : Prop :=
  ∃ row ∈ tables.fetches.rows, row.cik = cik ∧ row.form.getD "10-K" ∈ annualForms ∧
    ∃ published ∈ row.sourcePublishedAt, fact.knowableAt < published ∧ published ≤ cutoff

section Cell

variable {history : FilingHistory} {tables : StandardsTables} {standard : MetricStandard} {cutoff : Instant}
  {issuers : List UniverseIssuer} {issuer : UniverseIssuer} {cik : ℕ} {fact : HeadcountFact}

theorem landedInWindow_iff {row : FilingFetch} {after : Instant} : StandardsTables.landedInWindow cik after cutoff row = true ↔
      row.cik = cik ∧ (∃ published ∈ row.sourcePublishedAt, after < published ∧ published ≤ cutoff) ∧
        row.form.getD "10-K" ∈ annualForms := by
  simp [StandardsTables.landedInWindow, Option.any_eq_true]

theorem FromNewestFiling.not_landedInWindow (h : FromNewestFiling history cik cutoff fact) (hwritten : Written history tables) :
    tables.fetches.rows.any (StandardsTables.landedInWindow cik fact.knowableAt cutoff) = false := by
  rw [List.any_eq_false]
  intro row hrow hwindow
  obtain ⟨hcik, ⟨published, hpublished, hafter, hknown⟩, -⟩ := landedInWindow_iff.mp hwindow
  obtain ⟨filing, hfiling, -, hinstant⟩ := hwritten.fetch_filed hrow
  rw [hinstant] at hpublished
  cases hpublished
  rw [hcik] at hfiling
  exact absurd (h.newest filing hfiling hknown) (not_le.mpr hafter)

theorem listed_iff_of_fills (hwritten : Written history tables) (hissuer : issuer ∈ issuers) (hcik : issuer.cik = some cik)
    (hbest : BestFact tables standard.sourcePriority cik cutoff fact)
    (hfills : Fills history standard cik cutoff fact) :
    issuer ∈ tables.listed standard cutoff issuers ↔
      tables.observations.any (StandardsTables.observedInWindow cik fact.knowableAt cutoff) = true := by
  have hrow := (StandardsTables.headcountRow_eq_some_iff hwritten.nodup_ids).mpr hbest
  rw [StandardsTables.mem_listed_iff, and_iff_right hissuer,
    StandardsTables.openCell_isSome_iff hcik hrow hfills.evidence hfills.recent, StandardsTables.hasNewerAnnualFiling,
    hfills.filing.not_landedInWindow hwritten, Bool.false_or]

theorem observedInWindow_iff {observation : FinancialFactObservation} {after : Instant} :
    StandardsTables.observedInWindow cik after cutoff observation = true ↔
      observation.cik = cik ∧ after < observation.knowableAt ∧ observation.knowableAt ≤ cutoff ∧
        ∃ form ∈ observation.revenueForm, form ∈ annualForms := by
  simp [StandardsTables.observedInWindow, Option.any_eq_true]

theorem listed_of_newerLanded (hwritten : Written history tables) (hissuer : issuer ∈ issuers)
    (hcik : issuer.cik = some cik) (hbest : BestFact tables standard.sourcePriority cik cutoff fact)
    (hnewer : NewerLanded tables cik cutoff fact) : issuer ∈ tables.listed standard cutoff issuers := by
  obtain ⟨row, hrow, hrowCik, hannual, published, hpublished, hafter, hknown⟩ := hnewer
  have hlanded : tables.fetches.rows.any (StandardsTables.landedInWindow cik fact.knowableAt cutoff) = true :=
    List.any_eq_true.mpr ⟨row, hrow, landedInWindow_iff.mpr ⟨hrowCik, ⟨published, hpublished, hafter, hknown⟩, hannual⟩⟩
  refine StandardsTables.mem_listed_iff.mpr ⟨hissuer, StandardsTables.openCell_of_newer hcik
    ((StandardsTables.headcountRow_eq_some_iff hwritten.nodup_ids).mpr hbest) ?_⟩
  rw [StandardsTables.hasNewerAnnualFiling, hlanded, Bool.true_or]

theorem listed_of_no_fact (hissuer : issuer ∈ issuers) (hcik : issuer.cik = some cik)
    (h : ∀ fact ∈ tables.facts, fact.cik = cik → fact.knowableAt ≤ cutoff → isEligibleHeadcountRow fact = false) :
    issuer ∈ tables.listed standard cutoff issuers := by
  refine StandardsTables.mem_listed_iff.mpr ⟨hissuer, ?_⟩
  rw [StandardsTables.openCell_of_none hcik (StandardsTables.headcountRow_eq_none_iff.mpr h)]
  rfl

/-- **A filled cell stays closed, and an unfilled one is open, exactly when** no observation after a filling fact and by the
cutoff has its revenue from an annual filing. -/
theorem filled_cell_stays_closed_iff (hwritten : Written history tables) (hissuer : issuer ∈ issuers)
    (hcik : issuer.cik = some cik) :
    ((∀ fact, BestFact tables standard.sourcePriority cik cutoff fact → Fills history standard cik cutoff fact →
        issuer ∉ tables.listed standard cutoff issuers) ∧
      ((∃ fact, BestFact tables standard.sourcePriority cik cutoff fact ∧ NewerLanded tables cik cutoff fact) ∨
        (∀ fact ∈ tables.facts, fact.cik = cik → fact.knowableAt ≤ cutoff → isEligibleHeadcountRow fact = false) →
        issuer ∈ tables.listed standard cutoff issuers)) ↔
    ∀ fact, BestFact tables standard.sourcePriority cik cutoff fact → Fills history standard cik cutoff fact →
      ∀ observation ∈ tables.observations, observation.cik = cik → fact.knowableAt < observation.knowableAt →
        observation.knowableAt ≤ cutoff → ∀ form ∈ observation.revenueForm, form ∉ annualForms := by
  have hopen : (∃ fact, BestFact tables standard.sourcePriority cik cutoff fact ∧ NewerLanded tables cik cutoff fact) ∨
      (∀ fact ∈ tables.facts, fact.cik = cik → fact.knowableAt ≤ cutoff → isEligibleHeadcountRow fact = false) →
      issuer ∈ tables.listed standard cutoff issuers := by
    rintro (⟨fact, hbest, hnewer⟩ | hnone)
    · exact listed_of_newerLanded hwritten hissuer hcik hbest hnewer
    · exact listed_of_no_fact hissuer hcik hnone
  rw [and_iff_left hopen]
  refine forall_congr' fun fact => forall_congr' fun hbest => forall_congr' fun hfills => ?_
  rw [listed_iff_of_fills hwritten hissuer hcik hbest hfills, Bool.not_eq_true, List.any_eq_false]
  refine forall_congr' fun observation => forall_congr' fun _ => ?_
  rw [observedInWindow_iff]
  constructor
  · intro h hobservation hafter hknown form hform hannual
    exact h ⟨hobservation, hafter, hknown, form, hform, hannual⟩
  · rintro h ⟨hobservation, hafter, hknown, form, hform, hannual⟩
    exact h hobservation hafter hknown form hform hannual

end Cell

def annualReport : StandardsTables.FilingDocument := ⟨320193, "0000320193-25-000008", "10-K", 739296, "aapl-20241231.htm", "b1"⟩

def reportedHeadcount : StandardsTables.ChosenHeadcount :=
  ⟨164000, some 739251, "statement", "", "164,000 full-time equivalent employees", 1⟩

def reportHistory : FilingHistory := fun cik => if cik = 320193 then [⟨"10-K", 739296, by decide⟩] else []

def reportFact : HeadcountFact where
  id := 1
  cik := 320193
  headcount := 164000
  knowableAt := accessionInstant 739296
  periodEnd := some 739251
  source := "10k-extraction"
  evidenceRef := StandardsTables.evidenceRef annualReport 320193 1 reportedHeadcount
  confidence := 1

def reportTables : StandardsTables := ⟨[reportFact], ⟨[StandardsTables.fetchOf annualReport 1], List.nodup_singleton _⟩, []⟩

def reportIssuer : UniverseIssuer := ⟨"issuer:apple", "AAPL", "listing:aapl", some 320193, none⟩

def balanceSheetEntry (filed : String) : FactEntry :=
  { filed := some filed, «end» := some "2025-03-31", start := none, val := some "90", form := some "10-Q",
    accn := none, fy := some (.number 2025), fp := some "Q1", segment := none, document := none }

def quarterReader : Reader := { filingReader with date := fromIsoFormat }

def quarterFacts : CompanyFacts :=
  Dict.ofList [("us-gaap", Dict.ofList [("Revenues", Dict.ofList [("USD", [revenueEntry "2025-02-14" "100"])]),
    ("Assets", Dict.ofList [("USD", [balanceSheetEntry "2025-05-02"])])])]

def quarterRuleset : ConceptMappingRuleset :=
  ⟨[⟨"revenue", "USD", .synonym, [⟨"us-gaap", "Revenues"⟩]⟩, ⟨"total_assets", "USD", .synonym, [⟨"us-gaap", "Assets"⟩]⟩]⟩

def quarterBundle : FinancialFactsBundle :=
  buildBundle quarterReader quarterFacts quarterRuleset 739400 455 (fun _ => "") none .nonFinancial

def quarterTables : StandardsTables := reportTables.captureBundle 320193 quarterBundle 739400 none

theorem written_reportTables : Written reportHistory reportTables := by
  have hvalid : validateCitedHeadcountFact reportFact.knowableAt reportFact.periodEnd reportFact.evidenceRef false true =
      .ok () := by decide +kernel
  have hstep : StandardsTables.empty.extractHeadcount annualReport 320193 reportedHeadcount 1 1 = .ok reportTables := by
    show (do validateCitedHeadcountFact reportFact.knowableAt reportFact.periodEnd reportFact.evidenceRef false true
             return reportTables) = .ok reportTables
    rw [hvalid]
    rfl
  exact .extract .empty (List.mem_singleton.mpr rfl : (⟨"10-K", 739296, by decide⟩ : AnnualFiling) ∈ reportHistory 320193) rfl rfl
    (fun stored h => absurd h List.not_mem_nil) hstep

theorem revenue_quarterBundle : (quarterBundle.vintages.lookup "revenue").map (fun vintage => (vintage.form, vintage.filed)) =
    some (some "10-K", 739296) := by
  decide +kernel

theorem written_quarterTables : Written reportHistory quarterTables := by
  refine .capture written_reportTables 320193 quarterBundle rfl (fun vintage form hvintage hform _ => ?_) none
  have h := revenue_quarterBundle
  rw [hvintage, Option.map_some, hform] at h
  simp only [Option.some.injEq, Prod.mk.injEq] at h
  exact ⟨⟨"10-K", 739296, by decide⟩, List.mem_singleton.mpr rfl, h.1.symm, h.2.symm⟩

theorem fills_reportFact : Fills reportHistory employeesTotal 320193 (accessionInstant 739400) reportFact where
  evidence := by decide
  recent := by decide
  filing := ⟨⟨_, List.mem_singleton.mpr rfl, rfl⟩, fun filing h _ => by rw [List.mem_singleton.mp h]; exact le_rfl⟩

theorem bestFact_reportFact {tables : StandardsTables} (h : tables.facts = [reportFact]) :
    BestFact tables employeesTotal.sourcePriority 320193 (accessionInstant 739400) reportFact where
  stored := h ▸ List.mem_singleton.mpr rfl
  issuer := rfl
  known := by decide
  eligible := by decide +kernel
  best other hother _ _ _ := by
    rw [h] at hother
    rw [List.mem_singleton.mp hother]

/-- Before the capture the filled cell is closed. -/
theorem reportIssuer_stays_closed : reportIssuer ∉ reportTables.listed employeesTotal (accessionInstant 739400) [reportIssuer] :=
  ((filled_cell_stays_closed_iff written_reportTables (List.mem_singleton.mpr rfl) rfl).mpr
    fun _ _ _ _ h => absurd h List.not_mem_nil).1 reportFact (bestFact_reportFact rfl) fills_reportFact

/-- A quarterly balance sheet reopens a cell that the newest annual filing filled. -/
theorem filled_cell_reopens :
    ¬ ∀ (history : FilingHistory) (tables : StandardsTables) (standard : MetricStandard) (cutoff : Instant)
        (issuers : List UniverseIssuer) (issuer : UniverseIssuer) (cik : ℕ) (fact : HeadcountFact),
      Written history tables → issuer ∈ issuers → issuer.cik = some cik →
        BestFact tables standard.sourcePriority cik cutoff fact → Fills history standard cik cutoff fact →
        issuer ∉ tables.listed standard cutoff issuers := by
  intro h
  refine h reportHistory quarterTables employeesTotal (accessionInstant 739400) [reportIssuer] reportIssuer 320193
    reportFact written_quarterTables (List.mem_singleton.mpr rfl) rfl (bestFact_reportFact rfl) fills_reportFact ?_
  exact (listed_iff_of_fills written_quarterTables (List.mem_singleton.mpr rfl) rfl (bestFact_reportFact rfl)
    fills_reportFact).mpr (by decide +kernel)

end TrueAlpha.Datahub
