import TrueAlpha.Datahub.FilledCells

/-!
# The annual filing of a cutoff

`_latest_filing_for_forms` of `filing_extraction.py` compares the filing day with the day of the cutoff, but a filing is knowable
at the end of its day.  So a fact is knowable at the cutoff unless it was filed on that day (`extracted_fact_is_known`).
-/

namespace TrueAlpha.Datahub

structure IndexRow where
  form : String
  filingDate : Option String
  accessionNumber : Option String
  primaryDocument : Option String

structure OverflowFile where
  name : Option String
  filingFrom : Option String

/-- The submissions of an issuer and what the gateway answers: an overflow block by its name, the hash of a filing's body. -/
structure SubmissionsIndex where
  cik : ℕ
  recent : List IndexRow
  files : List OverflowFile
  overflow : String → Except String (List IndexRow)
  body : String → String → Except String String

def IndexRow.AnnualOn (row : IndexRow) (day : Date) : Prop :=
  row.form ∈ annualForms ∧ row.filingDate.bind fromIsoFormat = some day

def lastSettledAccessionDate (cutoff : Instant) : Date :=
  if accessionInstant (utcDate cutoff) ≤ cutoff then utcDate cutoff else utcDate cutoff - 1

variable {cutoff : Instant}

theorem accessionInstant_le_iff {day : Date} : accessionInstant day ≤ cutoff ↔ day ≤ lastSettledAccessionDate cutoff := by
  have hlast : ∀ c d : ℤ, d * 86400000000 + 86399999999 ≤ c ↔
      d ≤ if c / 86400000000 * 86400000000 + 86399999999 ≤ c then c / 86400000000 else c / 86400000000 - 1 := by
    intro c d
    split_ifs with h <;> omega
  exact hlast cutoff day

theorem accessionInstant_mono {day day' : Date} (h : day ≤ day') : accessionInstant day ≤ accessionInstant day' := by
  have hmono : ∀ a b : ℤ, a ≤ b → a * 86400000000 + 86399999999 ≤ b * 86400000000 + 86399999999 := by
    intro a b hab
    omega
  exact hmono day day' h

theorem lastSettledAccessionDate_le (cutoff : Instant) : lastSettledAccessionDate cutoff ≤ utcDate cutoff := by
  unfold lastSettledAccessionDate
  split_ifs
  · exact le_rfl
  · exact Int.sub_le_self _ (by decide)

namespace SubmissionsIndex

variable (index : SubmissionsIndex) (cutoffDate : Date)

def annualFilingFromIndex : List IndexRow → Except String (Option StandardsTables.FilingDocument)
  | [] => .ok none
  | row :: rows =>
    if row.form ∉ annualForms then annualFilingFromIndex rows
    else match row.filingDate.bind fromIsoFormat with
      | none => .error "no filing date"
      | some filed =>
        if cutoffDate < filed then annualFilingFromIndex rows
        else match row.accessionNumber, row.primaryDocument with
          | some accessionNumber, some document => do
            let accession := String.ofList (accessionNumber.toList.filter (· ≠ '-'))
            let body ← index.body accession document
            return some ⟨index.cik, accession, row.form, filed, document, body⟩
          | _, _ => .error "list index out of range"

def overflowFiling : List OverflowFile → Except String (Option StandardsTables.FilingDocument)
  | [] => .ok none
  | file :: files =>
    match file.name with
    | none | some "" => overflowFiling files
    | some name =>
      if (file.filingFrom.bind fromIsoFormat).any (cutoffDate < ·) then overflowFiling files
      else do
        match ← index.annualFilingFromIndex cutoffDate (← index.overflow name) with
        | some document => return some document
        | none => overflowFiling files

def latestAnnualFiling (cutoff : Instant) : Except String (Option StandardsTables.FilingDocument) := do
  match ← index.annualFilingFromIndex (utcDate cutoff) index.recent with
  | some document => return some document
  | none => index.overflowFiling (utcDate cutoff) index.files

/-! ## What the index lists -/

def block (file : OverflowFile) : List IndexRow :=
  match file.name with
  | none | some "" => []
  | some name => (index.overflow name).toOption.getD []

def rows : List IndexRow := index.recent ++ index.files.flatMap index.block

/-- The blocks list filings newest first, none filed before its file's `filingFrom`. -/
structure NewestFirst : Prop where
  rows : index.rows.Pairwise fun a b => ∀ day day', a.AnnualOn day → b.AnnualOn day' → day' ≤ day
  starts : ∀ file ∈ index.files, ∀ first ∈ file.filingFrom.bind fromIsoFormat, ∀ row ∈ index.block file,
    ∀ day, row.AnnualOn day → first ≤ day

variable {index cutoffDate} {document : StandardsTables.FilingDocument} {l : List IndexRow}

def Passed (cutoffDate : Date) (row : IndexRow) : Prop := ∀ day, row.AnnualOn day → cutoffDate < day

/-- A document of a row up to the day, before which the search passed all rows when the files start as they say. -/
structure Finds (starts : Prop) (cutoffDate : Date) (l : List IndexRow) (document : StandardsTables.FilingDocument) : Prop where
  day : document.filingDate ≤ cutoffDate
  row : ∃ before row after, l = before ++ row :: after ∧ row.AnnualOn document.filingDate ∧
    (starts → ∀ other ∈ before, Passed cutoffDate other)

variable {starts : Prop}

theorem Finds.append_left (h : Finds starts cutoffDate l document) {l' : List IndexRow}
    (hpassed : starts → ∀ row ∈ l', Passed cutoffDate row) : Finds starts cutoffDate (l' ++ l) document := by
  obtain ⟨hday, before, row, after, rfl, hannual, hbefore⟩ := h
  refine ⟨hday, l' ++ before, row, after, by simp, hannual, fun hstarts other hother => ?_⟩
  exact (List.mem_append.mp hother).elim (hpassed hstarts other) (hbefore hstarts other)

theorem Finds.append_right (h : Finds starts cutoffDate l document) (l' : List IndexRow) :
    Finds starts cutoffDate (l ++ l') document := by
  obtain ⟨hday, before, row, after, rfl, hannual, hbefore⟩ := h
  exact ⟨hday, before, row, after ++ l', by simp, hannual, hbefore⟩

variable (starts) in
theorem annualFilingFromIndex_spec {found : Option StandardsTables.FilingDocument}
    (h : index.annualFilingFromIndex cutoffDate l = .ok found) :
    (found = none → ∀ row ∈ l, Passed cutoffDate row) ∧
      ∀ document ∈ found, Finds starts cutoffDate l document ∧ document.form ∈ annualForms := by
  induction l with
  | nil => cases h; exact ⟨fun _ _ hrow => absurd hrow List.not_mem_nil, by simp⟩
  | cons row rows ih =>
    have hskip : index.annualFilingFromIndex cutoffDate rows = .ok found → Passed cutoffDate row →
        (found = none → ∀ other ∈ row :: rows, Passed cutoffDate other) ∧
          ∀ document ∈ found, Finds starts cutoffDate (row :: rows) document ∧ document.form ∈ annualForms := by
      intro hrest hrow
      refine ⟨fun hnone => List.forall_mem_cons.mpr ⟨hrow, (ih hrest).1 hnone⟩, fun document hdocument => ?_⟩
      obtain ⟨hfinds, hform⟩ := (ih hrest).2 document hdocument
      have hlater : Finds starts cutoffDate ([row] ++ rows) document := hfinds.append_left fun _ => by simpa using hrow
      exact ⟨hlater, hform⟩
    simp only [annualFilingFromIndex] at h
    split_ifs at h with hform
    · split at h
      · cases h
      · rename_i filed hfiled
        split_ifs at h with hlate
        · refine hskip h fun day hday => ?_
          rw [IndexRow.AnnualOn, hfiled, Option.some.injEq] at hday
          exact hday.2 ▸ hlate
        · split at h
          · obtain ⟨body, -, hbody⟩ := bind_eq_ok_iff.mp h
            cases pure_eq_ok_iff.mp hbody
            refine ⟨by simp, fun document hdocument => ?_⟩
            cases hdocument
            exact ⟨⟨not_lt.mp hlate, [], row, rows, rfl, ⟨hform, hfiled⟩, by simp⟩, hform⟩
          · cases h
    · exact hskip h fun day hday => absurd hday.1 hform

theorem overflowFiling_spec {files : List OverflowFile} (h : index.overflowFiling cutoffDate files = .ok (some document))
    (hstarts : starts → ∀ file ∈ files, ∀ first ∈ file.filingFrom.bind fromIsoFormat, ∀ row ∈ index.block file,
      ∀ day, row.AnnualOn day → first ≤ day) :
    Finds starts cutoffDate (files.flatMap index.block) document ∧ document.form ∈ annualForms := by
  induction files with
  | nil => cases h
  | cons file files ih =>
    have hnext : index.overflowFiling cutoffDate files = .ok (some document) →
        (starts → ∀ row ∈ index.block file, Passed cutoffDate row) →
        Finds starts cutoffDate ((file :: files).flatMap index.block) document ∧ document.form ∈ annualForms := by
      intro hrest hpassed
      obtain ⟨hfinds, hform⟩ := ih hrest fun hs => (List.forall_mem_cons.mp (hstarts hs)).2
      exact ⟨hfinds.append_left hpassed, hform⟩
    simp only [overflowFiling] at h
    split at h
    · rename_i hname
      exact hnext h fun _ => by simp [block, hname]
    · rename_i hname
      exact hnext h fun _ => by simp [block, hname]
    · rename_i name hempty hname
      split_ifs at h with hlate
      · obtain ⟨first, hfirst, hlater⟩ := (Option.any_eq_true _ _).mp hlate
        exact hnext h fun hs row hrow day hday =>
          (of_decide_eq_true hlater).trans_le ((List.forall_mem_cons.mp (hstarts hs)).1 first hfirst row hrow day hday)
      · obtain ⟨rows, hrows, h⟩ := bind_eq_ok_iff.mp h
        obtain ⟨found, hfound, h⟩ := bind_eq_ok_iff.mp h
        have hblock : index.block file = rows := by
          simp [block, hname, hrows, Except.toOption]
        obtain ⟨hnone, hsome⟩ := annualFilingFromIndex_spec starts hfound
        cases found with
        | none => exact hnext h fun _ => by rw [hblock]; exact hnone rfl
        | some document' =>
          cases pure_eq_ok_iff.mp h
          obtain ⟨hfinds, hform⟩ := hsome _ rfl
          rw [List.flatMap_cons, hblock]
          exact ⟨hfinds.append_right _, hform⟩

theorem latestAnnualFiling_spec (h : index.latestAnnualFiling cutoff = .ok (some document)) :
    Finds index.NewestFirst (utcDate cutoff) index.rows document ∧ document.form ∈ annualForms := by
  obtain ⟨found, hfound, h⟩ := bind_eq_ok_iff.mp h
  obtain ⟨hnone, hsome⟩ := annualFilingFromIndex_spec index.NewestFirst hfound
  cases found with
  | none =>
    obtain ⟨hfinds, hform⟩ := overflowFiling_spec h NewestFirst.starts
    exact ⟨hfinds.append_left fun _ => hnone rfl, hform⟩
  | some document' =>
    cases pure_eq_ok_iff.mp h
    obtain ⟨hfinds, hform⟩ := hsome _ rfl
    exact ⟨hfinds.append_right _, hform⟩

theorem Finds.newest (h : Finds index.NewestFirst cutoffDate index.rows document) (hindex : index.NewestFirst) :
    ∀ row ∈ index.rows, ∀ day, row.AnnualOn day → day ≤ cutoffDate → day ≤ document.filingDate := by
  obtain ⟨-, before, found, after, hrows, hannual, hbefore⟩ := h
  have hpairwise := hindex.rows
  intro row hrow day hday hcutoff
  rw [hrows, List.pairwise_append, List.pairwise_cons] at hpairwise
  rw [hrows, List.mem_append, List.mem_cons] at hrow
  rcases hrow with hrow | rfl | hrow
  · exact absurd (hbefore hindex row hrow day hday) (not_lt.mpr hcutoff)
  · exact (Option.some.inj (hday.2.symm.trans hannual.2)).le
  · exact hpairwise.2.1.1 row hrow _ day hannual hday

end SubmissionsIndex

namespace StandardsTables

variable {tables tables' : StandardsTables} {document : FilingDocument} {chosen : ChosenHeadcount} {recordCik fetchId factId : ℕ}
  {fact : HeadcountFact}

theorem eligible_of_recordHeadcount (hsource : fact.source = "10k-extraction") (h : tables.recordHeadcount fact = .ok tables') :
    isEligibleHeadcountRow fact = true := by
  have hretired : fact.source ≠ retiredSource := by rw [hsource]; decide
  have hpriority : fact.source ∈ headcountPriority := by rw [hsource]; decide
  rw [recordHeadcount, if_neg hretired, if_pos hpriority] at h
  obtain ⟨⟨⟩, hvalid, -⟩ := bind_eq_ok_iff.mp h
  have haccession : shortAccession fact.evidenceRef ≠ none := by
    intro hnone
    simp [validateCitedHeadcountFact, hsource, hnone] at hvalid
  have hfiled : filedCitation fact.evidenceRef ≠ none := by
    intro hnone
    simp [validateCitedHeadcountFact, hsource, haccession, hnone] at hvalid
  rw [isEligibleHeadcountRow, if_neg hretired, if_pos hpriority]
  simp [hsource, haccession, hfiled]

theorem fact_of_extractHeadcount (h : tables.extractHeadcount document recordCik chosen fetchId factId = .ok tables')
    (hfact : fact ∈ tables'.facts) (hnew : fact ∉ tables.facts) :
    fact.knowableAt = accessionInstant document.filingDate ∧ fact.cik = recordCik ∧ fact.source = "10k-extraction" ∧
      isEligibleHeadcountRow fact = true := by
  unfold extractHeadcount at h
  split_ifs at h
  · cases h
    exact absurd hfact hnew
  · have htables := eq_of_recordHeadcount h
    rw [htables, List.mem_append, List.mem_singleton] at hfact
    rcases hfact with hold | rfl
    · exact absurd hold hnew
    · exact ⟨rfl, rfl, rfl, eligible_of_recordHeadcount rfl h⟩

theorem headcountRow_of_extracted (hfact : fact ∈ tables.facts) (hcik : fact.cik = recordCik)
    (hsource : fact.source = "10k-extraction") (heligible : isEligibleHeadcountRow fact = true) (hknown : fact.knowableAt ≤ cutoff) :
    ∃ served, tables.headcountRow headcountPriority recordCik cutoff = some served ∧ served.source = "10k-extraction" ∧
      fact.knowableAt ≤ served.knowableAt := by
  cases hserved : tables.headcountRow headcountPriority recordCik cutoff with
  | none => exact absurd (headcountRow_eq_none_iff.mp hserved fact hfact hcik hknown) (by simp [heligible])
  | some served =>
    have hkey := (bestFact_of_headcountRow hserved).best fact hfact hcik hknown heligible
    rw [factKey, factKey, Prod.Lex.toLex_le_toLex, Prod.Lex.toLex_le_toLex, hsource] at hkey
    have hfirst : headcountPriority.idxOf "10k-extraction" = 0 := by decide
    rw [hfirst] at hkey
    obtain hless | ⟨hserved', htime⟩ := hkey
    · exact absurd hless (Nat.not_lt_zero _)
    · refine ⟨served, rfl, ?_, ?_⟩
      · by_contra hother
        simp [headcountPriority, List.idxOf_cons, Ne.symm hother] at hserved'
      · rcases htime with hlater | ⟨hsame, -⟩
        · exact (neg_lt_neg_iff.mp hlater).le
        · exact (neg_inj.mp hsame).ge

end StandardsTables

def StaleAt (tables : StandardsTables) (cik : ℕ) (cutoff : Instant) (fact : HeadcountFact) : Prop :=
  fact.knowableAt < cutoff - employeesTotal.maxAgeDays * microsPerDay ∨ tables.hasNewerAnnualFiling cik fact.knowableAt cutoff

/-- Where no annual filing of the cutoff's day is listed, or the day is over, a written fact is knowable at the cutoff and of the
newest annual filing that is; the reader serves it or a later one, and the cell is open only when that is stale. -/
theorem extracted_fact_is_known (index : SubmissionsIndex) (cutoff : Instant)
    (hday : ∀ row ∈ index.rows, row.AnnualOn (utcDate cutoff) → accessionInstant (utcDate cutoff) ≤ cutoff)
    (tables tables' : StandardsTables) (document : StandardsTables.FilingDocument) (chosen : StandardsTables.ChosenHeadcount)
    (recordCik fetchId factId : ℕ) (hdocument : index.latestAnnualFiling cutoff = .ok (some document))
    (hstep : tables.extractHeadcount document recordCik chosen fetchId factId = .ok tables') (fact : HeadcountFact)
    (hfact : fact ∈ tables'.facts) (hnew : fact ∉ tables.facts) :
    fact.knowableAt ≤ cutoff ∧
    (∃ row ∈ index.rows, ∃ day, row.AnnualOn day ∧ fact.knowableAt = accessionInstant day) ∧
    (index.NewestFirst → ∀ row ∈ index.rows, ∀ day, row.AnnualOn day → accessionInstant day ≤ cutoff →
      accessionInstant day ≤ fact.knowableAt) ∧
    ∃ served, tables'.headcountRow headcountPriority recordCik cutoff = some served ∧ fact.knowableAt ≤ served.knowableAt ∧
      ∀ issuers : List UniverseIssuer, ∀ issuer ∈ tables'.listed employeesTotal cutoff issuers, issuer.cik = some recordCik →
        StaleAt tables' recordCik cutoff served := by
  obtain ⟨hfinds, -⟩ := SubmissionsIndex.latestAnnualFiling_spec hdocument
  obtain ⟨hinstant, hcik, hsource, heligible⟩ := StandardsTables.fact_of_extractHeadcount hstep hfact hnew
  obtain ⟨before, row, after, hrows, hannual, -⟩ := hfinds.row
  have hrow : row ∈ index.rows := by rw [hrows]; simp
  have hknown : fact.knowableAt ≤ cutoff := by
    rw [hinstant]
    rcases hfinds.day.lt_or_eq with hbefore | hsame
    · rw [accessionInstant_le_iff, lastSettledAccessionDate]
      split_ifs
      · exact hbefore.le
      · exact Int.le_sub_one_of_lt hbefore
    · exact hsame ▸ hday row hrow (hsame ▸ hannual)
  obtain ⟨served, hserved, hservedSource, hlater⟩ := StandardsTables.headcountRow_of_extracted hfact hcik hsource heligible hknown
  refine ⟨hknown, ⟨row, hrow, _, hannual, hinstant⟩, fun hindex other hother day hday' hdayKnown => ?_,
    served, hserved, hlater, fun issuers issuer hlisted hissuer => ?_⟩
  · have hcutoff : day ≤ utcDate cutoff := (accessionInstant_le_iff.mp hdayKnown).trans (lastSettledAccessionDate_le cutoff)
    have hnewest := hfinds.newest hindex other hother day hday' hcutoff
    rw [hinstant]
    exact accessionInstant_mono hnewest
  · rw [StaleAt, or_iff_not_imp_left, not_lt]
    intro hage
    have hopen := (StandardsTables.mem_listed_iff.mp hlisted).2
    exact (StandardsTables.openCell_isSome_iff hissuer hserved (by simp [hservedSource, employeesTotal]) hage).mp hopen

def februaryReport : StandardsTables.FilingDocument := ⟨320193, "000032019325000008", "10-K", 739310, "aapl-20241231.htm", "b1"⟩

def februaryIndex : SubmissionsIndex where
  cik := 320193
  recent := [⟨"10-K", some "2025-02-28", some "0000320193-25-000008", some "aapl-20241231.htm"⟩]
  files := []
  overflow _ := .ok []
  body _ _ := .ok "b1"

def februaryFact : HeadcountFact :=
  { reportFact with
    knowableAt := accessionInstant 739310, evidenceRef := StandardsTables.evidenceRef februaryReport 320193 1 reportedHeadcount }

def februaryTables : StandardsTables := ⟨[februaryFact], ⟨[StandardsTables.fetchOf februaryReport 1], List.nodup_singleton _⟩, []⟩

theorem latestAnnualFiling_februaryIndex (h : (739310 : Date) ≤ utcDate cutoff) :
    februaryIndex.latestAnnualFiling cutoff = .ok (some februaryReport) := by
  have hdate : fromIsoFormat "2025-02-28" = some 739310 := by decide +kernel
  have hform : "10-K" ∈ annualForms := by decide
  simp [SubmissionsIndex.latestAnnualFiling, SubmissionsIndex.annualFilingFromIndex, februaryIndex, hdate, hform, not_lt.mpr h]
  rfl

theorem extract_februaryReport :
    StandardsTables.empty.extractHeadcount februaryReport 320193 reportedHeadcount 1 1 = .ok februaryTables := by
  have hvalid : validateCitedHeadcountFact februaryFact.knowableAt februaryFact.periodEnd februaryFact.evidenceRef false true =
      .ok () := by decide +kernel
  show (do validateCitedHeadcountFact februaryFact.knowableAt februaryFact.periodEnd februaryFact.evidenceRef false true
           return februaryTables) = .ok februaryTables
  rw [hvalid]
  rfl

theorem extracted_fact_is_known_february : februaryFact.knowableAt ≤ accessionInstant 739400 ∧
      ∃ row ∈ februaryIndex.rows, ∃ day, row.AnnualOn day ∧ februaryFact.knowableAt = accessionInstant day :=
  have h := extracted_fact_is_known februaryIndex (accessionInstant 739400)
    (fun _ _ _ => by rw [utcDate_accessionInstant]) .empty februaryTables februaryReport reportedHeadcount 320193 1 1
    (latestAnnualFiling_februaryIndex (by rw [utcDate_accessionInstant]; decide)) extract_februaryReport februaryFact
    (List.mem_singleton.mpr rfl) List.not_mem_nil
  ⟨h.1, h.2.1⟩

/-- A fact of the day of a month-end cutoff is knowable after it, and a cell whose fact is 401 days old opens again. -/
theorem month_end_fact_not_known :
    StandardsTables.empty.extractHeadcount februaryReport 320193 reportedHeadcount 1 1 = .ok februaryTables ∧
    februaryIndex.latestAnnualFiling (739310 * microsPerDay + 86399 * 1000000) = .ok (some februaryReport) ∧
    ¬ (∀ fact ∈ februaryTables.facts, fact.knowableAt ≤ 739310 * microsPerDay + 86399 * 1000000) ∧
    februaryIndex.latestAnnualFiling (accessionInstant 739711) = .ok (some februaryReport) ∧
    reportIssuer ∈ februaryTables.listed employeesTotal (accessionInstant 739711) [reportIssuer] :=
  ⟨extract_februaryReport, latestAnnualFiling_februaryIndex (by decide),
    fun h => absurd (h februaryFact (List.mem_singleton.mpr rfl)) (by decide),
    latestAnnualFiling_februaryIndex (by decide), by decide +kernel⟩

end TrueAlpha.Datahub
