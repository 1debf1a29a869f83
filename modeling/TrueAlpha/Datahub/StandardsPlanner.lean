import TrueAlpha.Datahub.HeadcountPlane

/-!
# The missing-cell planner

`_resolve_headcount_row`, `_has_newer_annual_filing` and `open_cells` of `planner.py` over the headcount plane.  An
issuer is listed exactly when its cell is open (`mem_openCells_iff`).
-/

namespace TrueAlpha.Datahub

/-- `MetricStandard` over the headcount plane. -/
structure MetricStandard where
  maxAgeDays : ℤ
  evidenceBearingSources : List String
  sourcePriority : List String
  positive : 0 < maxAgeDays

def employeesTotal : MetricStandard := ⟨400, ["10k-extraction"], headcountPriority, by decide⟩

structure UniverseIssuer where
  issuerId : String
  ticker : String
  listingId : String
  cik : Option ℕ
  predecessorCik : Option ℕ
  deriving DecidableEq, Repr

inductive OpenReason where
  | noFact
  | seedOnly
  | stale
  deriving DecidableEq, Repr

structure OpenCell where
  issuer : UniverseIssuer
  reason : OpenReason
  bestSource : Option String
  bestKnowableAt : Option Instant
  deriving DecidableEq, Repr

def annualForms : List String := ["10-K", "20-F"]

/-- `order by array_position(priority, source) nulls last, knowable_at desc, id desc`. -/
def factKey (priority : List String) (fact : HeadcountFact) : ℕ ×ₗ ℤ ×ₗ ℤ :=
  toLex (priority.idxOf fact.source, toLex (-fact.knowableAt, -(fact.id : ℤ)))

structure BestFact (tables : StandardsTables) (priority : List String) (cik : ℕ) (cutoff : Instant)
    (fact : HeadcountFact) : Prop where
  stored : fact ∈ tables.facts
  issuer : fact.cik = cik
  known : fact.knowableAt ≤ cutoff
  eligible : isEligibleHeadcountRow fact = true
  best : ∀ other ∈ tables.facts, other.cik = cik → other.knowableAt ≤ cutoff → isEligibleHeadcountRow other = true →
    factKey priority fact ≤ factKey priority other

namespace StandardsTables

variable (tables : StandardsTables)

def knownFacts (priority : List String) (cik : ℕ) (cutoff : Instant) : List HeadcountFact := sortedBy (factKey priority)
    (tables.facts.filter fun fact => fact.cik = cik ∧ fact.knowableAt ≤ cutoff ∧ fact.source ≠ retiredSource)

/-- `_resolve_headcount_row`, asked when the planner's own query has a row. -/
def resolveHeadcountRow (priority : List String) (cik : ℕ) (cutoff : Instant) : Option HeadcountFact :=
  (tables.knownFacts priority cik cutoff).find? isEligibleHeadcountRow

/-- The row on which `open_cells` decides. -/
def headcountRow (priority : List String) (cik : ℕ) (cutoff : Instant) : Option HeadcountFact :=
  match (tables.knownFacts priority cik cutoff).head? with
  | none => none
  | some _ => tables.resolveHeadcountRow priority cik cutoff

def landedInWindow (cik : ℕ) (after cutoff : Instant) (fetch : FilingFetch) : Bool :=
  fetch.cik = cik ∧ (fetch.sourcePublishedAt.any fun published => after < published ∧ published ≤ cutoff) ∧
    fetch.form.getD "10-K" ∈ annualForms

def observedInWindow (cik : ℕ) (after cutoff : Instant) (observation : FinancialFactObservation) : Bool :=
  observation.cik = cik ∧ after < observation.knowableAt ∧ observation.knowableAt ≤ cutoff ∧
    observation.revenueForm.any (· ∈ annualForms)

def hasNewerAnnualFiling (cik : ℕ) (factKnowableAt cutoff : Instant) : Bool :=
  tables.fetches.rows.any (landedInWindow cik factKnowableAt cutoff) ||
    tables.observations.any (observedInWindow cik factKnowableAt cutoff)

def openCell (standard : MetricStandard) (cutoff : Instant) (issuer : UniverseIssuer) : Option OpenCell :=
  match issuer.cik with
  | none => some ⟨issuer, .noFact, none, none⟩
  | some cik =>
    match tables.headcountRow standard.sourcePriority cik cutoff with
    | none => some ⟨issuer, .noFact, none, none⟩
    | some fact =>
      if fact.source ∉ standard.evidenceBearingSources then
        some ⟨issuer, .seedOnly, some fact.source, some fact.knowableAt⟩
      else if fact.knowableAt < cutoff - standard.maxAgeDays * microsPerDay ∨
          tables.hasNewerAnnualFiling cik fact.knowableAt cutoff then
        some ⟨issuer, .stale, some fact.source, some fact.knowableAt⟩
      else none

def openCells (standard : MetricStandard) (cutoff : Instant) (issuers : List UniverseIssuer) : List OpenCell :=
  issuers.filterMap (tables.openCell standard cutoff)

/-- The issuers that `open_cells` lists. -/
def listed (standard : MetricStandard) (cutoff : Instant) (issuers : List UniverseIssuer) : List UniverseIssuer :=
  (tables.openCells standard cutoff issuers).map OpenCell.issuer

variable {tables} {standard : MetricStandard} {cutoff : Instant} {issuers : List UniverseIssuer}
  {issuer : UniverseIssuer} {cik : ℕ} {fact : HeadcountFact}

theorem issuer_of_openCell {cell : OpenCell} (h : tables.openCell standard cutoff issuer = some cell) : cell.issuer = issuer := by
  unfold openCell at h
  split at h
  · cases h
    rfl
  · split at h
    · cases h
      rfl
    · split_ifs at h <;> cases h <;> rfl

theorem mem_listed_iff : issuer ∈ tables.listed standard cutoff issuers ↔
      issuer ∈ issuers ∧ (tables.openCell standard cutoff issuer).isSome := by
  rw [listed, List.mem_map]
  constructor
  · rintro ⟨cell, hcell, rfl⟩
    obtain ⟨asked, hasked, hopen⟩ := List.mem_filterMap.mp hcell
    have hissuer := issuer_of_openCell hopen
    rw [hissuer]
    exact ⟨hasked, by rw [hopen]; rfl⟩
  · rintro ⟨hmem, hopen⟩
    obtain ⟨cell, hcell⟩ := Option.isSome_iff_exists.mp hopen
    exact ⟨cell, List.mem_filterMap.mpr ⟨issuer, hmem, hcell⟩, issuer_of_openCell hcell⟩

theorem headcountRow_eq (priority : List String) (cik : ℕ) (cutoff : Instant) :
    tables.headcountRow priority cik cutoff = tables.resolveHeadcountRow priority cik cutoff := by
  unfold headcountRow resolveHeadcountRow
  cases tables.knownFacts priority cik cutoff <;> rfl

variable {priority : List String}

theorem mem_knownFacts : fact ∈ tables.knownFacts priority cik cutoff ↔
      fact ∈ tables.facts ∧ fact.cik = cik ∧ fact.knowableAt ≤ cutoff ∧ fact.source ≠ retiredSource := by
  rw [knownFacts, mem_sortedBy, List.mem_filter, decide_eq_true_eq]

theorem source_of_eligible (h : isEligibleHeadcountRow fact = true) : fact.source ≠ retiredSource := by
  intro hretired
  simp [isEligibleHeadcountRow, hretired] at h

theorem headcountRow_eq_none_iff : tables.headcountRow priority cik cutoff = none ↔
      ∀ fact ∈ tables.facts, fact.cik = cik → fact.knowableAt ≤ cutoff → isEligibleHeadcountRow fact = false := by
  rw [headcountRow_eq, resolveHeadcountRow, List.find?_eq_none]
  constructor
  · intro h fact hfact hcik hknown
    by_contra heligible
    rw [Bool.not_eq_false] at heligible
    exact h fact (mem_knownFacts.mpr ⟨hfact, hcik, hknown, source_of_eligible heligible⟩) heligible
  · intro h fact hfact heligible
    obtain ⟨hstored, hcik, hknown, -⟩ := mem_knownFacts.mp hfact
    rw [h fact hstored hcik hknown] at heligible
    cases heligible

theorem bestFact_of_headcountRow (h : tables.headcountRow priority cik cutoff = some fact) :
    BestFact tables priority cik cutoff fact := by
  rw [headcountRow_eq, resolveHeadcountRow, List.find?_eq_some_iff_append] at h
  obtain ⟨heligible, before, after, hsplit, hbefore⟩ := h
  have hsorted : (tables.knownFacts priority cik cutoff).Pairwise fun a b => factKey priority a ≤ factKey priority b :=
    pairwise_sortedBy (factKey priority) _
  rw [hsplit, List.pairwise_append, List.pairwise_cons] at hsorted
  have hmem : fact ∈ tables.knownFacts priority cik cutoff := by
    rw [hsplit]
    exact List.mem_append_right _ List.mem_cons_self
  obtain ⟨hstored, hcik, hknown, -⟩ := mem_knownFacts.mp hmem
  refine ⟨hstored, hcik, hknown, heligible, fun other hother hotherCik hotherKnown hok => ?_⟩
  have hin : other ∈ tables.knownFacts priority cik cutoff :=
    mem_knownFacts.mpr ⟨hother, hotherCik, hotherKnown, source_of_eligible hok⟩
  rw [hsplit, List.mem_append, List.mem_cons] at hin
  rcases hin with hin | rfl | hin
  · have hskipped := hbefore other hin
    rw [hok] at hskipped
    cases hskipped
  · exact le_rfl
  · exact hsorted.2.1.1 other hin

theorem headcountRow_eq_some_iff (hids : (tables.facts.map HeadcountFact.id).Nodup) :
    tables.headcountRow priority cik cutoff = some fact ↔ BestFact tables priority cik cutoff fact := by
  refine ⟨bestFact_of_headcountRow, fun h => ?_⟩
  rcases hrow : tables.headcountRow priority cik cutoff with _ | row
  · have hno := headcountRow_eq_none_iff.mp hrow fact h.stored h.issuer h.known
    rw [h.eligible] at hno
    cases hno
  · have hbest := bestFact_of_headcountRow hrow
    have hkey : factKey priority row = factKey priority fact := le_antisymm (hbest.best fact h.stored h.issuer h.known h.eligible)
        (h.best row hbest.stored hbest.issuer hbest.known hbest.eligible)
    have hid : row.id = fact.id := by
      simpa [factKey] using congrArg (fun key => (ofLex (ofLex key).2).2) hkey
    rw [List.inj_on_of_nodup_map hids hbest.stored h.stored hid]

theorem openCell_of_none (hcik : issuer.cik = some cik) (h : tables.headcountRow standard.sourcePriority cik cutoff = none) :
    tables.openCell standard cutoff issuer = some ⟨issuer, .noFact, none, none⟩ := by
  simp only [openCell, hcik, h]

theorem openCell_isSome_iff (hcik : issuer.cik = some cik)
    (h : tables.headcountRow standard.sourcePriority cik cutoff = some fact)
    (hsource : fact.source ∈ standard.evidenceBearingSources)
    (hage : cutoff - standard.maxAgeDays * microsPerDay ≤ fact.knowableAt) :
    (tables.openCell standard cutoff issuer).isSome ↔ tables.hasNewerAnnualFiling cik fact.knowableAt cutoff = true := by
  simp only [openCell, hcik, h, hsource, not_true, if_false, not_lt.mpr hage, false_or]
  split_ifs with hnewer <;> simp [hnewer]

theorem openCell_of_newer (hcik : issuer.cik = some cik) (h : tables.headcountRow standard.sourcePriority cik cutoff = some fact)
    (hnewer : tables.hasNewerAnnualFiling cik fact.knowableAt cutoff = true) :
    (tables.openCell standard cutoff issuer).isSome := by
  simp only [openCell, hcik, h, hnewer, or_true, if_true]
  split_ifs <;> rfl

end StandardsTables

end TrueAlpha.Datahub
