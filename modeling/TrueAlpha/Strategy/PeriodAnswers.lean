import TrueAlpha.Lib.SameDict
import TrueAlpha.Strategy.LatestPeriods

/-!
# The row of the latest period

A key is answered for by the row of its latest period or by a scalar row (`answerOf_cases`).  The input of the issuer carries
what the row observes (`answeredBy_iff`).
-/

namespace TrueAlpha.Strategy

/-! ## The row of the latest period -/

/-- A tag that `encode_annual` makes for a period with an end. -/
def EncodedTag (finish : ℤ) (tag : String) : Prop :=
  (1 ≤ finish ∧ finish ≤ lastDate) ∧ ∃ filingFiscalYear, encodeAnnual finish filingFiscalYear = some tag

/-- A key's rows have distinct periods, each an `encode_annual` tag unless the row is a scalar. -/
structure EncodedRows (rows : List InputRow) (issuerId key : String) : Prop where
  nodup : ((keyRows rows issuerId key).map InputRow.fiscalPeriod).Nodup
  encoded : ∀ row ∈ keyRows rows issuerId key, ∀ tag ∈ row.fiscalPeriod, ∃ finish, EncodedTag finish tag

structure LatestPeriodRow (rows : List InputRow) (issuerId key : String) (row : InputRow) : Prop where
  mem : row ∈ keyRows rows issuerId key
  latest : ∃ tag finish, row.fiscalPeriod = some tag ∧ EncodedTag finish tag ∧ ∀ other ∈ keyRows rows issuerId key,
    ∀ tag' ∈ other.fiscalPeriod, ∀ finish', EncodedTag finish' tag' → finish' < finish ∨ finish' = finish ∧ tag' ≤ tag

theorem EncodedTag.periodEndKey_eq {finish : ℤ} {tag : String} (h : EncodedTag finish tag) :
    periodEndKey tag = toLex (finish, tag) := by
  obtain ⟨hfinish, filingFiscalYear, htag⟩ := h
  exact periodEndKey_encoded hfinish htag

section

variable {rows rows' : List InputRow} {row row' : InputRow} {issuerId key : String}

theorem mem_keyRows : row ∈ keyRows rows issuerId key ↔ row ∈ rows ∧ row.issuerId = issuerId ∧ row.inputKey = key := by
  simp [keyRows]

theorem keyRows_perm (h : rows.Perm rows') (issuerId key : String) :
    (keyRows rows issuerId key).Perm (keyRows rows' issuerId key) := h.filter _

theorem EncodedRows.of_perm (h : rows.Perm rows') (hrows : EncodedRows rows issuerId key) : EncodedRows rows' issuerId key := by
  have hperm := keyRows_perm h issuerId key
  exact ⟨(hperm.map _).nodup_iff.mp hrows.nodup, fun row hrow => hrows.encoded row (hperm.mem_iff.mpr hrow)⟩

theorem LatestPeriodRow.of_perm (h : rows.Perm rows') (hrow : LatestPeriodRow rows issuerId key row) :
    LatestPeriodRow rows' issuerId key row := by
  obtain ⟨hmem, tag, finish, htag, hencoded, hlatest⟩ := hrow
  have hperm := keyRows_perm h issuerId key
  exact ⟨hperm.mem_iff.mp hmem, tag, finish, htag, hencoded, fun other hother => hlatest other (hperm.mem_iff.mpr hother)⟩

theorem encodedRows_of_nodup (hnodup : (rows.map InputRow.cell).Nodup)
    (hencoded : ∀ row ∈ rows, ∀ tag ∈ row.fiscalPeriod, ∃ finish, EncodedTag finish tag) (issuerId key : String) :
    EncodedRows rows issuerId key := by
  refine ⟨(hnodup.of_map.filter _).map_on ?_, fun row hrow => hencoded row (mem_keyRows.mp hrow).1⟩
  intro row hrow row' hrow' hperiod
  obtain ⟨hmem, hissuer, hkey⟩ := mem_keyRows.mp hrow
  obtain ⟨hmem', hissuer', hkey'⟩ := mem_keyRows.mp hrow'
  exact List.inj_on_of_nodup_map hnodup hmem hmem'
    (cellOf_eq_iff.mpr ⟨hissuer.trans hissuer'.symm, hkey.trans hkey'.symm, hperiod⟩)

section

variable (hrows : EncodedRows rows issuerId key)

include hrows

theorem LatestPeriodRow.unique (h : LatestPeriodRow rows issuerId key row)
    (h' : LatestPeriodRow rows issuerId key row') : row = row' := by
  obtain ⟨hmem, tag, finish, htag, hencoded, hlatest⟩ := h
  obtain ⟨hmem', tag', finish', htag', hencoded', hlatest'⟩ := h'
  have hle := hlatest row' hmem' tag' htag' finish' hencoded'
  have hge := hlatest' row hmem tag htag finish hencoded
  have htags : tag = tag' := by
    obtain hlt | ⟨heq, hle⟩ := hle
    · obtain hgt | ⟨heq, -⟩ := hge <;> omega
    · obtain hgt | ⟨-, hge⟩ := hge
      · omega
      · exact le_antisymm hge hle
  exact List.inj_on_of_nodup_map hrows.nodup hmem hmem' (by rw [htag, htag', htags])

theorem latestPeriodRow_of_latestPeriod
    (h : latestPeriod (seriesOf (observed rows) issuerId key) = some row) : LatestPeriodRow rows issuerId key row := by
  obtain ⟨item, hitem, rfl⟩ := Option.map_eq_some_iff.mp h
  obtain ⟨hmem, hmax⟩ := latestBy_eq_some _ hitem
  rw [items_seriesOf_observed hrows.nodup] at hmem hmax
  obtain ⟨row, hrow, hentry⟩ := List.mem_filterMap.mp hmem
  obtain ⟨tag, htag, rfl⟩ := Option.map_eq_some_iff.mp hentry
  obtain ⟨finish, hfinish⟩ := hrows.encoded row hrow tag htag
  refine ⟨hrow, tag, finish, htag, hfinish, fun other hother tag' htag' finish' hfinish' => ?_⟩
  have hle := hmax (tag', other) (List.mem_filterMap.mpr ⟨other, hother, by rw [periodEntry, htag']; rfl⟩)
  rw [hfinish.periodEndKey_eq, hfinish'.periodEndKey_eq] at hle
  exact Prod.Lex.toLex_le_toLex.mp hle

theorem latestPeriod_eq
    (h : LatestPeriodRow rows issuerId key row) : latestPeriod (seriesOf (observed rows) issuerId key) = some row := by
  obtain ⟨tag, finish, htag, -⟩ := h.latest
  cases hlatest : latestPeriod (seriesOf (observed rows) issuerId key) with
  | none =>
    rw [latestPeriod, Option.map_eq_none_iff, latestBy_eq_none_iff, items_seriesOf_observed hrows.nodup,
      List.filterMap_eq_nil_iff] at hlatest
    have hnone := hlatest row h.mem
    rw [periodEntry, htag] at hnone
    cases hnone
  | some row' => rw [(latestPeriodRow_of_latestPeriod hrows hlatest).unique hrows h]

theorem exists_latestPeriodRow
    (hrow : row ∈ keyRows rows issuerId key) (hperiod : row.fiscalPeriod ≠ none) :
    ∃ latest, LatestPeriodRow rows issuerId key latest := by
  cases hlatest : latestPeriod (seriesOf (observed rows) issuerId key) with
  | none =>
    rw [latestPeriod, Option.map_eq_none_iff, latestBy_eq_none_iff, items_seriesOf_observed hrows.nodup,
      List.filterMap_eq_nil_iff] at hlatest
    exact absurd (Option.map_eq_none_iff.mp (hlatest row hrow)) hperiod
  | some latest => exact ⟨latest, latestPeriodRow_of_latestPeriod hrows hlatest⟩

theorem answerOf_cases
    (h : answerOf (observed rows) issuerId key = some row) :
    row ∈ keyRows rows issuerId key ∧ row.fiscalPeriod = none ∨ LatestPeriodRow rows issuerId key row := by
  rw [answerOf_observed] at h
  obtain ⟨last, hlast, h⟩ := Option.map_eq_some_iff.mp h
  have hmem := List.mem_of_getLast? hlast
  cases hperiod : last.fiscalPeriod with
  | none =>
    rw [hperiod] at h
    dsimp only at h
    subst h
    exact Or.inl ⟨hmem, hperiod⟩
  | some tag =>
    obtain ⟨latest, hlatest⟩ := exists_latestPeriodRow hrows hmem (by rw [hperiod]; exact Option.some_ne_none _)
    rw [hperiod] at h
    dsimp only at h
    rw [latestPeriod_eq hrows hlatest, Option.getD_some] at h
    exact Or.inr (h ▸ hlatest)

end

theorem answerOf_eq_none_iff : answerOf (observed rows) issuerId key = none ↔ keyRows rows issuerId key = [] := by
  rw [answerOf_observed, Option.map_eq_none_iff, List.getLast?_eq_none_iff]

theorem answerOf_periodic (hrows : EncodedRows rows issuerId key)
    (hrow : row ∈ keyRows rows issuerId key) (hperiodic : ∀ row ∈ keyRows rows issuerId key, row.fiscalPeriod ≠ none) :
    ∃ latest, LatestPeriodRow rows issuerId key latest ∧ answerOf (observed rows) issuerId key = some latest := by
  cases hanswer : answerOf (observed rows) issuerId key with
  | none =>
    rw [answerOf_eq_none_iff.mp hanswer] at hrow
    cases hrow
  | some latest =>
    obtain ⟨hmem, hnone⟩ | hlatest := answerOf_cases hrows hanswer
    · exact absurd hnone (hperiodic latest hmem)
    · exact ⟨latest, hlatest, rfl⟩

end

def SameObservation (row row' : InputRow) : Prop :=
  row.value = row'.value ∧ row.confidence = row'.confidence ∧ row.knowableAt = row'.knowableAt

def AnsweredBy (inputs : List IssuerInput) (issuerId key : String) (row : InputRow) : Prop :=
  ∃ input ∈ inputs, input.issuerId = issuerId ∧
    (∃ measure, input.records.get? key = some (measure, row.confidence) ∧ measure.value = row.value) ∧
    input.knowableAt.get? key = some row.knowableAt

variable {period : Option MeasurePeriod}

section

variable {cutoffAt : Option Instant} {rows : List InputRow} {inputs : List IssuerInput} {row row' : InputRow}
  {issuerId key : String}

theorem recordOf_eq_ok {record : Measure × ℚ}
    (h : recordOf issuerId key period row = .ok record) : record.1.value = row.value ∧ record.2 = row.confidence := by
  obtain ⟨measure, hmeasure, h⟩ := bind_eq_ok_iff.mp h
  obtain rfl := pure_eq_ok_iff.mp h
  obtain ⟨unit, -, hmeasure⟩ := bind_eq_ok_iff.mp hmeasure
  obtain rfl := pure_eq_ok_iff.mp hmeasure
  exact ⟨rfl, rfl⟩

theorem recordOf_congr (h : SameObservation row row') : recordOf issuerId key period row = recordOf issuerId key period row' := by
  unfold recordOf
  rw [h.1, h.2.1]

theorem answeredBy_of_answerOf (h : issuerInputsFromRows cutoffAt rows = .ok inputs)
    (hanswer : answerOf (observed rows) issuerId key = some row) : AnsweredBy inputs issuerId key row := by
  obtain ⟨answers, hanswers, hrow⟩ := Option.bind_eq_some_iff.mp hanswer
  obtain ⟨input, hinput, hof⟩ := mem_of_mapM (issuerInputsFromRows_spec h)
    ((mem_sortedBy Prod.fst).mpr ((Dict.get?_eq_some_iff _ _ _).mp hanswers))
  obtain ⟨hid, hrecords, hknowable, -⟩ := issuerInputOf_spec hof
  obtain ⟨item, hitem, hrecord⟩ := mem_of_mapM (Dict.mapValM_eq_ok hrecords).1 ((Dict.get?_eq_some_iff _ _ _).mp hrow)
  obtain ⟨record, hread, rfl⟩ := map_eq_ok_iff.mp hrecord
  obtain ⟨hvalue, hconfidence⟩ := recordOf_eq_ok hread
  refine ⟨input, hinput, hid, ⟨record.1, ?_, hvalue⟩, ?_⟩
  · rw [← hconfidence]
    exact (Dict.get?_eq_some_iff _ _ _).mpr hitem
  · rw [hknowable, Dict.get?_mapVal, hrow, Option.map_some]

theorem answeredBy_iff (h : issuerInputsFromRows cutoffAt rows = .ok inputs)
    (hanswer : answerOf (observed rows) issuerId key = some row) :
    AnsweredBy inputs issuerId key row' ↔ SameObservation row row' := by
  obtain ⟨input, hinput, hid, ⟨measure, hrecord, hvalue⟩, hknowable⟩ := answeredBy_of_answerOf h hanswer
  constructor
  · rintro ⟨input', hinput', hid', ⟨measure', hrecord', hvalue'⟩, hknowable'⟩
    obtain rfl := List.inj_on_of_nodup_map (nodup_issuerId_inputs h) hinput hinput' (hid.trans hid'.symm)
    rw [hrecord, Option.some.injEq, Prod.mk.injEq] at hrecord'
    obtain ⟨rfl, hconfidence⟩ := hrecord'
    rw [hknowable, Option.some.injEq] at hknowable'
    exact ⟨hvalue.symm.trans hvalue', hconfidence, hknowable'⟩
  · rintro ⟨hvalues, hconfidences, hknowables⟩
    refine ⟨input, hinput, hid, ⟨measure, ?_, hvalue.trans hvalues⟩, ?_⟩
    · rw [hrecord, hconfidences]
    · rw [hknowable, hknowables]

end

end TrueAlpha.Strategy
