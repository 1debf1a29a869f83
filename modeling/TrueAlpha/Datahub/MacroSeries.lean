import TrueAlpha.Contracts.FiscalPeriod
import TrueAlpha.Lib.Dict
import TrueAlpha.Lib.RevisedCell

/-!
# The macro series

`persist_observations` of `treasury_rates.py`, `risk_free_rate_at` and the view `mart.macro_series_current`.  Each series and
date is a revised cell, so the reader and the writer agree over whole histories (`treasury_history`).
-/

namespace TrueAlpha.Datahub

abbrev SeriesDate := String × Date

/-- A row of `mart.macro_series_daily`, in the order of `recorded_at` and `id`. -/
structure MacroSeriesRow where
  seriesId : String
  observationDate : Date
  value : ℚ
  knowableAt : Instant
  source : String
  fetchId : ℕ
  fetchedAt : Instant
  confidence : ℚ
  deriving DecidableEq, Repr

namespace MacroSeriesRow

def key (row : MacroSeriesRow) : SeriesDate := (row.seriesId, row.observationDate)

def vintage (row : MacroSeriesRow) : CellVintage ℚ Instant := ⟨row.value, row.knowableAt⟩

end MacroSeriesRow

def rowsOf (rows : List MacroSeriesRow) (key : SeriesDate) : List MacroSeriesRow := rows.filter fun row => row.key = key

/-- The row of `mart.macro_series_current`: the newest stored one. -/
def macroSeriesCurrent (rows : List MacroSeriesRow) (key : SeriesDate) : Option MacroSeriesRow := (rowsOf rows key).getLast?

/-- `Observation`. -/
structure TreasuryObservation where
  observationDate : Date
  value : ℚ
  deriving DecidableEq, Repr

def entriesOf (observations : List (String × List TreasuryObservation)) : List (SeriesDate × ℚ) :=
  observations.flatMap fun series => series.2.map fun item => ((series.1, item.observationDate), item.value)

structure TreasuryFile (year : ℕ) where
  observations : List (String × List TreasuryObservation)
  once : ((entriesOf observations).map Prod.fst).Nodup
  dated : ∀ entry ∈ entriesOf observations, ordinal year 1 1 ≤ entry.1.2 ∧ entry.1.2 < ordinal (year + 1) 1 1

def TreasuryFile.valueAt {year : ℕ} (file : TreasuryFile year) (key : SeriesDate) : Option ℚ :=
  Dict.lookupItems key (entriesOf file.observations)

/-- Midnight UTC of the day after the observation. -/
def knowableAtOf (observationDate : Date) : Instant := (observationDate + 1) * microsPerDay

def knowableAt (observationDate : Date) (revised : Bool) (seenAt : Instant) : Instant :=
  let cut := knowableAtOf observationDate
  if revised then max cut seenAt else cut

def treasurySource : String := "us-treasury"

def treasuryConfidence : ℚ := 92 / 100

section Writer

variable (rows : List MacroSeriesRow) {year : ℕ} (file : TreasuryFile year) (fetchId : ℕ) (fetchedAt : Instant)

/-- `_LATEST_OF_YEAR_SQL`: the newest stored values of the series in the file's year. -/
def storedOf (key : SeriesDate) : Option ℚ :=
  if key.1 ∈ file.observations.map Prod.fst ∧ ordinal year 1 1 ≤ key.2 ∧ key.2 < ordinal (year + 1) 1 1 then
    (macroSeriesCurrent rows key).map MacroSeriesRow.value
  else none

def macroRow (seriesId : String) (item : TreasuryObservation) : MacroSeriesRow where
  seriesId
  observationDate := item.observationDate
  value := item.value
  knowableAt := knowableAt item.observationDate (storedOf rows file (seriesId, item.observationDate)).isSome fetchedAt
  source := treasurySource
  fetchId
  fetchedAt
  confidence := treasuryConfidence

def freshRows : List MacroSeriesRow := file.observations.flatMap fun series =>
    (series.2.filter fun item => storedOf rows file (series.1, item.observationDate) ≠ some item.value).map
      (macroRow rows file fetchId fetchedAt series.1)

/-- `persist_observations` under its lock: the table after it, and how many rows it inserted. -/
def persistObservations : List MacroSeriesRow × ℕ :=
  let fresh := freshRows rows file fetchId fetchedAt
  (rows ++ fresh, fresh.length)

end Writer

def riskFreeInstrument : String := "us_treasury_bill_3_month"

def maxRateLagDays : ℤ := 2 * 5

structure RiskFreeRate where
  seriesId : String
  value : ℚ
  observationDate : Date
  knowableAt : Instant
  source : String
  fetchId : ℕ
  deriving DecidableEq, Repr

structure MissingRiskFreeRate where
  cutoffAt : Instant
  newest : Option Date
  deriving DecidableEq, Repr

def newestKnowable (rows : List MacroSeriesRow) (cutoff : Instant) : Option MacroSeriesRow :=
  latestBy (fun row => toLex (row.observationDate, row.knowableAt))
    (rows.filter fun row => row.seriesId = riskFreeInstrument ∧ row.knowableAt ≤ cutoff)

def riskFreeRateAt (rows : List MacroSeriesRow) (cutoff : Instant) : Except MissingRiskFreeRate RiskFreeRate :=
  match newestKnowable rows cutoff with
  | none => .error ⟨cutoff, none⟩
  | some row =>
    if maxRateLagDays < utcDate cutoff - row.observationDate then .error ⟨cutoff, some row.observationDate⟩
    else .ok ⟨riskFreeInstrument, row.value, row.observationDate, row.knowableAt, row.source, row.fetchId⟩

def newestVintage (rows : List MacroSeriesRow) (cutoff : Instant) (key : SeriesDate) : Option MacroSeriesRow :=
  latestBy MacroSeriesRow.knowableAt ((rowsOf rows key).filter fun row => row.knowableAt ≤ cutoff)

open RevisedCell

def vintagesOf (rows : List MacroSeriesRow) (key : SeriesDate) : List (CellVintage ℚ Instant) :=
  (rowsOf rows key).map MacroSeriesRow.vintage

variable {rows rows' : List MacroSeriesRow} {key : SeriesDate} {year : ℕ} {file : TreasuryFile year} {fetchId : ℕ}
  {fetchedAt cutoff : Instant}

theorem rowsOf_append : rowsOf (rows ++ rows') key = rowsOf rows key ++ rowsOf rows' key := List.filter_append ..

theorem newestStored_vintagesOf :
    newestStored (vintagesOf rows key) = (macroSeriesCurrent rows key).map MacroSeriesRow.value := by
  rw [newestStored, vintagesOf, List.getLast?_map, Option.map_map]
  rfl

theorem newestVintage_vintage :
    (newestVintage rows cutoff key).map MacroSeriesRow.vintage = shownAt cutoff (vintagesOf rows key) := by
  rw [shownAt, vintagesOf, List.filter_map, latestBy_map]
  rfl

namespace TreasuryFile

theorem mem_entries_of_valueAt {value : ℚ} (h : file.valueAt key = some value) :
    (key, value) ∈ entriesOf file.observations := (Dict.lookupItems_eq_some_iff key value file.once).mp h

theorem storedOf_eq (rows : List MacroSeriesRow) {value : ℚ} (h : file.valueAt key = some value) :
    storedOf rows file key = newestStored (vintagesOf rows key) := by
  have hmem := mem_entries_of_valueAt h
  have hseries : key.1 ∈ file.observations.map Prod.fst := by
    obtain ⟨series, hseries, hentry⟩ := List.mem_flatMap.mp hmem
    obtain ⟨item, -, heq⟩ := List.mem_map.mp hentry
    cases heq
    exact List.mem_map_of_mem hseries
  rw [storedOf, if_pos ⟨hseries, file.dated _ hmem⟩, newestStored_vintagesOf]

theorem knowableAt_eq (rows : List MacroSeriesRow) (fetchedAt : Instant) {value : ℚ} (h : file.valueAt key = some value) :
    knowableAt key.2 (storedOf rows file key).isSome fetchedAt =
      vintageTime (knowableAtOf key.2) (vintagesOf rows key) fetchedAt := by
  rw [file.storedOf_eq rows h, isSome_newestStored, knowableAt, vintageTime]
  cases vintagesOf rows key <;> rfl

end TreasuryFile

theorem freshRows_eq : freshRows rows file fetchId fetchedAt =
    ((entriesOf file.observations).filter fun entry => storedOf rows file entry.1 ≠ some entry.2).map fun entry =>
      macroRow rows file fetchId fetchedAt entry.1.1 ⟨entry.1.2, entry.2⟩ := by
  rw [freshRows, entriesOf, List.filter_flatMap, List.map_flatMap]
  simp only [List.filter_map, List.map_map]
  rfl

theorem rowsOf_freshRows : rowsOf (freshRows rows file fetchId fetchedAt) key =
    ((file.valueAt key).toList.filter fun value => storedOf rows file key ≠ some value).map fun value =>
      macroRow rows file fetchId fetchedAt key.1 ⟨key.2, value⟩ := by
  have hcommute : ((entriesOf file.observations).filter fun entry => storedOf rows file entry.1 ≠ some entry.2).filter
      (fun entry => entry.1 = key) = ((entriesOf file.observations).filter fun entry => entry.1 = key).filter
        fun entry => storedOf rows file entry.1 ≠ some entry.2 := by
    rw [List.filter_filter, List.filter_filter]
    exact List.filter_congr fun entry _ => Bool.and_comm _ _
  calc rowsOf (freshRows rows file fetchId fetchedAt) key
      = (((entriesOf file.observations).filter fun entry => storedOf rows file entry.1 ≠ some entry.2).filter
          fun entry => entry.1 = key).map fun entry =>
            macroRow rows file fetchId fetchedAt entry.1.1 ⟨entry.1.2, entry.2⟩ := by
        rw [freshRows_eq, rowsOf, List.filter_map]
        rfl
    _ = _ := by
        rw [hcommute, Dict.filter_key_eq key file.once, List.filter_map, List.map_map]
        rfl

theorem vintagesOf_persistObservations : vintagesOf (persistObservations rows file fetchId fetchedAt).1 key =
      match file.valueAt key with
      | none => vintagesOf rows key
      | some value => revise (knowableAtOf key.2) (vintagesOf rows key) value fetchedAt := by
  have happend : vintagesOf (persistObservations rows file fetchId fetchedAt).1 key =
      vintagesOf rows key ++ (rowsOf (freshRows rows file fetchId fetchedAt) key).map MacroSeriesRow.vintage := by
    rw [vintagesOf, persistObservations, rowsOf_append, List.map_append]
    rfl
  rw [happend, rowsOf_freshRows]
  cases hvalue : file.valueAt key with
  | none => simp
  | some value =>
    have hstored := file.storedOf_eq rows hvalue
    by_cases hsame : newestStored (vintagesOf rows key) = some value
    · simp [revise_of_eq hsame, hstored, hsame]
    · have htime := file.knowableAt_eq rows fetchedAt hvalue
      show _ = revise (knowableAtOf key.2) (vintagesOf rows key) value fetchedAt
      rw [revise_of_ne hsame, ← htime]
      simp [hstored, hsame, macroRow, MacroSeriesRow.vintage]

def StoredFirst (rows : List MacroSeriesRow) {year : ℕ} (file : TreasuryFile year) (fetchId : ℕ) (fetchedAt : Instant) : Prop :=
  ∃ row ∈ freshRows rows file fetchId fetchedAt, ∀ stored ∈ rows, stored.key ≠ row.key

theorem riskFreeRateAt_persistObservations (hbefore : cutoff < fetchedAt) (hfirst : ¬ StoredFirst rows file fetchId fetchedAt) :
    riskFreeRateAt (persistObservations rows file fetchId fetchedAt).1 cutoff = riskFreeRateAt rows cutoff := by
  have hlate : ∀ row ∈ freshRows rows file fetchId fetchedAt, cutoff < row.knowableAt := by
    intro row hrow
    obtain ⟨stored, hstored, hkey⟩ : ∃ stored ∈ rows, stored.key = row.key := by
      by_contra hnone
      exact hfirst ⟨row, hrow, fun stored hstored hkey => hnone ⟨stored, hstored, hkey⟩⟩
    have hrowsOf : row ∈ rowsOf (freshRows rows file fetchId fetchedAt) row.key := by simpa [rowsOf] using hrow
    rw [rowsOf_freshRows] at hrowsOf
    obtain ⟨value, hvalue, heq⟩ := List.mem_map.mp hrowsOf
    have hvalueAt : file.valueAt row.key = some value := by simpa using (List.mem_filter.mp hvalue).1
    have hheld : vintagesOf rows row.key ≠ [] := by
      have hof : stored ∈ rowsOf rows row.key := List.mem_filter.mpr ⟨hstored, by simpa using hkey⟩
      exact List.ne_nil_of_mem (List.mem_map_of_mem hof)
    rw [← heq]
    show cutoff < knowableAt row.key.2 (storedOf rows file row.key).isSome fetchedAt
    rw [file.knowableAt_eq rows fetchedAt hvalueAt, vintageTime_of_ne_nil hheld]
    exact hbefore.trans_le (le_max_right _ _)
  have hnone : (freshRows rows file fetchId fetchedAt).filter
      (fun row => row.seriesId = riskFreeInstrument ∧ row.knowableAt ≤ cutoff) = [] := by
    refine List.filter_eq_nil_iff.mpr fun row hrow hseen => ?_
    exact absurd (of_decide_eq_true hseen).2 (not_le.mpr (hlate row hrow))
  have hnewest : newestKnowable (persistObservations rows file fetchId fetchedAt).1 cutoff = newestKnowable rows cutoff := by
    rw [newestKnowable, persistObservations, List.filter_append, hnone, List.append_nil]
    rfl
  rw [riskFreeRateAt, riskFreeRateAt, hnewest]

theorem persistObservations_again (fetchId' : ℕ) (fetchedAt' : Instant) :
    persistObservations (persistObservations rows file fetchId fetchedAt).1 file fetchId' fetchedAt' =
      ((persistObservations rows file fetchId fetchedAt).1, 0) := by
  have hfresh : freshRows (persistObservations rows file fetchId fetchedAt).1 file fetchId' fetchedAt' = [] := by
    rw [freshRows_eq, List.map_eq_nil_iff]
    refine List.filter_eq_nil_iff.mpr fun entry hentry hdiffers => of_decide_eq_true hdiffers ?_
    have hvalue : file.valueAt entry.1 = some entry.2 := (Dict.lookupItems_eq_some_iff entry.1 entry.2 file.once).mpr hentry
    rw [file.storedOf_eq _ hvalue, vintagesOf_persistObservations, hvalue, newestStored_revise]
  rw [persistObservations, hfresh, List.append_nil]
  rfl

/-! ## Histories -/

/-- A call of `persist_observations`. -/
structure TreasuryCall where
  year : ℕ
  file : TreasuryFile year
  fetchId : ℕ
  fetchedAt : Instant

def TreasuryCall.persist (rows : List MacroSeriesRow) (call : TreasuryCall) : List MacroSeriesRow :=
  (persistObservations rows call.file call.fetchId call.fetchedAt).1

def tableAfter (calls : List TreasuryCall) : List MacroSeriesRow := calls.foldl TreasuryCall.persist []

def lastContained (calls : List TreasuryCall) (key : SeriesDate) : Option ℚ :=
  (calls.filterMap fun call => call.file.valueAt key).getLast?

variable {calls : List TreasuryCall} {call : TreasuryCall}

theorem tableAfter_concat : tableAfter (calls ++ [call]) = call.persist (tableAfter calls) := by
  rw [tableAfter, List.foldl_append]
  rfl

variable {bound : Instant}

theorem settled_tableAfter (hordered : calls.Pairwise fun earlier later => earlier.fetchedAt ≤ later.fetchedAt) (hbound : ∀ call ∈ calls, call.fetchedAt ≤ bound) (key : SeriesDate) :
    Settled (knowableAtOf key.2) bound (vintagesOf (tableAfter calls) key) := by
  induction calls using List.reverseRecOn generalizing bound with
  | nil => exact Settled.nil
  | append_singleton calls call ih =>
    obtain ⟨hcalls, -, hlast⟩ := List.pairwise_append.mp hordered
    have hbefore := ih hcalls fun earlier hearlier => hlast earlier hearlier call (List.mem_singleton_self call)
    have hcall : call.fetchedAt ≤ bound := hbound call (List.mem_append_right _ (List.mem_singleton_self call))
    rw [tableAfter_concat, TreasuryCall.persist, vintagesOf_persistObservations]
    cases call.file.valueAt key with
    | none => exact hbefore.mono hcall
    | some value => exact (hbefore.revise (le_refl _)).mono hcall

theorem newestStored_tableAfter (calls : List TreasuryCall) (key : SeriesDate) :
    newestStored (vintagesOf (tableAfter calls) key) = lastContained calls key := by
  induction calls using List.reverseRecOn with
  | nil => rfl
  | append_singleton calls call ih =>
    rw [tableAfter_concat, TreasuryCall.persist, vintagesOf_persistObservations, lastContained, List.filterMap_append]
    have hone : [call].filterMap (fun call => call.file.valueAt key) = (call.file.valueAt key).toList := by
      cases hvalue : call.file.valueAt key <;> simp [hvalue]
    rw [hone]
    cases call.file.valueAt key with
    | none =>
      rw [Option.toList_none, List.append_nil]
      exact ih
    | some value =>
      rw [Option.toList_some, List.getLast?_concat]
      exact newestStored_revise

theorem rowsOf_ordered (h : Settled (knowableAtOf key.2) bound (vintagesOf rows key)) :
    (rowsOf rows key).Pairwise fun earlier later => earlier.knowableAt ≤ later.knowableAt := by
  have hordered := h.ordered
  rw [vintagesOf, List.pairwise_map] at hordered
  exact hordered

theorem rowsOf_revised (h : Settled (knowableAtOf key.2) bound (vintagesOf rows key)) :
    (rowsOf rows key).IsChain fun earlier later => earlier.value ≠ later.value := by
  have hrevised := h.revised
  rw [vintagesOf, List.isChain_map] at hrevised
  exact hrevised

theorem exists_bound (hordered : calls.Pairwise fun earlier later => earlier.fetchedAt ≤ later.fetchedAt) :
    ∃ bound, ∀ call ∈ calls, call.fetchedAt ≤ bound := by
  rcases List.eq_nil_or_concat' calls with rfl | ⟨before, last, rfl⟩
  · exact ⟨0, by simp⟩
  · refine ⟨last.fetchedAt, fun call hcall => ?_⟩
    rcases List.mem_append.mp hcall with hbefore | hlast
    · exact (List.pairwise_append.mp hordered).2.2 call hbefore last (List.mem_singleton_self last)
    · rw [List.mem_singleton.mp hlast]

theorem newestVintage_eq_current
    (hsettled : Settled (knowableAtOf key.2) bound (vintagesOf rows key)) (hcut : knowableAtOf key.2 ≤ cutoff)
    (hbound : bound ≤ cutoff) : newestVintage rows cutoff key = macroSeriesCurrent rows key := by
  have hall : (rowsOf rows key).filter (fun row => row.knowableAt ≤ cutoff) = rowsOf rows key := by
    refine List.filter_eq_self.mpr fun row hrow => ?_
    have hknown := hsettled.known row.vintage (List.mem_map_of_mem hrow)
    exact decide_eq_true (hknown.trans (max_le hcut hbound))
  rw [newestVintage, hall]
  exact latestBy_eq_getLast? _ (rowsOf_ordered hsettled)

theorem newestVintage_of_newestKnowable {row : MacroSeriesRow} (h : newestKnowable rows cutoff = some row) :
    newestVintage rows cutoff row.key = some row := by
  obtain ⟨hmem, -⟩ := latestBy_eq_some _ h
  have hseries : row.seriesId = riskFreeInstrument := (of_decide_eq_true (List.mem_filter.mp hmem).2).1
  have hlatest := latestBy_lex h
  rw [List.filter_filter] at hlatest
  rw [newestVintage, rowsOf, List.filter_filter, ← hlatest]
  congr 1
  refine List.filter_congr fun other _ => ?_
  simp only [MacroSeriesRow.key, Prod.mk.injEq, hseries]
  grind

/-- A call does not reach a cutoff before its fetch unless it stored a date's first observation; a late reader sees the last file
with a date; a repeated call inserts nothing; successive vintages differ. -/
theorem treasury_history (calls : List TreasuryCall)
    (hordered : calls.Pairwise fun earlier later => earlier.fetchedAt ≤ later.fetchedAt) :
    (∀ before call after, calls = before ++ call :: after → ∀ cutoff < call.fetchedAt,
      StoredFirst (tableAfter before) call.file call.fetchId call.fetchedAt ∨
        riskFreeRateAt (tableAfter (before ++ [call])) cutoff = riskFreeRateAt (tableAfter before) cutoff) ∧
    (∀ cutoff, (∀ call ∈ calls, call.fetchedAt ≤ cutoff) → (∀ key : SeriesDate, knowableAtOf key.2 ≤ cutoff →
        newestVintage (tableAfter calls) cutoff key = macroSeriesCurrent (tableAfter calls) key ∧
          (macroSeriesCurrent (tableAfter calls) key).map MacroSeriesRow.value = lastContained calls key) ∧
      ∀ row, newestKnowable (tableAfter calls) cutoff = some row → macroSeriesCurrent (tableAfter calls) row.key = some row) ∧
    (∀ before call after, calls = before ++ call :: after → ∀ fetchId fetchedAt,
      persistObservations (tableAfter (before ++ [call])) call.file fetchId fetchedAt = (tableAfter (before ++ [call]), 0)) ∧
    ∀ key : SeriesDate, (rowsOf (tableAfter calls) key).Pairwise (fun earlier later => earlier.knowableAt ≤ later.knowableAt) ∧
        (rowsOf (tableAfter calls) key).IsChain fun earlier later => earlier.value ≠ later.value := by
  have hsettled : ∀ {bound : Instant}, (∀ call ∈ calls, call.fetchedAt ≤ bound) → ∀ key : SeriesDate,
      Settled (knowableAtOf key.2) bound (vintagesOf (tableAfter calls) key) := settled_tableAfter hordered
  refine ⟨?_, ?_, ?_, ?_⟩
  · intro before call after _ cutoff hcutoff
    rw [tableAfter_concat, TreasuryCall.persist]
    exact or_iff_not_imp_left.mpr (riskFreeRateAt_persistObservations hcutoff)
  · intro cutoff hlate
    have hcurrent : ∀ key : SeriesDate, knowableAtOf key.2 ≤ cutoff →
        newestVintage (tableAfter calls) cutoff key = macroSeriesCurrent (tableAfter calls) key :=
      fun key hcut => newestVintage_eq_current (hsettled hlate key) hcut (le_refl cutoff)
    refine ⟨fun key hcut => ⟨hcurrent key hcut, ?_⟩, fun row hrow => ?_⟩
    · rw [← newestStored_vintagesOf, newestStored_tableAfter]
    · have hmem := List.mem_filter.mp (latestBy_eq_some _ hrow).1
      have hof : row ∈ rowsOf (tableAfter calls) row.key := List.mem_filter.mpr ⟨hmem.1, decide_eq_true rfl⟩
      have hcut : knowableAtOf row.key.2 ≤ cutoff :=
        ((hsettled hlate row.key).after_cut row.vintage (List.mem_map_of_mem hof)).trans (of_decide_eq_true hmem.2).2
      rw [← hcurrent row.key hcut]
      exact newestVintage_of_newestKnowable hrow
  · intro before call after _ fetchId fetchedAt
    rw [tableAfter_concat]
    exact persistObservations_again fetchId fetchedAt
  · intro key
    obtain ⟨bound, hbound⟩ := exists_bound hordered
    exact ⟨rowsOf_ordered (hsettled hbound key), rowsOf_revised (hsettled hbound key)⟩

def oneRate (value : ℚ) : TreasuryFile 2026 where
  observations := [(riskFreeInstrument, [⟨ordinal 2026 1 1, value⟩])]
  once := List.nodup_singleton _
  dated entry hentry := by
    obtain rfl := List.mem_singleton.mp hentry
    show ordinal 2026 1 1 ≤ ordinal 2026 1 1 ∧ ordinal 2026 1 1 < ordinal 2027 1 1
    decide

def oneRevision : List TreasuryCall := [⟨2026, oneRate (4 / 100), 1, ordinal 2026 1 1 * microsPerDay⟩,
    ⟨2026, oneRate (5 / 100), 2, ordinal 2026 1 3 * microsPerDay⟩]

theorem treasury_history_one_revision :
    (macroSeriesCurrent (tableAfter oneRevision) (riskFreeInstrument, ordinal 2026 1 1)).map MacroSeriesRow.value =
      lastContained oneRevision (riskFreeInstrument, ordinal 2026 1 1) :=
  (((treasury_history oneRevision (by decide)).2.1 (ordinal 2026 1 3 * microsPerDay) (by decide)).1
    (riskFreeInstrument, ordinal 2026 1 1) (by decide)).2

end TrueAlpha.Datahub
