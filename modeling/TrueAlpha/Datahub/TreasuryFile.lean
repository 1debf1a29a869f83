import TrueAlpha.Contracts.DateReading
import TrueAlpha.Contracts.VendorAccounts
import TrueAlpha.Datahub.Calendar
import TrueAlpha.Datahub.MacroSeries
import TrueAlpha.Lib.Decimal

/-!
# The file of the Treasury

`parse_par_yield_csv` of `treasury_rates.py` on the rows of the CSV reader.  What it accepts is a condition on single rows and
their dates.  `strptime` reads other dates too and `scaleb` rounds; elsewhere the parser does what it documents
(`parsesStated_iff`).
-/

namespace TrueAlpha.Datahub

open Contracts (strip)

/-- A `Decimal`: a finite value, or a special one. -/
inductive DecimalNumber
  | finite (value : ℚ)
  | infinite
  | nan
  deriving DecidableEq

def takeDigits (text : List Char) : List Char × List Char := text.span fun c => (digitValue c).isSome

def takeSign : List Char → ℤ × List Char
  | '-' :: rest => (-1, rest)
  | '+' :: rest => (1, rest)
  | rest => (1, rest)

def exponentOf : List Char → Option ℤ
  | [] => some 0
  | c :: rest =>
    let (sign, rest) := takeSign rest
    let (digits, rest) := takeDigits rest
    if (c = 'e' ∨ c = 'E') ∧ digits ≠ [] ∧ rest = [] then some (sign * intOfDigits digits) else none

def unsignedNumber (text : List Char) : Option DecimalNumber :=
  let lower := text.map Char.toLower
  let signaling := if lower.head? = some 's' then lower.tail else lower
  if lower = "inf".toList ∨ lower = "infinity".toList then some .infinite
  else if signaling.take 3 = "nan".toList ∧ (takeDigits (signaling.drop 3)).2 = [] then some .nan
  else do
    let (whole, rest) := takeDigits text
    let (fraction, rest) := match rest with
      | '.' :: rest => takeDigits rest
      | rest => ([], rest)
    let exponent ← exponentOf rest
    let coefficient := intOfDigits (whole ++ fraction)
    let last : ℤ := exponent - fraction.length
    if whole ++ fraction = [] ∨ last < -1999999999999999997 ∨
        999999999999999999 < last + (Nat.toDigits 10 coefficient).length - 1 then none
    else some (.finite (coefficient * 10 ^ last))

/-- `Decimal(text)`, which raises on a text that is no number (`none`). -/
def decimalOf (text : String) : Option DecimalNumber :=
  let (sign, rest) := takeSign ((strip text).toList.filter (· ≠ '_'))
  (unsignedNumber rest).map fun
    | .finite value => .finite (sign * value)
    | special => special

/-- `percent.scaleb(-2)` in the default context, with the least exponent of its subnormal numbers. -/
def scaleb (percent : ℚ) : ℚ :=
  if percent = 0 then 0
  else roundTo (10 ^ max (Int.log 10 |percent / 100| + 1 - Context.default.precision) (-1000026)) (percent / 100)

def monthField : List Char → Option ℕ
  | [c] => if '1' ≤ c ∧ c ≤ '9' then some (intOfDigits [c]) else none
  | [a, b] =>
    if (a = '0' ∧ '1' ≤ b ∧ b ≤ '9') ∨ (a = '1' ∧ '0' ≤ b ∧ b ≤ '2') then some (intOfDigits [a, b]) else none
  | _ => none

def dayField : List Char → Option ℕ
  | [c] => if '1' ≤ c ∧ c ≤ '9' then some (intOfDigits [c]) else none
  | [a, b] =>
    if ((a = '0' ∨ a = ' ') ∧ '1' ≤ b ∧ b ≤ '9') ∨ ((a = '1' ∨ a = '2') ∧ (digitValue b).isSome) ∨
        (a = '3' ∧ (b = '0' ∨ b = '1')) then some (intOfDigits [a, b]) else none
  | _ => none

def yearField (text : List Char) : Option ℕ :=
  if text.length = 4 ∧ text.all fun c => (digitValue c).isSome then some (intOfDigits text) else none

/-- `datetime.strptime(text, "%m/%d/%Y").date()`; no field of its expression has a slash. -/
@[irreducible] def strptime (text : String) : Option Date :=
  match text.toList.splitOn '/' with
  | [month, day, year] => do dateOf (← yearField year) (← monthField month) (← dayField day)
  | _ => none

structure MacroSeries where
  seriesId : String
  sourceColumn : String
  deriving DecidableEq

/-- `TreasuryFormatError`, with what its message names. -/
inductive TreasuryFormatError
  | empty (year : ℤ)
  | missingColumns (year : ℤ) (missing header : List String)
  | fieldCount (number fields expected : ℕ)
  | notADate (number : ℕ) (text : String)
  | outsideYear (number : ℕ) (date : Date) (year : ℤ)
  | dateTwice (number : ℕ) (date : Date)
  | notADecimal (number : ℕ) (column text : String)
  | outsideRange (number : ℕ) (column text : String)
  deriving DecidableEq

def dateColumn : String := "Date"

def parseDate (text : String) (number : ℕ) (year : ℤ) : Except TreasuryFormatError Date :=
  match strptime (strip text) with
  | none => .error (.notADate number text)
  | some date => if (yearOf date : ℤ) ≠ year then .error (.outsideYear number date year) else .ok date

def parsePercent (text : String) (number : ℕ) (column : String) : Except TreasuryFormatError ℚ :=
  match decimalOf text with
  | none => .error (.notADecimal number column text)
  | some (.finite percent) =>
    if 0 ≤ percent ∧ percent ≤ 100 then .ok (scaleb percent) else .error (.outsideRange number column text)
  | some _ => .error (.outsideRange number column text)

def fieldAt (header : List String) (column : String) (row : List String) : String := row.getD (header.idxOf column) ""

/-- What a row adds: its date to `seen`, and a value of a series unless its cell is blank. -/
structure RowReading where
  date : Date
  cells : List (String × Option ℚ)

def readCell (header : List String) (number : ℕ) (row : List String) (item : MacroSeries) :
    Except TreasuryFormatError (String × Option ℚ) :=
  let textValue := strip (fieldAt header item.sourceColumn row)
  if textValue = "" then .ok (item.seriesId, none)
  else (parsePercent textValue number item.sourceColumn).map fun value => (item.seriesId, some value)

def readRow (header : List String) (series : List MacroSeries) (year : ℤ) (number : ℕ) (seen : List Date)
    (row : List String) : Except TreasuryFormatError RowReading :=
  if row.length ≠ header.length then .error (.fieldCount number row.length header.length)
  else do
    let observationDate ← parseDate (fieldAt header dateColumn row) number year
    if observationDate ∈ seen then .error (.dateTwice number observationDate)
    else do
      let cells ← series.mapM (readCell header number row)
      return ⟨observationDate, cells⟩

def readRows (header : List String) (series : List MacroSeries) (year : ℤ) :
    ℕ → List Date → List (List String) → Except TreasuryFormatError (List RowReading)
  | _, _, [] => .ok []
  | number, seen, row :: rows => do
    let reading ← readRow header series year number seen row
    let readings ← readRows header series year (number + 1) (reading.date :: seen) rows
    return reading :: readings

/-- `found[series_id]`, in the order of the rows. -/
def foundOf (readings : List RowReading) (seriesId : String) : List (Date × ℚ) :=
  readings.flatMap fun reading => reading.cells.filterMap fun cell =>
    if cell.1 = seriesId then cell.2.map fun value => (reading.date, value) else none

def observationsOf (readings : List RowReading) (seriesId : String) : List TreasuryObservation :=
  (sortedBy Prod.fst (foundOf readings seriesId)).map fun entry => ⟨entry.1, entry.2⟩

/-- `parse_par_yield_csv`, on the rows of the file that are not empty. -/
def parseParYieldCsv (rows : List (List String)) (year : ℤ) (series : List MacroSeries) :
    Except TreasuryFormatError (List (String × List TreasuryObservation)) :=
  match rows with
  | [] => .error (.empty year)
  | header :: rows =>
    let missing := (dateColumn :: series.map MacroSeries.sourceColumn).filter (· ∉ header)
    if missing ≠ [] then .error (.missingColumns year missing (header.take 6))
    else do
      let readings ← readRows header series year 2 [] rows
      return series.map fun item => (item.seriesId, observationsOf readings item.seriesId)

/-! ## What the parser accepts -/

section

variable {header : List String} {series : List MacroSeries} {year : ℤ} {number : ℕ} {seen : List Date}
  {row : List String} {rows : List (List String)}

def dateAt (header : List String) (row : List String) : Option Date := strptime (strip (fieldAt header dateColumn row))

/-- The percent of a series in a row: `none` for a blank or refused cell. -/
def percentAt (header : List String) (row : List String) (item : MacroSeries) : Option ℚ :=
  match decimalOf (strip (fieldAt header item.sourceColumn row)) with
  | some (.finite percent) => some percent
  | _ => none

def CellReadable (header : List String) (row : List String) (item : MacroSeries) : Prop :=
  strip (fieldAt header item.sourceColumn row) = "" ∨
    ∃ percent, decimalOf (strip (fieldAt header item.sourceColumn row)) = some (.finite percent) ∧ 0 ≤ percent ∧ percent ≤ 100

structure RowReadable (header : List String) (series : List MacroSeries) (year : ℤ) (row : List String) : Prop where
  width : row.length = header.length
  dated : ∃ date, dateAt header row = some date ∧ (yearOf date : ℤ) = year
  cells : ∀ item ∈ series, CellReadable header row item

structure Readable (header : List String) (rows : List (List String)) (year : ℤ) (series : List MacroSeries) : Prop where
  date_column : dateColumn ∈ header
  columns : ∀ item ∈ series, item.sourceColumn ∈ header
  readable : ∀ row ∈ rows, RowReadable header series year row
  once : (rows.map (dateAt header)).Nodup

def readingOf (header : List String) (series : List MacroSeries) (row : List String) : RowReading where
  date := (dateAt header row).getD 0
  cells := series.map fun item => (item.seriesId, (percentAt header row item).map scaleb)

theorem decimalOf_empty : decimalOf "" = none := by decide +kernel

theorem readCell_eq_ok_iff {item : MacroSeries} {cell : String × Option ℚ} : readCell header number row item = .ok cell ↔
      CellReadable header row item ∧ cell = (item.seriesId, (percentAt header row item).map scaleb) := by
  unfold readCell CellReadable percentAt parsePercent
  by_cases hblank : strip (fieldAt header item.sourceColumn row) = ""
  · simp [hblank, decimalOf_empty, eq_comm]
  · simp only [hblank, if_false, false_or]
    cases decimalOf (strip (fieldAt header item.sourceColumn row)) with
    | none => simp [Except.map]
    | some number =>
      cases number with
      | infinite => simp [Except.map]
      | nan => simp [Except.map]
      | finite percent =>
        by_cases hrange : 0 ≤ percent ∧ percent ≤ 100
        · simp [hrange, Except.map, eq_comm]
        · simp only [hrange, if_false, Except.map, reduceCtorEq, false_iff, not_and]
          rintro ⟨_, heq, hmem⟩
          cases heq
          exact absurd hmem hrange

theorem parseDate_eq_ok_iff {date : Date} : parseDate (fieldAt header dateColumn row) number year = .ok date ↔
    dateAt header row = some date ∧ (yearOf date : ℤ) = year := by
  unfold parseDate dateAt
  cases hdate : strptime (strip (fieldAt header dateColumn row)) with
  | none => simp
  | some found =>
    by_cases hyear : (yearOf found : ℤ) = year
    · simp only [hyear, ne_eq, not_true_eq_false, if_false, Except.ok.injEq, Option.some.injEq]
      exact ⟨fun h => ⟨h, h ▸ hyear⟩, fun h => h.1⟩
    · simp only [hyear, ne_eq, not_false_eq_true, if_true, reduceCtorEq, Option.some.injEq, false_iff, not_and]
      exact fun h => h ▸ hyear

theorem readRow_eq_ok_iff {reading : RowReading} : readRow header series year number seen row = .ok reading ↔
    RowReadable header series year row ∧ (readingOf header series row).date ∉ seen ∧ reading = readingOf header series row := by
  unfold readRow
  constructor
  · intro h
    obtain ⟨hwidth, h⟩ := guard_eq_ok_iff.mp h
    obtain ⟨date, hdate, h⟩ := bind_eq_ok_iff.mp h
    obtain ⟨hfresh, h⟩ := guard_eq_ok_iff.mp h
    obtain ⟨cells, hcells, h⟩ := bind_eq_ok_iff.mp h
    obtain ⟨hdated, hyear⟩ := parseDate_eq_ok_iff.mp hdate
    have hcell := mapM_eq_ok_iff.mp hcells
    have heq : cells = (readingOf header series row).cells := by
      refine (List.map_id cells).symm.trans (map_eq_map_of_forall₂ (hcell.imp fun item cell hcell => ?_))
      exact (readCell_eq_ok_iff.mp hcell).2
    have hread : reading = readingOf header series row := by
      rw [← pure_eq_ok_iff.mp h, heq]
      simp [readingOf, hdated]
    refine ⟨⟨not_not.mp hwidth, ⟨date, hdated, hyear⟩, fun item hitem => ?_⟩, ?_, hread⟩
    · obtain ⟨cell, -, hcell⟩ := mem_of_mapM hcells hitem
      exact (readCell_eq_ok_iff.mp hcell).1
    · simpa [readingOf, hdated] using hfresh
  · rintro ⟨⟨hwidth, ⟨date, hdated, hyear⟩, hcells⟩, hfresh, rfl⟩
    have hdate : (readingOf header series row).date = date := by simp [readingOf, hdated]
    refine guard_eq_ok_iff.mpr ⟨not_not.mpr hwidth, bind_eq_ok_iff.mpr ⟨date, parseDate_eq_ok_iff.mpr ⟨hdated, hyear⟩, ?_⟩⟩
    refine guard_eq_ok_iff.mpr ⟨hdate ▸ hfresh, bind_eq_ok_iff.mpr ⟨(readingOf header series row).cells, ?_, ?_⟩⟩
    · refine (mapM_congr_mem fun item hitem => readCell_eq_ok_iff.mpr ⟨hcells item hitem, rfl⟩).trans ?_
      exact mapM_ok (fun item : MacroSeries => (item.seriesId, (percentAt header row item).map scaleb)) series
    · exact pure_eq_ok_iff.mpr (by rw [← hdate])

theorem readRows_eq_ok_iff {readings : List RowReading} : readRows header series year number seen rows = .ok readings ↔
    (∀ row ∈ rows, RowReadable header series year row) ∧ (rows.map fun row => (readingOf header series row).date).Nodup ∧
      (∀ row ∈ rows, (readingOf header series row).date ∉ seen) ∧ readings = rows.map (readingOf header series) := by
  induction rows generalizing number seen readings with
  | nil => simp [readRows, eq_comm]
  | cons row rows ih =>
    simp only [readRows, List.forall_mem_cons, List.map_cons, List.nodup_cons, List.mem_map, not_exists, not_and]
    constructor
    · intro h
      obtain ⟨reading, hreading, h⟩ := bind_eq_ok_iff.mp h
      obtain ⟨rest, hrest, h⟩ := bind_eq_ok_iff.mp h
      obtain ⟨hrow, hfresh, rfl⟩ := readRow_eq_ok_iff.mp hreading
      obtain ⟨hrows, hnodup, hnew, rfl⟩ := ih.mp hrest
      simp only [List.mem_cons, not_or] at hnew
      exact ⟨⟨hrow, hrows⟩, ⟨fun row hmem => (hnew row hmem).1, hnodup⟩, ⟨hfresh, fun row hmem => (hnew row hmem).2⟩,
        (pure_eq_ok_iff.mp h).symm⟩
    · rintro ⟨⟨hrow, hrows⟩, ⟨hother, hnodup⟩, ⟨hfresh, hnew⟩, rfl⟩
      refine bind_eq_ok_iff.mpr ⟨_, readRow_eq_ok_iff.mpr ⟨hrow, hfresh, rfl⟩, ?_⟩
      refine bind_eq_ok_iff.mpr ⟨_, ih.mpr ⟨hrows, hnodup, fun row hmem => ?_, rfl⟩, rfl⟩
      simp only [List.mem_cons, not_or]
      exact ⟨hother row hmem, hnew row hmem⟩

theorem date_readingOf (h : RowReadable header series year row) :
    dateAt header row = some (readingOf header series row).date := by
  obtain ⟨date, hdate, -⟩ := h.dated
  simp [readingOf, hdate]

def resultOf (header : List String) (rows : List (List String)) (series : List MacroSeries) :
    List (String × List TreasuryObservation) :=
  series.map fun item => (item.seriesId, observationsOf (rows.map (readingOf header series)) item.seriesId)

theorem once_iff (h : ∀ row ∈ rows, RowReadable header series year row) :
    (rows.map (dateAt header)).Nodup ↔ (rows.map fun row => (readingOf header series row).date).Nodup := by
  have hmap : rows.map (dateAt header) = (rows.map fun row => (readingOf header series row).date).map some := by
    rw [List.map_map]
    exact List.map_congr_left fun row hrow => date_readingOf (h row hrow)
  rw [hmap, List.nodup_map_iff (Option.some_injective _)]

theorem parseParYieldCsv_eq_ok_iff {result : List (String × List TreasuryObservation)} :
    parseParYieldCsv (header :: rows) year series = .ok result ↔
      Readable header rows year series ∧ result = resultOf header rows series := by
  have hmissing : (dateColumn :: series.map MacroSeries.sourceColumn).filter (· ∉ header) = [] ↔
      dateColumn ∈ header ∧ ∀ item ∈ series, item.sourceColumn ∈ header := by
    simp [List.filter_eq_nil_iff]
  simp only [parseParYieldCsv]
  constructor
  · intro h
    obtain ⟨hcolumns, h⟩ := guard_eq_ok_iff.mp h
    obtain ⟨readings, hreadings, h⟩ := bind_eq_ok_iff.mp h
    obtain ⟨hrows, hnodup, -, rfl⟩ := readRows_eq_ok_iff.mp hreadings
    obtain ⟨hdate, hseries⟩ := hmissing.mp (not_not.mp hcolumns)
    exact ⟨⟨hdate, hseries, hrows, (once_iff hrows).mpr hnodup⟩, (pure_eq_ok_iff.mp h).symm⟩
  · rintro ⟨h, rfl⟩
    refine guard_eq_ok_iff.mpr ⟨not_not.mpr (hmissing.mpr ⟨h.date_column, h.columns⟩), bind_eq_ok_iff.mpr ⟨_,
      readRows_eq_ok_iff.mpr ⟨h.readable, (once_iff h.readable).mp h.once, fun _ _ => List.not_mem_nil, rfl⟩, rfl⟩⟩

variable {item : MacroSeries}

theorem foundOf_eq (hids : (series.map MacroSeries.seriesId).Nodup) (hitem : item ∈ series) :
    foundOf (rows.map (readingOf header series)) item.seriesId = rows.filterMap fun row =>
      (percentAt header row item).map fun percent => ((readingOf header series row).date, scaleb percent) := by
  have hown : ∀ {β : Type} (f : MacroSeries → Option β) (others : List MacroSeries),
      (others.map MacroSeries.seriesId).Nodup → item ∈ others →
      others.filterMap (fun other => if other.seriesId = item.seriesId then f other else none) = (f item).toList := by
    intro β f others
    induction others with
    | nil => simp
    | cons first others ih =>
      intro hnodup hmem
      obtain ⟨hfirst, hnodup⟩ := List.nodup_cons.mp hnodup
      obtain rfl | hmem := List.mem_cons.mp hmem
      · have hnone : others.filterMap (fun other => if other.seriesId = item.seriesId then f other else none) = [] := by
          refine List.filterMap_eq_nil_iff.mpr fun other hother => if_neg fun heq => hfirst ?_
          exact heq ▸ List.mem_map_of_mem hother
        cases hf : f item <;> simp [hf, hnone]
      · have hne : first.seriesId ≠ item.seriesId := fun heq => hfirst (heq ▸ List.mem_map_of_mem hmem)
        rw [List.filterMap_cons, if_neg hne, ih hnodup hmem]
  induction rows with
  | nil => rfl
  | cons row rows ih =>
    have hcells := hown (fun other => ((percentAt header row other).map scaleb).map fun value =>
      ((readingOf header series row).date, value)) series hids hitem
    simp only [foundOf, List.map_cons, List.flatMap_cons] at ih ⊢
    rw [ih, List.filterMap_cons]
    simp only [readingOf, List.filterMap_map, Function.comp_def] at hcells ⊢
    rw [hcells]
    cases percentAt header row item <;> simp

section

variable (h : Readable header rows year series)

include h

section

variable (hids : (series.map MacroSeries.seriesId).Nodup)

include hids

theorem nodup_foundOf
    (hitem : item ∈ series) : ((foundOf (rows.map (readingOf header series)) item.seriesId).map Prod.fst).Nodup := by
  rw [foundOf_eq hids hitem, List.Nodup, List.pairwise_map]
  have hdates := List.pairwise_map.mp ((once_iff h.readable).mp h.once)
  refine List.Pairwise.filterMap _ (fun row row' hne entry hentry entry' hentry' => ?_) hdates
  obtain ⟨_, -, rfl⟩ := Option.mem_map.mp hentry
  obtain ⟨_, -, rfl⟩ := Option.mem_map.mp hentry'
  exact hne

theorem mem_observationsOf_iff
    (hitem : item ∈ series) {observation : TreasuryObservation} :
    observation ∈ observationsOf (rows.map (readingOf header series)) item.seriesId ↔
      ∃ row ∈ rows, dateAt header row = some observation.observationDate ∧
        ∃ percent, percentAt header row item = some percent ∧ observation.value = scaleb percent := by
  simp only [observationsOf, List.mem_map, mem_sortedBy, foundOf_eq hids hitem, List.mem_filterMap, Option.map_eq_some_iff]
  constructor
  · rintro ⟨_, ⟨row, hrow, percent, hpercent, rfl⟩, rfl⟩
    exact ⟨row, hrow, date_readingOf (h.readable row hrow), percent, hpercent, rfl⟩
  · rintro ⟨row, hrow, hdate, percent, hpercent, hvalue⟩
    refine ⟨_, ⟨row, hrow, percent, hpercent, rfl⟩, ?_⟩
    rw [date_readingOf (h.readable row hrow), Option.some.injEq] at hdate
    cases observation
    simp only [TreasuryObservation.mk.injEq]
    exact ⟨hdate, hvalue.symm⟩

theorem sorted_observationsOf
    (hitem : item ∈ series) : (observationsOf (rows.map (readingOf header series)) item.seriesId).Pairwise
      fun earlier later => earlier.observationDate < later.observationDate := by
  rw [observationsOf, List.pairwise_map]
  exact strictSorted_sortedBy Prod.fst (nodup_foundOf h hids hitem)

end

end

theorem Readable.perm {rows' : List (List String)} (hperm : rows.Perm rows') (h : Readable header rows year series) :
    Readable header rows' year series where
  date_column := h.date_column
  columns := h.columns
  readable row hrow := h.readable row (hperm.mem_iff.mpr hrow)
  once := (hperm.map (dateAt header)).nodup_iff.mp h.once

theorem resultOf_perm {rows' : List (List String)} (hperm : rows.Perm rows') (h : Readable header rows year series)
    (hids : (series.map MacroSeries.seriesId).Nodup) : resultOf header rows series = resultOf header rows' series := by
  refine List.map_congr_left fun item hitem => ?_
  have hfound : (foundOf (rows.map (readingOf header series)) item.seriesId).Perm
      (foundOf (rows'.map (readingOf header series)) item.seriesId) := (hperm.map _).flatMap_right _
  rw [observationsOf, observationsOf, sortedBy_eq_of_perm Prod.fst hfound (nodup_foundOf h hids hitem)]

def reordered (order : List ℕ) (fields : List String) : List String := order.map fun index => fields.getD index ""

variable {order : List ℕ}

section

variable (hperm : order.Perm (List.range header.length))

include hperm

theorem mem_reordered {name : String} : name ∈ reordered order header ↔ name ∈ header := by
  simp only [reordered, List.mem_map, hperm.mem_iff, List.mem_range]
  rw [List.mem_iff_getElem]
  exact exists_congr fun index => ⟨fun ⟨h, heq⟩ => ⟨h, by simpa [h] using heq⟩, fun ⟨h, heq⟩ => ⟨h, by simpa [h] using heq⟩⟩

theorem length_reordered (fields : List String) : (reordered order fields).length = header.length := by
  rw [reordered, List.length_map, hperm.length_eq, List.length_range]

theorem fieldAt_reordered (hheader : header.Nodup) {name : String}
    (hname : name ∈ header) : fieldAt (reordered order header) name (reordered order row) = fieldAt header name row := by
  have hlt := List.idxOf_lt_length_iff.mpr ((mem_reordered hperm).mpr hname)
  have hplace : (reordered order header).idxOf name < order.length := by simpa [reordered] using hlt
  have hfound : header.getD order[(reordered order header).idxOf name] "" = name := by
    have hget := List.getElem_idxOf hlt
    simpa only [reordered, List.getElem_map] using hget
  have hindex : order[(reordered order header).idxOf name] < header.length :=
    List.mem_range.mp (hperm.mem_iff.mp (List.getElem_mem hplace))
  -- the index that stands at the new place of the name is its old place
  have hsame : order[(reordered order header).idxOf name] = header.idxOf name := by
    rw [← hheader.idxOf_getElem _ hindex]
    exact congrArg header.idxOf (by simpa [hindex] using hfound)
  have hmap : reordered order row = order.map fun index => row.getD index "" := rfl
  rw [fieldAt, fieldAt, ← hsame, hmap, List.getD_eq_getElem?_getD, List.getElem?_map, List.getElem?_eq_getElem hplace]
  rfl

theorem readingOf_reordered (hheader : header.Nodup)
    (hdate : dateColumn ∈ header) (hcolumns : ∀ item ∈ series, item.sourceColumn ∈ header) :
    readingOf (reordered order header) series (reordered order row) = readingOf header series row := by
  simp only [readingOf, dateAt, fieldAt_reordered hperm hheader hdate, RowReading.mk.injEq, true_and]
  refine List.map_congr_left fun item hitem => ?_
  rw [percentAt, percentAt, fieldAt_reordered hperm hheader (hcolumns item hitem)]

theorem readable_reordered_iff (hheader : header.Nodup) (hwidth : ∀ row ∈ rows, row.length = header.length) :
    Readable (reordered order header) (rows.map (reordered order)) year series ↔ Readable header rows year series := by
  by_cases hcolumns : dateColumn ∈ header ∧ ∀ item ∈ series, item.sourceColumn ∈ header
  · obtain ⟨hdate, hcolumns⟩ := hcolumns
    have hdates : ∀ row, dateAt (reordered order header) (reordered order row) = dateAt header row := fun row => by
      rw [dateAt, dateAt, fieldAt_reordered hperm hheader hdate]
    have hcells : ∀ row, ∀ item ∈ series,
        (CellReadable (reordered order header) (reordered order row) item ↔ CellReadable header row item) := by
      intro row item hitem
      rw [CellReadable, CellReadable, fieldAt_reordered hperm hheader (hcolumns item hitem)]
    have honce : (rows.map (reordered order)).map (dateAt (reordered order header)) = rows.map (dateAt header) := by
      rw [List.map_map]
      exact List.map_congr_left fun row _ => hdates row
    constructor
    · intro h
      refine ⟨hdate, hcolumns, fun row hrow => ?_, honce ▸ h.once⟩
      obtain ⟨-, hdated, hread⟩ := h.readable _ (List.mem_map_of_mem hrow)
      exact ⟨hwidth row hrow, hdates row ▸ hdated, fun item hitem => (hcells row item hitem).mp (hread item hitem)⟩
    · intro h
      refine ⟨(mem_reordered hperm).mpr hdate, fun item hitem => (mem_reordered hperm).mpr (hcolumns item hitem),
        List.forall_mem_map.mpr fun row hrow => ?_, honce ▸ h.once⟩
      obtain ⟨-, hdated, hread⟩ := h.readable row hrow
      exact ⟨by rw [length_reordered hperm, length_reordered hperm], (hdates row).symm ▸ hdated,
        fun item hitem => (hcells row item hitem).mpr (hread item hitem)⟩
  · refine iff_of_false (fun h => hcolumns ⟨(mem_reordered hperm).mp h.date_column, fun item hitem => ?_⟩)
      fun h => hcolumns ⟨h.date_column, h.columns⟩
    exact (mem_reordered hperm).mp (h.columns item hitem)

end

/-! ## The stated format -/

/-- A date that is written `MM/DD/YYYY`. -/
def writtenDate (text : String) : Option Date :=
  match text.toList.splitOn '/' with
  | [month, day, year] =>
    if month.length = 2 ∧ day.length = 2 ∧ year.length = 4 ∧ (month ++ day ++ year).all Char.isDigit then
      dateOf (intOfDigits year) (intOfDigits month) (intOfDigits day)
    else none
  | _ => none

structure Stated (header : List String) (rows : List (List String)) (year : ℤ) (series : List MacroSeries) : Prop where
  date_column : dateColumn ∈ header
  columns : ∀ item ∈ series, item.sourceColumn ∈ header
  width : ∀ row ∈ rows, row.length = header.length
  dated : ∀ row ∈ rows, ∃ date, writtenDate (strip (fieldAt header dateColumn row)) = some date ∧ (yearOf date : ℤ) = year
  once : (rows.map fun row => writtenDate (strip (fieldAt header dateColumn row))).Nodup
  cells : ∀ row ∈ rows, ∀ item ∈ series, CellReadable header row item

theorem fields_of_digits {a b : Char} (ha : a.isDigit = true) (hb : b.isDigit = true) :
    (1 ≤ intOfDigits [a, b] ∧ intOfDigits [a, b] ≤ 12 → monthField [a, b] = some (intOfDigits [a, b])) ∧
      (1 ≤ intOfDigits [a, b] ∧ intOfDigits [a, b] ≤ 31 → dayField [a, b] = some (intOfDigits [a, b])) := by
  obtain ⟨ha, heq⟩ := digitChar_of_isDigit ha
  obtain ⟨hb, heq'⟩ := digitChar_of_isDigit hb
  have hall : ∀ m < 10, ∀ n < 10, (1 ≤ intOfDigits [m.digitChar, n.digitChar] ∧ intOfDigits [m.digitChar, n.digitChar] ≤ 12 →
          monthField [m.digitChar, n.digitChar] = some (intOfDigits [m.digitChar, n.digitChar])) ∧
        (1 ≤ intOfDigits [m.digitChar, n.digitChar] ∧ intOfDigits [m.digitChar, n.digitChar] ≤ 31 →
          dayField [m.digitChar, n.digitChar] = some (intOfDigits [m.digitChar, n.digitChar])) := by
    decide +kernel
  exact heq ▸ heq' ▸ hall _ ha _ hb

theorem strptime_of_writtenDate {text : String} {date : Date} (h : writtenDate text = some date) : strptime text = some date := by
  unfold writtenDate at h
  unfold strptime
  split at h
  next month day year hparts =>
    split_ifs at h with hfull
    obtain ⟨hmonth, hday, hyear, hdigits⟩ := hfull
    rw [List.all_eq_true] at hdigits
    obtain ⟨a, b, rfl⟩ := List.length_eq_two.mp hmonth
    obtain ⟨c, d, rfl⟩ := List.length_eq_two.mp hday
    obtain ⟨⟨-, -, hmin, htwelve, hfirst, hlast⟩, -⟩ := dateOf_eq_some_iff.mp h
    have hdayMax := hlast.trans (daysInMonth_le _ _)
    have hread : yearField year = some (intOfDigits year) :=
      if_pos ⟨hyear, List.all_eq_true.mpr fun e he => digitValue_of_isDigit (hdigits e (List.mem_append_right _ he))⟩
    rw [hread, (fields_of_digits (hdigits a (by simp)) (hdigits b (by simp))).1 ⟨hmin, htwelve⟩,
      (fields_of_digits (hdigits c (by simp)) (hdigits d (by simp))).2 ⟨hfirst, hdayMax⟩]
    exact h
  next => cases h

theorem stated_iff : Stated header rows year series ↔ Readable header rows year series ∧
    ∀ row ∈ rows, (writtenDate (strip (fieldAt header dateColumn row))).isSome := by
  have hsame : ∀ {row}, (writtenDate (strip (fieldAt header dateColumn row))).isSome →
      writtenDate (strip (fieldAt header dateColumn row)) = dateAt header row := by
    intro row hrow
    obtain ⟨date, hdate⟩ := Option.isSome_iff_exists.mp hrow
    rw [hdate, dateAt, strptime_of_writtenDate hdate]
  constructor
  · intro h
    have hfull : ∀ row ∈ rows, (writtenDate (strip (fieldAt header dateColumn row))).isSome := fun row hrow => by
      obtain ⟨date, hdate, -⟩ := h.dated row hrow
      rw [hdate, Option.isSome_some]
    refine ⟨⟨h.date_column, h.columns, fun row hrow => ⟨h.width row hrow, ?_, h.cells row hrow⟩, ?_⟩, hfull⟩
    · rw [← hsame (hfull row hrow)]
      exact h.dated row hrow
    · rw [← List.map_congr_left fun row hrow => hsame (hfull row hrow)]
      exact h.once
  · rintro ⟨h, hfull⟩
    refine ⟨h.date_column, h.columns, fun row hrow => (h.readable row hrow).width, fun row hrow => ?_, ?_,
      fun row hrow => (h.readable row hrow).cells⟩
    · rw [hsame (hfull row hrow)]
      exact (h.readable row hrow).dated
    · rw [List.map_congr_left fun row hrow => hsame (hfull row hrow)]
      exact h.once

structure ParsesStated (header : List String) (rows : List (List String)) (year : ℤ) (series : List MacroSeries) : Prop where
  accepts : (∃ result, parseParYieldCsv (header :: rows) year series = .ok result) ↔ Stated header rows year series
  holds : ∀ result, parseParYieldCsv (header :: rows) year series = .ok result →
    result.map Prod.fst = series.map MacroSeries.seriesId ∧
      ∀ item ∈ series, ∀ observations, (item.seriesId, observations) ∈ result →
        (observations.Pairwise fun earlier later => earlier.observationDate < later.observationDate) ∧
          ∀ observation, observation ∈ observations ↔ ∃ row ∈ rows, dateAt header row = some observation.observationDate ∧
            ∃ percent, percentAt header row item = some percent ∧ observation.value = percent / 100
  rows_reordered : ∀ rows' : List (List String), rows.Perm rows' → ∀ result,
    parseParYieldCsv (header :: rows') year series = .ok result ↔ parseParYieldCsv (header :: rows) year series = .ok result
  columns_reordered : header.Nodup → (∀ row ∈ rows, row.length = header.length) →
    ∀ order : List ℕ, order.Perm (List.range header.length) → ∀ result,
      parseParYieldCsv (reordered order header :: rows.map (reordered order)) year series = .ok result ↔
        parseParYieldCsv (header :: rows) year series = .ok result

/-- The parser does what it documents exactly for the files that it refuses, and those with full dates and percents of no more
digits than the default context. -/
theorem parsesStated_iff (hids : (series.map MacroSeries.seriesId).Nodup) : ParsesStated header rows year series ↔
    (Readable header rows year series → ∀ row ∈ rows, (writtenDate (strip (fieldAt header dateColumn row))).isSome ∧
      ∀ item ∈ series, ∀ percent, percentAt header row item = some percent → scaleb percent = percent / 100) := by
  have hentry : ∀ {item observations}, item ∈ series → (item.seriesId, observations) ∈ resultOf header rows series →
      observations = observationsOf (rows.map (readingOf header series)) item.seriesId := by
    intro item observations _ hmem
    obtain ⟨other, -, heq⟩ := List.mem_map.mp hmem
    obtain ⟨hid, rfl⟩ := Prod.mk.inj heq
    rw [hid]
  constructor
  · intro hparses h row hrow
    have hok := parseParYieldCsv_eq_ok_iff.mpr ⟨h, rfl⟩
    refine ⟨(stated_iff.mp (hparses.accepts.mp ⟨_, hok⟩)).2 row hrow, fun item hitem percent hpercent => ?_⟩
    -- the observation of the cell is stated to be the percent of a row with its date, and there is one such row
    have hdate := date_readingOf (h.readable row hrow)
    obtain ⟨-, hmem⟩ := (hparses.holds _ hok).2 item hitem _ (List.mem_map_of_mem hitem)
    obtain ⟨row', hrow', hdate', percent', hpercent', hvalue⟩ := (hmem ⟨_, scaleb percent⟩).mp
      ((mem_observationsOf_iff h hids hitem).mpr ⟨row, hrow, hdate, percent, hpercent, rfl⟩)
    obtain rfl : row' = row := List.inj_on_of_nodup_map h.once hrow' hrow (hdate'.trans hdate.symm)
    exact Option.some.inj (hpercent'.symm.trans hpercent) ▸ hvalue
  · intro hfull
    refine ⟨⟨?_, ?_⟩, ?_, fun rows' hperm result => ?_, fun hheader hwidth order horder result => ?_⟩
    · rintro ⟨result, hresult⟩
      obtain ⟨h, -⟩ := parseParYieldCsv_eq_ok_iff.mp hresult
      exact stated_iff.mpr ⟨h, fun row hrow => (hfull h row hrow).1⟩
    · exact fun h => ⟨_, parseParYieldCsv_eq_ok_iff.mpr ⟨(stated_iff.mp h).1, rfl⟩⟩
    · intro result hresult
      obtain ⟨h, rfl⟩ := parseParYieldCsv_eq_ok_iff.mp hresult
      refine ⟨by simp [resultOf, Function.comp_def], fun item hitem observations hmem => ?_⟩
      rw [hentry hitem hmem]
      refine ⟨sorted_observationsOf h hids hitem, fun observation => ?_⟩
      rw [mem_observationsOf_iff h hids hitem]
      refine exists_congr fun row => and_congr_right fun hrow => and_congr_right fun _ => exists_congr fun percent => ?_
      exact and_congr_right fun hpercent => by rw [(hfull h row hrow).2 item hitem percent hpercent]
    · rw [parseParYieldCsv_eq_ok_iff, parseParYieldCsv_eq_ok_iff]
      constructor
      · rintro ⟨h, rfl⟩
        exact ⟨h.perm hperm.symm, resultOf_perm hperm.symm h hids⟩
      · rintro ⟨h, rfl⟩
        exact ⟨h.perm hperm, resultOf_perm hperm h hids⟩
    · rw [parseParYieldCsv_eq_ok_iff, parseParYieldCsv_eq_ok_iff, readable_reordered_iff horder hheader hwidth]
      refine and_congr_right fun h => ?_
      have hsame : resultOf (reordered order header) (rows.map (reordered order)) series = resultOf header rows series := by
        have hreadings : (rows.map (reordered order)).map (readingOf (reordered order header) series) =
            rows.map (readingOf header series) := by
          rw [List.map_map]
          exact List.map_congr_left fun row _ => readingOf_reordered horder hheader h.date_column h.columns
        rw [resultOf, hreadings, resultOf]
      rw [hsame]

end

/-! A file with a date of one digit for the month and the day. -/

def threeMonth : List MacroSeries := [⟨"us-treasury-3-month", "3 Mo"⟩]

theorem shortDate_is_read : ¬ ParsesStated ["Date", "3 Mo"] [["1/2/2026", "4.26"]] 2026 threeMonth := by
  intro h
  have hok : parseParYieldCsv [["Date", "3 Mo"], ["1/2/2026", "4.26"]] 2026 threeMonth =
      .ok [("us-treasury-3-month", [⟨ordinal 2026 1 2, 426 / 10000⟩])] := by
    decide +kernel
  obtain ⟨date, hdate, -⟩ := (h.accepts.mp ⟨_, hok⟩).dated _ List.mem_cons_self
  have hnone : writtenDate (strip (fieldAt ["Date", "3 Mo"] dateColumn ["1/2/2026", "4.26"])) = none := by decide +kernel
  rw [hnone] at hdate
  cases hdate

theorem parsesStated_sample : ParsesStated ["3 Mo", "Date"] [["4.26", "10/13/2026"], ["", "10/09/2026"]] 2026 threeMonth := by
  refine (parsesStated_iff (by decide)).mpr fun _ row hrow => ?_
  have hall : ∀ row ∈ [["4.26", "10/13/2026"], ["", "10/09/2026"]],
      (writtenDate (strip (fieldAt ["3 Mo", "Date"] dateColumn row))).isSome ∧ ∀ item ∈ threeMonth,
        ∀ percent ∈ percentAt ["3 Mo", "Date"] row item, scaleb percent = percent / 100 := by
    decide +kernel
  exact hall row hrow

end TrueAlpha.Datahub
