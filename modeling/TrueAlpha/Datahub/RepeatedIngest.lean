import TrueAlpha.Datahub.MarketPrices

/-!
# The same payload twice

After an ingest the latest vintage of a key is the last bar that was appended for it.  So a second ingest appends nothing
exactly when all bars of one session are equal (`second_ingest_appends_nothing_iff`).  With one bar a session, a run of
ingests is a book that overwrites (`ingests_refine`).
-/

namespace TrueAlpha.Datahub

theorem numbersEqual_iff {left right : Option PriceNumber} :
    numbersEqual left right = true ↔ left = right ∧ left ≠ some .nan := by
  rcases left with _ | ⟨value | negative | _⟩
  · simp [numbersEqual]
  · simp [numbersEqual]
  · simp [numbersEqual]
  · simp [numbersEqual]

def Ohlcv.Numeric (values : Ohlcv) : Prop :=
  values.open ≠ some .nan ∧ values.high ≠ some .nan ∧ values.low ≠ some .nan ∧ values.close ≠ some .nan ∧
    values.volume ≠ some .nan

theorem Ohlcv.equal_iff {left right : Ohlcv} : left.equal right = true ↔ left = right ∧ left.Numeric := by
  cases left
  cases right
  simp only [Ohlcv.equal, Ohlcv.Numeric, Bool.and_eq_true, numbersEqual_iff, Ohlcv.mk.injEq]
  tauto

theorem Ohlcv.equal_of_common {left right common : Ohlcv} (hleft : common.equal left = true)
    (hright : common.equal right = true) : left.equal right = true := by
  obtain ⟨rfl, -⟩ := Ohlcv.equal_iff.mp hleft
  exact hright

variable {record : PriceBarRecord}

theorem latestVintages_eq {table : PriceTable} {records : List PriceBarRecord} (h : record ∈ records) (adjust : String) :
    latestVintages table records (record.symbol, record.date, adjust) =
      (table.vintages (record.symbol, record.date, adjust)).getLast?.map PriceRow.toOhlcv := by
  have hfilter : (table.rows.filter fun row => row.symbol ∈ records.map PriceBarRecord.symbol ∧
      row.tradingDate ∈ records.map PriceBarRecord.date ∧ row.key = (record.symbol, record.date, adjust)) =
      table.vintages (record.symbol, record.date, adjust) := by
    refine List.filter_congr fun row _ => decide_eq_decide.mpr ⟨fun hrow => hrow.2.2, fun hkey => ?_⟩
    obtain ⟨hsymbol, hdate, -⟩ : row.symbol = record.symbol ∧ row.tradingDate = record.date ∧ row.adjust = adjust := by
      simpa [PriceRow.key] using hkey
    exact ⟨hsymbol ▸ List.mem_map_of_mem h, hdate ▸ List.mem_map_of_mem h, hkey⟩
  have hsorted : (table.vintages (record.symbol, record.date, adjust)).Pairwise
      fun earlier later => earlier.recordedAt ≤ later.recordedAt :=
    (table.recorded.filter _).imp le_of_lt
  rw [latestVintages, hfilter, latestBy_eq_getLast? PriceRow.recordedAt hsorted]

variable {reader : MarketReader} {records : List PriceBarRecord} {adjust : String} {table table' : PriceTable}
  {clock : ClockAfter table} {count : ℕ}

def changedRecords (records : List PriceBarRecord) (adjust : String) (table : PriceTable) : List PriceBarRecord :=
  records.filter (isChanged (latestVintages table records) adjust)

theorem insertMarketPrices_eq_ok (h : insertMarketPrices reader records adjust table clock = .ok (count, table')) :
    count = (changedRecords records adjust table).length ∧
      table'.rows = table.rows ++ stampedRows reader adjust (changedRecords records adjust table) clock.reading := by
  simp only [insertMarketPrices] at h
  split_ifs at h
  cases h
  exact ⟨List.length_mapIdx, rfl⟩

theorem insertMarketPrices_zero_iff : (insertMarketPrices reader records adjust table clock).map Prod.fst = .ok 0 ↔
      ∀ record ∈ records, isChanged (latestVintages table records) adjust record = false := by
  have hnone : changedRecords records adjust table = [] ↔
      ∀ record ∈ records, isChanged (latestVintages table records) adjust record = false := by
    simp only [changedRecords, List.filter_eq_nil_iff, Bool.not_eq_true]
  rw [← hnone]
  constructor
  · intro h
    cases hinsert : insertMarketPrices reader records adjust table clock with
    | error error =>
      rw [hinsert] at h
      cases h
    | ok result =>
      obtain ⟨count, table'⟩ := result
      rw [hinsert] at h
      have hzero : count = 0 := Except.ok.inj h
      exact List.length_eq_zero_iff.mp ((insertMarketPrices_eq_ok hinsert).1.symm.trans hzero)
  · intro h
    have hrows : stampedRows reader adjust (changedRecords records adjust table) clock.reading = [] := by
      rw [h]
      rfl
    unfold changedRecords at hrows
    simp only [insertMarketPrices, hrows]
    rfl

def recordsOf (records : List PriceBarRecord) (symbol : String) (date : Date) : List PriceBarRecord :=
  records.filter fun record => record.symbol = symbol ∧ record.date = date

theorem values_stampedRows (records : List PriceBarRecord) (reading : ℕ → Instant) (key : String × Date × String) :
    ((stampedRows reader adjust records reading).filter fun row => row.key = key).map PriceRow.toOhlcv =
      if key.2.2 = adjust then (recordsOf records key.1 key.2.1).map PriceBarRecord.toOhlcv else [] := by
  obtain ⟨symbol, date, series⟩ := key
  unfold stampedRows recordsOf
  induction records using List.reverseRecOn with
  | nil => simp
  | append_singleton records record ih =>
    have hkey : (rowOf reader adjust record (reading records.length)).key = (symbol, date, series) ↔
        (record.symbol = symbol ∧ record.date = date) ∧ series = adjust := by
      simp [PriceRow.key, rowOf, and_assoc, eq_comm]
    rw [List.mapIdx_concat, List.filter_append, List.filter_append, List.map_append, ih, List.map_append]
    have hvalue : (rowOf reader adjust record (reading records.length)).toOhlcv = record.toOhlcv := rfl
    simp only [List.filter_cons, List.filter_nil, decide_eq_true_eq, hkey]
    by_cases hseries : series = adjust
    · by_cases hrecord : record.symbol = symbol ∧ record.date = date
      · simp [hseries, hrecord, hvalue]
      · simp [hseries, hrecord]
    · simp [hseries]

theorem getLast?_stampedRows (records : List PriceBarRecord) (reading : ℕ → Instant) (symbol : String) (date : Date) :
    ((stampedRows reader adjust records reading).filter fun row => row.key = (symbol, date, adjust)).getLast?.map
        PriceRow.toOhlcv =
      (recordsOf records symbol date).getLast?.map PriceBarRecord.toOhlcv := by
  rw [← List.getLast?_map, values_stampedRows records reading (symbol, date, adjust), if_pos rfl, List.getLast?_map]

theorem latestVintages_insert (h : insertMarketPrices reader records adjust table clock = .ok (count, table')) (hrecord : record ∈ records) :
    latestVintages table' records (record.symbol, record.date, adjust) =
      ((recordsOf (changedRecords records adjust table) record.symbol record.date).getLast?.map
        PriceBarRecord.toOhlcv).or (latestVintages table records (record.symbol, record.date, adjust)) := by
  rw [latestVintages_eq hrecord, latestVintages_eq hrecord, PriceTable.vintages, (insertMarketPrices_eq_ok h).2,
    List.filter_append, List.getLast?_append, Option.map_or, getLast?_stampedRows]
  rfl

/-! ## The second insert -/

theorem isChanged_eq_false_iff {existing : String × Date × String → Option Ohlcv} : isChanged existing adjust record = false ↔
      ∃ vintage, existing (record.symbol, record.date, adjust) = some vintage ∧ vintage.equal record.toOhlcv = true := by
  rw [isChanged, Bool.not_eq_false', Option.any_eq_true]

theorem insert_again_zero_iff (h : insertMarketPrices reader records adjust table clock = .ok (count, table'))
    (clock' : ClockAfter table') :
    (insertMarketPrices reader records adjust table' clock').map Prod.fst = .ok 0 ↔
      ∀ record ∈ records, ∀ other ∈ records, record.symbol = other.symbol → record.date = other.date →
        record.toOhlcv.equal other.toOhlcv = true := by
  rw [insertMarketPrices_zero_iff]
  constructor
  · intro hunchanged record hrecord other hother hsymbol hdate
    obtain ⟨vintage, hvintage, hequal⟩ := isChanged_eq_false_iff.mp (hunchanged record hrecord)
    obtain ⟨vintage', hvintage', hequal'⟩ := isChanged_eq_false_iff.mp (hunchanged other hother)
    rw [← hsymbol, ← hdate, hvintage] at hvintage'
    cases hvintage'
    exact Ohlcv.equal_of_common hequal hequal'
  · intro hagree record hrecord
    rw [isChanged_eq_false_iff, latestVintages_insert h hrecord]
    cases hlast : (recordsOf (changedRecords records adjust table) record.symbol record.date).getLast? with
    | some last =>
      obtain ⟨hmem, hsame⟩ := List.mem_filter.mp (List.mem_of_getLast? hlast)
      obtain ⟨hsymbol, hdate⟩ := of_decide_eq_true hsame
      exact ⟨last.toOhlcv, rfl, hagree last (List.mem_of_mem_filter hmem) record hrecord hsymbol hdate⟩
    | none =>
      -- none of the key was appended, so the record is the vintage before
      have hnone := List.getLast?_eq_none_iff.mp hlast
      have hsame : isChanged (latestVintages table records) adjust record = false := by
        by_contra hchanged
        rw [Bool.not_eq_false] at hchanged
        have hmem : record ∈ recordsOf (changedRecords records adjust table) record.symbol record.date :=
          List.mem_filter.mpr ⟨List.mem_filter.mpr ⟨hrecord, hchanged⟩, decide_eq_true ⟨rfl, rfl⟩⟩
        rw [hnone] at hmem
        cases hmem
      exact isChanged_eq_false_iff.mp hsame

def BarsAgree (read : TimeSeriesItem → Option PriceBarRecord) (payload : TimeSeries) : Prop :=
  ∀ item ∈ payload.getD [], ∀ other ∈ payload.getD [], ∀ bar bar', item.bind read = some bar →
    other.bind read = some bar' → bar.date = bar'.date → bar.toOhlcv.equal bar'.toOhlcv = true

theorem symbol_of_settledBar {sessionOf : Date → Date} {resolution symbol : String} {minDate : Option Date}
    {now : Instant} {item : TimeSeriesItem} {bar : PriceBarRecord}
    (h : settledBar reader sessionOf resolution symbol minDate now item = some bar) : bar.symbol = symbol := by
  obtain ⟨rawDate, -, h⟩ := Option.bind_eq_some_iff.mp h
  dsimp only at h
  split_ifs at h
  cases h
  rfl

theorem barsAgree_iff {read : TimeSeriesItem → Option PriceBarRecord} {symbol : String}
    (hread : ∀ item bar, read item = some bar → bar.symbol = symbol) (payload : TimeSeries) :
    (∀ record ∈ (payload.getD []).filterMap fun item => item.bind read,
      ∀ other ∈ (payload.getD []).filterMap fun item => item.bind read,
        record.symbol = other.symbol → record.date = other.date → record.toOhlcv.equal other.toOhlcv = true) ↔
      BarsAgree read payload := by
  have hsymbol : ∀ (item : Option TimeSeriesItem) bar, item.bind read = some bar → bar.symbol = symbol := by
    intro item bar hbar
    obtain ⟨found, -, hfound⟩ := Option.bind_eq_some_iff.mp hbar
    exact hread found bar hfound
  constructor
  · intro h item hitem other hother bar bar' hbar hbar' hdate
    exact h bar (List.mem_filterMap.mpr ⟨item, hitem, hbar⟩) bar' (List.mem_filterMap.mpr ⟨other, hother, hbar'⟩)
      ((hsymbol item bar hbar).trans (hsymbol other bar' hbar').symm) hdate
  · intro h record hrecord other hother _ hdate
    obtain ⟨item, hitem, hbar⟩ := List.mem_filterMap.mp hrecord
    obtain ⟨item', hitem', hbar'⟩ := List.mem_filterMap.mp hother
    exact h item hitem item' hitem' record other hbar hbar' hdate

/-- A payload is ingested again without a new row exactly when its bars of one session are equal numbers, for both pairs of
parser and writer. -/
theorem second_ingest_appends_nothing_iff (reader : MarketReader) (symbol : String) (payload : TimeSeries)
    (minDate : Option Date) (now : Instant) (adjust : String) (table : PriceTable) (clock : ClockAfter table)
    (count : ℕ) (table' : PriceTable) (clock' : ClockAfter table') :
    (insertMarketPricesMonthly reader (parseMonthlyBars reader symbol payload minDate now) adjust table clock =
        .ok (count, table') →
      ((insertMarketPricesMonthly reader (parseMonthlyBars reader symbol payload minDate now) adjust table' clock').map
        Prod.fst = .ok 0 ↔ BarsAgree (monthlyBar reader symbol minDate now) payload)) ∧
    (insertMarketPricesDaily reader (parseDailyBars reader symbol payload minDate now) adjust table clock = .ok (count, table') →
      ((insertMarketPricesDaily reader (parseDailyBars reader symbol payload minDate now) adjust table' clock').map
        Prod.fst = .ok 0 ↔ BarsAgree (dailyBar reader symbol minDate now) payload)) := by
  constructor
  · intro hfirst
    exact (insert_again_zero_iff hfirst clock').trans (barsAgree_iff (fun _ _ => symbol_of_settledBar) payload)
  · intro hfirst
    exact (insert_again_zero_iff hfirst clock').trans (barsAgree_iff (fun _ _ => symbol_of_settledBar) payload)

/-! ## A run of ingests -/

def PriceTable.values (table : PriceTable) (key : String × Date × String) : List Ohlcv :=
  (table.vintages key).map PriceRow.toOhlcv

def PriceTable.book (table : PriceTable) (key : String × Date × String) : Option Ohlcv := (table.values key).getLast?

def putBars (book : String × Date × String → Option Ohlcv) (batch : String × List PriceBarRecord)
    (key : String × Date × String) : Option Ohlcv :=
  if key.2.2 = batch.1 then ((recordsOf batch.2 key.1 key.2.1).getLast?.map PriceBarRecord.toOhlcv).or (book key)
  else book key

def OneBar (records : List PriceBarRecord) : Prop := ∀ symbol date, (recordsOf records symbol date).length ≤ 1

def Suppressed (table : PriceTable) : Prop :=
  ∀ key, (table.values key).IsChain fun earlier later => earlier.equal later = false

inductive Ingests (reader : MarketReader) : PriceTable → List (String × List PriceBarRecord) → PriceTable → Prop
  | none (table : PriceTable) : Ingests reader table [] table
  | batch {table adjust records clock count table' batches table''} :
    insertMarketPrices reader records adjust table clock = .ok (count, table') →
      Ingests reader table' batches table'' → Ingests reader table ((adjust, records) :: batches) table''

theorem values_insert (h : insertMarketPrices reader records adjust table clock = .ok (count, table'))
    (key : String × Date × String) :
    table'.values key = table.values key ++ if key.2.2 = adjust then
      ((recordsOf records key.1 key.2.1).filter (isChanged table.book adjust)).map PriceBarRecord.toOhlcv else [] := by
  have hchanged : changedRecords records adjust table = records.filter (isChanged table.book adjust) :=
    List.filter_congr fun record hrecord => by
      rw [isChanged, isChanged, latestVintages_eq hrecord, PriceTable.book, PriceTable.values, List.getLast?_map]
  rw [PriceTable.values, PriceTable.vintages, (insertMarketPrices_eq_ok h).2, List.filter_append, List.map_append,
    values_stampedRows, hchanged, recordsOf, List.filter_comm]
  rfl

/-- One accepted batch. -/
theorem insert_refines (h : insertMarketPrices reader records adjust table clock = .ok (count, table')) (hone : OneBar records) :
    table'.book = putBars table.book (adjust, records) ∧ (Suppressed table → Suppressed table') := by
  have hstep : ∀ key, table'.book key = putBars table.book (adjust, records) key ∧
      ((table.values key).IsChain (fun earlier later => earlier.equal later = false) →
        (table'.values key).IsChain fun earlier later => earlier.equal later = false) := by
    rintro ⟨symbol, date, series⟩
    have hvalues := values_insert h (symbol, date, series)
    unfold PriceTable.book putBars
    by_cases hseries : series = adjust
    · subst hseries
      simp only [if_true] at hvalues ⊢
      rcases hrecords : recordsOf records symbol date with _ | ⟨record, _ | ⟨other, rest⟩⟩
      · rw [hrecords] at hvalues
        simp only [List.filter_nil, List.map_nil, List.append_nil] at hvalues
        rw [hvalues]
        exact ⟨rfl, id⟩
      · obtain ⟨rfl, rfl⟩ : record.symbol = symbol ∧ record.date = date := by
          have hmem : record ∈ recordsOf records symbol date := by rw [hrecords]; exact List.mem_singleton_self _
          exact of_decide_eq_true (List.mem_filter.mp hmem).2
        rw [hrecords] at hvalues
        cases hchanged : isChanged table.book series record with
        | true =>
          rw [List.filter_cons_of_pos hchanged] at hvalues
          rw [hvalues]
          refine ⟨by simp, fun hchain => List.isChain_append.mpr ⟨hchain, List.isChain_singleton _, ?_⟩⟩
          intro earlier hearlier later hlater
          cases Option.mem_some_iff.mp hlater
          by_contra hequal
          rw [isChanged_eq_false_iff.mpr ⟨earlier, hearlier, by simpa using hequal⟩] at hchanged
          cases hchanged
        | false =>
          obtain ⟨vintage, hvintage, hequal⟩ := isChanged_eq_false_iff.mp hchanged
          obtain ⟨rfl, -⟩ := Ohlcv.equal_iff.mp hequal
          rw [List.filter_cons_of_neg (by simp [hchanged])] at hvalues
          simp only [List.filter_nil, List.map_nil, List.append_nil] at hvalues
          rw [hvalues]
          exact ⟨hvintage, id⟩
      · have := hone symbol date
        rw [hrecords] at this
        exact absurd this (by simp)
    · simp only [hseries, if_false, List.append_nil] at hvalues ⊢
      rw [hvalues]
      exact ⟨rfl, id⟩
  exact ⟨funext fun key => (hstep key).1, fun hsuppressed key => (hstep key).2 (hsuppressed key)⟩

/-- The table that only appends what changed keeps the book that overwrites, and of every key a history without repeats. -/
theorem ingests_refine {batches : List (String × List PriceBarRecord)} (hrun : Ingests reader table batches table')
    (hone : ∀ batch ∈ batches, OneBar batch.2) (hsuppressed : Suppressed table) :
    table'.book = batches.foldl putBars table.book ∧ Suppressed table' ∧ table.rows <+: table'.rows := by
  induction hrun with
  | none table => exact ⟨rfl, hsuppressed, List.prefix_rfl⟩
  | batch h _ ih =>
    obtain ⟨hbook, hkeeps⟩ := insert_refines h (hone _ List.mem_cons_self)
    obtain ⟨hlater, hend, hprefix⟩ := ih (fun batch hbatch => hone batch (List.mem_cons_of_mem _ hbatch)) (hkeeps hsuppressed)
    refine ⟨hlater.trans (by rw [hbook, List.foldl_cons]), hend, ?_⟩
    exact ((insertMarketPrices_eq_ok h).2 ▸ List.prefix_append _ _).trans hprefix

def clockFrom (start : Instant) (table : PriceTable) : ClockAfter table where
  reading n := (table.rows.map PriceRow.recordedAt).foldl max start + (n + 1 : ℕ)
  increasing := fun n m hlt => Int.add_lt_add_left (Int.ofNat_lt.mpr (Nat.succ_lt_succ hlt)) _
  after := by
    intro row hrow
    have hmax : (start :: table.rows.map PriceRow.recordedAt).max? =
        some ((table.rows.map PriceRow.recordedAt).foldl max start) := rfl
    have hle := (List.max?_eq_some_iff.mp hmax).2 row.recordedAt
      (List.mem_cons_of_mem _ (List.mem_map_of_mem hrow))
    exact Int.lt_add_of_le_of_pos hle Int.zero_lt_one

def emptyTable : PriceTable := ⟨[], List.Pairwise.nil⟩

def summerReader : MarketReader where
  decimal text := if text = "10" then some (.finite 10) else if text = "11" then some (.finite 11) else none
  newYorkOffset _ := 4

def closingItem (datetime close : String) : TimeSeriesItem := ⟨datetime, none, none, none, some close, none⟩

def afterJune : Instant := ordinal 2026 7 1 * microsPerDay + microsPerDay / 2

theorem second_ingest_appends_nothing_june : ∃ count table', insertMarketPricesMonthly summerReader
      (parseMonthlyBars summerReader "AAPL" (some [some (closingItem "2026-06-01" "10")]) none afterJune) splitAdjusted
      emptyTable (clockFrom afterJune emptyTable) = .ok (count, table') ∧
    (insertMarketPricesMonthly summerReader
      (parseMonthlyBars summerReader "AAPL" (some [some (closingItem "2026-06-01" "10")]) none afterJune) splitAdjusted
      table' (clockFrom afterJune table')).map Prod.fst = .ok 0 := by
  have hreturns : (insertMarketPricesMonthly summerReader
      (parseMonthlyBars summerReader "AAPL" (some [some (closingItem "2026-06-01" "10")]) none afterJune) splitAdjusted
      emptyTable (clockFrom afterJune emptyTable)).toOption.any fun result => result.1 = 1 := by
    decide +kernel
  obtain ⟨⟨count, table'⟩, hfirst, -⟩ := exists_ok_of_any hreturns
  refine ⟨count, table', hfirst, ?_⟩
  refine ((second_ingest_appends_nothing_iff summerReader "AAPL" (some [some (closingItem "2026-06-01" "10")]) none
    afterJune splitAdjusted emptyTable _ count table' (clockFrom afterJune table')).1 hfirst).mpr ?_
  intro item hitem other hother bar bar' hbar hbar' _
  cases List.mem_singleton.mp hitem
  cases List.mem_singleton.mp hother
  cases hbar.symm.trans hbar'
  have hnumeric : ((some (closingItem "2026-06-01" "10")).bind (monthlyBar summerReader "AAPL" none afterJune)).all
      fun bar => bar.toOhlcv.equal bar.toOhlcv := by
    decide +kernel
  rw [hbar] at hnumeric
  exact hnumeric

/-- Two items of June with different closes are appended, and one of them again. -/
theorem second_ingest_appends_again :
    ¬ ∀ (reader : MarketReader) (symbol : String) (payload : TimeSeries) (minDate : Option Date) (now : Instant)
      (adjust : String) (table : PriceTable) (clock : ClockAfter table) (count : ℕ) (table' : PriceTable),
      insertMarketPricesMonthly reader (parseMonthlyBars reader symbol payload minDate now) adjust table clock =
        .ok (count, table') → ∀ clock' : ClockAfter table',
        (insertMarketPricesMonthly reader (parseMonthlyBars reader symbol payload minDate now) adjust table' clock').map
          Prod.fst = .ok 0 := by
  intro h
  let items : TimeSeries := some [some (closingItem "2026-06-01" "10"), some (closingItem "2026-06-15" "11")]
  have hreturns : (insertMarketPricesMonthly summerReader (parseMonthlyBars summerReader "AAPL" items none afterJune)
      splitAdjusted emptyTable (clockFrom afterJune emptyTable)).toOption.any fun result => result.1 = 2 := by
    decide +kernel
  obtain ⟨⟨count, table'⟩, hfirst, -⟩ := exists_ok_of_any hreturns
  have hagain := h summerReader "AAPL" items none afterJune splitAdjusted emptyTable _ count table' hfirst
    (clockFrom afterJune table')
  have hequal := (insert_again_zero_iff hfirst (clockFrom afterJune table')).mp hagain
  have hdiffer : ∃ record ∈ parseMonthlyBars summerReader "AAPL" items none afterJune,
      ∃ other ∈ parseMonthlyBars summerReader "AAPL" items none afterJune, record.symbol = other.symbol ∧
        record.date = other.date ∧ record.toOhlcv.equal other.toOhlcv = false := by
    decide +kernel
  obtain ⟨record, hrecord, other, hother, hsymbol, hdate, hfalse⟩ := hdiffer
  rw [hequal record hrecord other hother hsymbol hdate] at hfalse
  cases hfalse

def juneBars : List PriceBarRecord :=
  parseMonthlyBars summerReader "AAPL" (some [some (closingItem "2026-06-01" "10")]) none afterJune

theorem ingests_refine_june :
    ∃ table', table'.book = putBars emptyTable.book (splitAdjusted, juneBars) ∧ Suppressed table' := by
  have hreturns : (insertMarketPricesMonthly summerReader juneBars splitAdjusted emptyTable
      (clockFrom afterJune emptyTable)).toOption.any fun result => result.1 = 1 := by
    decide +kernel
  obtain ⟨⟨count, table'⟩, hinsert, -⟩ := exists_ok_of_any hreturns
  have hone : OneBar juneBars := fun symbol date => (List.length_filter_le _ _).trans (by decide +kernel)
  obtain ⟨hbook, hsuppressed, -⟩ := ingests_refine (.batch hinsert (.none table')) (by simpa using hone)
    fun key => List.isChain_nil
  exact ⟨table', hbook, hsuppressed⟩

end TrueAlpha.Datahub
