import TrueAlpha.Datahub.Bundle
import TrueAlpha.Datahub.Calendar
import TrueAlpha.Contracts.DateReading

/-!
# The stored price bars

The embedding of the parsers and writers of `datahub.market_prices`.  A bar is appended unless it equals the latest vintage of
its symbol, date and series.  The zone of New York and `Decimal` of a text are parameters; `confidence` and `raw_ref` are left
out.
-/

namespace TrueAlpha.Datahub

def splitAdjusted : String := "splits"

def xnysEarlyCloseDays (year : ℕ) : List Date := [firstWeekday year 11 3 + 21 + 1] ++
    (if isXnysTradingDay (ordinal year 12 24) then [ordinal year 12 24] else []) ++
    (if weekday (ordinal year 7 4) ∈ [1, 2, 3, 4] ∧ isXnysTradingDay (ordinal year 7 3) then [ordinal year 7 3] else [])

/-- The loop of `last_xnys_session_of_month`, over a number of days that end on a day. -/
def lastSessionFrom : ℕ → Date → Date
  | 0, day => day
  | fuel + 1, day => if isXnysTradingDay day then day else lastSessionFrom fuel (day - 1)

/-- A month has a session, so the loop stops within it. -/
def lastXnysSessionOfMonth (year month : ℕ) : Date :=
  lastSessionFrom (daysInMonth year month) (ordinal year month (daysInMonth year month))

def snapToLastXnysSessionOfMonth (day : Date) : Date := lastXnysSessionOfMonth (fromOrdinal day).1 (fromOrdinal day).2.1

/-- A `Decimal`: a number, an infinity, or not a number. -/
inductive PriceNumber where
  | finite (value : ℚ)
  | infinite (negative : Bool)
  | nan
  deriving DecidableEq, Repr

/-- `==` of two optional decimals: what is not a number equals nothing. -/
def numbersEqual : Option PriceNumber → Option PriceNumber → Bool
  | some .nan, _ => false
  | left, right => left = right

structure Ohlcv where
  «open» : Option PriceNumber
  high : Option PriceNumber
  low : Option PriceNumber
  close : Option PriceNumber
  volume : Option PriceNumber
  deriving DecidableEq, Repr

/-- `==` of two tuples of the five numbers. -/
def Ohlcv.equal (left right : Ohlcv) : Bool :=
  numbersEqual left.open right.open && numbersEqual left.high right.high && numbersEqual left.low right.low &&
    numbersEqual left.close right.close && numbersEqual left.volume right.volume

structure PriceBarRecord extends Ohlcv where
  symbol : String
  date : Date
  source : String
  resolution : String
  deriving DecidableEq, Repr

/-- `Decimal` of a text, and the hours that New York is behind UTC at a day's close. -/
structure MarketReader where
  decimal : String → Option PriceNumber
  newYorkOffset : Date → ℤ

/-- An item of `values`, each number as its `str`: `none` is a null or missing key.  A `datetime` that is no text reads as one
that is no date. -/
structure TimeSeriesItem where
  datetime : String
  «open» : Option String
  high : Option String
  low : Option String
  close : Option String
  volume : Option String
  deriving DecidableEq, Repr

/-- The `values` of a payload: `none` is no list, and an item that is no mapping. -/
abbrev TimeSeries := Option (List (Option TimeSeriesItem))

variable (reader : MarketReader)

def parseDecimal (value : Option String) : Option PriceNumber := (value.map strip).bind fun text =>
    if text = "" ∨ text.toLower ∈ ["null", "nan", "none"] then none else reader.decimal text

def xnysSessionCloseUtc (tradingDate : Date) : Instant :=
  let closeHour := if tradingDate ∈ xnysEarlyCloseDays (yearOf tradingDate) then 13 else 16
  tradingDate * microsPerDay + (closeHour + reader.newYorkOffset tradingDate) * 3600000000

def settledBar (sessionOf : Date → Date) (resolution symbol : String) (minDate : Option Date) (now : Instant)
    (item : TimeSeriesItem) : Option PriceBarRecord := do
  let rawDate ← fromIsoFormat (String.ofList (item.datetime.toList.take 10))
  let date := sessionOf rawDate
  if now < xnysSessionCloseUtc reader date then none
  else if minDate.any fun first => date < first then none
  else
    some
      { «open» := parseDecimal reader item.open
        high := parseDecimal reader item.high
        low := parseDecimal reader item.low
        close := parseDecimal reader item.close
        volume := parseDecimal reader item.volume
        symbol, date, source := "twelvedata", resolution }

def dailyBar := settledBar reader id "1D"

def monthlyBar := settledBar reader snapToLastXnysSessionOfMonth "1M"

def parseDailyBars (symbol : String) (payload : TimeSeries) (minDate : Option Date) (now : Instant) : List PriceBarRecord :=
  (payload.getD []).filterMap fun item => item.bind (dailyBar reader symbol minDate now)

def parseMonthlyBars (symbol : String) (payload : TimeSeries) (minDate : Option Date) (now : Instant) : List PriceBarRecord :=
  (payload.getD []).filterMap fun item => item.bind (monthlyBar reader symbol minDate now)

/-- A row of `staging.market_prices_daily` or `staging.market_prices_monthly`. -/
structure PriceRow extends Ohlcv where
  symbol : String
  tradingDate : Date
  source : String
  adjust : String
  transactionTime : Instant
  recordedAt : Instant
  deriving DecidableEq, Repr

def PriceRow.key (row : PriceRow) : String × Date × String := (row.symbol, row.tradingDate, row.adjust)

structure PriceTable where
  rows : List PriceRow
  recorded : rows.Pairwise fun earlier later => earlier.recordedAt < later.recordedAt

def PriceTable.vintages (table : PriceTable) (key : String × Date × String) : List PriceRow :=
  table.rows.filter fun row => row.key = key

structure ClockAfter (table : PriceTable) where
  reading : ℕ → Instant
  increasing : StrictMono reading
  after : ∀ row ∈ table.rows, row.recordedAt < reading 0

def latestVintages (table : PriceTable) (records : List PriceBarRecord) (key : String × Date × String) : Option Ohlcv :=
  (latestBy PriceRow.recordedAt (table.rows.filter fun row => row.symbol ∈ records.map PriceBarRecord.symbol ∧
    row.tradingDate ∈ records.map PriceBarRecord.date ∧ row.key = key)).map PriceRow.toOhlcv

def isChanged (existing : String × Date × String → Option Ohlcv) (adjust : String) (record : PriceBarRecord) : Bool :=
  !((existing (record.symbol, record.date, adjust)).any fun vintage => vintage.equal record.toOhlcv)

def rowOf (adjust : String) (record : PriceBarRecord) (recordedAt : Instant) : PriceRow :=
  { toOhlcv := record.toOhlcv
    symbol := record.symbol
    tradingDate := record.date
    source := record.source
    adjust
    transactionTime := xnysSessionCloseUtc reader record.date
    recordedAt }

def stampedRows (adjust : String) (records : List PriceBarRecord) (reading : ℕ → Instant) : List PriceRow :=
  records.mapIdx fun index record => rowOf reader adjust record (reading index)

theorem recorded_append {table : PriceTable} (clock : ClockAfter table) (adjust : String)
    (records : List PriceBarRecord) : (table.rows ++ stampedRows reader adjust records clock.reading).Pairwise
      fun earlier later => earlier.recordedAt < later.recordedAt := by
  refine List.pairwise_append.mpr ⟨table.recorded, ?_, fun earlier hearlier later hlater => ?_⟩
  · refine List.pairwise_iff_getElem.mpr fun i j hi hj hij => ?_
    simp only [stampedRows, List.getElem_mapIdx]
    exact clock.increasing hij
  · obtain ⟨index, hindex, rfl⟩ := List.mem_mapIdx.mp hlater
    exact (clock.after earlier hearlier).trans_le (clock.increasing.monotone (Nat.zero_le _))

/-- A row that breaks `check (recorded_at >= transaction_time)`. -/
inductive PriceWriteError where
  | recordedBeforeClose
  deriving DecidableEq, Repr

def insertMarketPrices (records : List PriceBarRecord) (adjust : String) (table : PriceTable)
    (clock : ClockAfter table) : Except PriceWriteError (ℕ × PriceTable) :=
  let changed := records.filter (isChanged (latestVintages table records) adjust)
  let rows := stampedRows reader adjust changed clock.reading
  if rows.all fun row => row.transactionTime ≤ row.recordedAt then
    .ok (rows.length, ⟨table.rows ++ rows, recorded_append reader clock adjust changed⟩)
  else .error .recordedBeforeClose

def insertMarketPricesDaily := insertMarketPrices reader

def insertMarketPricesMonthly := insertMarketPrices reader

/-! ## The monthly cutoff -/

def MonthBefore (year month year' month' : ℕ) : Prop := year < year' ∨ year = year' ∧ month < month'

/-- `_prior_month` of the market data lane. -/
def priorMonth (year month : ℕ) : ℕ × ℕ := if month = 1 then (year - 1, 12) else (year, month - 1)

/-- `latest_closed_monthly_session`, which is also the lane's `_monthly_cutoff`. -/
def latestClosedMonthlySession (now : Instant) : Date :=
  let (year, month, _) := fromOrdinal (utcDate now)
  let currentMonthEnd := lastXnysSessionOfMonth year month
  if xnysSessionCloseUtc reader currentMonthEnd ≤ now then currentMonthEnd
  else
    let (priorYear, priorMonth) := priorMonth year month
    lastXnysSessionOfMonth priorYear priorMonth

section

variable {year month day year' month' : ℕ}

def IsMonth (year month : ℕ) : Prop := (1 ≤ year ∧ year ≤ 9999) ∧ 1 ≤ month ∧ month ≤ 12

def InMonth (year month : ℕ) (day : Date) : Prop := ∃ dayOfMonth, dateOf year month dayOfMonth = some day

theorem length_xnysHolidays (year : ℕ) : (xnysHolidays year).length ≤ 11 := by
  unfold xnysHolidays newYearsDay juneteenth specialClosures
  split_ifs <;> simp

/-- Four weeks have twenty weekdays, more than the holidays of a year. -/
theorem exists_trading_day {first : Date} (hyear : ∀ k < 28, yearOf (first + (k : ℕ)) = year) :
    ∃ k < 28, isXnysTradingDay (first + (k : ℕ)) := by
  by_contra hnone
  let weekdays := (List.range 28).filter fun k => weekday (first + (k : ℕ)) < 5
  have hholiday : weekdays.map (fun k => first + (k : ℕ)) ⊆ xnysHolidays year := by
    intro day hday
    obtain ⟨k, hk, rfl⟩ := List.mem_map.mp hday
    obtain ⟨hlt, hweekday⟩ := List.mem_filter.mp hk
    have hk : k < 28 := List.mem_range.mp hlt
    by_contra hmem
    refine hnone ⟨k, hk, decide_eq_true ⟨not_le.mpr (of_decide_eq_true hweekday), ?_⟩⟩
    rwa [hyear k hk]
  have hnodup : (weekdays.map fun k => first + (k : ℕ)).Nodup :=
    (List.nodup_range.filter _).map fun a b hab => by simpa using hab
  have hcount : weekdays.length = 20 := by
    have hshift : ∀ k : ℕ, weekday (first + k) = (weekday first + k) % 7 := fun k => by
      unfold weekday
      omega
    have hrange : 0 ≤ weekday first ∧ weekday first < 7 := by
      unfold weekday
      omega
    simp only [weekdays, hshift]
    generalize weekday first = w at hrange
    obtain rfl | rfl | rfl | rfl | rfl | rfl | rfl : w = 0 ∨ w = 1 ∨ w = 2 ∨ w = 3 ∨ w = 4 ∨ w = 5 ∨ w = 6 := by omega
    all_goals decide
  have hlength := (List.subperm_of_subset hnodup hholiday).length_le
  rw [List.length_map, hcount] at hlength
  exact absurd (hlength.trans (length_xnysHolidays year)) (by decide)

theorem lastSessionFrom_spec {fuel : ℕ} {day : Date} (h : ∃ k < fuel, isXnysTradingDay (day - (k : ℕ))) :
    ∃ k < fuel, lastSessionFrom fuel day = day - (k : ℕ) ∧ isXnysTradingDay (day - (k : ℕ)) ∧
      ∀ j < k, ¬ isXnysTradingDay (day - (j : ℕ)) := by
  induction fuel generalizing day with
  | zero =>
    obtain ⟨k, hk, -⟩ := h
    cases hk
  | succ fuel ih =>
    by_cases hday : isXnysTradingDay day
    · exact ⟨0, by omega, by simp [lastSessionFrom, hday], by simpa using hday, nofun⟩
    · obtain ⟨_ | k, hk, hsession⟩ := h
      · exact absurd (by simpa using hsession) hday
      · have hback : ∀ j : ℕ, day - 1 - (j : ℤ) = day - ((j + 1 : ℕ) : ℤ) := fun j => by push_cast; ring
        obtain ⟨k', hk', hfrom, hlast, hnone⟩ := @ih (day - 1) ⟨k, by omega, by rwa [hback]⟩
        refine ⟨k' + 1, by omega, ?_, by rwa [← hback], fun j hj => ?_⟩
        · rw [lastSessionFrom, if_neg hday, hfrom, hback]
        · obtain _ | j := j
          · simpa using hday
          · rw [← hback]
            exact hnone j (by omega)

theorem ordinal_add (year month day k : ℕ) : ordinal year month day + k = ordinal year month (day + k) := by
  simp only [ordinal, Nat.cast_add, add_assoc]

/-- `last_xnys_session_of_month` stops, within its month and at its last session. -/
theorem lastXnysSessionOfMonth_last (h : IsMonth year month) :
    InMonth year month (lastXnysSessionOfMonth year month) ∧ isXnysTradingDay (lastXnysSessionOfMonth year month) ∧
      ∀ day, InMonth year month day → isXnysTradingDay day → day ≤ lastXnysSessionOfMonth year month := by
  obtain ⟨hyear, hmonth⟩ := h
  obtain ⟨n, hn⟩ : ∃ n, daysInMonth year month = 28 + n :=
    Nat.exists_eq_add_of_le (by unfold daysInMonth; split_ifs <;> decide)
  have hin : ∀ day : ℕ, 1 ≤ day → day ≤ 28 + n → dateOf year month day = some (ordinal year month day) :=
    fun day h1 h2 => if_pos ⟨hyear.1, hyear.2, hmonth.1, hmonth.2, h1, hn ▸ h2⟩
  have hback : ∀ day k : ℕ, ordinal year month (day + k) - k = ordinal year month day := fun day k => by
    rw [← ordinal_add, add_sub_cancel_right]
  have hyearOf : ∀ k < 28, yearOf (ordinal year month 1 + (k : ℕ)) = year := fun k hk => by
    rw [ordinal_add, yearOf, fromOrdinal_dateOf (hin (1 + k) (by omega) (by omega))]
  obtain ⟨k, hk, hsession⟩ := exists_trading_day hyearOf
  obtain ⟨k', hk', hlast, hstop, hnone⟩ := @lastSessionFrom_spec (28 + n) (ordinal year month (28 + n))
    ⟨27 + n - k, by omega, by rwa [show 28 + n = 1 + k + (27 + n - k) by omega, hback, ← ordinal_add]⟩
  rw [lastXnysSessionOfMonth, hn, hlast]
  refine ⟨⟨28 + n - k', ?_⟩, hstop, fun day hmember hday => ?_⟩
  · conv_rhs => rw [← Nat.sub_add_cancel hk'.le, hback]
    exact hin _ (by omega) (by omega)
  · obtain ⟨dayOfMonth, hdate⟩ := hmember
    obtain ⟨hvalid, rfl⟩ := dateOf_eq_some_iff.mp hdate
    obtain ⟨j, hj⟩ : ∃ j, 28 + n = dayOfMonth + j := Nat.exists_eq_add_of_le (hn ▸ hvalid.2.2.2.2.2)
    by_contra hlt
    refine hnone j ?_ ?_
    · rw [hj, ← ordinal_add] at hlt
      by_contra hle
      exact hlt (le_sub_iff_add_le.mpr (Int.add_le_add_left (Int.ofNat_le.mpr (not_lt.mp hle)) _))
    · rw [hj, hback]
      exact hday

theorem isMonth_of_dateOf {date : Date} (h : dateOf year month day = some date) : IsMonth year month := by
  obtain ⟨⟨hyear, hmax, hmonth, htwelve, -, -⟩, -⟩ := dateOf_eq_some_iff.mp h
  exact ⟨⟨hyear, hmax⟩, hmonth, htwelve⟩

/-- No month is between the prior one and a month. -/
theorem priorMonth_spec (h : IsMonth year month) (hfirst : 2 ≤ year) :
    IsMonth (priorMonth year month).1 (priorMonth year month).2 ∧
      MonthBefore (priorMonth year month).1 (priorMonth year month).2 year month ∧
      ∀ {year' month'}, IsMonth year' month' → MonthBefore (priorMonth year month).1 (priorMonth year month).2 year' month' →
        ¬ MonthBefore year month year' month' → year' = year ∧ month' = month := by
  obtain ⟨⟨_, hmax⟩, hmonth, htwelve⟩ := h
  unfold priorMonth IsMonth MonthBefore
  split_ifs with hjanuary
  · exact ⟨by omega, by omega, by omega⟩
  · exact ⟨by omega, by omega, by omega⟩

theorem two_le_of_dateOf {date : Date} (h : dateOf year month day = some date) (hfirst : 366 ≤ date) : 2 ≤ year := by
  obtain ⟨⟨hyear, -, hmonth, htwelve, -, hday⟩, hdate⟩ := dateOf_eq_some_iff.mp h
  by_contra hlt
  obtain rfl : year = 1 := by omega
  obtain ⟨hin, hyearEnd⟩ := day_le ⟨hmonth, htwelve⟩ hday
  have hyearDays : daysBeforeMonth 1 13 = 365 := rfl
  rw [hdate, show daysBeforeYear 1 = 0 from rfl] at hfirst
  have hordinal : (366 : ℤ) ≤ (0 : ℕ) + daysBeforeMonth 1 month + day := hfirst
  omega

theorem lastXnysSessionOfMonth_mono (h : IsMonth year month) (h' : IsMonth year' month')
    (hnot : ¬ MonthBefore year' month' year month) : lastXnysSessionOfMonth year month ≤ lastXnysSessionOfMonth year' month' := by
  obtain ⟨⟨_, hdate⟩, -, -⟩ := lastXnysSessionOfMonth_last h
  obtain ⟨⟨_, hdate'⟩, -, -⟩ := lastXnysSessionOfMonth_last h'
  by_cases hbefore : MonthBefore year month year' month'
  · exact (dateOf_lt hdate hdate' hbefore).le
  · unfold MonthBefore at hnot hbefore
    obtain ⟨rfl, rfl⟩ : year = year' ∧ month = month' := by omega
    exact le_rfl

end

section

variable {reader} (hzone : ∀ day, 4 ≤ reader.newYorkOffset day ∧ reader.newYorkOffset day ≤ 5)

include hzone

theorem utcDate_close (day : Date) : utcDate (xnysSessionCloseUtc reader day) = day := by
  obtain ⟨hmin, hmax⟩ := hzone day
  have hclose : ∀ (hour : ℤ) (d : ℤ), 13 ≤ hour → hour ≤ 16 →
      (d * 86400000000 + (hour + reader.newYorkOffset day) * 3600000000) / 86400000000 = d := by
    intro hour d hfirst hlast
    omega
  unfold utcDate xnysSessionCloseUtc
  dsimp only
  split_ifs
  · exact hclose 13 day (by decide) (by decide)
  · exact hclose 16 day (by decide) (by decide)

theorem le_utcDate {now : Instant} {day : Date} (h : xnysSessionCloseUtc reader day ≤ now) : day ≤ utcDate now := by
  have hle : utcDate (xnysSessionCloseUtc reader day) ≤ utcDate now := Int.ediv_le_ediv (by decide) h
  rwa [utcDate_close hzone] at hle

/-- A day that is over has had its close. -/
theorem close_le_of_lt {now : Instant} {day : Date} (h : day < utcDate now) : xnysSessionCloseUtc reader day ≤ now := by
  by_contra hlt
  have hle : utcDate now ≤ utcDate (xnysSessionCloseUtc reader day) := Int.ediv_le_ediv (by decide) (not_le.mp hlt).le
  rw [utcDate_close hzone] at hle
  exact absurd h (not_lt.mpr hle)

/-- The month ends that have closed are those up to a closed one that no other closed one is after. -/
theorem closed_iff_le {now : Instant} {cutoff day : Date} (hclosed : xnysSessionCloseUtc reader cutoff ≤ now)
    (hnewest : xnysSessionCloseUtc reader day ≤ now → day ≤ cutoff) : xnysSessionCloseUtc reader day ≤ now ↔ day ≤ cutoff := by
  refine ⟨hnewest, fun hle => ?_⟩
  rcases eq_or_lt_of_le hle with rfl | hlt
  · exact hclosed
  · exact close_le_of_lt hzone (lt_of_lt_of_le hlt (le_utcDate hzone hclosed))

/-- The cutoff is a month end, and it parts the month ends that have closed from those that have not. -/
theorem latestClosedMonthlySession_newest {now : Instant} (hfirst : 366 ≤ utcDate now) (hlast : utcDate now ≤ lastDate) :
    (∃ year month, IsMonth year month ∧ latestClosedMonthlySession reader now = lastXnysSessionOfMonth year month) ∧
      ∀ year month, IsMonth year month → (xnysSessionCloseUtc reader (lastXnysSessionOfMonth year month) ≤ now ↔
        lastXnysSessionOfMonth year month ≤ latestClosedMonthlySession reader now) := by
  have htoday := dateOf_fromOrdinal (le_trans (by decide) hfirst) hlast
  unfold latestClosedMonthlySession
  rcases hparts : fromOrdinal (utcDate now) with ⟨year, month, day⟩
  simp only [hparts] at htoday ⊢
  have hcurrent := isMonth_of_dateOf htoday
  -- a month end that has closed is not in a later month
  have hnotLater : ∀ {year' month'}, IsMonth year' month' → xnysSessionCloseUtc reader (lastXnysSessionOfMonth year' month') ≤ now →
      ¬ MonthBefore year month year' month' := by
    intro year' month' h hclosed hlater
    obtain ⟨⟨_, hdate'⟩, -, -⟩ := lastXnysSessionOfMonth_last h
    exact absurd (dateOf_lt htoday hdate' hlater) (not_lt.mpr (le_utcDate hzone hclosed))
  split_ifs with hclosed
  · refine ⟨⟨year, month, hcurrent, rfl⟩, fun year' month' h => closed_iff_le hzone hclosed fun hclosed' => ?_⟩
    exact lastXnysSessionOfMonth_mono h hcurrent (hnotLater h hclosed')
  · obtain ⟨hprior, hbefore, hnext⟩ := priorMonth_spec hcurrent (two_le_of_dateOf htoday hfirst)
    obtain ⟨⟨_, hdate⟩, -, -⟩ := lastXnysSessionOfMonth_last hprior
    refine ⟨⟨_, _, hprior, rfl⟩, fun year' month' h =>
      closed_iff_le hzone (close_le_of_lt hzone (dateOf_lt hdate htoday hbefore)) fun hclosed' => ?_⟩
    refine lastXnysSessionOfMonth_mono h hprior fun hafter => hclosed ?_
    obtain ⟨rfl, rfl⟩ := hnext h hafter (hnotLater h hclosed')
    exact hclosed'

end

theorem latestClosedMonthlySession_newest_july : xnysSessionCloseUtc ⟨fun _ => none, fun _ => 4⟩ (lastXnysSessionOfMonth 2026 6) ≤
      ordinal 2026 7 1 * microsPerDay ↔
    lastXnysSessionOfMonth 2026 6 ≤ latestClosedMonthlySession ⟨fun _ => none, fun _ => 4⟩ (ordinal 2026 7 1 * microsPerDay) :=
  (latestClosedMonthlySession_newest (fun _ => ⟨le_refl (4 : ℤ), show (4 : ℤ) ≤ 5 by decide⟩) (by decide +kernel) (by decide +kernel)).2 2026 6
    ⟨⟨by decide, by decide⟩, by decide, by decide⟩

end TrueAlpha.Datahub
