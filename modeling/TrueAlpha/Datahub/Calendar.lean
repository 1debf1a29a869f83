import TrueAlpha.Contracts.FiscalPeriod

/-!
# The two exchange calendars

`truealpha_contracts.calendar` keeps a table of the holidays of four years, `datahub.market_prices` computes those of any year.
They differ in the day of mourning of 2025 only (`mem_xnysHolidayTable_iff`, `calendars_agree_iff`).
-/

namespace TrueAlpha.Datahub

def yearOf (day : Date) : ℕ := (fromOrdinal day).1

def xnysHolidayTable : List Date := [ordinal 2024 1 1, ordinal 2024 1 15, ordinal 2024 2 19, ordinal 2024 3 29, ordinal 2024 5 27,
    ordinal 2024 6 19, ordinal 2024 7 4, ordinal 2024 9 2, ordinal 2024 11 28, ordinal 2024 12 25,
    ordinal 2025 1 1, ordinal 2025 1 20, ordinal 2025 2 17, ordinal 2025 4 18, ordinal 2025 5 26,
    ordinal 2025 6 19, ordinal 2025 7 4, ordinal 2025 9 1, ordinal 2025 11 27, ordinal 2025 12 25,
    ordinal 2026 1 1, ordinal 2026 1 19, ordinal 2026 2 16, ordinal 2026 4 3, ordinal 2026 5 25,
    ordinal 2026 6 19, ordinal 2026 7 3, ordinal 2026 9 7, ordinal 2026 11 26, ordinal 2026 12 25,
    ordinal 2027 1 1, ordinal 2027 1 18, ordinal 2027 2 15, ordinal 2027 3 26, ordinal 2027 5 31,
    ordinal 2027 6 18, ordinal 2027 7 5, ordinal 2027 9 6, ordinal 2027 11 25, ordinal 2027 12 24]

def isMarketSession (day : Date) : Bool := weekday day < 5 ∧ day ∉ xnysHolidayTable

def easterMonthAndDay (year : ℕ) : ℕ × ℕ :=
  let a := year % 19
  let b := year / 100
  let c := year % 100
  let d := b / 4
  let e := b % 4
  let f := (b + 8) / 25
  let g := (b - f + 1) / 3
  let h := (19 * a + b - d - g + 15) % 30
  let i := c / 4
  let k := c % 4
  let l := (32 + 2 * e + 2 * i - h - k) % 7
  let m := (a + 11 * h + 22 * l) / 451
  ((h + l - 7 * m + 114) / 31, (h + l - 7 * m + 114) % 31 + 1)

/-- The Meeus/Jones/Butcher algorithm. -/
def easterSunday (year : ℕ) : Date := ordinal year (easterMonthAndDay year).1 (easterMonthAndDay year).2

def firstWeekday (year month : ℕ) (day : ℤ) : Date := ordinal year month 1 + (day - weekday (ordinal year month 1)) % 7

def observed (holiday : Date) : Date :=
  if weekday holiday = 5 then holiday - 1 else if weekday holiday = 6 then holiday + 1 else holiday

def newYearsDay (year : ℕ) : List Date :=
  if weekday (ordinal year 1 1) = 6 then [ordinal year 1 2]
  else if weekday (ordinal year 1 1) ≠ 5 then [ordinal year 1 1] else []

def juneteenth (year : ℕ) : List Date := if 2021 ≤ year then [observed (ordinal year 6 19)] else []

def specialClosures (year : ℕ) : List Date := if year = 2025 then [ordinal 2025 1 9] else []

def xnysHolidays (year : ℕ) : List Date := newYearsDay year ++
    [firstWeekday year 1 0 + 14, firstWeekday year 2 0 + 14, easterSunday year - 2,
      ordinal year 5 31 - weekday (ordinal year 5 31)] ++
    juneteenth year ++
    [observed (ordinal year 7 4), firstWeekday year 9 0, firstWeekday year 11 3 + 21, observed (ordinal year 12 25)] ++
    specialClosures year

def isXnysTradingDay (day : Date) : Bool := ¬ 5 ≤ weekday day ∧ day ∉ xnysHolidays (yearOf day)

example : isXnysTradingDay (ordinal 2025 1 9) = false := by decide +kernel

def Tabulated (year : ℕ) : Prop := 2024 ≤ year ∧ year ≤ 2027

instance (year : ℕ) : Decidable (Tabulated year) := inferInstanceAs (Decidable (_ ∧ _))

variable {day : Date}

theorem holiday_of_mem (h : day ∈ xnysHolidayTable) :
    Tabulated (yearOf day) ∧ day ∈ xnysHolidays (yearOf day) ∧ day ≠ ordinal 2025 1 9 := by
  have hall : ∀ day ∈ xnysHolidayTable, Tabulated (yearOf day) ∧ day ∈ xnysHolidays (yearOf day) ∧ day ≠ ordinal 2025 1 9 := by
    decide +kernel
  exact hall day h

theorem mem_table_of_holiday {year : ℕ} (hyear : Tabulated year) (h : day ∈ xnysHolidays year) :
    day ∈ xnysHolidayTable ∨ day = ordinal 2025 1 9 := by
  have hall : ∀ year ∈ [2024, 2025, 2026, 2027], ∀ day ∈ xnysHolidays year, day ∈ xnysHolidayTable ∨ day = ordinal 2025 1 9 := by
    decide +kernel
  obtain ⟨hmin, hmax⟩ := hyear
  have hmem : year ∈ [2024, 2025, 2026, 2027] := by
    simp only [List.mem_cons, List.not_mem_nil, or_false]
    omega
  exact hall year hmem day h

theorem mem_xnysHolidayTable_iff : day ∈ xnysHolidayTable ↔
      Tabulated (yearOf day) ∧ day ∈ xnysHolidays (yearOf day) ∧ day ≠ ordinal 2025 1 9 := by
  constructor
  · exact holiday_of_mem
  · intro ⟨hyear, hday, hne⟩
    exact (mem_table_of_holiday hyear hday).resolve_right hne

theorem special_closure_mem : ordinal 2025 1 9 ∈ xnysHolidays (yearOf (ordinal 2025 1 9)) := by decide +kernel

theorem sessions_eq_iff (h : weekday day < 5) :
    isMarketSession day = isXnysTradingDay day ↔ (day ∈ xnysHolidayTable ↔ day ∈ xnysHolidays (yearOf day)) := by
  have hlt : ¬ 5 ≤ weekday day := not_le.mpr h
  rw [isMarketSession, isXnysTradingDay, Bool.eq_iff_iff, decide_eq_true_eq, decide_eq_true_eq,
    and_iff_right h, and_iff_right hlt, not_iff_not]

/-- The calendars agree on weekends, in the table's years but for the special closure, and elsewhere on the days that are no
computed holiday. -/
theorem calendars_agree_iff (day : Date) : isMarketSession day = isXnysTradingDay day ↔
      5 ≤ weekday day ∨ (Tabulated (yearOf day) ∧ day ≠ ordinal 2025 1 9) ∨
        (¬ Tabulated (yearOf day) ∧ day ∉ xnysHolidays (yearOf day)) := by
  by_cases hweekend : 5 ≤ weekday day
  · simp only [isMarketSession, isXnysTradingDay, hweekend, not_lt.mpr hweekend, not_true_eq_false, false_and, true_or]
  · rw [sessions_eq_iff (not_le.mp hweekend), mem_xnysHolidayTable_iff]
    by_cases hclosure : day = ordinal 2025 1 9
    · have htab : Tabulated (yearOf day) := by rw [hclosure]; decide +kernel
      have hmem : day ∈ xnysHolidays (yearOf day) := by rw [hclosure]; exact special_closure_mem
      have hne : ¬ day ≠ ordinal 2025 1 9 := not_not.mpr hclosure
      simp only [hweekend, htab, hmem, hne, and_false, not_true_eq_false, or_self, iff_true]
    · by_cases htab : Tabulated (yearOf day)
      · simp [htab, hclosure]
      · simp [htab, hweekend]

/-- The day of mourning is a session of the table and none of the computed calendar. -/
theorem calendars_disagree_on_closure : ¬ ∀ day, isMarketSession day = isXnysTradingDay day := by
  intro h
  have hday := h (ordinal 2025 1 9)
  revert hday
  decide +kernel

end TrueAlpha.Datahub
