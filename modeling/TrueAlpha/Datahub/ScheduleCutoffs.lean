import Mathlib.Data.List.ReduceOption
import TrueAlpha.Contracts.DateReading
import TrueAlpha.Datahub.SettledSession
import TrueAlpha.Lib.Run
import TrueAlpha.Lib.Sort

/-!
# The cutoffs of the projector and of the backtest

The projector writes at the first days of months and at the quarter ends of a window; the backtest refuses a gap.  Both read the
quarter ends of the schedule, and windows that touch leave nothing out (`Covered.between`).
-/

namespace TrueAlpha.Datahub

/-! ## The cutoffs -/

/-- A `datetime`: what it reads, and its offset from UTC if it carries a time zone. -/
structure Datetime where
  reading : ℤ
  utcoffset : Option ℤ

def Datetime.instant? (value : Datetime) : Option Instant := value.utcoffset.map fun offset => value.reading - offset

def Datetime.utc (instant : Instant) : Datetime := ⟨instant, some 0⟩

inductive CutoffError
  /-- `{name} must carry a time zone` -/
  | noTimeZone (name : String)
  /-- `months must be at least 1, got {months}` -/
  | tooFewMonths (months : ℤ)
  /-- A date outside the calendar, in `datetime` or in `astimezone`. -/
  | outOfRange
  /-- `the quarter-end cutoffs are not contiguous`, with the missing ones and the two between which they are missing. -/
  | notContiguous (missing : List Instant) (oldest latest : Instant)
  deriving DecidableEq

def requireTimeZone (name : String) (value : Datetime) : Except CutoffError Instant :=
  match value.instant? with
  | some instant => .ok instant
  | none => .error (.noTimeZone name)

def astimezone (instant : Instant) : Except CutoffError Instant :=
  if InCalendar (utcDate instant) then .ok instant else .error .outOfRange

def monthOf (day : Date) : ℕ := (fromOrdinal day).2.1

def quarterEndMonths : List ℕ := [3, 6, 9, 12]

def closeOfDay : ℤ := ((23 * 60 + 59) * 60 + 59) * 1000000

structure QuarterlyCutoffSchedule where
  firstCutoffAt : Instant
  inCalendar : InCalendar (utcDate firstCutoffAt)
  quarterEndMonth : monthOf (utcDate firstCutoffAt) ∈ quarterEndMonths
  nextInCalendar : InCalendar (utcDate firstCutoffAt + 1)
  lastDay : monthOf (utcDate firstCutoffAt + 1) ≠ monthOf (utcDate firstCutoffAt)
  closesDay : firstCutoffAt % microsPerDay = closeOfDay

def QuarterlyCutoffSchedule.clock (schedule : QuarterlyCutoffSchedule) : ℤ := schedule.firstCutoffAt % microsPerDay

def monthStart (index : ℤ) : Except CutoffError Instant :=
  match dateOf (index / 12).toNat (index % 12 + 1).toNat 1 with
  | some day => .ok (day * microsPerDay)
  | none => .error .outOfRange

def monthIndex (instant : Instant) : ℤ := yearOf (utcDate instant) * 12 + monthOf (utcDate instant) - 1

def monthlyCutoffs (tick : Datetime) (months : ℤ) : Except CutoffError (List Instant) := do
  let instant ← requireTimeZone "tick" tick
  if months < 1 then throw (.tooFewMonths months)
  let utcTick ← astimezone instant
  (List.range months.toNat).mapM fun passed => monthStart (monthIndex utcTick - months + 1 + (passed : ℕ))

def quarterEnd (schedule : QuarterlyCutoffSchedule) (year month : ℕ) : Instant :=
  ordinal year month (daysInMonth year month) * microsPerDay + schedule.clock

/-- The loop of `quarter_end_cutoffs`. -/
def quarterEndsBetween (schedule : QuarterlyCutoffSchedule) (first last : Instant) : List Instant :=
  (List.range' (yearOf (utcDate first)) (yearOf (utcDate last) + 1 - yearOf (utcDate first))).flatMap fun year =>
    (quarterEndMonths.map (quarterEnd schedule year)).filter fun cutoff => first ≤ cutoff ∧ cutoff ≤ last

def quarterEndCutoffs (schedule : QuarterlyCutoffSchedule) (start finish : Datetime) : Except CutoffError (List Instant) := do
  let start ← requireTimeZone "start" start
  let finish ← requireTimeZone "end" finish
  let first ← astimezone start
  let last ← astimezone finish
  return quarterEndsBetween schedule first last

/-- `history_cutoffs`; `monthly[0]` is the head of a list that is not empty. -/
def historyCutoffs (tick : Datetime) (months : ℤ) (schedule : QuarterlyCutoffSchedule) : Except CutoffError (List Instant) := do
  let monthly ← monthlyCutoffs tick months
  let quarterEnds ← quarterEndCutoffs schedule (.utc (monthly.headD 0)) tick
  return sortedSet (monthly ++ quarterEnds)

def isScheduleCutoff (value : Datetime) (schedule : QuarterlyCutoffSchedule) : Except CutoffError Bool :=
  match value.instant? with
  | none => .ok false
  | some instant => do
    let utc ← astimezone instant
    let cutoffs ← quarterEndCutoffs schedule (.utc utc) (.utc utc)
    return cutoffs == [utc]

def requireContiguousQuarters (cutoffs : List Instant) (schedule : QuarterlyCutoffSchedule) : Except CutoffError (List Instant) :=
  let found := sortedBy id cutoffs
  match found.head?, found.getLast? with
  | some oldest, some latest => do
    let quarterEnds ← quarterEndCutoffs schedule (.utc oldest) (.utc latest)
    let missing := sortedSet (quarterEnds.filter (· ∉ found))
    if missing ≠ [] then throw (.notContiguous missing oldest latest)
    return found
  | _, _ => .ok []

def scheduleCutoff? (schedule : QuarterlyCutoffSchedule) (row : Datetime) : Except CutoffError (Option Instant) := do
  if ← isScheduleCutoff row schedule then
    let instant ← requireTimeZone "cutoff_at" row
    return some (← astimezone instant)
  else return none

/-- `schedule_cutoffs`, on the rows of its query. -/
def scheduleCutoffs (rows : List Datetime) (schedule : QuarterlyCutoffSchedule) : Except CutoffError (List Instant) := do
  let found ← rows.mapM (scheduleCutoff? schedule)
  requireContiguousQuarters (sortedSet found.reduceOption) schedule

section

variable {year month day year' month' day' : ℕ} {date date' : ℤ}

theorem year_le_of_dateOf (h : dateOf year month day = some date) (h' : dateOf year' month' day' = some date')
    (hle : date ≤ date') : year ≤ year' := by
  by_contra hlt
  obtain ⟨⟨-, -, -, -, hfirst, -⟩, rfl⟩ := dateOf_eq_some_iff.mp h
  obtain ⟨⟨hyear, -, hmonth, htwelve, -, hday⟩, rfl⟩ := dateOf_eq_some_iff.mp h'
  have hin := day_le ⟨hmonth, htwelve⟩ hday
  have hnext := daysBeforeYear_succ hyear
  have hmono := daysBeforeYear_mono (show 1 ≤ year' + 1 by omega) (show year' + 1 ≤ year by omega)
  omega

theorem yearOf_of_dateOf (h : dateOf year month day = some date) : yearOf date = year := congrArg Prod.fst (fromOrdinal_dateOf h)

theorem yearOf_mono (hmin : 1 ≤ date) (hle : date ≤ date') (hmax : date' ≤ lastDate) : yearOf date ≤ yearOf date' :=
  year_le_of_dateOf (dateOf_fromOrdinal hmin (hle.trans hmax)) (dateOf_fromOrdinal (hmin.trans hle) hmax) hle

theorem monthStart_le (h : dateOf year month 1 = some date) (h' : dateOf year' month' day' = some date')
    (hle : year * 12 + month ≤ year' * 12 + month') : date ≤ date' := by
  obtain ⟨⟨hyear, -, hmonth, htwelve, -, hone⟩, rfl⟩ := dateOf_eq_some_iff.mp h
  obtain ⟨⟨-, -, hmonth', htwelve', hfirst, -⟩, rfl⟩ := dateOf_eq_some_iff.mp h'
  obtain hlt | rfl := lt_or_eq_of_le (show year ≤ year' by omega)
  · have hin := day_le ⟨hmonth, htwelve⟩ hone
    have hnext := daysBeforeYear_succ hyear
    have hmono := daysBeforeYear_mono (show 1 ≤ year + 1 by omega) hlt
    omega
  · have hmono := daysBeforeMonth_mono year hmonth (show month ≤ month' by omega)
    omega

end

/-! ## The quarter ends of a schedule -/

section

variable {schedule : QuarterlyCutoffSchedule} {first last cutoff : ℤ}

theorem QuarterlyCutoffSchedule.clock_eq (schedule : QuarterlyCutoffSchedule) : schedule.clock = closeOfDay := schedule.closesDay

def IsQuarterEnd (schedule : QuarterlyCutoffSchedule) (cutoff : ℤ) : Prop :=
  ∃ year month : ℕ, 1 ≤ year ∧ year ≤ 9999 ∧ month ∈ quarterEndMonths ∧ cutoff = quarterEnd schedule year month

theorem utcDate_quarterEnd (year month : ℕ) :
    utcDate (quarterEnd schedule year month) = ordinal year month (daysInMonth year month) := by
  rw [quarterEnd, utcDate, schedule.clock_eq, Int.add_comm, Int.add_mul_ediv_right _ _ (by decide)]
  exact zero_add _

theorem utcDate_le {a b : ℤ} (h : a ≤ b) : utcDate a ≤ utcDate b := Int.ediv_le_ediv (by decide) h

theorem dateOf_quarterEnd {year month : ℕ} (hyear : 1 ≤ year) (hmax : year ≤ 9999) (hmonth : month ∈ quarterEndMonths) :
    dateOf year month (daysInMonth year month) = some (ordinal year month (daysInMonth year month)) := by
  have hrange : 1 ≤ month ∧ month ≤ 12 := by
    simp only [quarterEndMonths, List.mem_cons, List.not_mem_nil, or_false] at hmonth
    omega
  have hpos : 1 ≤ daysInMonth year month := by
    unfold daysInMonth
    split_ifs <;> decide
  exact if_pos ⟨hyear, hmax, hrange.1, hrange.2, hpos, le_rfl⟩

theorem mem_quarterEndsBetween_iff (hfirst : InCalendar (utcDate first)) (hlast : InCalendar (utcDate last)) :
    cutoff ∈ quarterEndsBetween schedule first last ↔ IsQuarterEnd schedule cutoff ∧ first ≤ cutoff ∧ cutoff ≤ last := by
  simp only [quarterEndsBetween, List.mem_flatMap, List.mem_range'_1, List.mem_filter, List.mem_map, decide_eq_true_eq]
  have hmin := (dateOf_eq_some_iff.mp (dateOf_fromOrdinal hfirst.1 hfirst.2)).1
  have hmax := (dateOf_eq_some_iff.mp (dateOf_fromOrdinal hlast.1 hlast.2)).1
  constructor
  · rintro ⟨year, ⟨hge, hlt⟩, ⟨month, hmonth, rfl⟩, hwindow⟩
    refine ⟨⟨year, month, ?_, ?_, hmonth, rfl⟩, hwindow⟩
    · exact hmin.1.trans hge
    · have hle : yearOf (utcDate last) ≤ 9999 := hmax.2.1
      omega
  · rintro ⟨⟨year, month, hyear, hle, hmonth, rfl⟩, hwindow⟩
    -- a cutoff in the window lies in one of the years from its first to its last
    have hdate := dateOf_quarterEnd hyear hle hmonth
    have hafter := utcDate_le hwindow.1
    have hbefore := utcDate_le hwindow.2
    rw [utcDate_quarterEnd] at hafter hbefore
    have hfrom := yearOf_mono hfirst.1 hafter (range_of_dateOf hdate).2
    have hto := yearOf_mono (range_of_dateOf hdate).1 hbefore hlast.2
    rw [yearOf_of_dateOf hdate] at hfrom hto
    exact ⟨year, ⟨hfrom, by omega⟩, ⟨month, hmonth, rfl⟩, hwindow⟩

theorem nodup_quarterEnds {year : ℕ} (hyear : 1 ≤ year) (hmax : year ≤ 9999) :
    (quarterEndMonths.map (quarterEnd schedule year)).Nodup := by
  refine List.Nodup.map_on (fun month hmonth month' hmonth' heq => ?_) (by decide)
  have hdates := congrArg utcDate heq
  rw [utcDate_quarterEnd, utcDate_quarterEnd] at hdates
  exact (dateOf_inj (dateOf_quarterEnd hyear hmax hmonth)
    ((dateOf_quarterEnd hyear hmax hmonth').trans (congrArg some hdates.symm))).2.1

theorem quarterEndsBetween_self (hinstant : InCalendar (utcDate cutoff)) :
    quarterEndsBetween schedule cutoff cutoff = [cutoff] ↔ IsQuarterEnd schedule cutoff := by
  have hmem : cutoff ∈ quarterEndsBetween schedule cutoff cutoff ↔ _ := mem_quarterEndsBetween_iff hinstant hinstant
  constructor
  · intro h
    exact (hmem.mp (by simp [h])).1
  · intro h
    have hnodup : (quarterEndsBetween schedule cutoff cutoff).Nodup := by
      simp only [quarterEndsBetween, Nat.add_sub_cancel_left, List.range'_one, List.flatMap_singleton]
      have hrange := (dateOf_eq_some_iff.mp (dateOf_fromOrdinal hinstant.1 hinstant.2)).1
      exact (nodup_quarterEnds hrange.1 hrange.2.1).filter _
    have hall : ∀ other ∈ quarterEndsBetween schedule cutoff cutoff, other = cutoff := by
      intro other hother
      have hwindow := ((mem_quarterEndsBetween_iff hinstant hinstant).mp hother).2
      exact le_antisymm hwindow.2 hwindow.1
    have hreplicate := List.eq_replicate_of_mem hall
    rw [hreplicate, List.nodup_replicate] at hnodup
    have hpos := List.length_pos_of_mem (hmem.mpr ⟨h, le_rfl, le_rfl⟩)
    rw [hreplicate, show (quarterEndsBetween schedule cutoff cutoff).length = 1 by omega, List.replicate_one]

theorem astimezone_of_inCalendar (h : InCalendar (utcDate cutoff)) : astimezone cutoff = .ok cutoff := if_pos h

theorem astimezone_eq_ok_iff {instant utc : ℤ} : astimezone instant = .ok utc ↔ instant = utc ∧ InCalendar (utcDate instant) := by
  unfold astimezone
  split_ifs with h <;> simp [h]

theorem quarterEndCutoffs_of_inCalendar {start finish : Datetime} (hstart : start.instant? = some first)
    (hfinish : finish.instant? = some last) (hfirst : InCalendar (utcDate first)) (hlast : InCalendar (utcDate last)) :
    quarterEndCutoffs schedule start finish = .ok (quarterEndsBetween schedule first last) := by
  simp only [quarterEndCutoffs, requireTimeZone, hstart, hfinish]
  change (do let first ← astimezone first; let last ← astimezone last; return quarterEndsBetween schedule first last) = _
  rw [astimezone_of_inCalendar hfirst, astimezone_of_inCalendar hlast]
  rfl

theorem instant?_utc (instant : ℤ) : (Datetime.utc instant).instant? = some instant := by
  simp [Datetime.utc, Datetime.instant?]

open Classical in
theorem isScheduleCutoff_eq {value : Datetime} (hvalue : value.instant? = some cutoff)
    (h : InCalendar (utcDate cutoff)) : isScheduleCutoff value schedule = .ok (decide (IsQuarterEnd schedule cutoff)) := by
  simp only [isScheduleCutoff, hvalue]
  rw [astimezone_of_inCalendar h]
  change (do let cutoffs ← quarterEndCutoffs schedule (.utc cutoff) (.utc cutoff); return cutoffs == [cutoff]) = _
  rw [quarterEndCutoffs_of_inCalendar (instant?_utc _) (instant?_utc _) h h]
  refine congrArg Except.ok (Bool.eq_iff_iff.mpr ?_)
  rw [beq_iff_eq, quarterEndsBetween_self h, decide_eq_true_iff]

end

structure Window where
  first : ℤ
  last : ℤ
  ordered : first ≤ last

def Window.Holds (window : Window) (instant : ℤ) : Prop := window.first ≤ instant ∧ instant ≤ window.last

def Window.Touches (window later : Window) : Prop := later.first ≤ window.last ∧ window.first ≤ later.last

def Covered (windows : List Window) (instant : ℤ) : Prop := ∃ window ∈ windows, window.Holds instant

theorem covered_cons_iff {window : Window} {windows : List Window} {instant : ℤ} :
    Covered (window :: windows) instant ↔ window.Holds instant ∨ Covered windows instant := by
  simp only [Covered, List.mem_cons, exists_eq_or_imp]

theorem Covered.between {windows : List Window} (h : windows.IsChain Window.Touches) {before after instant : ℤ}
    (hbefore : Covered windows before) (hafter : Covered windows after) (hle : before ≤ instant) (hge : instant ≤ after) :
    Covered windows instant := by
  induction windows generalizing before after with
  | nil => simp [Covered] at hbefore
  | cons window rest ih =>
    rw [covered_cons_iff] at hbefore hafter ⊢
    cases rest with
    | nil =>
      simp only [Covered, List.not_mem_nil, false_and, exists_false, or_false] at hbefore hafter ⊢
      exact ⟨hbefore.1.trans hle, hge.trans hafter.2⟩
    | cons next rest =>
      obtain ⟨⟨hfirst, hlast⟩, hrest⟩ := List.isChain_cons_cons.mp h
      have hnext : ∀ {t : ℤ}, next.Holds t → Covered (next :: rest) t := fun ht => covered_cons_iff.mpr (.inl ht)
      by_cases hin : window.Holds instant
      · exact .inl hin
      refine .inr ?_
      -- past the end of the first window, the start of the next one is before; else its end is after
      obtain hpast | hpast := not_and_or.mp hin
      · have hsoon : instant ≤ next.last := by omega
        obtain hbefore | hbefore := hbefore
        · exact absurd (hbefore.1.trans hle) hpast
        · exact ih hrest hbefore (hnext ⟨next.ordered, le_rfl⟩) hle hsoon
      · have hsince : next.first ≤ instant := by omega
        obtain hafter | hafter := hafter
        · exact absurd (hge.trans hafter.2) hpast
        · exact ih hrest (hnext ⟨le_rfl, next.ordered⟩) hafter hsince hge

variable {cutoff : ℤ}

section

variable {schedule : QuarterlyCutoffSchedule}

theorem monthStart_eq_ok {index start : ℤ} (h : monthStart index = .ok start) :
    ∃ date : ℤ, dateOf (index / 12).toNat (index % 12 + 1).toNat 1 = some date ∧ start = date * microsPerDay ∧
      utcDate start = date := by
  unfold monthStart at h
  split at h
  next date hdate =>
    cases h
    exact ⟨date, hdate, rfl, Int.mul_ediv_cancel _ (by decide)⟩
  next => cases h

theorem monthStart_le_instant {index start instant : ℤ} (h : monthStart index = .ok start)
    (hinstant : InCalendar (utcDate instant)) (hle : index ≤ monthIndex instant) : start ≤ instant := by
  obtain ⟨date, hdate, rfl, -⟩ := monthStart_eq_ok h
  have htick := dateOf_fromOrdinal hinstant.1 hinstant.2
  have hmonth : (monthIndex instant : ℤ) =
      ((fromOrdinal (utcDate instant)).1 : ℤ) * 12 + ((fromOrdinal (utcDate instant)).2.1 : ℤ) - 1 := rfl
  have hday : date ≤ utcDate instant := by
    refine monthStart_le hdate htick ?_
    have hvalid := (dateOf_eq_some_iff.mp hdate).1
    omega
  calc date * microsPerDay ≤ utcDate instant * microsPerDay := Int.mul_le_mul_of_nonneg_right hday (by decide)
    _ ≤ instant := Int.ediv_mul_le instant (by decide)

theorem monthlyCutoffs_spec {tick : Datetime} {instant months : ℤ} {monthly : List ℤ} (htick : tick.instant? = some instant)
    (h : monthlyCutoffs tick months = .ok monthly) :
    InCalendar (utcDate instant) ∧ (∀ cutoff ∈ monthly, InCalendar (utcDate cutoff) ∧ cutoff % microsPerDay = 0) ∧
      monthly.headD 0 ∈ monthly ∧ monthly.headD 0 ≤ instant := by
  simp only [monthlyCutoffs, requireTimeZone, htick] at h
  obtain ⟨_, hinstant, h⟩ := bind_eq_ok_iff.mp h
  cases hinstant
  by_cases hfew : months < 1
  · rw [if_pos hfew] at h
    cases h
  rw [if_neg hfew] at h
  obtain ⟨utcTick, hutc, h⟩ := bind_eq_ok_iff.mp h
  obtain ⟨rfl, hcalendar⟩ := astimezone_eq_ok_iff.mp hutc
  obtain ⟨more, hmore⟩ : ∃ more, months.toNat = more + 1 := ⟨months.toNat - 1, by omega⟩
  refine ⟨hcalendar, fun cutoff hcutoff => ?_, ?_⟩
  · obtain ⟨_, -, hstart⟩ := exists_of_mem_mapM h hcutoff
    obtain ⟨date, hdate, rfl, hutc⟩ := monthStart_eq_ok hstart
    exact ⟨by rw [hutc]; exact range_of_dateOf hdate, Int.mul_emod_left _ _⟩
  · have hall := mapM_eq_ok_iff.mp h
    rw [hmore, List.range_succ_eq_map] at hall
    cases hall with
    | cons hstart _ =>
      refine ⟨List.mem_cons_self, monthStart_le_instant hstart hcalendar ?_⟩
      omega

structure ProjectorRun (schedule : QuarterlyCutoffSchedule) where
  tick : Datetime
  months : ℤ
  instant : ℤ
  hasZone : tick.instant? = some instant
  monthly : List ℤ
  monthly_eq : monthlyCutoffs tick months = .ok monthly
  cutoffs : List ℤ
  cutoffs_eq : historyCutoffs tick months schedule = .ok cutoffs

namespace ProjectorRun

variable (run : ProjectorRun schedule)

def window : Window where
  first := run.monthly.headD 0
  last := run.instant
  ordered := (monthlyCutoffs_spec run.hasZone run.monthly_eq).2.2.2

theorem mem_cutoffs_iff :
    cutoff ∈ run.cutoffs ↔ cutoff ∈ run.monthly ∨ (IsQuarterEnd schedule cutoff ∧ run.window.Holds cutoff) := by
  obtain ⟨htick, hmonthly, hhead, -⟩ := monthlyCutoffs_spec run.hasZone run.monthly_eq
  have holdest := (hmonthly _ hhead).1
  have hcutoffs := run.cutoffs_eq
  rw [historyCutoffs, run.monthly_eq, ok_bind,
    quarterEndCutoffs_of_inCalendar (instant?_utc _) run.hasZone holdest htick] at hcutoffs
  simp only [← Except.ok.inj hcutoffs, mem_sortedSet, List.mem_append, mem_quarterEndsBetween_iff holdest htick]
  rfl

theorem inCalendar (h : cutoff ∈ run.cutoffs) : InCalendar (utcDate cutoff) := by
  obtain ⟨htick, hmonthly, hhead, -⟩ := monthlyCutoffs_spec run.hasZone run.monthly_eq
  obtain hmonth | ⟨-, hfirst, hlast⟩ := run.mem_cutoffs_iff.mp h
  · exact (hmonthly cutoff hmonth).1
  · exact ⟨(hmonthly _ hhead).1.1.trans (utcDate_le hfirst), (utcDate_le hlast).trans htick.2⟩

theorem quarterEnd_mem_cutoffs_iff (h : IsQuarterEnd schedule cutoff) : cutoff ∈ run.cutoffs ↔ run.window.Holds cutoff := by
  rw [run.mem_cutoffs_iff, and_iff_right h, or_iff_right]
  intro hmonth
  have hmidnight := ((monthlyCutoffs_spec run.hasZone run.monthly_eq).2.1 cutoff hmonth).2
  obtain ⟨year, month, -, -, -, rfl⟩ := h
  rw [quarterEnd, Int.add_comm, Int.add_mul_emod_self_right, schedule.clock_eq] at hmidnight
  exact absurd hmidnight (by decide)

end ProjectorRun

end

/-! ## The check of the backtest -/

section

variable {schedule : QuarterlyCutoffSchedule}

open Classical in
theorem scheduleCutoff?_eq {row : Datetime} {instant : ℤ} (hrow : row.instant? = some instant)
    (h : InCalendar (utcDate instant)) :
    scheduleCutoff? schedule row = .ok (if IsQuarterEnd schedule instant then some instant else none) := by
  rw [scheduleCutoff?, isScheduleCutoff_eq hrow h, ok_bind]
  by_cases hquarter : IsQuarterEnd schedule instant
  · simp only [hquarter, decide_true, if_true, requireTimeZone, hrow, ok_bind, astimezone_of_inCalendar h]
    rfl
  · simp only [hquarter, decide_false, Bool.false_eq_true, if_false]
    rfl

theorem scheduleCutoffs_rows (schedule : QuarterlyCutoffSchedule) (rows : List Datetime)
    (hrows : ∀ row ∈ rows, ∃ instant, row.instant? = some instant ∧ InCalendar (utcDate instant)) :
    ∃ found : List ℤ, scheduleCutoffs rows schedule = requireContiguousQuarters (sortedSet found) schedule ∧
      ∀ cutoff, cutoff ∈ found ↔ some cutoff ∈ rows.map Datetime.instant? ∧ IsQuarterEnd schedule cutoff := by
  obtain ⟨results, hresults⟩ := exists_mapM_ok (f := scheduleCutoff? schedule) (l := rows) fun row hrow => by
    obtain ⟨instant, hinstant, hcalendar⟩ := hrows row hrow
    exact ⟨_, scheduleCutoff?_eq hinstant hcalendar⟩
  refine ⟨results.reduceOption, by rw [scheduleCutoffs, hresults]; rfl, fun cutoff => ?_⟩
  rw [List.reduceOption_mem_iff, List.mem_map]
  constructor
  · intro hcutoff
    obtain ⟨row, hrow, hfound⟩ := exists_of_mem_mapM hresults hcutoff
    obtain ⟨instant, hinstant, hcalendar⟩ := hrows row hrow
    have hquarter := Except.ok.inj ((scheduleCutoff?_eq hinstant hcalendar).symm.trans hfound)
    split_ifs at hquarter with h
    cases hquarter
    exact ⟨⟨row, hrow, hinstant⟩, h⟩
  · rintro ⟨⟨row, hrow, hcutoff⟩, hquarter⟩
    obtain ⟨instant, hinstant, hcalendar⟩ := hrows row hrow
    obtain rfl : instant = cutoff := Option.some.inj (hinstant.symm.trans hcutoff)
    obtain ⟨result, hresult, hfound⟩ := mem_of_mapM hresults hrow
    rw [scheduleCutoff?_eq hinstant hcalendar, if_pos hquarter] at hfound
    exact (Except.ok.inj hfound) ▸ hresult

theorem requireContiguousQuarters_eq_ok {found : List ℤ} (hsorted : found.Pairwise (· < ·))
    (hcalendar : ∀ cutoff ∈ found, InCalendar (utcDate cutoff))
    (hbetween : ∀ cutoff, IsQuarterEnd schedule cutoff → ∀ before ∈ found, ∀ after ∈ found, before ≤ cutoff →
      cutoff ≤ after → cutoff ∈ found) : requireContiguousQuarters found schedule = .ok found := by
  have hsame : sortedBy id found = found :=
    eq_of_strictSorted_key id (strictSorted_sortedBy id (by rw [List.map_id]; exact hsorted.imp ne_of_lt)) hsorted fun _ => by simp
  simp only [requireContiguousQuarters, hsame]
  cases hhead : found.head? with
  | none =>
    rw [List.head?_eq_none_iff] at hhead
    simp [hhead]
  | some oldest =>
    obtain ⟨latest, hlast⟩ : ∃ latest, found.getLast? = some latest := by
      cases found with
      | nil => cases hhead
      | cons a l => exact ⟨_, List.getLast?_eq_some_getLast (by simp)⟩
    have hold := List.mem_of_mem_head? hhead
    have hlate := List.mem_of_getLast? hlast
    simp only [hlast]
    rw [quarterEndCutoffs_of_inCalendar (instant?_utc _) (instant?_utc _) (hcalendar _ hold) (hcalendar _ hlate), ok_bind]
    have hmissing : (quarterEndsBetween schedule oldest latest).filter (· ∉ found) = [] := by
      refine List.filter_eq_nil_iff.mpr fun cutoff hcutoff => ?_
      obtain ⟨hquarter, hfirst, hafter⟩ := (mem_quarterEndsBetween_iff (hcalendar _ hold) (hcalendar _ hlate)).mp hcutoff
      simpa using hbetween cutoff hquarter oldest hold latest hlate hfirst hafter
    rw [hmissing]
    rfl

/-- One instant is a schedule cutoff exactly when it is a quarter end of a window that holds it; the rows of windows that touch
pass the backtest's check, which gives their cutoffs back in order. -/
theorem projectedHistory_contiguous (schedule : QuarterlyCutoffSchedule) :
    (∀ (start finish value : Datetime) (first last instant : ℤ) (cutoffs : List ℤ), start.instant? = some first →
      finish.instant? = some last → value.instant? = some instant → first ≤ instant → instant ≤ last →
      quarterEndCutoffs schedule start finish = .ok cutoffs →
        isScheduleCutoff value schedule = .ok (decide (instant ∈ cutoffs))) ∧
    ∀ runs : List (ProjectorRun schedule), (runs.map ProjectorRun.window).IsChain Window.Touches →
      ∀ rows : List Datetime, (∀ row ∈ rows, row.instant?.isSome) →
        (∀ cutoff : ℤ, some cutoff ∈ rows.map Datetime.instant? ↔ ∃ run ∈ runs, cutoff ∈ run.cutoffs) →
        ∃ found, scheduleCutoffs rows schedule = .ok found ∧ found.Pairwise (· < ·) ∧ ∀ cutoff : ℤ, cutoff ∈ found ↔
            (∃ run ∈ runs, cutoff ∈ run.cutoffs) ∧ isScheduleCutoff (.utc cutoff) schedule = .ok true := by
  refine ⟨fun start finish value first last instant cutoffs hstart hfinish hvalue hge hle hcutoffs => ?_,
    fun runs hchain rows hzones hstored => ?_⟩
  · simp only [quarterEndCutoffs, requireTimeZone, hstart, hfinish, ok_bind] at hcutoffs
    obtain ⟨_, hstart, hcutoffs⟩ := bind_eq_ok_iff.mp hcutoffs
    obtain ⟨rfl, hfirst⟩ := astimezone_eq_ok_iff.mp hstart
    obtain ⟨_, hfinish, hcutoffs⟩ := bind_eq_ok_iff.mp hcutoffs
    obtain ⟨rfl, hlast⟩ := astimezone_eq_ok_iff.mp hfinish
    have hcalendar : InCalendar (utcDate instant) := ⟨hfirst.1.trans (utcDate_le hge), (utcDate_le hle).trans hlast.2⟩
    rw [isScheduleCutoff_eq hvalue hcalendar]
    refine congrArg Except.ok (decide_eq_decide.mpr ?_)
    rw [← Except.ok.inj hcutoffs, mem_quarterEndsBetween_iff hfirst hlast, and_iff_left ⟨hge, hle⟩]
  · have hcalendar : ∀ {cutoff : ℤ}, (∃ run ∈ runs, cutoff ∈ run.cutoffs) → InCalendar (utcDate cutoff) :=
      fun ⟨run, _, hcutoff⟩ => run.inCalendar hcutoff
    obtain ⟨found, hfound, hmem⟩ := scheduleCutoffs_rows schedule rows fun row hrow => by
      obtain ⟨instant, hinstant⟩ := Option.isSome_iff_exists.mp (hzones row hrow)
      exact ⟨instant, hinstant, hcalendar ((hstored instant).mp (hinstant ▸ List.mem_map_of_mem hrow))⟩
    -- a quarter end is stored exactly when the windows of the runs cover it
    have hcovered : ∀ {cutoff : ℤ}, IsQuarterEnd schedule cutoff →
        (cutoff ∈ sortedSet found ↔ Covered (runs.map ProjectorRun.window) cutoff) := by
      intro cutoff hquarter
      rw [mem_sortedSet, hmem, hstored, and_iff_left hquarter]
      simp only [Covered, List.mem_map, exists_exists_and_eq_and]
      exact exists_congr fun run => and_congr_right fun _ => run.quarterEnd_mem_cutoffs_iff hquarter
    have hquarter : ∀ cutoff ∈ sortedSet found, IsQuarterEnd schedule cutoff := fun cutoff hcutoff =>
      ((hmem cutoff).mp (mem_sortedSet.mp hcutoff)).2
    have hstore : ∀ cutoff ∈ sortedSet found, ∃ run ∈ runs, cutoff ∈ run.cutoffs := fun cutoff hcutoff =>
      (hstored cutoff).mp ((hmem cutoff).mp (mem_sortedSet.mp hcutoff)).1
    refine ⟨sortedSet found, hfound.trans (requireContiguousQuarters_eq_ok (strictSorted_sortedSet found)
      (fun cutoff hcutoff => hcalendar (hstore cutoff hcutoff)) ?_), strictSorted_sortedSet found, fun cutoff => ?_⟩
    · intro cutoff hcutoff before hbefore after hafter hle hge
      exact (hcovered hcutoff).mpr (Covered.between hchain ((hcovered (hquarter _ hbefore)).mp hbefore)
        ((hcovered (hquarter _ hafter)).mp hafter) hle hge)
    · rw [mem_sortedSet, hmem, hstored]
      refine and_congr_right fun hrun => ?_
      classical rw [isScheduleCutoff_eq (instant?_utc cutoff) (hcalendar hrun), Except.ok.injEq, decide_eq_true_iff]

/-! Two runs in 2026, the second one from the month of the first tick on. -/

def marchClose : ℤ := ordinal 2026 3 31 * microsPerDay + closeOfDay

def juneClose : ℤ := ordinal 2026 6 30 * microsPerDay + closeOfDay

def schedule2026 : QuarterlyCutoffSchedule where
  firstCutoffAt := marchClose
  inCalendar := by decide +kernel
  quarterEndMonth := by decide +kernel
  nextInCalendar := by decide +kernel
  lastDay := by decide +kernel
  closesDay := by decide +kernel

def midnight2026 (month day : ℕ) : ℤ := ordinal 2026 month day * microsPerDay

def aprilRun : ProjectorRun schedule2026 where
  tick := ⟨midnight2026 4 15 + 7200000000, some 7200000000⟩
  months := 3
  instant := midnight2026 4 15
  hasZone := by decide +kernel
  monthly := [midnight2026 2 1, midnight2026 3 1, midnight2026 4 1]
  monthly_eq := by decide +kernel
  cutoffs := [midnight2026 2 1, midnight2026 3 1, marchClose, midnight2026 4 1]
  cutoffs_eq := by decide +kernel

def julyRun : ProjectorRun schedule2026 where
  tick := .utc (midnight2026 7 2)
  months := 4
  instant := midnight2026 7 2
  hasZone := by decide +kernel
  monthly := [midnight2026 4 1, midnight2026 5 1, midnight2026 6 1, midnight2026 7 1]
  monthly_eq := by decide +kernel
  cutoffs := [midnight2026 4 1, midnight2026 5 1, midnight2026 6 1, juneClose, midnight2026 7 1]
  cutoffs_eq := by decide +kernel

def rows2026 : List Datetime := (aprilRun.cutoffs ++ julyRun.cutoffs).map .utc

theorem projectedHistory_2026 :
    isScheduleCutoff (.utc juneClose) schedule2026 = .ok (decide (juneClose ∈ [marchClose, juneClose])) ∧
      ∃ found, scheduleCutoffs rows2026 schedule2026 = .ok found ∧ found.Pairwise (· < ·) ∧
        ∀ cutoff : ℤ, cutoff ∈ found ↔ (∃ run ∈ [aprilRun, julyRun], cutoff ∈ run.cutoffs) ∧
          isScheduleCutoff (.utc cutoff) schedule2026 = .ok true := by
  obtain ⟨hwindow, hruns⟩ := projectedHistory_contiguous schedule2026
  refine ⟨hwindow (.utc marchClose) (.utc (midnight2026 7 2)) (.utc juneClose) marchClose (midnight2026 7 2) juneClose _
    (instant?_utc _) (instant?_utc _) (instant?_utc _) (by decide +kernel) (by decide +kernel) (by decide +kernel),
    hruns [aprilRun, julyRun] ?_ rows2026 ?_ fun cutoff => ?_⟩
  · exact .cons_cons ⟨by decide +kernel, by decide +kernel⟩ (.singleton _)
  · exact List.forall_mem_map.mpr fun instant _ => by simp [instant?_utc]
  · rw [rows2026, List.map_map]
    simp [Function.comp_def, instant?_utc]

end

end TrueAlpha.Datahub
