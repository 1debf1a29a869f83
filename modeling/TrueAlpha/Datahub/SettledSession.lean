import Mathlib.Data.Int.Interval
import TrueAlpha.Contracts.DateText
import TrueAlpha.Datahub.Calendar
import TrueAlpha.Lib.ZoneClock

/-!
# The settled session

`settled_session_for_cutoff` gives the newest market session whose close is known at a cutoff.  The zone is a parameter whose
changes neither skip nor repeat a close (`settledSessionForCutoff_eq_some_iff`).
-/

namespace TrueAlpha.Datahub

/-- A date that `date` holds. -/
def InCalendar (day : Date) : Prop := 1 ≤ day ∧ day ≤ lastDate

instance (day : Date) : Decidable (InCalendar day) := inferInstanceAs (Decidable (_ ∧ _))

def latestSession : ℕ → Option Date
  | 0 => none
  | day + 1 => if isMarketSession (day + 1 : ℕ) then some (day + 1 : ℕ) else latestSession day

def previousMarketSession (day : Date) (strictlyBefore : Bool) : Option Date :=
  latestSession (if strictlyBefore then day - 1 else day).toNat

/-- The loop of `count_market_sessions_between` over the days left: its last step leaves the calendar after the last date. -/
def countSessions : ℕ → Date → ℕ → Option ℕ
  | 0, _, sessions => some sessions
  | left + 1, day, sessions =>
    if day = lastDate then none
    else countSessions left (day + 1) (if isMarketSession day then sessions + 1 else sessions)

def countMarketSessionsBetween (start finish : Date) : Option ℕ :=
  if finish ≤ start then some 0 else countSessions (finish - start).toNat (start + 1) 0

def marketCloseTime : ℤ := 16 * 3600 * 1000000

def closeReading (day : Date) : ℤ := day * microsPerDay + marketCloseTime

/-- `astimezone` takes and gives the instant: its UTC date and its market date are dates. -/
def Convertible (zone : Zone) (cutoff : Instant) : Prop := InCalendar (utcDate cutoff) ∧ InCalendar (utcDate (zone.clock cutoff))

instance (zone : Zone) (cutoff : Instant) : Decidable (Convertible zone cutoff) := inferInstanceAs (Decidable (_ ∧ _))

def settledSessionForCutoff (zone : Zone) (cutoff : Instant) : Option Date :=
  if Convertible zone cutoff then
    let candidate := utcDate (zone.clock cutoff)
    if marketCloseTime ≤ zone.clock cutoff % microsPerDay then
      if isMarketSession candidate then some candidate else previousMarketSession candidate true
    else previousMarketSession candidate true
  else none

theorem latestSession_eq_some_iff {days : ℕ} {day : ℤ} : latestSession days = some day ↔
      IsGreatest {session : ℤ | 1 ≤ session ∧ session ≤ days ∧ isMarketSession session} day := by
  induction days with
  | zero =>
    refine iff_of_false (by simp [latestSession]) fun h => ?_
    have := h.1.1
    have := h.1.2.1
    omega
  | succ days ih =>
    rw [latestSession]
    split_ifs with hsession
    · have hgreatest : IsGreatest {session : ℤ | 1 ≤ session ∧ session ≤ (days + 1 : ℕ) ∧ isMarketSession session}
          ((days + 1 : ℕ) : ℤ) := ⟨⟨by omega, le_rfl, hsession⟩, fun session h => h.2.1⟩
      constructor
      · rintro ⟨⟩
        exact hgreatest
      · intro h
        rw [h.unique hgreatest]
    · -- the day that is no session adds nothing
      have hsame : {session : ℤ | 1 ≤ session ∧ session ≤ (days + 1 : ℕ) ∧ isMarketSession session} =
          {session : ℤ | 1 ≤ session ∧ session ≤ days ∧ isMarketSession session} := by
        ext session
        refine ⟨fun h => ⟨h.1, ?_, h.2.2⟩, fun h => ⟨h.1, h.2.1.trans (by omega), h.2.2⟩⟩
        have hne : session ≠ (days + 1 : ℕ) := by
          rintro rfl
          exact hsession h.2.2
        have := h.2.1
        omega
      rw [hsame]
      exact ih

variable {day : ℤ}

theorem latestSession_of_isMarketSession (hfirst : 1 ≤ day) (hsession : isMarketSession day) :
    latestSession day.toNat = some day := by
  rw [latestSession_eq_some_iff]
  exact ⟨⟨hfirst, by omega, hsession⟩, fun session h => h.2.1.trans (by omega)⟩

theorem latestSession_sub_one (hsession : ¬isMarketSession day) : latestSession (day - 1).toNat = latestSession day.toNat := by
  rcases le_or_gt day 0 with hday | hday
  · rw [Int.toNat_of_nonpos hday, Int.toNat_of_nonpos (by omega)]
  · obtain ⟨before, rfl⟩ : ∃ before : ℕ, day = (before + 1 : ℕ) := ⟨day.toNat - 1, by omega⟩
    rw [Int.toNat_natCast, latestSession, if_neg hsession]
    exact congrArg latestSession (by omega)

def newestClosedDay (reading : ℤ) : ℤ :=
  if marketCloseTime ≤ reading % microsPerDay then utcDate reading else utcDate reading - 1

theorem closeReading_le_iff {reading : ℤ} : closeReading day ≤ reading ↔ day ≤ newestClosedDay reading := by
  unfold closeReading newestClosedDay utcDate microsPerDay marketCloseTime
  split_ifs with hclosed <;> omega

theorem settledSessionForCutoff_eq {zone : Zone} {cutoff : Instant} (h : Convertible zone cutoff) :
    settledSessionForCutoff zone cutoff = latestSession (newestClosedDay (zone.clock cutoff)).toNat := by
  unfold settledSessionForCutoff newestClosedDay
  rw [if_pos h]
  dsimp only
  split_ifs with hclosed hsession
  · exact (latestSession_of_isMarketSession h.2.1 hsession).symm
  · exact latestSession_sub_one hsession
  · rfl

def ClosedSession (zone : Zone) (cutoff : Instant) (session : ℤ) : Prop :=
  1 ≤ session ∧ isMarketSession session ∧ zone.instantOf (closeReading session) ≤ cutoff

variable {zone : Zone} {session : ℤ}

theorem settledSessionForCutoff_eq_some_iff (hkeeps : ∀ day, zone.Keeps (closeReading day)) {cutoff : Instant} :
    settledSessionForCutoff zone cutoff = some session ↔
      Convertible zone cutoff ∧ IsGreatest {closed | ClosedSession zone cutoff closed} session := by
  by_cases hconvertible : Convertible zone cutoff
  · rw [settledSessionForCutoff_eq hconvertible, latestSession_eq_some_iff, and_iff_right hconvertible]
    have hsame : {closed : ℤ | 1 ≤ closed ∧ closed ≤ (newestClosedDay (zone.clock cutoff)).toNat ∧
        isMarketSession closed} = {closed | ClosedSession zone cutoff closed} := by
      ext closed
      show _ ∧ _ ∧ _ ↔ _ ∧ _ ∧ _
      rw [Zone.instantOf_le_iff (hkeeps closed), closeReading_le_iff]
      constructor
      · rintro ⟨hfirst, hle, hsession⟩
        exact ⟨hfirst, hsession, by omega⟩
      · rintro ⟨hfirst, hsession, hle⟩
        exact ⟨hfirst, by omega, hsession⟩
    rw [hsame]
  · unfold settledSessionForCutoff
    rw [if_neg hconvertible]
    exact iff_of_false (by simp) fun h => hconvertible h.1

theorem settledSessionForCutoff_mono (hkeeps : ∀ day, zone.Keeps (closeReading day)) {early late : Instant}
    {later : ℤ} (hle : early ≤ late) (hearly : settledSessionForCutoff zone early = some session)
    (hlate : settledSessionForCutoff zone late = some later) : session ≤ later := by
  obtain ⟨-, hsession⟩ := (settledSessionForCutoff_eq_some_iff hkeeps).mp hearly
  obtain ⟨-, hlater⟩ := (settledSessionForCutoff_eq_some_iff hkeeps).mp hlate
  exact hlater.2 ⟨hsession.1.1, hsession.1.2.1, hsession.1.2.2.trans hle⟩

/-! ## The count of sessions -/

def sessionsBetween (start finish : ℤ) : Finset ℤ := (Finset.Ioc start finish).filter fun day => isMarketSession day

variable {start finish : ℤ}

theorem mem_sessionsBetween : day ∈ sessionsBetween start finish ↔ (start < day ∧ day ≤ finish) ∧ isMarketSession day := by
  rw [sessionsBetween, Finset.mem_filter, Finset.mem_Ioc]

theorem countSessions_eq {left : ℕ} {day : ℤ} {sessions : ℕ} (h : day + left ≤ lastDate) :
    countSessions left day sessions = some (sessions + (sessionsBetween (day - 1) (day - 1 + left)).card) := by
  induction left generalizing day sessions with
  | zero => simp [countSessions, sessionsBetween]
  | succ left ih =>
    have hne : day ≠ lastDate := by omega
    rw [countSessions, if_neg hne, ih (by omega)]
    have hsplit : sessionsBetween (day - 1) (day - 1 + (left + 1 : ℕ)) =
        if isMarketSession day then insert day (sessionsBetween (day + 1 - 1) (day + 1 - 1 + left))
        else sessionsBetween (day + 1 - 1) (day + 1 - 1 + left) := by
      ext other
      split_ifs with hsession
      · rw [Finset.mem_insert, mem_sessionsBetween, mem_sessionsBetween]
        constructor
        · rintro ⟨hbetween, hother⟩
          by_cases heq : other = day
          · exact Or.inl heq
          · exact Or.inr ⟨by omega, hother⟩
        · rintro (rfl | ⟨hbetween, hother⟩)
          · exact ⟨by omega, hsession⟩
          · exact ⟨by omega, hother⟩
      · rw [mem_sessionsBetween, mem_sessionsBetween]
        refine ⟨fun h => ⟨?_, h.2⟩, fun h => ⟨by omega, h.2⟩⟩
        have hother : other ≠ day := by
          rintro rfl
          exact hsession h.2
        omega
    have hnew : day ∉ sessionsBetween (day + 1 - 1) (day + 1 - 1 + left) := by
      rw [mem_sessionsBetween]
      omega
    rw [hsplit]
    split_ifs with hsession
    · rw [Finset.card_insert_of_notMem hnew]
      congr 1
      omega
    · rfl

theorem countMarketSessionsBetween_eq (h : finish < lastDate) :
    countMarketSessionsBetween start finish = some (sessionsBetween start finish).card := by
  unfold countMarketSessionsBetween
  split_ifs with hle
  · rw [sessionsBetween, Finset.Ioc_eq_empty (not_lt.mpr hle)]
    rfl
  · unfold Date at *
    rw [countSessions_eq (by omega), Nat.zero_add, Int.add_sub_cancel, Int.toNat_of_nonneg (by omega)]
    congr 3
    omega

theorem countSessions_eq_none {left : ℕ} {day : ℤ} {sessions : ℕ} (hday : day ≤ lastDate)
    (h : ¬day + left ≤ lastDate) : countSessions left day sessions = none := by
  induction left generalizing day sessions with
  | zero => omega
  | succ left ih =>
    rw [countSessions]
    split_ifs with hlast
    · rfl
    · exact ih (Int.add_one_le_iff.mpr (lt_of_le_of_ne hday hlast)) (by omega)
    · exact ih (Int.add_one_le_iff.mpr (lt_of_le_of_ne hday hlast)) (by omega)

theorem countMarketSessionsBetween_lastDate (h : start < lastDate) : countMarketSessionsBetween start lastDate = none := by
  unfold countMarketSessionsBetween
  rw [if_neg (not_le.mpr h)]
  have hleft : ((lastDate - start).toNat : ℤ) = lastDate - start := Int.toNat_of_nonneg (sub_nonneg.mpr h.le)
  refine countSessions_eq_none (by omega) ?_
  rw [hleft, add_right_comm, add_sub_cancel]
  omega

theorem card_sessionsBetween_add {middle : ℤ} (hstart : start ≤ middle) (hfinish : middle ≤ finish) :
    (sessionsBetween start middle).card + (sessionsBetween middle finish).card = (sessionsBetween start finish).card := by
  have hdisjoint : Disjoint (sessionsBetween start middle) (sessionsBetween middle finish) := by
    rw [Finset.disjoint_left]
    intro day hday hlater
    rw [mem_sessionsBetween] at hday hlater
    omega
  rw [← Finset.card_union_of_disjoint hdisjoint]
  congr 1
  ext day
  rw [Finset.mem_union, mem_sessionsBetween, mem_sessionsBetween, mem_sessionsBetween, ← or_and_right]
  refine and_congr_left fun _ => ?_
  omega

theorem card_sessionsBetween_eq_zero_iff (hsession : isMarketSession session) :
    (sessionsBetween start session).card = 0 ↔ session ≤ start := by
  rw [Finset.card_eq_zero]
  constructor
  · intro hempty
    by_contra hlt
    have hmem : session ∈ sessionsBetween start session := mem_sessionsBetween.mpr ⟨⟨not_le.mp hlt, le_rfl⟩, hsession⟩
    rw [hempty] at hmem
    cases hmem
  · intro hle
    rw [sessionsBetween, Finset.Ioc_eq_empty (not_lt.mpr hle)]
    rfl

/-- The settled session is the newest one closed, and no earlier for a later cutoff.  Counts over adjacent intervals add up; none
is counted up to it exactly from a date not before it. -/
theorem settledSession_newest (zone : Zone) (hkeeps : ∀ day, zone.Keeps (closeReading day)) :
    (∀ cutoff session, settledSessionForCutoff zone cutoff = some session ↔
      Convertible zone cutoff ∧ IsGreatest {closed | ClosedSession zone cutoff closed} session) ∧
    (∀ early late session later, early ≤ late → settledSessionForCutoff zone early = some session →
      settledSessionForCutoff zone late = some later → session ≤ later) ∧
    (∀ start middle finish : Date, start ≤ middle → middle ≤ finish → finish < lastDate →
      ∃ before after, countMarketSessionsBetween start middle = some before ∧
        countMarketSessionsBetween middle finish = some after ∧
        countMarketSessionsBetween start finish = some (before + after)) ∧
    (∀ cutoff session start, settledSessionForCutoff zone cutoff = some session → session < lastDate →
      (countMarketSessionsBetween start session = some 0 ↔ session ≤ start)) := by
  refine ⟨fun _ _ => settledSessionForCutoff_eq_some_iff hkeeps,
    fun _ _ _ _ hle hearly hlate => settledSessionForCutoff_mono hkeeps hle hearly hlate,
    fun start middle finish hstart hfinish hlast => ?_, fun cutoff session start hsession hlast => ?_⟩
  · refine ⟨_, _, countMarketSessionsBetween_eq (hfinish.trans_lt hlast), countMarketSessionsBetween_eq hlast, ?_⟩
    rw [countMarketSessionsBetween_eq hlast, card_sessionsBetween_add hstart hfinish]
  · have hgreatest := ((settledSessionForCutoff_eq_some_iff hkeeps).mp hsession).2
    rw [countMarketSessionsBetween_eq hlast, Option.some_inj, card_sessionsBetween_eq_zero_iff hgreatest.1.2.1]

def newYork2026 : Zone where
  first := -5 * 3600 * 1000000
  changes := [(ordinal 2026 3 8 * microsPerDay + 7 * 3600 * 1000000, -4 * 3600 * 1000000),
    (ordinal 2026 11 1 * microsPerDay + 6 * 3600 * 1000000, -5 * 3600 * 1000000)]
  sorted := by decide

theorem newYork2026_keeps (day : ℤ) : newYork2026.Keeps (closeReading day) := by
  have hclose : closeReading day = day * 86400000000 + 57600000000 := rfl
  have hspring : closeReading day < (739683 * 86400000000 + 7200000000 : ℤ) ∨
      (739683 * 86400000000 + 10800000000 : ℤ) ≤ closeReading day := by omega
  have hautumn : closeReading day < (739921 * 86400000000 + 3600000000 : ℤ) ∨
      (739921 * 86400000000 + 7200000000 : ℤ) ≤ closeReading day := by omega
  exact ⟨hspring, hautumn, trivial⟩

theorem settledSession_newYork2026 : (∀ cutoff session, settledSessionForCutoff newYork2026 cutoff = some session ↔
      Convertible newYork2026 cutoff ∧ IsGreatest {closed | ClosedSession newYork2026 cutoff closed} session) ∧
    (∀ early late session later, early ≤ late → settledSessionForCutoff newYork2026 early = some session →
      settledSessionForCutoff newYork2026 late = some later → session ≤ later) ∧
    (∀ start middle finish : Date, start ≤ middle → middle ≤ finish → finish < lastDate →
      ∃ before after, countMarketSessionsBetween start middle = some before ∧
        countMarketSessionsBetween middle finish = some after ∧
        countMarketSessionsBetween start finish = some (before + after)) ∧
    (∀ cutoff session start, settledSessionForCutoff newYork2026 cutoff = some session → session < lastDate →
      (countMarketSessionsBetween start session = some 0 ↔ session ≤ start)) :=
  settledSession_newest newYork2026 newYork2026_keeps

/-- Counts up to the last date do not add up: the loop leaves the calendar. -/
theorem countMarketSessionsBetween_not_additive :
    ¬∀ start middle finish : Date, InCalendar start → InCalendar middle → InCalendar finish → start ≤ middle →
      middle ≤ finish → ∃ before after, countMarketSessionsBetween start middle = some before ∧
        countMarketSessionsBetween middle finish = some after ∧
        countMarketSessionsBetween start finish = some (before + after) := by
  intro h
  obtain ⟨before, after, -, hafter, -⟩ := h (lastDate - 1) (lastDate - 1) lastDate (by decide) (by decide) (by decide)
    le_rfl (by decide)
  rw [countMarketSessionsBetween_lastDate (by decide)] at hafter
  cases hafter

end TrueAlpha.Datahub
