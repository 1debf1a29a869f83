import TrueAlpha.Backtest.EngineSpec

/-!
# The schedule of a run

The fill session of a cutoff is after the cutoff's calendar day, the schedule maps each session to the
one target that fills on it, and the first fill session is the least of its keys.
-/

namespace TrueAlpha.Backtest

theorem strictSorted_sessions (book : PriceBook) : book.sessions.Pairwise (· < ·) := strictSorted_sortedSet _

variable {session : Date} {sessions : List Date} {rules : ExecutionRules} {cutoffAt : Instant}
  {targets : List TargetPortfolio} {schedule : Schedule}

theorem sessions_split {book : PriceBook} {pre post : List Date} (hl : book.sessions = pre ++ session :: post) :
    (∀ day ∈ pre, day < session) ∧ ∀ day ∈ post, session < day := by
  have hsorted := strictSorted_sessions book
  rw [hl, List.pairwise_append, List.pairwise_cons] at hsorted
  exact ⟨fun day hday => hsorted.2.2 day hday session List.mem_cons_self, hsorted.2.1.1⟩

theorem lt_of_getElem?_bisectRight (hsorted : sessions.Pairwise (· < ·)) {day : Date} {k : ℕ}
    (h : sessions[bisectRight sessions day + k]? = some session) : day < session := by
  have hsplit : sessions.takeWhile (fun s => s ≤ day) ++ sessions.dropWhile (fun s => s ≤ day) =
      sessions := List.takeWhile_append_dropWhile
  have hdrop : session ∈ sessions.dropWhile fun s => s ≤ day := by
    have happ : (sessions.takeWhile (fun s => s ≤ day) ++ sessions.dropWhile (fun s => s ≤ day))[
        (sessions.takeWhile fun s => s ≤ day).length + k]? = some session := by rwa [hsplit]
    rw [List.getElem?_append_right (Nat.le_add_right _ _)] at happ
    exact List.mem_of_getElem? happ
  rcases hd : sessions.dropWhile (fun s => s ≤ day) with _ | ⟨head, rest⟩
  · rw [hd] at hdrop
    cases hdrop
  · have hhead : day < head := by
      have hnot := List.head?_dropWhile_not (fun s => decide (s ≤ day)) sessions
      rw [hd] at hnot
      simpa using hnot
    have hrest : (head :: rest).Pairwise (· < ·) := by
      rw [← hd]
      exact hsorted.sublist (List.dropWhile_sublist _)
    rw [hd] at hdrop
    rcases List.mem_cons.1 hdrop with rfl | hmem
    · exact hhead
    · exact lt_trans hhead ((List.pairwise_cons.1 hrest).1 session hmem)

theorem utcDate_lt_of_fillDate {book : PriceBook} (h : fillDate book.sessions rules cutoffAt = some session) :
    utcDate cutoffAt < session :=
  lt_of_getElem?_bisectRight (strictSorted_sessions book) h

theorem fillSession_eq_ok_some_iff : fillSession sessions cutoffAt rules.lagSessions = .ok (some session) ↔
      1 ≤ rules.lagSessions ∧ fillDate sessions rules cutoffAt = some session := by
  unfold fillSession
  by_cases hlag : rules.lagSessions < 1
  · rw [if_pos hlag]
    constructor
    · intro h
      cases h
    · intro h
      omega
  · rw [if_neg hlag, Except.ok.injEq]
    exact ⟨fun h => ⟨by omega, h⟩, fun h => h.2⟩

theorem fillDate_append {pre post post' : List Date} {s : Date} (hsorted : (pre ++ post).Pairwise (· < ·))
    (hpost : ∀ day ∈ post, s < day) (hpost' : ∀ day ∈ post', s < day) (hle : session ≤ s)
    (h : fillDate (pre ++ post) rules cutoffAt = some session) :
    fillDate (pre ++ post') rules cutoffAt = some session := by
  have hday : utcDate cutoffAt < session := lt_of_getElem?_bisectRight hsorted h
  have hbisect : ∀ l : List Date, (∀ day ∈ l, s < day) →
      bisectRight (pre ++ l) (utcDate cutoffAt) = bisectRight pre (utcDate cutoffAt) := by
    intro l hl
    have hnil : l.takeWhile (fun day => day ≤ utcDate cutoffAt) = [] := by
      rcases l with _ | ⟨day, l⟩
      · rfl
      · have hlt : utcDate cutoffAt < day := lt_trans hday (lt_of_le_of_lt hle (hl day List.mem_cons_self))
        exact List.takeWhile_cons_of_neg (by simpa using hlt)
    unfold bisectRight
    rw [List.takeWhile_append]
    split_ifs with hall
    · rw [hnil, List.append_nil, hall]
    · rfl
  unfold fillDate at h ⊢
  rw [hbisect post hpost] at h
  rw [hbisect post' hpost']
  generalize bisectRight pre (utcDate cutoffAt) + (rules.lagSessions.toNat - 1) = i at h ⊢
  rcases Nat.lt_or_ge i pre.length with hi | hi
  · rwa [List.getElem?_append_left hi] at h ⊢
  · rw [List.getElem?_append_right hi] at h
    exact absurd (hpost session (List.mem_of_getElem? h)) (not_lt.2 hle)

theorem due_get?_iff (h : scheduleTargets sessions targets rules = .ok schedule) (session : Date) (target : TargetPortfolio) :
    schedule.due.get? session = some target ↔ target ∈ targets ∧ fillDate sessions rules target.cutoffAt = some session := by
  rw [← mem_sortedBy TargetPortfolio.cutoffAt]
  refine foldlM_inv (fun pre schedule => ∀ session target, schedule.due.get? session = some target ↔
    target ∈ pre ∧ fillDate sessions rules target.cutoffAt = some session) h (by simp) ?_ session target
  intro pre t post schedule schedule' _ hinv hstep session target
  rw [List.mem_append, List.mem_singleton]
  obtain ⟨-, ⟨hnone, rfl⟩ | ⟨day, hday, hfree, rfl⟩⟩ := scheduleStep_eq_ok_iff.1 hstep
  · refine (hinv session target).trans ⟨fun ⟨hmem, hfill⟩ => ⟨.inl hmem, hfill⟩, ?_⟩
    intro ⟨hmem, hfill⟩
    rcases hmem with hmem | rfl
    · exact ⟨hmem, hfill⟩
    · rw [hnone] at hfill
      cases hfill
  · rw [Dict.get?_set]
    by_cases hs : day = session
    · subst hs
      rw [if_pos rfl]
      constructor
      · intro heq
        cases heq
        exact ⟨.inr rfl, hday⟩
      · intro ⟨hmem, hfill⟩
        rcases hmem with hmem | rfl
        · have hdue := (hinv day target).2 ⟨hmem, hfill⟩
          rw [hfree] at hdue
          cases hdue
        · rfl
    · rw [if_neg hs]
      refine (hinv session target).trans ⟨fun ⟨hmem, hfill⟩ => ⟨.inl hmem, hfill⟩, ?_⟩
      intro ⟨hmem, hfill⟩
      rcases hmem with hmem | rfl
      · exact ⟨hmem, hfill⟩
      · rw [hday, Option.some.injEq] at hfill
        exact absurd hfill hs

theorem unscheduled_session (h : scheduleTargets sessions targets rules = .ok schedule) :
    ∀ fill ∈ schedule.unscheduled, fill.session = none ∧ fill.turnover = 0 := by
  refine foldlM_inv (fun _ schedule => ∀ fill ∈ schedule.unscheduled,
    fill.session = none ∧ fill.turnover = 0) h (by simp) ?_
  intro pre target post schedule schedule' _ hinv hok
  obtain ⟨-, ⟨-, rfl⟩ | ⟨session, -, -, rfl⟩⟩ := scheduleStep_eq_ok_iff.1 hok
  · intro fill hfill
    rcases List.mem_append.1 hfill with hfill | hfill
    · exact hinv fill hfill
    · obtain rfl := List.mem_singleton.1 hfill
      exact ⟨rfl, rfl⟩
  · exact hinv

theorem first_eq_none_iff : schedule.first = none ↔ schedule.due.keys = [] := by
  unfold Schedule.first
  cases schedule.due.keys <;> simp

theorem first_eq_some {first : Date} (h : schedule.first = some first) :
    first ∈ schedule.due.keys ∧ ∀ session ∈ schedule.due.keys, first ≤ session := by
  unfold Schedule.first at h
  rcases hkeys : schedule.due.keys with _ | ⟨session, sessions⟩
  · rw [hkeys] at h
    cases h
  · rw [hkeys] at h
    cases h
    exact foldl_min_spec sessions session

end TrueAlpha.Backtest
