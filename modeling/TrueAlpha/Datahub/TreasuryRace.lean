import TrueAlpha.Datahub.MacroSeries

/-!
# Two Treasury writers

Two runs of `_refresh_year` for one year, interleaved at their steps.  Each run reads its clock before the lock, so the later
fetch may commit first; `Orderly` is when the later file is seen (`later_file_seen_iff`).
-/

namespace TrueAlpha.Datahub

open RevisedCell

inductive TreasuryWriter where
  | schedule
  | replay
  deriving DecidableEq, Repr

structure TreasuryCommit (year : ℕ) where
  writer : TreasuryWriter
  file : TreasuryFile year
  fetchId : ℕ
  fetchedAt : Instant

inductive RefreshPhase (year : ℕ) where
  | start
  | checked (keyDay : Date)
  | fetched (keyDay : Date) (file : TreasuryFile year)
  | timed (keyDay : Date) (file : TreasuryFile year) (fetchedAt : Instant)
  | done
  | failed

structure TreasuryRace (year : ℕ) where
  rows : List MacroSeriesRow
  landed : List Date
  phase : TreasuryWriter → RefreshPhase year
  commits : List (TreasuryCommit year)

inductive RefreshStep (year : ℕ) where
  | check (writer : TreasuryWriter) (now : Instant)
  | fetch (writer : TreasuryWriter) (file : TreasuryFile year)
  | clock (writer : TreasuryWriter) (now : Instant)
  | commit (writer : TreasuryWriter) (fetchId : ℕ)
  | fail (writer : TreasuryWriter)

inductive NotItsStep where
  | notItsStep
  deriving DecidableEq, Repr

variable {year : ℕ}

namespace TreasuryCommit

def persist (rows : List MacroSeriesRow) (commit : TreasuryCommit year) : List MacroSeriesRow :=
  (persistObservations rows commit.file commit.fetchId commit.fetchedAt).1

end TreasuryCommit

namespace TreasuryRace

def begin (rows : List MacroSeriesRow) (landed : List Date) : TreasuryRace year := ⟨rows, landed, fun _ => .start, []⟩

def enter (race : TreasuryRace year) (writer : TreasuryWriter) (phase : RefreshPhase year) : TreasuryRace year :=
  { race with phase := Function.update race.phase writer phase }

def step (race : TreasuryRace year) : RefreshStep year → Except NotItsStep (TreasuryRace year)
  | .check writer now =>
    match race.phase writer with
    | .start => .ok (race.enter writer (if utcDate now ∈ race.landed then .done else .checked (utcDate now)))
    | _ => .error .notItsStep
  | .fetch writer file =>
    match race.phase writer with
    | .checked keyDay => .ok (race.enter writer (.fetched keyDay file))
    | _ => .error .notItsStep
  | .clock writer now =>
    match race.phase writer with
    | .fetched keyDay file => .ok (race.enter writer (.timed keyDay file now))
    | _ => .error .notItsStep
  | .commit writer fetchId =>
    match race.phase writer with
    | .timed keyDay file fetchedAt => .ok
      { rows := (persistObservations race.rows file fetchId fetchedAt).1
        landed := race.landed ++ [keyDay]
        phase := Function.update race.phase writer .done
        commits := race.commits ++ [⟨writer, file, fetchId, fetchedAt⟩] }
    | _ => .error .notItsStep
  | .fail writer =>
    match race.phase writer with
    | .done => .error .notItsStep
    | _ => .ok (race.enter writer .failed)

structure Follows (rows : List MacroSeriesRow) (race : TreasuryRace year) : Prop where
  rows_eq : race.rows = race.commits.foldl TreasuryCommit.persist rows
  once : (race.commits.map TreasuryCommit.writer).Nodup
  ended : ∀ commit ∈ race.commits, race.phase commit.writer = .done

variable {rows : List MacroSeriesRow} {landed : List Date} {race race' : TreasuryRace year}

theorem follows_begin : Follows rows (begin rows landed : TreasuryRace year) where
  rows_eq := rfl
  once := List.nodup_nil
  ended := by
    intro commit hcommit
    cases hcommit

theorem Follows.enter (h : Follows rows race) {writer : TreasuryWriter} (hopen : race.phase writer ≠ .done)
    (phase : RefreshPhase year) : Follows rows (race.enter writer phase) where
  rows_eq := h.rows_eq
  once := h.once
  ended commit hcommit := by
    have hdone := h.ended commit hcommit
    have hne : commit.writer ≠ writer := by
      rintro rfl
      exact hopen hdone
    show Function.update race.phase writer phase commit.writer = .done
    rw [Function.update_of_ne hne]
    exact hdone

theorem Follows.step (h : Follows rows race) {event : RefreshStep year} (hstep : race.step event = .ok race') :
    Follows rows race' := by
  cases event with
  | check writer now =>
    cases hphase : race.phase writer <;> simp only [TreasuryRace.step, hphase] at hstep <;> cases hstep
    exact h.enter (by simp [hphase]) _
  | fetch writer file =>
    cases hphase : race.phase writer <;> simp only [TreasuryRace.step, hphase] at hstep <;> cases hstep
    exact h.enter (by simp [hphase]) _
  | clock writer now =>
    cases hphase : race.phase writer <;> simp only [TreasuryRace.step, hphase] at hstep <;> cases hstep
    exact h.enter (by simp [hphase]) _
  | fail writer =>
    cases hphase : race.phase writer <;> simp only [TreasuryRace.step, hphase] at hstep <;> cases hstep <;>
      exact h.enter (by simp [hphase]) _
  | commit writer fetchId =>
    cases hphase : race.phase writer with
    | timed keyDay file fetchedAt =>
      simp only [TreasuryRace.step, hphase] at hstep
      cases hstep
      have hnew : ∀ commit ∈ race.commits, commit.writer ≠ writer := by
        rintro commit hcommit rfl
        rw [h.ended commit hcommit] at hphase
        cases hphase
      refine ⟨?_, ?_, fun commit hcommit => ?_⟩
      · rw [List.foldl_append, ← h.rows_eq]
        rfl
      · rw [List.map_append]
        refine h.once.append (List.nodup_singleton _) (List.disjoint_singleton.mpr fun hmem => ?_)
        obtain ⟨commit, hcommit, heq⟩ := List.mem_map.mp hmem
        exact hnew commit hcommit heq
      · show Function.update race.phase writer .done commit.writer = .done
        rcases List.mem_append.mp hcommit with hbefore | hadded
        · rw [Function.update_of_ne (hnew commit hbefore)]
          exact h.ended commit hbefore
        · rw [List.mem_singleton.mp hadded]
          exact Function.update_self ..
    | _ =>
      simp only [TreasuryRace.step, hphase] at hstep
      cases hstep

theorem follows_of_run {events : List (RefreshStep year)} (hrun : events.foldlM step (begin rows landed) = .ok race) :
    Follows rows race :=
  foldlM_inv (fun _ race => Follows rows race) hrun follows_begin fun _ _ _ _ _ _ hfollows hstep => hfollows.step hstep

end TreasuryRace

/-! ## What a later reader sees -/

def ShowsLaterFile (rows : List MacroSeriesRow) (commits : List (TreasuryCommit year)) (key : SeriesDate)
    (cutoff : Instant) : Prop :=
  ∀ commit ∈ commits, ∀ value, commit.file.valueAt key = some value →
    (∀ other ∈ commits, other.writer ≠ commit.writer → (other.file.valueAt key).isSome = true →
      other.fetchedAt < commit.fetchedAt) →
    (newestVintage rows cutoff key).map MacroSeriesRow.value = some value

def LaterFileSeen (rows : List MacroSeriesRow) (commits : List (TreasuryCommit year)) : Prop :=
  ∀ key cutoff, (∀ commit ∈ commits, commit.fetchedAt ≤ cutoff) → knowableAtOf key.2 ≤ cutoff →
    ShowsLaterFile rows commits key cutoff

structure OrderlyPair (rows : List MacroSeriesRow) (key : SeriesDate) (cutoff : Instant) (value value' : ℚ)
    (fetchedAt fetchedAt' : Instant) : Prop where
  same : value = value' → fetchedAt ≠ fetchedAt' → ShownAfter (knowableAtOf key.2) cutoff (vintagesOf rows key) value fetchedAt
  later_second : value ≠ value' → fetchedAt < fetchedAt' →
    ShownSecond (knowableAtOf key.2) cutoff (vintagesOf rows key) value' fetchedAt'
  later_first : value ≠ value' → fetchedAt' < fetchedAt →
    ShownFirst (knowableAtOf key.2) cutoff (vintagesOf rows key) value fetchedAt fetchedAt'

def OrderlyAt (rows : List MacroSeriesRow) (commits : List (TreasuryCommit year)) (key : SeriesDate)
    (cutoff : Instant) : Prop :=
  match commits with
  | [only] => ∀ value ∈ only.file.valueAt key,
      ShownAfter (knowableAtOf key.2) cutoff (vintagesOf rows key) value only.fetchedAt
  | [first, second] =>
    match first.file.valueAt key, second.file.valueAt key with
    | some value, some value' => OrderlyPair rows key cutoff value value' first.fetchedAt second.fetchedAt
    | some value, none => ShownAfter (knowableAtOf key.2) cutoff (vintagesOf rows key) value first.fetchedAt
    | none, some value' => ShownAfter (knowableAtOf key.2) cutoff (vintagesOf rows key) value' second.fetchedAt
    | none, none => True
  | _ => True

def Orderly (rows : List MacroSeriesRow) (commits : List (TreasuryCommit year)) : Prop :=
  ∀ key cutoff, (∀ commit ∈ commits, commit.fetchedAt ≤ cutoff) → knowableAtOf key.2 ≤ cutoff → OrderlyAt rows commits key cutoff

variable {first second : TreasuryCommit year}

section Reading

variable {rows : List MacroSeriesRow} {key : SeriesDate} {cutoff : Instant}

theorem newestVintage_value : (newestVintage rows cutoff key).map MacroSeriesRow.value =
      (shownAt cutoff (vintagesOf rows key)).map CellVintage.value := by
  rw [← newestVintage_vintage, Option.map_map]
  rfl

theorem vintagesOf_commit {commit : TreasuryCommit year} : vintagesOf (commit.persist rows) key =
      match commit.file.valueAt key with
      | none => vintagesOf rows key
      | some value => revise (knowableAtOf key.2) (vintagesOf rows key) value commit.fetchedAt :=
  vintagesOf_persistObservations

theorem showsLaterFile_one_iff {only : TreasuryCommit year} (hseen : only.fetchedAt ≤ cutoff)
    (hcut : knowableAtOf key.2 ≤ cutoff) :
    ShowsLaterFile (only.persist rows) [only] key cutoff ↔ OrderlyAt rows [only] key cutoff := by
  unfold ShowsLaterFile OrderlyAt
  rw [newestVintage_value, vintagesOf_commit]
  cases hvalue : only.file.valueAt key with
  | none => simp [hvalue]
  | some value => simp [hvalue, ← shownAt_revise_iff hcut hseen]

theorem showsLaterFile_both_iff {value value' : ℚ}
    (hwriters : first.writer ≠ second.writer) (hfirst : first.file.valueAt key = some value)
    (hsecond : second.file.valueAt key = some value') (hseen : first.fetchedAt ≤ cutoff)
    (hseen' : second.fetchedAt ≤ cutoff) (hcut : knowableAtOf key.2 ≤ cutoff) :
    ShowsLaterFile (second.persist (first.persist rows)) [first, second] key cutoff ↔
      OrderlyPair rows key cutoff value value' first.fetchedAt second.fetchedAt := by
  have hshown : (newestVintage (second.persist (first.persist rows)) cutoff key).map MacroSeriesRow.value =
      (shownAt cutoff (revise (knowableAtOf key.2) (revise (knowableAtOf key.2) (vintagesOf rows key) value
        first.fetchedAt) value' second.fetchedAt)).map CellVintage.value := by
    rw [newestVintage_value, vintagesOf_commit, hsecond, vintagesOf_commit, hfirst]
  have hdemand : ShowsLaterFile (second.persist (first.persist rows)) [first, second] key cutoff ↔
      (second.fetchedAt < first.fetchedAt →
        (newestVintage (second.persist (first.persist rows)) cutoff key).map MacroSeriesRow.value = some value) ∧
      (first.fetchedAt < second.fetchedAt →
        (newestVintage (second.persist (first.persist rows)) cutoff key).map MacroSeriesRow.value = some value') := by
    simp [ShowsLaterFile, hfirst, hsecond, hwriters, hwriters.symm]
  rw [hdemand, hshown]
  by_cases hsame : value = value'
  · subst hsame
    rw [revise_revise_self, shownAt_revise_iff hcut hseen]
    constructor
    · rintro ⟨hlater, hlater'⟩
      refine ⟨fun _ hne => ?_, fun h => absurd rfl h, fun h => absurd rfl h⟩
      exact hne.lt_or_gt.elim hlater' hlater
    · intro h
      exact ⟨fun hlt => h.same rfl hlt.ne', fun hlt => h.same rfl hlt.ne⟩
  · constructor
    · rintro ⟨hlater, hlater'⟩
      refine ⟨fun h => absurd h hsame, fun _ hlt => ?_, fun _ hlt => ?_⟩
      · exact (shownAt_later_second_iff hcut hlt.le hseen' hsame).mp (hlater' hlt)
      · exact (shownAt_later_first_iff hcut hlt hseen hsame).mp (hlater hlt)
    · intro h
      refine ⟨fun hlt => ?_, fun hlt => ?_⟩
      · exact (shownAt_later_first_iff hcut hlt hseen hsame).mpr (h.later_first hsame hlt)
      · exact (shownAt_later_second_iff hcut hlt.le hseen' hsame).mpr (h.later_second hsame hlt)

theorem showsLaterFile_two_iff (hwriters : first.writer ≠ second.writer)
    (hseen : first.fetchedAt ≤ cutoff) (hseen' : second.fetchedAt ≤ cutoff) (hcut : knowableAtOf key.2 ≤ cutoff) :
    ShowsLaterFile (second.persist (first.persist rows)) [first, second] key cutoff ↔
      OrderlyAt rows [first, second] key cutoff := by
  cases hfirst : first.file.valueAt key with
  | none =>
    cases hsecond : second.file.valueAt key with
    | none => simp [ShowsLaterFile, OrderlyAt, hfirst, hsecond]
    | some value' =>
      have hdemand : ShowsLaterFile (second.persist (first.persist rows)) [first, second] key cutoff ↔
          (newestVintage (second.persist (first.persist rows)) cutoff key).map MacroSeriesRow.value = some value' := by
        simp [ShowsLaterFile, hfirst, hsecond]
      rw [hdemand, newestVintage_value, vintagesOf_commit, hsecond, vintagesOf_commit, hfirst]
      simp only [OrderlyAt, hfirst, hsecond]
      exact shownAt_revise_iff hcut hseen'
  | some value =>
    cases hsecond : second.file.valueAt key with
    | none =>
      have hdemand : ShowsLaterFile (second.persist (first.persist rows)) [first, second] key cutoff ↔
          (newestVintage (second.persist (first.persist rows)) cutoff key).map MacroSeriesRow.value = some value := by
        simp [ShowsLaterFile, hfirst, hsecond]
      rw [hdemand, newestVintage_value, vintagesOf_commit, hsecond, vintagesOf_commit, hfirst]
      simp only [OrderlyAt, hfirst, hsecond]
      exact shownAt_revise_iff hcut hseen
    | some value' =>
      rw [showsLaterFile_both_iff hwriters hfirst hsecond hseen hseen' hcut]
      simp only [OrderlyAt, hfirst, hsecond]

end Reading

/-! ### From settled rows -/

/-! ### Races -/

/-- After any interleaving of two runs, every later reader sees each date's later file exactly where the rows before the commits
are orderly for them. -/
theorem later_file_seen_iff {rows : List MacroSeriesRow} {landed : List Date} {events : List (RefreshStep year)}
    {race : TreasuryRace year} (hrun : events.foldlM TreasuryRace.step (.begin rows landed) = .ok race) :
    LaterFileSeen race.rows race.commits ↔ Orderly rows race.commits := by
  obtain ⟨hrows, honce, -⟩ := TreasuryRace.follows_of_run hrun
  rw [hrows]
  refine forall_congr' fun key => forall_congr' fun cutoff => forall_congr' fun hseen => forall_congr' fun hcut => ?_
  match hcommits : race.commits with
  | [] => simp [ShowsLaterFile, OrderlyAt]
  | [only] =>
    rw [hcommits] at hseen
    exact showsLaterFile_one_iff (hseen only (by simp)) hcut
  | [first, second] =>
    rw [hcommits] at hseen honce
    have hwriters : first.writer ≠ second.writer := by simpa using honce
    exact showsLaterFile_two_iff hwriters (hseen first (by simp)) (hseen second (by simp)) hcut
  | first :: second :: third :: rest =>
    rw [hcommits] at honce
    have hthree : first.writer ≠ second.writer ∧ first.writer ≠ third.writer ∧ second.writer ≠ third.writer := by
      simp only [List.map_cons, List.nodup_cons, List.mem_cons, not_or] at honce
      exact ⟨honce.1.1, honce.1.2.1, honce.2.1.1⟩
    cases hfirst : first.writer <;> cases hsecond : second.writer <;> cases hthird : third.writer <;>
      simp [hfirst, hsecond, hthird] at hthree

def revisionCommitsFirst : List (RefreshStep 2026) :=
  [.check .replay (ordinal 2026 1 3 * microsPerDay), .check .schedule (ordinal 2026 1 3 * microsPerDay),
    .fetch .replay (oneRate (4 / 100)), .clock .replay (ordinal 2026 1 3 * microsPerDay + 1),
    .fetch .schedule (oneRate (5 / 100)), .clock .schedule (ordinal 2026 1 3 * microsPerDay + 2),
    .commit .schedule 1, .commit .replay 2]

def scheduleThenReplay : List (TreasuryCommit 2026) := [⟨.schedule, oneRate (5 / 100), 1, ordinal 2026 1 3 * microsPerDay + 2⟩,
    ⟨.replay, oneRate (4 / 100), 2, ordinal 2026 1 3 * microsPerDay + 1⟩]

theorem exists_revisionCommitsFirst : ∃ race, revisionCommitsFirst.foldlM TreasuryRace.step (.begin [] []) = .ok race ∧
    race.rows = scheduleThenReplay.foldl TreasuryCommit.persist [] ∧ race.commits = scheduleThenReplay :=
  ⟨_, rfl, rfl, rfl⟩

/-- A reader two days later sees the rate that was fetched first. -/
theorem earlier_file_shown : ∃ race, revisionCommitsFirst.foldlM TreasuryRace.step (.begin [] []) = .ok race ∧
    ¬ LaterFileSeen race.rows race.commits := by
  obtain ⟨race, hrun, hrows, hcommits⟩ := exists_revisionCommitsFirst
  refine ⟨race, hrun, fun hseen => ?_⟩
  rw [hrows, hcommits] at hseen
  have hshows := hseen (riskFreeInstrument, ordinal 2026 1 1) (ordinal 2026 1 5 * microsPerDay) (by decide) (by decide)
    _ (List.mem_cons_self) (5 / 100) (by decide +kernel) (by decide +kernel)
  exact absurd hshows (by decide +kernel)

/-- The race is not orderly, so the later file is not seen. -/
theorem later_file_seen_iff_sample : ∃ race, revisionCommitsFirst.foldlM TreasuryRace.step (.begin [] []) = .ok race ∧
    (LaterFileSeen race.rows race.commits ↔ Orderly [] race.commits) := by
  obtain ⟨race, hrun, -, -⟩ := exists_revisionCommitsFirst
  exact ⟨race, hrun, later_file_seen_iff hrun⟩

end TrueAlpha.Datahub
