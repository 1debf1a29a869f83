import TrueAlpha.Sources.GateSpec

/-!
# What a refused call spends

A refused call leaves the counts of the day and the unexpired entries of its window, except that one refused by the second
budget check left a reading in it (`spendsNothing_iff`).  A day's admitted calls stay within the budget (`admitted_on_day_le`).
-/

namespace TrueAlpha.Sources

open Contracts

variable {gate : Gate} {world : World}

/-! ## Refused calls -/

/-- The day's counts, the other windows and its own unexpired entries are those before the call. -/
def SpendsNothing (gate : Gate) (source : String) (tick : ℚ) (before after : GateState) : Prop :=
  after.admitted = before.admitted ∧
    match gate.capacityOf source with
    | .error _ => after.windows = before.windows
    | .ok capacity =>
      (∀ pool, pool ≠ capacity.poolKey → after.windows.get? pool = before.windows.get? pool) ∧
        match capacity.windowSeconds with
        | none => after.windows = before.windows
        | some window => ∀ later, tick ≤ later →
            after.unexpired capacity.poolKey window later = before.unexpired capacity.poolKey window later

/-- The budget check after the wait refuses the call, whose reading in the window has not expired. -/
def LeavesEntry (gate : Gate) (world : World) (fuel : ℕ) (state : GateState) (n : ℕ) (source : String) : Prop :=
  ∃ capacity window calls next entries next' waited tick refusal next'', gate.capacityOf source = .ok capacity ∧
    checkBudget gate world state n source capacity = (.ok (), next) ∧
    capacity.windowSeconds = some window ∧ capacity.callsPerWindow = some calls ∧
    queue gate world source capacity.seats window calls fuel (state.entriesOf capacity) 0 next =
      .ok (entries, next', .ok (waited, tick)) ∧
    waited ≠ 0 ∧
    checkBudget gate world (state.withWindow capacity.poolKey entries) next' source capacity = (.error refusal, next'') ∧
    world.clock next'' - tick < window

variable {window tick : ℚ} {pool source : String} {state : GateState} {capacity : SourceCapacity} {n next : ℕ}

variable {expired kept : List ℚ}

theorem filter_expired {later : ℚ} (h : ∀ entry ∈ expired, entry + window ≤ tick) (hle : tick ≤ later) :
    ((expired ++ kept).filter fun entry => later - entry < window) = kept.filter fun entry => later - entry < window := by
  have hnone : (expired.filter fun entry => later - entry < window) = [] := by
    refine List.filter_eq_nil_iff.mpr fun entry hentry => ?_
    have hgone := (h entry hentry).trans hle
    rw [decide_eq_true_eq, not_lt]
    linarith
  rw [List.filter_append, hnone, List.nil_append]

theorem unexpired_withWindow (state : GateState) (pool : String) (entries : List ℚ) (window tick : ℚ) :
    (state.withWindow pool entries).unexpired pool window tick = entries.filter fun entry => tick - entry < window := by
  rw [GateState.unexpired, GateState.withWindow, Dict.get?_set_self, Option.getD_some]

theorem windows_withWindow_of_ne (state : GateState) {other : String} (entries : List ℚ) (h : other ≠ pool) :
    (state.withWindow pool entries).windows.get? other = state.windows.get? other :=
  Dict.get?_set_of_ne _ _ h.symm

theorem spendsNothing_withWindow_iff (hcapacity : gate.capacityOf source = .ok capacity)
    (hwindow : capacity.windowSeconds = some window) (entries : List ℚ) :
    SpendsNothing gate source tick state (state.withWindow capacity.poolKey entries) ↔
      ∀ later, tick ≤ later → (entries.filter fun entry => later - entry < window) =
        (state.entriesOf capacity).filter fun entry => later - entry < window := by
  simp only [SpendsNothing, hcapacity, hwindow, unexpired_withWindow]
  exact ⟨fun h => h.2.2, fun h => ⟨rfl, fun pool hne => windows_withWindow_of_ne state entries hne, h⟩⟩

theorem spendsNothing_refl (source : String) (tick : ℚ) (state : GateState) : SpendsNothing gate source tick state state := by
  refine ⟨rfl, ?_⟩
  split
  · rfl
  · refine ⟨fun _ _ => rfl, ?_⟩
    split
    · rfl
    · exact fun _ _ => rfl

variable {fuel : ℕ}

theorem leavesEntry_iff {calls : ℕ} (hcapacity : gate.capacityOf source = .ok capacity)
    (hbudget : checkBudget gate world state n source capacity = (.ok (), next))
    (hwindow : capacity.windowSeconds = some window) (hcalls : capacity.callsPerWindow = some calls) :
    LeavesEntry gate world fuel state n source ↔ ∃ entries next' waited tick refusal next'',
        queue gate world source capacity.seats window calls fuel (state.entriesOf capacity) 0 next =
          .ok (entries, next', .ok (waited, tick)) ∧
        waited ≠ 0 ∧
        checkBudget gate world (state.withWindow capacity.poolKey entries) next' source capacity = (.error refusal, next'') ∧
        world.clock next'' - tick < window := by
  constructor
  · intro ⟨capacity', window', calls', first, rest⟩
    obtain ⟨entries, next', waited, tick, refusal, next'', hother, hok, hwindow', hcalls', hrest⟩ := rest
    cases hcapacity.symm.trans hother
    cases hbudget.symm.trans hok
    cases hwindow.symm.trans hwindow'
    cases hcalls.symm.trans hcalls'
    exact ⟨entries, next', waited, tick, refusal, next'', hrest⟩
  · intro ⟨entries, next', waited, tick, refusal, next'', hrest⟩
    exact ⟨capacity, window, calls, next, entries, next', waited, tick, refusal, next'', hcapacity, hbudget, hwindow,
      hcalls, hrest⟩

theorem filter_left_eq_iff {last : ℚ} (hexpired : ∀ entry ∈ expired, entry + window ≤ last) :
    (∀ later, last ≤ later → ((kept ++ [tick]).filter fun entry => later - entry < window) =
        (expired ++ kept).filter fun entry => later - entry < window) ↔ ¬ last - tick < window := by
  constructor
  · intro h hfresh
    have heq := congrArg List.length (h last le_rfl)
    rw [filter_expired hexpired le_rfl, List.filter_append, List.length_append] at heq
    have hone : ([tick].filter fun entry => last - entry < window) = [tick] := by simpa using hfresh
    rw [hone, List.length_singleton] at heq
    omega
  · intro hgone later hlater
    have hnone : ([tick].filter fun entry => later - entry < window) = [] := by
      simp only [List.filter_eq_nil_iff, List.mem_singleton, forall_eq, decide_eq_true_eq, not_lt] at hgone ⊢
      linarith
    rw [filter_expired hexpired hlater, List.filter_append, hnone, List.append_nil]

theorem spendsNothing_iff (hclock : Monotone world.clock) {state' : GateState} {n' : ℕ} {refusal : Refusal}
    (h : admitCall gate world fuel state n source = .ok (state', n', .error refusal)) :
    SpendsNothing gate source (world.clock n') state state' ↔ ¬ LeavesEntry gate world fuel state n source := by
  rw [admitCall] at h
  rcases hcapacity : gate.capacityOf source with early | capacity
  · rw [hcapacity] at h
    cases h
    refine iff_of_true (spendsNothing_refl source _ state) ?_
    intro ⟨capacity, _, _, _, _, _, _, _, _, _, hother, _⟩
    cases hcapacity.symm.trans hother
  · rw [hcapacity] at h
    generalize hresult : (state', n', Except.error refusal) = result at h
    cases admitStep_of_admitCapacity h with
    | overBudget hbudget =>
      cases hresult
      refine iff_of_true (spendsNothing_refl source _ state) ?_
      intro ⟨capacity', _, _, _, _, _, _, _, _, _, hother, hok, _⟩
      cases hcapacity.symm.trans hother
      cases hbudget.symm.trans hok
    | unpaced hbudget hwindow => cases hresult
    | @windowFull window calls next next' entries refusal' hbudget hwindow hcalls hqueue =>
      cases hresult
      obtain ⟨hle, expired, hentries, hexpired⟩ := queue_spec hclock (capacity.calls_pos calls hcalls) hqueue
      refine iff_of_true ?_ ?_
      · rw [spendsNothing_withWindow_iff hcapacity hwindow]
        intro later hlater
        rw [hentries, filter_expired hexpired hlater]
      · rw [leavesEntry_iff hcapacity hbudget hwindow hcalls]
        intro ⟨_, _, _, _, _, _, hqueue', _⟩
        cases hqueue.symm.trans hqueue'
    | @refusedAfterWait window waited tick calls next next' next'' entries refusal' hbudget hwindow hcalls hqueue hwaited
        hagain =>
      cases hresult
      obtain ⟨m, expired, kept, -, hm, -, hleft, -, hentries, hexpired⟩ :=
        queue_spec hclock (capacity.calls_pos calls hcalls) hqueue
      have hnext := le_checkBudget gate world (state.withWindow capacity.poolKey entries) next' source capacity
      rw [hagain] at hnext
      have hlast : ∀ entry ∈ expired, entry + window ≤ world.clock n' := fun entry hentry =>
        (hexpired entry hentry).trans (hclock (hm.le.trans hnext))
      rw [spendsNothing_withWindow_iff hcapacity hwindow, leavesEntry_iff hcapacity hbudget hwindow hcalls, hleft,
        hentries, filter_left_eq_iff hlast, not_iff_not]
      constructor
      · intro hfresh
        exact ⟨entries, next', waited, tick, refusal, n', by rw [← hentries, hqueue], hwaited, hagain, hfresh⟩
      · intro ⟨entries', next₁, waited', tick', refusal₁, next₂, hqueue', _, hagain', hfresh⟩
        rw [← hentries] at hqueue'
        cases hqueue.symm.trans hqueue'
        cases hagain.symm.trans hagain'
        exact hfresh
    | admitted hbudget hwindow hcalls hqueue hle => cases hresult

/-! ## The budget of a day -/

def admissionsOn (log : List Admission) (pool : String) (day : Date) : ℕ :=
  (log.filter fun admission => admission.pool = pool ∧ admission.day = day).length

theorem admissionsOn_concat (log : List Admission) (admission : Admission) (pool : String) (day : Date) :
    admissionsOn (log ++ [admission]) pool day =
      admissionsOn log pool day + if admission.pool = pool ∧ admission.day = day then 1 else 0 := by
  rw [admissionsOn, List.filter_append, List.length_append, ← admissionsOn]
  by_cases h : admission.pool = pool ∧ admission.day = day
  · rw [if_pos h, List.filter_cons_of_pos (by simpa using h), List.filter_nil, List.length_singleton]
  · rw [if_neg h, List.filter_cons_of_neg (by simpa using h), List.filter_nil, List.length_nil]

theorem admissionsOn_eq_zero {log : List Admission} {last day : Date}
    (h : ∀ admission ∈ log, admission.pool = pool → admission.day ≤ last) (hday : last < day) :
    admissionsOn log pool day = 0 := by
  rw [admissionsOn, List.length_eq_zero_iff, List.filter_eq_nil_iff]
  intro admission hmem hon
  obtain ⟨hpool, heq⟩ := of_decide_eq_true hon
  have hle := h admission hmem hpool
  rw [heq] at hle
  exact absurd hday (not_lt.mpr hle)

theorem utcDate_mono {a b : Instant} (h : a ≤ b) : utcDate a ≤ utcDate b :=
  Int.ediv_le_ediv (by decide) h

variable {budget : ℕ}

theorem admittedToday_lt_of_checkBudget (hbudget : capacity.dailyBudget = some budget)
    (h : checkBudget gate world state n source capacity = (.ok (), next)) :
    state.admittedToday capacity.poolKey (utcDate (world.now n)) < budget := by
  rw [checkBudget, hbudget] at h
  simp only [checkDailyBudget] at h
  split at h
  · cases h
  · split at h
    · cases h
    · exact (le_max_right _ _).trans_lt (not_le.mp ‹_›)

theorem AdmitStep.outcome (hclock : Monotone world.clock) {state : GateState} {n : ℕ} {source : String}
    {capacity : SourceCapacity} {result : GateState × ℕ × Except Refusal Admission}
    (h : AdmitStep gate world fuel state n source capacity result) :
    (∃ after next refusal, result = (after, next, .error refusal) ∧ after.admitted = state.admitted ∧ n ≤ next) ∨
      ∃ after next m tick, checkBudget gate world state n source capacity = (.ok (), next) ∧
        after.admitted = state.admitted ∧ n ≤ m ∧ result = record world after m source capacity tick := by
  have hfirst := le_checkBudget gate world state n source capacity
  cases h with
  | overBudget hbudget =>
    rw [hbudget] at hfirst
    exact .inl ⟨_, _, _, rfl, rfl, hfirst⟩
  | unpaced hbudget hwindow =>
    rw [hbudget] at hfirst
    exact .inr ⟨_, _, _, _, hbudget, rfl, hfirst, rfl⟩
  | windowFull hbudget hwindow hcalls hqueue =>
    rw [hbudget] at hfirst
    exact .inl ⟨_, _, _, rfl, rfl, hfirst.trans (queue_spec hclock (capacity.calls_pos _ hcalls) hqueue).1⟩
  | @refusedAfterWait window waited tick calls next next' next'' entries refusal hbudget hwindow hcalls hqueue hwaited
      hagain =>
    rw [hbudget] at hfirst
    obtain ⟨m, _, _, hnm, hm, _⟩ := queue_spec hclock (capacity.calls_pos _ hcalls) hqueue
    have hnext := le_checkBudget gate world (state.withWindow capacity.poolKey entries) next' source capacity
    rw [hagain] at hnext
    exact .inl ⟨_, _, _, rfl, rfl, ((hfirst.trans hnm).trans hm.le).trans hnext⟩
  | @admitted window waited tick calls next next' next'' entries hbudget hwindow hcalls hqueue hle =>
    rw [hbudget] at hfirst
    obtain ⟨m, _, _, hnm, hm, _⟩ := queue_spec hclock (capacity.calls_pos _ hcalls) hqueue
    exact .inr ⟨state.withWindow capacity.poolKey entries, _, _, _, hbudget, rfl, ((hfirst.trans hnm).trans hm.le).trans hle, rfl⟩

/-- A pool's count is that of the last day with an admission, no later day has one, and no day exceeds the budget. -/
structure Budgeted (world : World) (pool : String) (budget : ℕ) (run : GateRun) : Prop where
  counted : ∀ day, (∀ admission ∈ run.log, admission.pool = pool → admission.day ≤ day) →
    run.state.admittedToday pool day = admissionsOn run.log pool day
  past : ∀ admission ∈ run.log, admission.pool = pool → admission.day ≤ utcDate (world.now run.reading)
  within : ∀ day, admissionsOn run.log pool day ≤ budget

theorem budgeted_start (world : World) (pool : String) (budget : ℕ) : Budgeted world pool budget .start where
  counted := fun _ _ => rfl
  past := by simp [GateRun.start]
  within := fun _ => Nat.zero_le _

theorem admittedToday_congr {state' : GateState} (h : state'.admitted = state.admitted) (pool : String) (day : Date) :
    state'.admittedToday pool day = state.admittedToday pool day := by
  rw [GateState.admittedToday, GateState.admittedToday, h]

variable {run : GateRun} {after : GateState}

theorem Budgeted.refused (hnow : Monotone world.now) (h : Budgeted world pool budget run)
    (hadmitted : after.admitted = run.state.admitted) (hle : run.reading ≤ next) :
    Budgeted world pool budget ⟨after, next, run.log⟩ where
  counted := fun day hday => (admittedToday_congr hadmitted pool day).trans (h.counted day hday)
  past := fun admission hmem hpool => (h.past admission hmem hpool).trans (utcDate_mono (hnow hle))
  within := h.within

theorem Budgeted.other (hnow : Monotone world.now) {pool : String} {budget : ℕ} {run : GateRun}
    (h : Budgeted world pool budget run) {next : ℕ} {admission : Admission}
    (hadmitted : after.admitted.get? pool = run.state.admitted.get? pool) (hle : run.reading ≤ next)
    (hpool : admission.pool ≠ pool) : Budgeted world pool budget ⟨after, next, run.log ++ [admission]⟩ where
  counted := by
    intro day hday
    have hold := h.counted day fun other hother => hday other (List.mem_append_left _ hother)
    rw [admissionsOn_concat, if_neg (fun hon => hpool hon.1), Nat.add_zero, ← hold, GateState.admittedToday,
      GateState.admittedToday, hadmitted]
  past := by
    intro other hother hother'
    rcases List.mem_append.mp hother with hold | hnew
    · exact (h.past other hold hother').trans (utcDate_mono (hnow hle))
    · rw [List.mem_singleton.mp hnew] at hother'
      exact absurd hother' hpool
  within := by
    intro day
    rw [admissionsOn_concat, if_neg (fun hon => hpool hon.1)]
    exact h.within day

theorem Budgeted.recorded (hnow : Monotone world.now) {limit : ℕ} (h : Budgeted world pool budget run) {m : ℕ} {admission : Admission} (hle : run.reading ≤ m)
    (hadmitted : after.admitted.get? pool =
      some (utcDate (world.now m), run.state.admittedToday pool (utcDate (world.now m)) + 1))
    (hpool : admission.pool = pool) (hday : admission.day = utcDate (world.now m)) (hwithin : limit ≤ budget)
    (hcheck : run.state.admittedToday pool (utcDate (world.now run.reading)) < limit) :
    Budgeted world pool budget ⟨after, m + 1, run.log ++ [admission]⟩ := by
  have htoday : utcDate (world.now run.reading) ≤ utcDate (world.now m) := utcDate_mono (hnow hle)
  have hpast : ∀ other ∈ run.log, other.pool = pool → other.day ≤ utcDate (world.now m) := fun other hother hother' =>
    (h.past other hother hother').trans htoday
  refine ⟨?_, ?_, ?_⟩
  · intro day hlast
    have hle : utcDate (world.now m) ≤ day := by
      rw [← hday]
      exact hlast admission (List.mem_append_right _ (List.mem_singleton.mpr rfl)) hpool
    rw [GateState.admittedToday, hadmitted, admissionsOn_concat, hday]
    rcases hle.lt_or_eq with hlt | rfl
    · rw [admissionsOn_eq_zero hpast hlt]
      simp [hlt.ne]
    · simp [hpool, h.counted _ hpast]
  · intro other hother hother'
    refine le_trans ?_ (utcDate_mono (hnow (Nat.le_succ m)))
    rcases List.mem_append.mp hother with hold | hnew
    · exact hpast other hold hother'
    · rw [List.mem_singleton.mp hnew, hday]
  · intro day
    rw [admissionsOn_concat, hday]
    by_cases hon : admission.pool = pool ∧ utcDate (world.now m) = day
    · rw [if_pos hon, ← hon.2]
      rcases htoday.lt_or_eq with hlt | heq
      · rw [admissionsOn_eq_zero h.past hlt]
        omega
      · rw [← h.counted _ hpast, ← heq]
        omega
    · rw [if_neg hon]
      exact h.within day

/-- The calls of a pool whose sources all have a budget of at most `budget`. -/
def BudgetOf (gate : Gate) (pool : String) (budget : ℕ) : Prop :=
  ∀ source capacity, gate.capacityOf source = .ok capacity → capacity.poolKey = pool →
    ∃ limit ∈ capacity.dailyBudget, limit ≤ budget

theorem Budgeted.call (hclock : Monotone world.clock) (hnow : Monotone world.now)
    (hbudget : BudgetOf gate pool budget) {run' : GateRun} (hrun : Budgeted world pool budget run)
    {request : String × ℕ} (h : run.call gate world request = .ok run') : Budgeted world pool budget run' := by
  obtain ⟨⟨after, next, outcome⟩, hcall, h⟩ := bind_eq_ok_iff.mp h
  cases h
  rw [admitCall] at hcall
  rcases hcapacity : gate.capacityOf request.1 with early | capacity
  · rw [hcapacity] at hcall
    cases hcall
    change Budgeted world pool budget ⟨run.state, run.reading, run.log ++ []⟩
    rw [List.append_nil]
    exact hrun
  · rw [hcapacity] at hcall
    rcases (admitStep_of_admitCapacity hcall).outcome hclock with
      ⟨after', next', refusal, hresult, hadmitted, hle⟩ | ⟨after', next', m, tick, hcheck, hadmitted, hle, hresult⟩
    · cases hresult
      change Budgeted world pool budget ⟨after, next, run.log ++ []⟩
      rw [List.append_nil]
      exact hrun.refused hnow hadmitted hle
    · cases hresult
      by_cases hpool : capacity.poolKey = pool
      · obtain ⟨limit, hlimit, hwithin⟩ := hbudget request.1 capacity hcapacity hpool
        refine hrun.recorded hnow hle ?_ hpool rfl hwithin ?_
        · rw [← hpool, Dict.get?_set_self, admittedToday_congr hadmitted]
        · rw [← hpool]
          exact admittedToday_lt_of_checkBudget hlimit hcheck
      · refine hrun.other hnow ?_ (hle.trans (Nat.le_succ m)) hpool
        rw [Dict.get?_set_of_ne _ _ hpool, hadmitted]

theorem admitted_on_day_le (hclock : Monotone world.clock) (hnow : Monotone world.now)
    (hbudget : BudgetOf gate pool budget) {requests : List (String × ℕ)} (h : runCalls gate world requests = .ok run)
    (day : Date) : admissionsOn run.log pool day ≤ budget := by
  have hinv : Budgeted world pool budget run :=
    foldlM_inv (fun _ run => Budgeted world pool budget run) h (budgeted_start world pool budget)
      fun _ _ _ _ _ _ hrun hcall => hrun.call hclock hnow hbudget hcall
  exact hinv.within day

/-- Where the clocks do not go back, a refused call spends nothing exactly when it leaves no entry, and the calls admitted on one
UTC day stay within the budget. -/
theorem refused_calls_and_daily_budget (gate : Gate) (world : World) (hclock : Monotone world.clock) (hnow : Monotone world.now) :
    (∀ (fuel : ℕ) (state state' : GateState) (n n' : ℕ) (source : String) (refusal : Refusal),
      admitCall gate world fuel state n source = .ok (state', n', .error refusal) →
        (SpendsNothing gate source (world.clock n') state state' ↔ ¬ LeavesEntry gate world fuel state n source)) ∧
      ∀ (pool : String) (budget : ℕ), BudgetOf gate pool budget →
        ∀ (requests : List (String × ℕ)) (run : GateRun), runCalls gate world requests = .ok run →
          ∀ day, admissionsOn run.log pool day ≤ budget :=
  ⟨fun _ _ _ _ _ _ _ h => spendsNothing_iff hclock h, fun _ _ hbudget _ _ h day => admitted_on_day_le hclock hnow hbudget h day⟩

/-! ### A call that is refused after its wait -/

def sampleCapacity : SourceCapacity where
  source := "seat"
  windowSeconds := some 60
  callsPerWindow := some 1
  dailyBudget := some 2
  account := none
  pool := []
  window_with_calls := rfl
  window_pos := by simp
  calls_pos := by simp
  budget_pos := by simp

def sampleAccount : VendorAccount where
  holder := .apiKey
  seats := ["seat"]
  percent := none
  limits := [⟨"per_minute", .request, some 1, some 60, .published, by simp, by simp, rfl, fun _ => rfl⟩]
  seats_ne_nil := by simp
  limits_ne_nil := by simp
  nodup_seats := by decide
  nodup_ids := by decide
  nodup_windows := by decide

def sampleContract : VendorAccounts where
  defaultPercent := ⟨fun _ => 20, by simp, by decide⟩
  accounts := Dict.ofList [("vendor", sampleAccount)]
  accounts_ne_nil := by decide
  nodup_seats := by decide

def sampleGate : Gate := ⟨sampleContract, Dict.ofList [("seat", sampleCapacity)], "production", false, 900⟩

def sampleWorld : World where
  clock := fun n => if n < 3 then 0 else 60
  now := fun _ => 0
  ledger := ⟨fun n _ _ => some (if n < 5 then 1 else 2), fun _ _ _ => some (0, none)⟩

def sampleState : GateState := ⟨Dict.ofList [("seat", [0])], Dict.ofList [("seat", (0, 1))]⟩

theorem monotone_sampleClock : Monotone sampleWorld.clock := by
  intro n m hle
  simp only [sampleWorld]
  split_ifs
  · exact le_rfl
  · norm_num
  · omega
  · exact le_rfl

theorem refused_calls_and_daily_budget_sample :
    (∀ (fuel : ℕ) (state state' : GateState) (n n' : ℕ) (source : String) (refusal : Refusal),
      admitCall sampleGate sampleWorld fuel state n source = .ok (state', n', .error refusal) →
        (SpendsNothing sampleGate source (sampleWorld.clock n') state state' ↔
          ¬ LeavesEntry sampleGate sampleWorld fuel state n source)) ∧
      ∀ (pool : String) (budget : ℕ), BudgetOf sampleGate pool budget →
        ∀ (requests : List (String × ℕ)) (run : GateRun), runCalls sampleGate sampleWorld requests = .ok run →
          ∀ day, admissionsOn run.log pool day ≤ budget :=
  refused_calls_and_daily_budget sampleGate sampleWorld monotone_sampleClock monotone_const

/-- The refused call leaves its reading in the window. -/
theorem refused_after_wait_leaves_entry : ¬ ∀ (gate : Gate) (world : World), Monotone world.clock → Monotone world.now →
      ∀ (fuel : ℕ) (state state' : GateState) (n n' : ℕ) (source : String) (refusal : Refusal),
        admitCall gate world fuel state n source = .ok (state', n', .error refusal) →
          SpendsNothing gate source (world.clock n') state state' := by
  intro h
  have hreturns : (admitCall sampleGate sampleWorld 2 sampleState 0 "seat").toOption.any fun result =>
      result.2.2.toOption.isNone ∧ result.1.unexpired "seat" 60 (sampleWorld.clock result.2.1) = [60] ∧
        sampleState.unexpired "seat" 60 (sampleWorld.clock result.2.1) = [] := by
    decide +kernel
  obtain ⟨⟨state', n', outcome⟩, hcall, hresult⟩ := exists_ok_of_any hreturns
  rw [decide_eq_true_eq] at hresult
  rcases outcome with refusal | admission
  · have hspends := h sampleGate sampleWorld monotone_sampleClock monotone_const 2 sampleState state' 0 n' "seat" refusal
      hcall
    have hcapacity : sampleGate.capacityOf "seat" = .ok sampleCapacity := rfl
    rw [SpendsNothing, hcapacity] at hspends
    have hentries : state'.unexpired "seat" 60 (sampleWorld.clock n') =
        sampleState.unexpired "seat" 60 (sampleWorld.clock n') := hspends.2.2 _ le_rfl
    rw [hresult.2.1, hresult.2.2] at hentries
    cases hentries
  · cases hresult.1

end TrueAlpha.Sources
