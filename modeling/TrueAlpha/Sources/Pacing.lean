import TrueAlpha.Lib.SlidingWindow
import TrueAlpha.Sources.GateSpec

/-!
# The pace of a gate

The clock readings that a gate leaves in the window of a pool are paced, and so are those of the calls it admits,
which are some of them (`paced_calls`).
-/

namespace TrueAlpha.Sources

variable {gate : Gate} {world : World}

structure Window (world : World) (length : ℚ) (bound n : ℕ) (entries ticks : List ℚ) : Prop where
  dropped : ∃ expired, ticks = expired ++ entries ∧ ∀ tick ∈ expired, tick + length ≤ world.clock n
  le_clock : ∀ tick ∈ ticks, tick ≤ world.clock n
  sorted : ticks.Pairwise (· ≤ ·)
  paced : Paced length bound ticks

theorem window_nil (world : World) (length : ℚ) (bound n : ℕ) : Window world length bound n [] [] where
  dropped := ⟨[], rfl, by simp⟩
  le_clock := by simp
  sorted := List.Pairwise.nil
  paced := paced_nil length bound

variable {length : ℚ} {bound n : ℕ} {entries ticks : List ℚ}

theorem Window.drop {m : ℕ} {expired kept : List ℚ} (hclock : Monotone world.clock)
    (h : Window world length bound n entries ticks) (hle : n ≤ m) (hentries : entries = expired ++ kept)
    (hexpired : ∀ tick ∈ expired, tick + length ≤ world.clock m) : Window world length bound m kept ticks where
  dropped := by
    obtain ⟨before, hticks, hbefore⟩ := h.dropped
    refine ⟨before ++ expired, by rw [hticks, hentries, List.append_assoc], fun tick htick => ?_⟩
    rcases List.mem_append.mp htick with hold | hnew
    · exact (hbefore tick hold).trans (hclock hle)
    · exact hexpired tick hnew
  le_clock := fun tick htick => (h.le_clock tick htick).trans (hclock hle)
  sorted := h.sorted
  paced := h.paced

theorem Window.later {m : ℕ} (hclock : Monotone world.clock) (h : Window world length bound n entries ticks)
    (hle : n ≤ m) : Window world length bound m entries ticks :=
  h.drop hclock hle (List.nil_append entries).symm (by simp)

theorem Window.concat {length : ℚ} {bound n : ℕ} {entries ticks : List ℚ}
    (h : Window world length bound n entries ticks) (hroom : entries.length < bound) :
    Window world length bound n (entries ++ [world.clock n]) (ticks ++ [world.clock n]) where
  dropped := by
    obtain ⟨expired, hticks, hexpired⟩ := h.dropped
    exact ⟨expired, by rw [hticks, List.append_assoc], hexpired⟩
  le_clock := by
    intro tick htick
    rcases List.mem_append.mp htick with hold | hnew
    · exact h.le_clock tick hold
    · exact (List.mem_singleton.mp hnew).le
  sorted := by
    refine List.pairwise_append.mpr ⟨h.sorted, List.pairwise_singleton _ _, fun tick htick last hlast => ?_⟩
    rw [List.mem_singleton.mp hlast]
    exact h.le_clock tick htick
  paced := by
    obtain ⟨expired, hticks, hexpired⟩ := h.dropped
    refine h.paced.concat ?_
    have hnone : (expired.filter fun earlier => world.clock n - earlier < length) = [] := by
      refine List.filter_eq_nil_iff.mpr fun tick htick => ?_
      have hgone := hexpired tick htick
      rw [decide_eq_true_eq, not_lt]
      linarith
    rw [hticks, List.filter_append, hnone, List.nil_append]
    exact (List.length_filter_le _ _).trans_lt hroom

theorem Window.queue (hclock : Monotone world.clock) (h : Window world length bound n entries ticks) {left : List ℚ}
    {next : ℕ} {outcome : Except Refusal (ℚ × ℚ)}
    (hspec : QueueSpec world length bound n entries (left, next, outcome)) :
    n ≤ next ∧ Window world length bound next left (ticks ++ (outcome.toOption.map Prod.snd).toList) := by
  rcases outcome with refusal | ⟨waited, tick⟩
  · obtain ⟨hle, expired, hentries, hexpired⟩ := hspec
    refine ⟨hle, ?_⟩
    change Window world length bound next left (ticks ++ [])
    rw [List.append_nil]
    exact h.drop hclock hle hentries hexpired
  · obtain ⟨m, expired, kept, hm, hnext, rfl, rfl, hroom, hentries, hexpired⟩ := hspec
    exact ⟨hm.trans hnext.le, ((h.drop hclock hm hentries hexpired).concat hroom).later hclock hnext.le⟩

variable {result : GateState × ℕ × Except Refusal Admission} {capacity : SourceCapacity}

theorem AdmitStep.window (hclock : Monotone world.clock) {fuel : ℕ} {state : GateState} {n : ℕ} {source : String} {length : ℚ} {bound : ℕ} {ticks : List ℚ} (hlength : capacity.windowSeconds = some length)
    (hbound : capacity.callsPerWindow = some bound)
    (hwindow : Window world length bound n (state.entriesOf capacity) ticks)
    (h : AdmitStep gate world fuel state n source capacity result) :
    ∃ ticks', Window world length bound result.2.1 (result.1.entriesOf capacity) ticks' ∧
      (ticks ++ (result.2.2.toOption.bind Admission.tick).toList).Sublist ticks' := by
  have hfirst := le_checkBudget gate world state n source capacity
  have hself : ∀ entries, (state.withWindow capacity.poolKey entries).entriesOf capacity = entries := fun entries => by
    rw [GateState.entriesOf, GateState.withWindow, Dict.get?_set_self, Option.getD_some]
  cases h with
  | overBudget hbudget =>
    rw [hbudget] at hfirst
    exact ⟨ticks, hwindow.later hclock hfirst, by simp [Except.toOption]⟩
  | unpaced hbudget hnone =>
    rw [hlength] at hnone
    cases hnone
  | @windowFull window calls next next' entries refusal hbudget hwindow' hcalls' hqueue =>
    cases hlength.symm.trans hwindow'
    cases hbound.symm.trans hcalls'
    rw [hbudget] at hfirst
    have hspec := queue_spec hclock (capacity.calls_pos bound hbound) hqueue
    refine ⟨ticks, ?_, by simp [Except.toOption]⟩
    rw [hself]
    simpa [Except.toOption] using ((hwindow.later hclock hfirst).queue hclock hspec).2
  | @refusedAfterWait window waited tick calls next next' next'' entries refusal hbudget hwindow' hcalls' hqueue hwaited
      hagain =>
    cases hlength.symm.trans hwindow'
    cases hbound.symm.trans hcalls'
    rw [hbudget] at hfirst
    have hspec := queue_spec hclock (capacity.calls_pos bound hbound) hqueue
    have hnext := le_checkBudget gate world (state.withWindow capacity.poolKey entries) next' source capacity
    rw [hagain] at hnext
    refine ⟨ticks ++ [tick], ?_, by simp [Except.toOption]⟩
    rw [hself]
    exact ((hwindow.later hclock hfirst).queue hclock hspec).2.later hclock hnext
  | @admitted window waited tick calls next next' next'' entries hbudget hwindow' hcalls' hqueue hle =>
    cases hlength.symm.trans hwindow'
    cases hbound.symm.trans hcalls'
    rw [hbudget] at hfirst
    have hspec := queue_spec hclock (capacity.calls_pos bound hbound) hqueue
    refine ⟨ticks ++ [tick], ?_, by simp [record, Except.toOption]⟩
    change Window world length bound (next'' + 1) ((state.withWindow capacity.poolKey entries).entriesOf capacity) _
    rw [hself]
    exact ((hwindow.later hclock hfirst).queue hclock hspec).2.later hclock (hle.trans (Nat.le_succ next''))

structure Frame (state : GateState) (n : ℕ) (capacity : SourceCapacity)
    (result : GateState × ℕ × Except Refusal Admission) : Prop where
  reading : n ≤ result.2.1
  windows : ∀ pool, pool ≠ capacity.poolKey → result.1.windows.get? pool = state.windows.get? pool
  pool : ∀ admission, result.2.2 = .ok admission → admission.pool = capacity.poolKey
  tick : ∀ admission, result.2.2 = .ok admission → capacity.windowSeconds.isSome → admission.tick.isSome

theorem AdmitStep.frame (hclock : Monotone world.clock) {fuel : ℕ} {state : GateState} {n : ℕ} {source : String}
    (h : AdmitStep gate world fuel state n source capacity result) : Frame state n capacity result := by
  have hfirst := le_checkBudget gate world state n source capacity
  have hother : ∀ entries pool, pool ≠ capacity.poolKey →
      (state.withWindow capacity.poolKey entries).windows.get? pool = state.windows.get? pool :=
    fun entries pool hne => Dict.get?_set_of_ne _ _ hne.symm
  cases h with
  | overBudget hbudget =>
    rw [hbudget] at hfirst
    exact ⟨hfirst, fun _ _ => rfl, by simp, by simp⟩
  | unpaced hbudget hnone =>
    rw [hbudget] at hfirst
    refine ⟨hfirst.trans (Nat.le_succ _), fun _ _ => rfl, ?_, by simp [hnone]⟩
    intro admission hadmission
    cases hadmission
    rfl
  | @windowFull window calls next next' entries refusal hbudget hwindow hcalls hqueue =>
    rw [hbudget] at hfirst
    have hspec := queue_spec hclock (capacity.calls_pos calls hcalls) hqueue
    exact ⟨hfirst.trans hspec.1, hother entries, by simp, by simp⟩
  | @refusedAfterWait window waited tick calls next next' next'' entries refusal hbudget hwindow hcalls hqueue hwaited
      hagain =>
    rw [hbudget] at hfirst
    obtain ⟨m, _, _, hnm, hm, _⟩ := queue_spec hclock (capacity.calls_pos calls hcalls) hqueue
    have hnext := le_checkBudget gate world (state.withWindow capacity.poolKey entries) next' source capacity
    rw [hagain] at hnext
    exact ⟨((hfirst.trans hnm).trans hm.le).trans hnext, hother entries, by simp, by simp⟩
  | @admitted window waited tick calls next next' next'' entries hbudget hwindow hcalls hqueue hle =>
    rw [hbudget] at hfirst
    obtain ⟨m, _, _, hnm, hm, _⟩ := queue_spec hclock (capacity.calls_pos calls hcalls) hqueue
    refine ⟨(((hfirst.trans hnm).trans hm.le).trans hle).trans (Nat.le_succ next''), hother entries, ?_, ?_⟩
    · intro admission hadmission
      cases hadmission
      rfl
    · intro admission hadmission _
      cases hadmission
      rfl

def ticksOf (log : List Admission) (pool : String) : List ℚ :=
  (log.filter fun admission => admission.pool = pool).filterMap Admission.tick

theorem ticksOf_append (log rest : List Admission) (pool : String) :
    ticksOf (log ++ rest) pool = ticksOf log pool ++ ticksOf rest pool := by
  rw [ticksOf, List.filter_append, List.filterMap_append, ticksOf, ticksOf]

variable {outcome : Except Refusal Admission} {pool : String}

theorem ticksOf_outcome_of_ne (h : ∀ admission, outcome = .ok admission → admission.pool ≠ pool) :
    ticksOf outcome.toOption.toList pool = [] := by
  rcases outcome with refusal | admission
  · rfl
  · have hne := h admission rfl
    simp [ticksOf, Except.toOption, hne]

theorem ticksOf_outcome (h : ∀ admission, outcome = .ok admission → admission.pool = pool) :
    ticksOf outcome.toOption.toList pool = (outcome.toOption.bind Admission.tick).toList := by
  rcases outcome with refusal | admission
  · rfl
  · have heq := h admission rfl
    rcases htick : admission.tick with _ | tick
    · simp [ticksOf, Except.toOption, heq, htick]
    · simp [ticksOf, Except.toOption, heq, htick]

def PaceOf (gate : Gate) (pool : String) (length : ℚ) (bound : ℕ) : Prop :=
  ∀ source capacity, gate.capacityOf source = .ok capacity → capacity.poolKey = pool →
    capacity.windowSeconds = some length ∧ capacity.callsPerWindow = some bound

/-- What a run keeps of a pool: its window, and its admissions' readings among those left there. -/
structure PacedRun (world : World) (pool : String) (length : ℚ) (bound : ℕ) (run : GateRun) : Prop where
  window : ∃ ticks, Window world length bound run.reading ((run.state.windows.get? pool).getD []) ticks ∧
    (ticksOf run.log pool).Sublist ticks
  ticked : ∀ admission ∈ run.log, admission.pool = pool → admission.tick.isSome

variable {run : GateRun}

theorem PacedRun.call (hclock : Monotone world.clock) (hpace : PaceOf gate pool length bound) {run' : GateRun}
    (hrun : PacedRun world pool length bound run) {request : String × ℕ} (h : run.call gate world request = .ok run') :
    PacedRun world pool length bound run' := by
  obtain ⟨⟨after, next, outcome⟩, hcall, h⟩ := bind_eq_ok_iff.mp h
  cases h
  rw [admitCall] at hcall
  rcases hcapacity : gate.capacityOf request.1 with early | capacity
  · rw [hcapacity] at hcall
    cases hcall
    change PacedRun world pool length bound ⟨run.state, run.reading, run.log ++ []⟩
    rw [List.append_nil]
    exact hrun
  · rw [hcapacity] at hcall
    have hstep := admitStep_of_admitCapacity hcall
    have hframe := hstep.frame hclock
    obtain ⟨ticks, hwindow, hsub⟩ := hrun.window
    constructor
    · by_cases hpool : capacity.poolKey = pool
      · obtain ⟨hlength, hbound⟩ := hpace request.1 capacity hcapacity hpool
        subst hpool
        obtain ⟨ticks', hwindow', hsub'⟩ := hstep.window hclock hlength hbound hwindow
        refine ⟨ticks', hwindow', ?_⟩
        rw [ticksOf_append, ticksOf_outcome hframe.pool]
        exact (hsub.append_right _).trans hsub'
      · refine ⟨ticks, ?_, ?_⟩
        · have hsame := hframe.windows pool (Ne.symm hpool)
          rw [hsame]
          exact hwindow.later hclock hframe.reading
        · rw [ticksOf_append, ticksOf_outcome_of_ne fun admission hadmission heq =>
            hpool ((hframe.pool admission hadmission).symm.trans heq), List.append_nil]
          exact hsub
    · intro admission hmem heq
      rcases List.mem_append.mp hmem with hold | hnew
      · exact hrun.ticked admission hold heq
      · rcases outcome with refusal | last
        · cases hnew
        · have hlast : admission = last := by simpa [Except.toOption] using hnew
          subst hlast
          obtain ⟨hlength, -⟩ := hpace request.1 capacity hcapacity ((hframe.pool admission rfl).symm.trans heq)
          exact hframe.tick admission rfl (by rw [hlength]; rfl)

variable {requests : List (String × ℕ)}

theorem paced_calls (hclock : Monotone world.clock) (hpace : PaceOf gate pool length bound) (h : runCalls gate world requests = .ok run) :
    Paced length bound (ticksOf run.log pool) ∧ (ticksOf run.log pool).Pairwise (· ≤ ·) ∧
      ∀ admission ∈ run.log, admission.pool = pool → admission.tick.isSome := by
  have hstart : PacedRun world pool length bound .start :=
    ⟨⟨[], window_nil world length bound 0, List.Sublist.refl _⟩, by simp [GateRun.start]⟩
  have hrun : PacedRun world pool length bound run := foldlM_inv (fun _ run => PacedRun world pool length bound run) h hstart
      fun _ _ _ _ _ _ hrun hcall => hrun.call hclock hpace hcall
  obtain ⟨ticks, hwindow, hsub⟩ := hrun.window
  exact ⟨hwindow.paced.sublist hsub, hwindow.sorted.sublist hsub, hrun.ticked⟩

theorem capacity_of_admission (hclock : Monotone world.clock) (h : runCalls gate world requests = .ok run) :
    ∀ admission ∈ run.log, ∃ source capacity, gate.capacityOf source = .ok capacity ∧ capacity.poolKey = admission.pool := by
  refine foldlM_inv (fun _ run => ∀ admission ∈ run.log, ∃ source capacity, gate.capacityOf source = .ok capacity ∧
    capacity.poolKey = admission.pool) h (by simp [GateRun.start]) ?_
  intro _ request _ run run' _ hrun hcall admission hmem
  obtain ⟨⟨after, next, outcome⟩, hadmission, hcall⟩ := bind_eq_ok_iff.mp hcall
  cases hcall
  rcases List.mem_append.mp hmem with hold | hnew
  · exact hrun admission hold
  · rcases outcome with refusal | last
    · cases hnew
    · have hlast : admission = last := by simpa [Except.toOption] using hnew
      rw [admitCall] at hadmission
      rcases hcapacity : gate.capacityOf request.1 with early | capacity
      · rw [hcapacity] at hadmission
        cases hadmission
      · rw [hcapacity] at hadmission
        have hpool := ((admitStep_of_admitCapacity hadmission).frame hclock).pool last rfl
        exact ⟨request.1, capacity, hcapacity, by rw [hlast, hpool]⟩

end TrueAlpha.Sources
