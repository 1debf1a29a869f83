import TrueAlpha.Sources.CapacityGate

/-!
# What a call of the gate does

`queue_spec` says what the loop of `_queue` does to the entries of a window, and `AdmitStep` lists the ways in which
`admit` returns.
-/

namespace TrueAlpha.Sources

variable {gate : Gate} {world : World}

theorem le_checkBudget (gate : Gate) (world : World) (state : GateState) (n : ℕ) (source : String) (capacity : SourceCapacity) :
    n ≤ (checkBudget gate world state n source capacity).2 := by
  rw [checkBudget]
  split
  · exact le_rfl
  · simp only [checkDailyBudget]
    split
    · exact Nat.le_add_right_of_le (Nat.le_succ n)
    · split
      · exact Nat.le_add_right_of_le (Nat.le_succ n)
      · exact Nat.le_add_right_of_le (Nat.le_succ n)

theorem le_ledgerWait (gate : Gate) (world : World) (n : ℕ) (seats : List String) (window : ℚ) (calls : ℕ) (wait : ℚ) :
    n ≤ (ledgerWait gate world n seats window calls wait).2 := by
  simp only [ledgerWait]
  split
  · split
    · exact Nat.le_add_right_of_le (Nat.le_succ n)
    · split
      · split
        · exact Nat.le_add_right_of_le (Nat.le_succ n)
        · exact Nat.le_add_right_of_le (Nat.le_succ n)
      · exact Nat.le_add_right_of_le (Nat.le_succ n)
  · exact le_rfl

variable {window : ℚ} {calls : ℕ}

theorem wait_le_ledgerWait {n next : ℕ} {seats : List String} {wait longer : ℚ}
    (h : ledgerWait gate world n seats window calls wait = (some longer, next)) : wait ≤ longer := by
  simp only [ledgerWait] at h
  split at h
  · split at h
    · cases h
    · split at h
      · split at h
        · cases h
          exact le_max_left _ _
        · cases h
          exact le_rfl
      · cases h
        exact le_rfl
  · cases h
    exact le_rfl

/-! ## The loop of `_queue` -/

theorem prune_spec (entries : List ℚ) (window tick : ℚ) :
    ∃ expired, entries = expired ++ prune entries window tick ∧ ∀ entry ∈ expired, entry + window ≤ tick := by
  refine ⟨entries.takeWhile fun entry => window ≤ tick - entry, ?_, fun entry hentry => ?_⟩
  · rw [prune, List.takeWhile_append_dropWhile]
  · have hlong := List.mem_takeWhile_imp hentry
    rw [decide_eq_true_eq] at hlong
    linarith

variable {entries : List ℚ}

theorem length_lt_of_localWait {window tick : ℚ} (hcalls : 0 < calls)
    (h : localWait (prune entries window tick) window calls tick ≤ 0) : (prune entries window tick).length < calls := by
  rcases hentries : prune entries window tick with _ | ⟨oldest, rest⟩
  · exact hcalls
  · rw [hentries, localWait] at h
    by_contra hfull
    rw [if_pos (not_lt.mp hfull)] at h
    have hfresh : ¬ window ≤ tick - oldest := by
      have hhead := List.head?_dropWhile_not (fun entry => decide (window ≤ tick - entry)) entries
      rw [prune] at hentries
      rw [hentries] at hhead
      simpa using hhead
    linarith

/-- `_queue` drops expired entries from the front of a window, and a call that found room leaves the clock reading of its end. -/
def QueueSpec (world : World) (window : ℚ) (calls n : ℕ) (entries : List ℚ) : List ℚ × ℕ × Except Refusal (ℚ × ℚ) → Prop
  | (kept, next, .error _) =>
    n ≤ next ∧ ∃ expired, entries = expired ++ kept ∧ ∀ entry ∈ expired, entry + window ≤ world.clock next
  | (left, next, .ok (_, tick)) =>
    ∃ m expired kept, n ≤ m ∧ m < next ∧ tick = world.clock m ∧ left = kept ++ [tick] ∧ kept.length < calls ∧
      entries = expired ++ kept ∧ ∀ entry ∈ expired, entry + window ≤ world.clock m

variable {result : List ℚ × ℕ × Except Refusal (ℚ × ℚ)}

theorem QueueSpec.after_prune (hclock : Monotone world.clock) {calls n m : ℕ} (hle : n ≤ m)
    (h : QueueSpec world window calls m (prune entries window (world.clock n)) result) :
    QueueSpec world window calls n entries result := by
  obtain ⟨dropped, hentries, hdropped⟩ := prune_spec entries window (world.clock n)
  have hall : ∀ {k : ℕ} {expired : List ℚ}, n ≤ k → (∀ entry ∈ expired, entry + window ≤ world.clock k) →
      ∀ entry ∈ dropped ++ expired, entry + window ≤ world.clock k := by
    intro k expired hk hexpired entry hentry
    rcases List.mem_append.mp hentry with hold | hnew
    · exact (hdropped entry hold).trans (hclock hk)
    · exact hexpired entry hnew
  obtain ⟨left, next, refusal | ⟨waited, tick⟩⟩ := result
  · obtain ⟨hnext, expired, hkept, hexpired⟩ := h
    refine ⟨hle.trans hnext, dropped ++ expired, ?_, hall (hle.trans hnext) hexpired⟩
    rw [List.append_assoc, ← hkept]
    exact hentries
  · obtain ⟨k, expired, kept, hk, hnext, htick, hleft, hroom, hkept, hexpired⟩ := h
    refine ⟨k, dropped ++ expired, kept, hle.trans hk, hnext, htick, hleft, hroom, ?_, hall (hle.trans hk) hexpired⟩
    rw [List.append_assoc, ← hkept]
    exact hentries

theorem queue_spec (hclock : Monotone world.clock) {source : String} {seats : List String}
    (hcalls : 0 < calls) {fuel : ℕ} {waited : ℚ} {n : ℕ}
    (h : queue gate world source seats window calls fuel entries waited n = .ok result) :
    QueueSpec world window calls n entries result := by
  induction fuel generalizing entries waited n with
  | zero => cases h
  | succ fuel ih =>
    rw [queue] at h
    have hnext := le_ledgerWait gate world (n + 1) seats window calls
      (localWait (prune entries window (world.clock n)) window calls (world.clock n))
    rcases hledger : ledgerWait gate world (n + 1) seats window calls
      (localWait (prune entries window (world.clock n)) window calls (world.clock n)) with ⟨_ | wait, next⟩
    · rw [hledger] at h hnext
      cases h
      have hle : n ≤ next := (Nat.le_succ n).trans hnext
      exact QueueSpec.after_prune hclock hle ⟨le_rfl, [], rfl, by simp⟩
    · rw [hledger] at h hnext
      have hle : n ≤ next := (Nat.le_succ n).trans hnext
      by_cases hwait : wait ≤ 0
      · -- the call need not wait, so the window has room for the reading that it leaves
        simp only [if_pos hwait] at h
        cases h
        have hroom := length_lt_of_localWait hcalls ((wait_le_ledgerWait hledger).trans hwait)
        exact QueueSpec.after_prune hclock hle
          ⟨next, [], _, le_rfl, Nat.lt_succ_self next, rfl, rfl, hroom, rfl, by simp⟩
      · simp only [if_neg hwait] at h
        by_cases hlong : gate.maxWaitSeconds < waited + wait
        · rw [if_pos hlong] at h
          cases h
          exact QueueSpec.after_prune hclock hle ⟨le_rfl, [], rfl, by simp⟩
        · rw [if_neg hlong] at h
          exact QueueSpec.after_prune hclock hle (ih h)

def GateState.entriesOf (state : GateState) (capacity : SourceCapacity) : List ℚ := (state.windows.get? capacity.poolKey).getD []

/-- How `admit` returns once the capacity of the source is known. -/
inductive AdmitStep (gate : Gate) (world : World) (fuel : ℕ) (state : GateState) (n : ℕ) (source : String)
    (capacity : SourceCapacity) : GateState × ℕ × Except Refusal Admission → Prop
  | overBudget {refusal : Refusal} {next : ℕ}
      (hbudget : checkBudget gate world state n source capacity = (.error refusal, next)) :
      AdmitStep gate world fuel state n source capacity (state, next, .error refusal)
  | unpaced {next : ℕ} (hbudget : checkBudget gate world state n source capacity = (.ok (), next))
      (hwindow : capacity.windowSeconds = none) :
      AdmitStep gate world fuel state n source capacity (record world state next source capacity none)
  | windowFull {window : ℚ} {calls next next' : ℕ} {entries : List ℚ} {refusal : Refusal}
      (hbudget : checkBudget gate world state n source capacity = (.ok (), next))
      (hwindow : capacity.windowSeconds = some window) (hcalls : capacity.callsPerWindow = some calls)
      (hqueue : queue gate world source capacity.seats window calls fuel (state.entriesOf capacity) 0 next =
        .ok (entries, next', .error refusal)) :
      AdmitStep gate world fuel state n source capacity
        (state.withWindow capacity.poolKey entries, next', .error refusal)
  | refusedAfterWait {window waited tick : ℚ} {calls next next' next'' : ℕ} {entries : List ℚ} {refusal : Refusal}
      (hbudget : checkBudget gate world state n source capacity = (.ok (), next))
      (hwindow : capacity.windowSeconds = some window) (hcalls : capacity.callsPerWindow = some calls)
      (hqueue : queue gate world source capacity.seats window calls fuel (state.entriesOf capacity) 0 next =
        .ok (entries, next', .ok (waited, tick)))
      (hwaited : waited ≠ 0)
      (hagain : checkBudget gate world (state.withWindow capacity.poolKey entries) next' source capacity =
        (.error refusal, next'')) :
      AdmitStep gate world fuel state n source capacity
        (state.withWindow capacity.poolKey entries, next'', .error refusal)
  | admitted {window waited tick : ℚ} {calls next next' next'' : ℕ} {entries : List ℚ}
      (hbudget : checkBudget gate world state n source capacity = (.ok (), next))
      (hwindow : capacity.windowSeconds = some window) (hcalls : capacity.callsPerWindow = some calls)
      (hqueue : queue gate world source capacity.seats window calls fuel (state.entriesOf capacity) 0 next =
        .ok (entries, next', .ok (waited, tick)))
      (hle : next' ≤ next'') :
      AdmitStep gate world fuel state n source capacity
        (record world (state.withWindow capacity.poolKey entries) next'' source capacity (some tick))

theorem admitStep_of_admitCapacity {fuel : ℕ} {state : GateState} {n : ℕ} {source : String} {capacity : SourceCapacity}
    {result : GateState × ℕ × Except Refusal Admission}
    (h : admitCapacity gate world fuel state n source capacity = .ok result) :
    AdmitStep gate world fuel state n source capacity result := by
  rw [admitCapacity] at h
  rcases hbudget : checkBudget gate world state n source capacity with ⟨refusal | ⟨⟩, next⟩
  · rw [hbudget] at h
    cases h
    exact .overBudget hbudget
  · rw [hbudget] at h
    rcases hwindow : capacity.windowSeconds with _ | window
    · rw [hwindow] at h
      cases h
      exact .unpaced hbudget hwindow
    · rcases hcalls : capacity.callsPerWindow with _ | calls
      · have htogether := capacity.window_with_calls
        rw [hwindow, hcalls] at htogether
        cases htogether
      · simp only [hwindow, hcalls] at h
        obtain ⟨⟨entries, next', outcome⟩, hqueue, h⟩ := bind_eq_ok_iff.mp h
        rcases outcome with refusal | ⟨waited, tick⟩
        · cases h
          exact .windowFull hbudget hwindow hcalls hqueue
        · cases h
          rw [afterQueue]
          by_cases hwaited : waited = 0
          · rw [if_pos hwaited]
            exact .admitted hbudget hwindow hcalls hqueue le_rfl
          · rw [if_neg hwaited]
            have hle := le_checkBudget gate world (state.withWindow capacity.poolKey entries) next' source capacity
            rcases hagain : checkBudget gate world (state.withWindow capacity.poolKey entries) next' source capacity
              with ⟨refusal | ⟨⟩, next''⟩
            · exact .refusedAfterWait hbudget hwindow hcalls hqueue hwaited hagain
            · rw [hagain] at hle
              exact .admitted hbudget hwindow hcalls hqueue hle

end TrueAlpha.Sources
