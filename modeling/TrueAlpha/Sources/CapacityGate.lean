import TrueAlpha.Contracts.VendorAccounts
import TrueAlpha.Lib.Decimal
import TrueAlpha.Time

/-!
# The capacity gate

The capacity of a ledger seat, which `_declaration` reads from the vendor account and `in_environment` shares; a refused
capacity cannot be built.  What `CapacityGate` reads from outside is a `World`: the answer to its `n`-th reading, which may
raise.  `admit` returns its state and the number of the next reading; `_queue` waits as often as its `fuel` says.
-/

namespace TrueAlpha.Sources

open Contracts

/-! ## The declared capacities -/

/-- The window that the gate reads as a budget of the UTC day. -/
def daySeconds : ℕ := 86400

inductive CapacityError where
  | unknownSeat (seat : String)
  | unknownAccount (account : String)
  | windows (account : String)
  | notPositive (source : String)
  deriving DecidableEq, Repr

/-- The whole figures of an account. -/
structure CapacityDeclaration where
  callsPerWindow : Option ℕ
  windowSeconds : Option ℕ
  dailyBudget : Option ℕ
  account : String
  deriving DecidableEq, Repr

def figures (row : VendorAccount) : List (ℕ × ℕ) := (row.limits.filter fun limit => limit.unit = .request).filterMap fun limit =>
    limit.amount.bind fun amount => limit.windowSeconds.map fun window => (amount, window)

def nonePublished (row : VendorAccount) : Bool :=
  let requests := row.limits.filter fun limit => limit.unit = .request
  figures row = [] ∧ requests ≠ [] ∧ ∀ limit ∈ requests, limit.evidence = .nonePublished

def declarationOf (account : String) (row : VendorAccount) : Except CapacityError CapacityDeclaration :=
  if nonePublished row then .ok ⟨none, none, none, account⟩
  else
    let rates := (figures row).filter fun figure => figure.2 ≠ daySeconds
    let days := (figures row).filter fun figure => figure.2 = daySeconds
    match rates, days with
    | [(calls, window)], [] => .ok ⟨some calls, some window, none, account⟩
    | [(calls, window)], [(budget, _)] => .ok ⟨some calls, some window, some budget, account⟩
    | _, _ => .error (.windows account)

def declaration (contract : VendorAccounts) (seat : String) : Except CapacityError (VendorAccount × CapacityDeclaration) :=
  match contract.accountOfSeat seat with
  | none => .error (.unknownSeat seat)
  | some (name, row) => (declarationOf name row).map fun declared => (row, declared)

structure SourceCapacity where
  source : String
  windowSeconds : Option ℚ
  callsPerWindow : Option ℕ
  dailyBudget : Option ℕ
  account : Option String
  pool : List String
  window_with_calls : windowSeconds.isSome = callsPerWindow.isSome
  window_pos : ∀ window ∈ windowSeconds, 0 < window
  calls_pos : ∀ calls ∈ callsPerWindow, 0 < calls
  budget_pos : ∀ budget ∈ dailyBudget, 0 < budget

namespace SourceCapacity

/-- The constructor with the checks of `__post_init__`. -/
def build (source : String) (windowSeconds : Option ℚ) (callsPerWindow dailyBudget : Option ℕ) (account : Option String)
    (pool : List String) : Except CapacityError SourceCapacity :=
  if h : windowSeconds.isSome = callsPerWindow.isSome ∧ (∀ window ∈ windowSeconds, 0 < window) ∧
      (∀ calls ∈ callsPerWindow, 0 < calls) ∧ ∀ budget ∈ dailyBudget, 0 < budget then
    .ok ⟨source, windowSeconds, callsPerWindow, dailyBudget, account, pool, h.1, h.2.1, h.2.2.1, h.2.2.2⟩
  else .error (.notPositive source)

def declared (source : String) (row : VendorAccount) (declaration : CapacityDeclaration) : Except CapacityError SourceCapacity :=
  build source (declaration.windowSeconds.map fun window : ℕ => (window : ℚ)) declaration.callsPerWindow
    declaration.dailyBudget (some declaration.account) row.seats

def seats (capacity : SourceCapacity) : List String :=
  if capacity.pool = [] then [capacity.source] else capacity.pool

def poolKey (capacity : SourceCapacity) : String := capacity.pool.headD capacity.source

def inEnvironment (contract : VendorAccounts) (environment : String) (capacity : SourceCapacity) :
    Except CapacityError (Option SourceCapacity) :=
  match capacity.account with
  | none => .ok (some capacity)
  | some account =>
    match contract.accountShare account environment with
    | none => .error (.unknownAccount account)
    | some share =>
      if share.admitsACall then
        (build capacity.source capacity.windowSeconds
          (capacity.windowSeconds.bind fun window => share.shareInWindow ⌊window⌋.toNat)
          (capacity.dailyBudget.bind fun _ => share.shareInWindow daySeconds) none capacity.pool).map some
      else .ok none

end SourceCapacity

def seatCapacity (contract : VendorAccounts) (seat : String) : Except CapacityError (String × SourceCapacity) := do
  let (row, declared) ← declaration contract seat
  let capacity ← SourceCapacity.declared seat row declared
  return (seat, capacity)

/-- `CAPACITIES`: the capacity of every seat of the contract. -/
def ledgerCapacities (contract : VendorAccounts) : Except CapacityError (Dict String SourceCapacity) := do
  let entries ← (contract.accounts.values.flatMap VendorAccount.seats).mapM (seatCapacity contract)
  return Dict.ofList entries

/-! ## The gate -/

structure Ledger where
  spentSince : ℕ → String → Instant → Option ℕ
  recentCalls : ℕ → String → Instant → Option (ℕ × Option Instant)

structure World where
  clock : ℕ → ℚ
  now : ℕ → Instant
  ledger : Ledger

/-- The configuration of a gate: `recent_calls` may be absent. -/
structure Gate where
  contract : VendorAccounts
  capacities : Dict String SourceCapacity
  environment : String
  readsWindow : Bool
  maxWaitSeconds : ℚ

/-- `_windows` and `_admitted`. -/
structure GateState where
  windows : Dict String (List ℚ)
  admitted : Dict String (Date × ℕ)

def GateState.fresh : GateState := ⟨Dict.empty, Dict.empty⟩

/-- The exceptions of `admit`. -/
inductive Refusal where
  | unregistered (source : String)
  | capacity (error : CapacityError)
  | shareBelowOneCall (source environment account : String)
  | budgetExhausted (source environment : String) (budget spent : ℕ)
  | windowFull (source : String) (calls : ℕ) (window maxWaitSeconds : ℚ)
  | ledger
  deriving DecidableEq, Repr

structure Admission where
  source : String
  pool : String
  tick : Option ℚ
  day : Date
  deriving DecidableEq, Repr

inductive Unfinished where
  | waiting
  deriving DecidableEq, Repr

def expiryMarginSeconds : ℚ := 1 / 100

/-- Microseconds of a number of seconds, as `timedelta` rounds them. -/
def microseconds (seconds : ℚ) : ℤ := roundHalfEven (seconds * 1000000)

section

variable (gate : Gate) (world : World)

def GateState.admittedToday (state : GateState) (pool : String) (today : Date) : ℕ :=
  match state.admitted.get? pool with
  | some (day, admitted) => if day = today then admitted else 0
  | none => 0

def GateState.unexpired (state : GateState) (pool : String) (window tick : ℚ) : List ℚ :=
  ((state.windows.get? pool).getD []).filter fun entry => tick - entry < window

def readSeats {α : Type} (read : ℕ → String → Option α) (n : ℕ) (seats : List String) : Option (List α) :=
  (seats.zipIdx n).mapM fun entry => read entry.2 entry.1

def checkDailyBudget (state : GateState) (n : ℕ) (source : String) (capacity : SourceCapacity) (budget : ℕ) :
    Except Refusal Unit × ℕ :=
  let today := utcDate (world.now n)
  let since := today * microsPerDay
  let next := n + 1 + capacity.seats.length
  match readSeats (fun m seat => world.ledger.spentSince m seat since) (n + 1) capacity.seats with
  | none => (.error .ledger, next)
  | some counts =>
    let spent := max counts.sum (state.admittedToday capacity.poolKey today)
    if budget ≤ spent then (.error (.budgetExhausted source gate.environment budget spent), next)
    else (.ok (), next)

def checkBudget (state : GateState) (n : ℕ) (source : String) (capacity : SourceCapacity) : Except Refusal Unit × ℕ :=
  match capacity.dailyBudget with
  | none => (.ok (), n)
  | some budget => checkDailyBudget gate world state n source capacity budget

def ledgerWait (n : ℕ) (seats : List String) (window : ℚ) (calls : ℕ) (wait : ℚ) : Option ℚ × ℕ :=
  if gate.readsWindow then
    let instant := world.now n
    let since := instant - microseconds window
    let next := n + 1 + seats.length
    match readSeats (fun m seat => world.ledger.recentCalls m seat since) (n + 1) seats with
    | none => (none, next)
    | some windows =>
      let recorded := (windows.map Prod.fst).sum
      match (windows.filterMap Prod.snd).min? with
      | some oldest =>
        if calls ≤ recorded then
          (some (max wait (window - ((instant - oldest : ℤ) : ℚ) / 1000000 + expiryMarginSeconds)), next)
        else (some wait, next)
      | none => (some wait, next)
  else (some wait, n)

def localWait (entries : List ℚ) (window : ℚ) (calls : ℕ) (tick : ℚ) : ℚ :=
  match entries with
  | [] => 0
  | oldest :: _ => if calls ≤ entries.length then window - (tick - oldest) else 0

def prune (entries : List ℚ) (window tick : ℚ) : List ℚ := entries.dropWhile fun entry => window ≤ tick - entry

/-- The loop of `_queue`: the entries, the next reading, and the wait or the refusal. -/
def queue (source : String) (seats : List String) (window : ℚ) (calls : ℕ) :
    ℕ → List ℚ → ℚ → ℕ → Except Unfinished (List ℚ × ℕ × Except Refusal (ℚ × ℚ))
  | 0, _, _, _ => .error .waiting
  | fuel + 1, entries, waited, n =>
    let tick := world.clock n
    let entries := prune entries window tick
    match ledgerWait gate world (n + 1) seats window calls (localWait entries window calls tick) with
    | (none, next) => .ok (entries, next, .error .ledger)
    | (some wait, next) =>
      if wait ≤ 0 then .ok (entries ++ [world.clock next], next + 1, .ok (waited, world.clock next))
      else if gate.maxWaitSeconds < waited + wait then
        .ok (entries, next, .error (.windowFull source calls window gate.maxWaitSeconds))
      else queue source seats window calls fuel entries (waited + wait) next

/-- The end of `admit`: the call is counted on the day of the last reading. -/
def record (state : GateState) (n : ℕ) (source : String) (capacity : SourceCapacity) (tick : Option ℚ) :
    GateState × ℕ × Except Refusal Admission :=
  let today := utcDate (world.now n)
  let count := state.admittedToday capacity.poolKey today + 1
  ({ state with admitted := state.admitted.set capacity.poolKey (today, count) }, n + 1,
    .ok ⟨source, capacity.poolKey, tick, today⟩)

/-- `admit` after `_queue` returned: the budget is checked again when the call waited. -/
def afterQueue (state : GateState) (n : ℕ) (source : String) (capacity : SourceCapacity) (waited tick : ℚ) :
    GateState × ℕ × Except Refusal Admission :=
  if waited = 0 then record world state n source capacity (some tick)
  else
    match checkBudget gate world state n source capacity with
    | (.error refusal, next) => (state, next, .error refusal)
    | (.ok (), next) => record world state next source capacity (some tick)

def GateState.withWindow (state : GateState) (pool : String) (entries : List ℚ) : GateState :=
  { state with windows := state.windows.set pool entries }

def admitCapacity (fuel : ℕ) (state : GateState) (n : ℕ) (source : String) (capacity : SourceCapacity) :
    Except Unfinished (GateState × ℕ × Except Refusal Admission) :=
  match checkBudget gate world state n source capacity with
  | (.error refusal, next) => .ok (state, next, .error refusal)
  | (.ok (), next) =>
    match capacity.windowSeconds, capacity.callsPerWindow with
    | some window, some calls => do
      let (entries, next, outcome) ← queue gate world source capacity.seats window calls fuel
        ((state.windows.get? capacity.poolKey).getD []) 0 next
      let state := state.withWindow capacity.poolKey entries
      match outcome with
      | .error refusal => return (state, next, .error refusal)
      | .ok (waited, tick) => return afterQueue gate world state next source capacity waited tick
    | _, _ => .ok (record world state next source capacity none)

def Gate.capacityOf (source : String) : Except Refusal SourceCapacity :=
  match gate.capacities.get? source with
  | none => .error (.unregistered source)
  | some declared =>
    match declared.inEnvironment gate.contract gate.environment with
    | .error error => .error (.capacity error)
    | .ok none => .error (.shareBelowOneCall source gate.environment (declared.account.getD ""))
    | .ok (some capacity) => .ok capacity

/-- `admit`: one call of a source. -/
def admitCall (fuel : ℕ) (state : GateState) (n : ℕ) (source : String) :
    Except Unfinished (GateState × ℕ × Except Refusal Admission) :=
  match gate.capacityOf source with
  | .error refusal => .ok (state, n, .error refusal)
  | .ok capacity => admitCapacity gate world fuel state n source capacity

structure GateRun where
  state : GateState
  reading : ℕ
  log : List Admission

def GateRun.start : GateRun := ⟨.fresh, 0, []⟩

def GateRun.call (run : GateRun) (request : String × ℕ) : Except Unfinished GateRun := do
  let (state, reading, outcome) ← admitCall gate world request.2 run.state run.reading request.1
  return ⟨state, reading, run.log ++ outcome.toOption.toList⟩

def runCalls (requests : List (String × ℕ)) : Except Unfinished GateRun := requests.foldlM (GateRun.call gate world) .start

end

end TrueAlpha.Sources
