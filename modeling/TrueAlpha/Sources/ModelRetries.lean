import TrueAlpha.Contracts.VendorAccounts
import TrueAlpha.Lib.BudgetedLoop

/-!
# The retries of a model call

The embedding of `_retry_loop` of `sources.llm` with its policy.  A call makes at most `max_attempts` attempts, and no wait that
it allows ends after its deadline (`retryLoop_within_budget`).
-/

namespace TrueAlpha.Sources.ModelRetry

open Contracts (strip)

/-- The fields of a `ModelRetrySpec`. -/
structure RetryFields where
  transientHttpStatuses : List ℤ
  transientProviderCodes : List String
  terminalProviderCodes : List String
  maxAttempts : ℕ
  initialBackoffSeconds : ℕ
  backoffFactor : ℕ
  maxBackoffSeconds : ℕ
  jitterPercent : ℕ
  minTotalWaitSeconds : ℕ
  deadlineSeconds : ℕ

def RetryFields.baseBackoffSeconds (fields : RetryFields) (retry : ℕ+) : ℕ :=
  min (fields.initialBackoffSeconds * fields.backoffFactor ^ retry.natPred) fields.maxBackoffSeconds

def RetryFields.baseTotalWaitSeconds (fields : RetryFields) : ℕ :=
  ((List.range (fields.maxAttempts - 1)).map fun retry => fields.baseBackoffSeconds retry.succPNat).sum

/-- `ModelRetrySpec`, with what its validation asks. -/
structure ModelRetrySpec extends RetryFields where
  transientHttpStatuses_ne_nil : transientHttpStatuses ≠ []
  two_le_maxAttempts : 2 ≤ maxAttempts
  initialBackoffSeconds_pos : 1 ≤ initialBackoffSeconds
  backoffFactor_pos : 1 ≤ backoffFactor
  maxBackoffSeconds_pos : 1 ≤ maxBackoffSeconds
  jitterPercent_le : jitterPercent ≤ 100
  minTotalWaitSeconds_pos : 1 ≤ minTotalWaitSeconds
  deadlineSeconds_pos : 1 ≤ deadlineSeconds
  disjoint_codes : ∀ code ∈ transientProviderCodes, code ∉ terminalProviderCodes
  minTotalWaitSeconds_le : minTotalWaitSeconds ≤ toRetryFields.baseTotalWaitSeconds
  minTotalWaitSeconds_le_deadline : minTotalWaitSeconds ≤ deadlineSeconds

def ModelRetrySpec.isTransient (spec : ModelRetrySpec) (status : ℤ) : Option String → Bool
  | some code =>
    if code ∈ spec.terminalProviderCodes then false
    else if code ∈ spec.transientProviderCodes then true
    else status ∈ spec.transientHttpStatuses
  | none => status ∈ spec.transientHttpStatuses

def ModelRetrySpec.waitSeconds (spec : ModelRetrySpec) (retry : ℕ+) (unit : ℚ) : ℚ :=
  spec.baseBackoffSeconds retry * (100 + spec.jitterPercent * unit) / 100

/-- `wait_before_next`, after an attempt that ended a time after the call started. -/
def ModelRetrySpec.waitBeforeNext (spec : ModelRetrySpec) (attempts : ℕ+) (elapsed unit : ℚ) (status : ℤ)
    (code : Option String) : Option ℚ :=
  if !spec.isTransient status code ∨ spec.maxAttempts ≤ attempts then none
  else if spec.deadlineSeconds < elapsed + spec.waitSeconds attempts unit then none
  else some (spec.waitSeconds attempts unit)

/-- What `json.loads` gives. -/
inductive Reply where
  | null
  | bool (value : Bool)
  | int (value : ℤ)
  | float (value : ℚ)
  | infinity
  | nan
  | text (value : String)
  | array (items : List Reply)
  | object (fields : List (String × Reply))

def Reply.truthy : Reply → Bool
  | null => false
  | bool value => value
  | int value => value ≠ 0
  | float value => value ≠ 0
  | infinity => true
  | nan => true
  | text value => value ≠ ""
  | array items => !items.isEmpty
  | object fields => !fields.isEmpty

inductive RaisedError where
  | attributeError
  | keyError
  | overflowError
  | recursionError
  | typeError
  | valueError
  /-- What the transport or the ledger of the gate raised. -/
  | outside (text : String)
  deriving DecidableEq, Repr

/-- `payload.get(key)`: nothing for an absent key. -/
def lookup (fields : List (String × Reply)) (key : String) : Reply := (fields.lookup key).getD .null

/-- `payload.get(key) or default`. -/
def lookupOr (fields : List (String × Reply)) (key : String) (default : Reply) : Reply :=
  if (lookup fields key).truthy then lookup fields key else default

/-- The fields of a value that has the method `get`. -/
def fieldsOf : Reply → Except RaisedError (List (String × Reply))
  | .object fields => .ok fields
  | _ => .error .attributeError

/-- `json.loads(body.decode())`, which raises a `ValueError` or a `RecursionError`, and `int`. -/
structure TextReading where
  loads : List UInt8 → Except RaisedError Reply
  int : String → Option ℤ

def TextReading.toInt (reading : TextReading) : Reply → Except RaisedError ℤ
  | .bool value => .ok (if value then 1 else 0)
  | .int value => .ok value
  | .float value => .ok (if 0 ≤ value then ⌊value⌋ else ⌈value⌉)
  | .infinity => .error .overflowError
  | .nan => .error .valueError
  | .text value => match reading.int value with
    | some number => .ok number
    | none => .error .valueError
  | _ => .error .typeError

def providerCodeLimit : ℕ := 16

def codeText : Reply → Option String
  | .int value => some (toString value)
  | .text value => some value
  | _ => none

def TextReading.providerCode (reading : TextReading) (body : List UInt8) : Except RaisedError (Option String) :=
  match reading.loads body with
  | .error .valueError => .ok none
  | .error error => .error error
  | .ok (.object payload) =>
    let code := match lookup payload "error" with
      | .object error => lookup error "code"
      | _ => lookup payload "code"
    .ok <| do
      let text := String.ofList ((strip (← codeText code)).toList.take providerCodeLimit)
      if text = "" then none else some text
  | .ok _ => .ok none

structure ProviderAnswer where
  status : ℤ
  body : List UInt8
  payload : List (String × Reply)
  usage : List (String × Reply)
  providerCode : Option String

def finishReasonCutOff : String := "length"

/-- `(payload.get("choices") or [{}])[0]`. -/
def firstChoice (payload : List (String × Reply)) : Except RaisedError Reply :=
  match lookupOr payload "choices" (.array [.object []]) with
  | .array (choice :: _) => .ok choice
  | .text (value) => .ok (.text (String.ofList (value.toList.take 1)))
  | .object _ => .error .keyError
  | _ => .error .typeError

def cutOff (payload : List (String × Reply)) : Except RaisedError Bool := do
  match lookup (← fieldsOf (← firstChoice payload)) "finish_reason" with
  | .text reason => return reason = finishReasonCutOff
  | _ => return false

def TextReading.readAnswer (reading : TextReading) (answerRequired : Bool) (status : ℤ) (body : List UInt8) :
    Except RaisedError ProviderAnswer := do
  if 400 ≤ status then
    return ⟨status, body, [], [], ← reading.providerCode body⟩
  else
    let payload ← fieldsOf (← reading.loads body)
    let usage ← fieldsOf (lookupOr payload "usage" (.object []))
    let _ ← reading.toInt (lookupOr usage "total_tokens" (.int 0))
    let _ ← fieldsOf (lookupOr usage "completion_tokens_details" (.object []))
    if answerRequired then
      let _ ← cutOff payload
    return ⟨status, body, payload, usage, none⟩

/-! ## The loop -/

inductive AttemptError where
  | capacityExceeded (reason : String)
  | other (error : RaisedError)
  deriving DecidableEq, Repr

structure PacerState where
  slot : Bool
  admission : Bool
  gate : Except AttemptError Unit

def acquire (acquired : Bool) (what : String) : Except AttemptError Unit :=
  if acquired then .ok () else .error (.capacityExceeded s!"no {what} before the deadline of the call")

def PacerState.admitted (state : PacerState) : Except AttemptError Unit := do
  acquire state.slot "concurrency slot"
  acquire state.admission "admission lock"
  state.gate

structure ModelCall where
  spec : ModelRetrySpec
  reading : TextReading
  answerRequired : Bool
  clock : ℕ → ℚ
  jitter : ℕ+ → ℚ
  pacer : Option (ℕ+ → PacerState)
  send : ℕ+ → Except AttemptError (ℤ × List UInt8)

/-- What `_retry_loop` raises. -/
inductive CallError where
  | modelCapacityRefused (reason : String)
  | raised (error : RaisedError)
  deriving DecidableEq, Repr

structure RetryState where
  attempts : ℕ
  last : Option ProviderAnswer

namespace ModelCall

variable (call : ModelCall)

def attempt (number : ℕ+) : Except AttemptError ProviderAnswer := do
  match call.pacer with
  | some pacer => (pacer number).admitted
  | none => .ok ()
  let (status, body) ← call.send number
  match call.reading.readAnswer call.answerRequired status body with
  | .ok answer => .ok answer
  | .error error => .error (.other error)

def waitAfter (number : ℕ+) (answer : ProviderAnswer) : Option ℚ :=
  if answer.status < 400 then none
  else call.spec.waitBeforeNext number (call.clock number - call.clock 0) (call.jitter number) answer.status
    answer.providerCode

def retryRound (state : RetryState) : Round RetryState (Except CallError ProviderAnswer) :=
  match call.attempt state.attempts.succPNat with
  | .error (.capacityExceeded reason) =>
    match state.last with
    | none => .ended (.error (.modelCapacityRefused reason))
    | some last => .ended (.ok last)
  | .error (.other error) => .ended (.error (.raised error))
  | .ok answer =>
    match call.waitAfter state.attempts.succPNat answer with
    | none => .ended (.ok answer)
    | some wait => .spends wait ⟨state.attempts + 1, some answer⟩

def retryLoop (attempts : ℕ) : Option (Except CallError ProviderAnswer) := runRounds call.retryRound attempts ⟨0, none⟩

/-- The waits of `_retry_loop`, in its first attempts. -/
def waits (attempts : ℕ) : List (Spending RetryState) := spendings call.retryRound attempts ⟨0, none⟩

def received (attempts : ℕ) : List ProviderAnswer :=
  (List.range attempts).filterMap fun number => (call.attempt number.succPNat).toOption

structure Allows (wait : Spending RetryState) : Prop where
  answered : ∃ answer, call.attempt wait.before.attempts.succPNat = .ok answer ∧ 400 ≤ answer.status ∧
    (∀ code, answer.providerCode = some code → code ∉ call.spec.terminalProviderCodes) ∧
    wait.after = ⟨wait.before.attempts + 1, some answer⟩
  attempts_left : wait.before.attempts + 1 < call.spec.maxAttempts
  base_le : call.spec.baseBackoffSeconds wait.before.attempts.succPNat ≤ wait.amount
  within_deadline : call.clock (wait.before.attempts + 1) + wait.amount ≤ call.clock 0 + call.spec.deadlineSeconds

/-- A call ends with the last answer received, its first attempt's refusal, or what its last attempt raised. -/
def EndsWith (retries : ℕ) : Except CallError ProviderAnswer → Prop
  | .ok answer => (call.received (retries + 1)).getLast? = some answer
  | .error (.modelCapacityRefused reason) =>
    call.attempt retries.succPNat = .error (.capacityExceeded reason) ∧ call.received (retries + 1) = []
  | .error (.raised error) => call.attempt retries.succPNat = .error (.other error)

end ModelCall

variable {spec : ModelRetrySpec} {call : ModelCall}

theorem not_terminal_of_isTransient {status : ℤ} {code : String} (h : spec.isTransient status (some code) = true) :
    code ∉ spec.terminalProviderCodes := by
  intro hterminal
  rw [ModelRetrySpec.isTransient, if_pos hterminal] at h
  cases h

theorem base_le_waitSeconds (retry : ℕ+) {unit : ℚ} (hunit : 0 ≤ unit) :
    (spec.baseBackoffSeconds retry : ℚ) ≤ spec.waitSeconds retry unit := by
  have hextra : 0 ≤ (spec.baseBackoffSeconds retry : ℚ) * (spec.jitterPercent * unit) :=
    mul_nonneg (Nat.cast_nonneg _) (mul_nonneg (Nat.cast_nonneg _) hunit)
  rw [ModelRetrySpec.waitSeconds, le_div_iff₀ (by norm_num)]
  linarith

theorem waitBeforeNext_eq_some {attempts : ℕ+} {elapsed unit wait : ℚ} {status : ℤ} {code : Option String}
    (h : spec.waitBeforeNext attempts elapsed unit status code = some wait) :
    spec.isTransient status code = true ∧ attempts < spec.maxAttempts ∧ wait = spec.waitSeconds attempts unit ∧
      elapsed + wait ≤ spec.deadlineSeconds := by
  unfold ModelRetrySpec.waitBeforeNext at h
  split_ifs at h with hstop hlate
  rw [not_or, Bool.not_eq_true, Bool.not_eq_false', not_le] at hstop
  obtain rfl := Option.some.inj h
  exact ⟨hstop.1, hstop.2, rfl, not_lt.mp hlate⟩

theorem retryRound_spends {state after : RetryState} {wait : ℚ} (h : call.retryRound state = .spends wait after) :
    ∃ answer, call.attempt state.attempts.succPNat = .ok answer ∧
      call.waitAfter state.attempts.succPNat answer = some wait ∧ after = ⟨state.attempts + 1, some answer⟩ := by
  unfold ModelCall.retryRound at h
  split at h
  · split at h <;> cases h
  · cases h
  · next answer hanswer =>
    split at h
    · cases h
    · next found hwait =>
      cases h
      exact ⟨answer, hanswer, hwait, rfl⟩

theorem allows_of_spends (hjitter : ∀ number, 0 ≤ call.jitter number ∧ call.jitter number < 1)
    {wait : Spending RetryState} (h : call.retryRound wait.before = .spends wait.amount wait.after) :
    call.Allows wait := by
  obtain ⟨answer, hanswer, hwait, hafter⟩ := retryRound_spends h
  unfold ModelCall.waitAfter at hwait
  split_ifs at hwait with hstatus
  obtain ⟨htransient, hleft, hamount, hdeadline⟩ := waitBeforeNext_eq_some hwait
  refine ⟨⟨answer, hanswer, not_lt.mp hstatus, fun code hcode => ?_, hafter⟩, hleft, ?_, ?_⟩
  · rw [hcode] at htransient
    exact not_terminal_of_isTransient htransient
  · rw [hamount]
    exact base_le_waitSeconds _ (hjitter _).1
  · rw [Nat.succPNat_coe] at hdeadline
    linarith

/-! ## The attempts -/

theorem received_succ (attempts : ℕ) :
    call.received (attempts + 1) = call.received attempts ++ (call.attempt attempts.succPNat).toOption.toList := by
  unfold ModelCall.received
  rw [List.range_succ, List.filterMap_append, List.filterMap_cons, List.filterMap_nil]
  cases (call.attempt attempts.succPNat).toOption <;> rfl

structure Retried (call : ModelCall) (retries : ℕ) (state : RetryState) : Prop where
  attempts_eq : state.attempts = retries
  last_eq : state.last = (call.received retries).getLast?
  length_received : (call.received retries).length = retries

theorem retried_zero : Retried call 0 ⟨0, none⟩ := ⟨rfl, rfl, rfl⟩

theorem Retried.spends {retries : ℕ} {state after : RetryState} {wait : ℚ} (hstate : Retried call retries state)
    (h : call.retryRound state = .spends wait after) :
    retries + 1 < call.spec.maxAttempts ∧ Retried call (retries + 1) after := by
  obtain ⟨answer, hanswer, hwait, rfl⟩ := retryRound_spends h
  rw [hstate.attempts_eq] at hanswer hwait
  have hreceived : call.received (retries + 1) = call.received retries ++ [answer] := by
    rw [received_succ, hanswer]
    rfl
  unfold ModelCall.waitAfter at hwait
  split_ifs at hwait
  refine ⟨(waitBeforeNext_eq_some hwait).2.1, by rw [hstate.attempts_eq], ?_, ?_⟩
  · rw [hreceived, List.getLast?_concat]
  · rw [hreceived, List.length_append, hstate.length_received, List.length_singleton]

theorem Retried.ended {retries : ℕ} {state : RetryState} {result : Except CallError ProviderAnswer}
    (hstate : Retried call retries state) (h : call.retryRound state = .ended result) :
    call.EndsWith retries result := by
  unfold ModelCall.retryRound at h
  rw [hstate.attempts_eq] at h
  split at h
  · next reason hrefused =>
    have hreceived : call.received (retries + 1) = call.received retries := by
      rw [received_succ, hrefused]
      exact List.append_nil _
    split at h
    · next hnone =>
      cases h
      rw [hstate.last_eq, List.getLast?_eq_none_iff] at hnone
      exact ⟨hrefused, hreceived.trans hnone⟩
    · next last hsome =>
      cases h
      exact (congrArg List.getLast? hreceived).trans (hstate.last_eq.symm.trans hsome)
  · next error hraised =>
    cases h
    exact hraised
  · next answer hanswer =>
    split at h
    · cases h
      unfold ModelCall.EndsWith
      rw [received_succ, hanswer]
      exact List.getLast?_concat
    · cases h

/-- A call makes at most `max_attempts` attempts.  It waits after answers from 400 on without a terminal code, each time for the
base backoff at least and never past its deadline.  It ends with the last answer, unless its first attempt is refused or one
raises. -/
theorem retryLoop_within_budget (call : ModelCall) (hjitter : ∀ number, 0 ≤ call.jitter number ∧ call.jitter number < 1) :
    ∃ retries result, retries + 1 ≤ call.spec.maxAttempts ∧ call.retryLoop (retries + 1) = some result ∧
      (∀ fewer ≤ retries, call.retryLoop fewer = none) ∧ (call.waits (retries + 1)).length = retries ∧
      (∀ wait ∈ call.waits (retries + 1), call.Allows wait) ∧ call.EndsWith retries result := by
  have hfirst : 0 < call.spec.maxAttempts := by
    have := call.spec.two_le_maxAttempts
    omega
  obtain ⟨retries, last, result, hretries, hlast, hended, hruns, hfewer, hlength⟩ :=
    runRounds_of_bound Retried.spends hfirst (@retried_zero call)
  rw [zero_add] at hretries hlast
  exact ⟨retries, result, hretries, hruns, hfewer, hlength,
    fun wait hwait => allows_of_spends hjitter (round_of_mem_spendings hwait), hlast.ended hended⟩

def seatRetry : ModelRetrySpec where
  transientHttpStatuses := [429]
  transientProviderCodes := ["1302", "1305"]
  terminalProviderCodes := ["1113", "1308", "1309", "1310", "1311", "1313", "1314", "1315", "1316", "1317", "1318", "1319",
    "1320", "1321"]
  maxAttempts := 7
  initialBackoffSeconds := 5
  backoffFactor := 2
  maxBackoffSeconds := 40
  jitterPercent := 25
  minTotalWaitSeconds := 90
  deadlineSeconds := 300
  transientHttpStatuses_ne_nil := by decide
  two_le_maxAttempts := by decide
  initialBackoffSeconds_pos := by decide
  backoffFactor_pos := by decide
  maxBackoffSeconds_pos := by decide
  jitterPercent_le := by decide
  minTotalWaitSeconds_pos := by decide
  deadlineSeconds_pos := by decide
  disjoint_codes := by decide
  minTotalWaitSeconds_le := by decide
  minTotalWaitSeconds_le_deadline := by decide

def objectReading : TextReading where
  loads := fun body => if body = [123, 125] then .ok (.object []) else .error .valueError
  int := fun _ => none

def answeredCall (first later : ℤ × List UInt8) : ModelCall where
  spec := seatRetry
  reading := objectReading
  answerRequired := false
  clock := fun attempts => 10 * attempts
  jitter := fun _ => 1 / 2
  pacer := none
  send := fun number => .ok (if number = 1 then first else later)

def retriedCall : ModelCall := answeredCall (429, []) (200, [123, 125])

theorem retriedCall_within_budget :
    ∃ retries result, retries + 1 ≤ retriedCall.spec.maxAttempts ∧ retriedCall.retryLoop (retries + 1) = some result ∧
      (∀ fewer ≤ retries, retriedCall.retryLoop fewer = none) ∧ (retriedCall.waits (retries + 1)).length = retries ∧
      (∀ wait ∈ retriedCall.waits (retries + 1), retriedCall.Allows wait) ∧ retriedCall.EndsWith retries result :=
  retryLoop_within_budget retriedCall fun _ => by norm_num [retriedCall, answeredCall]

def ModelCall.Sleeps (call : ModelCall) : Prop := ∀ attempts, ∀ wait ∈ call.waits attempts,
    call.clock (wait.before.attempts + 1) + wait.amount ≤ call.clock (wait.before.attempts + 2)

/-- An answer below 400 that is no JSON raises, although no pacer refuses. -/
theorem unreadable_answer_raises :
    ¬∀ call : ModelCall, (∀ number, 0 ≤ call.jitter number ∧ call.jitter number < 1) → Monotone call.clock →
      call.Sleeps → (∀ number, ∃ answer, call.send number = .ok answer) →
      ∀ attempts error, call.retryLoop attempts = some (.error error) → ∃ reason, error = .modelCapacityRefused reason := by
  intro h
  have hended : (answeredCall (200, [60]) (200, [60])).retryRound ⟨0, none⟩ = .ended (.error (.raised .valueError)) := rfl
  have hsleeps : (answeredCall (200, [60]) (200, [60])).Sleeps := by
    intro attempts wait hwait
    unfold ModelCall.waits at hwait
    cases attempts with
    | zero => cases hwait
    | succ attempts =>
      rw [spendings_of_ended hended] at hwait
      cases hwait
  obtain ⟨reason, hreason⟩ := h (answeredCall (200, [60]) (200, [60])) (fun _ => by norm_num [answeredCall])
    (fun early late hle => mul_le_mul_of_nonneg_left (Nat.cast_le.mpr hle) (by norm_num)) hsleeps
    (fun number => ⟨_, rfl⟩) 1 (.raised .valueError) (runRounds_of_ended hended 0)
  cases hreason

end TrueAlpha.Sources.ModelRetry
