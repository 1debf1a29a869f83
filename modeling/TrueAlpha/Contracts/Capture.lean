import Mathlib.Data.String.Basic
import TrueAlpha.Contracts.Common
import TrueAlpha.Lib.Run
import TrueAlpha.Time

/-!
# Attempts and results of a capture

The reason codes of an obligation with their dispositions, the outcomes of an attempt, the retry policy, and the records of an
attempt, a result and a terminal result.  An id stands for the coordinates that it hashes.
-/

namespace TrueAlpha.Contracts

inductive ObligationDisposition where
  | stop
  | retry
  | traceOnly
  deriving DecidableEq, Repr

inductive ObligationReasonCode where
  | authFailed
  | contractViolation
  | releaseScopeMismatch
  | lookAheadViolation
  | checksumMismatch
  | transientNetwork
  | timeout
  | rateLimited
  | serverError
  | notYetKnowable
  | fieldUnavailable
  | lowConfidence
  | deferredCapacity
  deriving DecidableEq, Repr

def ObligationReasonCode.value : ObligationReasonCode → String
  | .authFailed => "auth_failed"
  | .contractViolation => "contract_violation"
  | .releaseScopeMismatch => "release_scope_mismatch"
  | .lookAheadViolation => "look_ahead_violation"
  | .checksumMismatch => "checksum_mismatch"
  | .transientNetwork => "transient_network"
  | .timeout => "timeout"
  | .rateLimited => "rate_limited"
  | .serverError => "server_error"
  | .notYetKnowable => "not_yet_knowable"
  | .fieldUnavailable => "field_unavailable"
  | .lowConfidence => "low_confidence"
  | .deferredCapacity => "deferred_capacity"

def dispositionFor : ObligationReasonCode → ObligationDisposition
  | .authFailed | .contractViolation | .releaseScopeMismatch | .lookAheadViolation | .checksumMismatch => .stop
  | .transientNetwork | .timeout | .rateLimited | .serverError => .retry
  | .notYetKnowable | .fieldUnavailable | .lowConfidence | .deferredCapacity => .traceOnly

inductive FetchAttemptOutcome where
  | rateLimited
  | transportError
  | serverError
  | interrupted
  | success
  | unchanged
  | unavailable
  | failed
  deriving DecidableEq, Repr

def FetchAttemptOutcome.value : FetchAttemptOutcome → String
  | .rateLimited => "rate_limited"
  | .transportError => "transport_error"
  | .serverError => "server_error"
  | .interrupted => "interrupted"
  | .success => "success"
  | .unchanged => "unchanged"
  | .unavailable => "unavailable"
  | .failed => "failed"

inductive ObligationTerminalState where
  | success
  | unchanged
  | unavailable
  | skippedByPolicy
  | failed
  deriving DecidableEq, Repr

def ObligationTerminalState.value : ObligationTerminalState → String
  | .success => "success"
  | .unchanged => "unchanged"
  | .unavailable => "unavailable"
  | .skippedByPolicy => "skipped_by_policy"
  | .failed => "failed"

def sortedUniqueStrings (fieldName : String) (values : List String) : Except String (List String) :=
  if values = [] then .error (fieldName ++ " must not be empty")
  else if ¬ values.Nodup then .error (fieldName ++ " must not contain duplicates")
  else if values.any fun value => !isStableId value then .error (fieldName ++ " must contain stable coordinates")
  else .ok (sortedBy id values)

theorem sortedUniqueStrings_eq_ok {fieldName : String} {values : List String} (hne : values ≠ [])
    (hnodup : values.Nodup) (hstable : ∀ value ∈ values, isStableId value = true) :
    sortedUniqueStrings fieldName values = .ok (sortedBy id values) := by
  have hall : ¬ values.any fun value => !isStableId value := by
    simpa using hstable
  rw [sortedUniqueStrings, if_neg hne, if_neg (not_not.mpr hnodup), if_neg hall]

theorem ObligationReasonCode.isStableId_value (code : ObligationReasonCode) : isStableId code.value = true := by
  cases code <;> decide +kernel

theorem FetchAttemptOutcome.isStableId_value (outcome : FetchAttemptOutcome) : isStableId outcome.value = true := by
  cases outcome <;> decide +kernel

theorem ObligationTerminalState.isStableId_value (state : ObligationTerminalState) : isStableId state.value = true := by
  cases state <;> decide +kernel

def requiredTerminal : List FetchAttemptOutcome := [.success, .unchanged, .unavailable, .failed]

structure RetryPolicy where
  maxAttempts : ℕ
  retryableOutcomes : List FetchAttemptOutcome
  terminalOutcomes : List FetchAttemptOutcome
  positive : 1 ≤ maxAttempts
  bounded : maxAttempts ≤ 20
  apart : ∀ outcome ∈ retryableOutcomes, outcome ∉ terminalOutcomes
  required : ∀ outcome ∈ requiredTerminal, outcome ∈ terminalOutcomes

/-- `sorted(set(values), key=lambda value: value.value)`. -/
def sortedOutcomes (values : List FetchAttemptOutcome) : List FetchAttemptOutcome :=
  sortedBy FetchAttemptOutcome.value values.dedup

variable {values : List FetchAttemptOutcome} {outcome : FetchAttemptOutcome}

theorem mem_sortedOutcomes : outcome ∈ sortedOutcomes values ↔ outcome ∈ values := by
  rw [sortedOutcomes, mem_sortedBy, List.mem_dedup]

theorem length_sortedOutcomes (h : values.Nodup) : (sortedOutcomes values).length = values.length := by
  rw [sortedOutcomes, (perm_sortedBy _ _).length_eq, List.Nodup.dedup h]

/-- `RetryPolicy.validate_outcome_partition` with the bounds of the fields. -/
def RetryPolicy.build (maxAttempts : ℕ) (retryableOutcomes terminalOutcomes : List FetchAttemptOutcome) :
    Except String RetryPolicy :=
  if hpositive : ¬ 1 ≤ maxAttempts then .error "max_attempts: Input should be greater than or equal to 1"
  else if hbounded : ¬ maxAttempts ≤ 20 then .error "max_attempts: Input should be less than or equal to 20"
  else if retryableOutcomes = [] then .error "retryable_outcomes: Tuple should have at least 1 item"
  else if terminalOutcomes = [] then .error "terminal_outcomes: Tuple should have at least 1 item"
  else if (sortedOutcomes retryableOutcomes).length ≠ retryableOutcomes.length then
    .error "retryable_outcomes must not contain duplicates"
  else if (sortedOutcomes terminalOutcomes).length ≠ terminalOutcomes.length then
    .error "terminal_outcomes must not contain duplicates"
  else if hapart : ¬ ∀ outcome ∈ sortedOutcomes retryableOutcomes, outcome ∉ sortedOutcomes terminalOutcomes then
    .error "retryable and terminal outcomes must be disjoint"
  else if hrequired : ¬ ∀ outcome ∈ requiredTerminal, outcome ∈ sortedOutcomes terminalOutcomes then
    .error "terminal_outcomes must classify every terminal DataHub outcome"
  else .ok ⟨maxAttempts, sortedOutcomes retryableOutcomes, sortedOutcomes terminalOutcomes, not_not.mp hpositive,
    not_not.mp hbounded, not_not.mp hapart, not_not.mp hrequired⟩

theorem RetryPolicy.fields_of_build {maxAttempts : ℕ} {retryableOutcomes terminalOutcomes : List FetchAttemptOutcome}
    {policy : RetryPolicy} (h : RetryPolicy.build maxAttempts retryableOutcomes terminalOutcomes = .ok policy) :
    policy.maxAttempts = maxAttempts ∧ policy.retryableOutcomes = sortedOutcomes retryableOutcomes ∧
      policy.terminalOutcomes = sortedOutcomes terminalOutcomes := by
  unfold RetryPolicy.build at h
  split_ifs at h
  cases h
  exact ⟨rfl, rfl, rfl⟩

structure CaptureWorkItem where
  workItemId : String
  campaignId : String
  sourceRequestId : String
  schedulePolicyId : String
  deriving DecidableEq, Repr

/-- The grain of `attempt_id`. -/
structure AttemptId where
  workItemId : String
  attemptNumber : ℕ
  deriving DecidableEq, Repr

/-- The grain of `source_vintage_id`. -/
structure VintageId where
  sourceRequestId : String
  sourceRecordId : String
  sourcePublishedAt : Option Instant
  rawObjectId : String
  deriving DecidableEq, Repr

structure FetchAttempt where
  workItemId : String
  attemptNumber : ℕ
  startedAt : Instant
  positive : 1 ≤ attemptNumber
  deriving DecidableEq

def FetchAttempt.attemptId (attempt : FetchAttempt) : AttemptId := ⟨attempt.workItemId, attempt.attemptNumber⟩

def checkVintages (onSuccess onUnchanged onOther : String) (outcome : FetchAttemptOutcome)
    (sourceVintageId reusedSourceVintageId : Option VintageId) : Except String Unit :=
  if outcome = .success then
    if sourceVintageId = none ∨ reusedSourceVintageId ≠ none then .error onSuccess else .ok ()
  else if outcome = .unchanged then
    if reusedSourceVintageId = none ∨ sourceVintageId ≠ none then .error onUnchanged else .ok ()
  else if sourceVintageId ≠ none ∨ reusedSourceVintageId ≠ none then .error onOther
  else .ok ()

theorem checkVintages_eq_ok {onSuccess onUnchanged onOther : String}
    {sourceVintageId : Option VintageId} (hunchanged : outcome ≠ .unchanged)
    (h : sourceVintageId.isSome ↔ outcome = .success) :
    checkVintages onSuccess onUnchanged onOther outcome sourceVintageId none = .ok () := by
  by_cases hs : outcome = .success
  · have hsome : sourceVintageId ≠ none := Option.isSome_iff_ne_none.mp (h.mpr hs)
    rw [checkVintages, if_pos hs, if_neg (by simp [hsome])]
  · have hnone : sourceVintageId = none := by
      simpa using mt h.mp hs
    rw [checkVintages, if_neg hs, if_neg hunchanged, if_neg (by simp [hnone])]

structure FetchAttemptResult where
  attemptId : AttemptId
  completedAt : Instant
  outcome : FetchAttemptOutcome
  statusCode : Option ℕ
  sourceVintageId : Option VintageId
  reusedSourceVintageId : Option VintageId
  reasonCodes : List String
  deriving DecidableEq, Repr

/-- `FetchAttemptResult.freeze_and_identify` with the validators of the fields. -/
def FetchAttemptResult.build (result : FetchAttemptResult) : Except String FetchAttemptResult := do
  if result.statusCode.any fun code => code < 100 ∨ 599 < code then
    .error "status_code: Input should be between 100 and 599"
  let reasonCodes ← sortedUniqueStrings "reason_codes" result.reasonCodes
  checkVintages "a successful attempt result must create exactly one source vintage"
    "an unchanged attempt result must reuse exactly one source vintage"
    "a non-content attempt result cannot name a source vintage" result.outcome result.sourceVintageId
    result.reusedSourceVintageId
  return { result with reasonCodes }

structure ListObligationResult where
  obligationId : String
  terminalState : ObligationTerminalState
  completedAt : Instant
  finalAttemptId : Option AttemptId
  reasonCodes : List String
  deriving DecidableEq, Repr

/-- `ListObligationResult.freeze_and_identify` with the validator of the reason codes. -/
def ListObligationResult.build (result : ListObligationResult) : Except String ListObligationResult := do
  let reasonCodes ← sortedUniqueStrings "reason_codes" result.reasonCodes
  if result.terminalState = .skippedByPolicy then
    if result.finalAttemptId ≠ none then .error "a policy-skipped obligation cannot name a source attempt"
    else .ok { result with reasonCodes }
  else if result.finalAttemptId = none then .error "a non-skipped obligation must name its terminal source attempt"
  else .ok { result with reasonCodes }

end TrueAlpha.Contracts
