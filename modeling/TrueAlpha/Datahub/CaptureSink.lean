import TrueAlpha.Datahub.AttemptLedger

/-!
# The capture-control sink

`CaptureTimeline`, `record_outcome` and `_replay_attempts` of `persistence.py`.  The written rows are a list; the stamps of a
run are clock readings in the zone of its cutoff, in microseconds.
-/

namespace TrueAlpha.Datahub

open Contracts

structure NormalizedRecord where
  payload : List (String × Json)
  parserVersion : String
  mappingVersion : String
  deriving DecidableEq, Repr

/-- `RawResponse`, with the hash of its body. -/
structure RawResponse where
  sha256 : String
  recordId : String
  deriving DecidableEq, Repr

structure Corroboration where
  origin : String
  record : NormalizedRecord
  raw : RawResponse
  transactionTime : Instant
  confidence : Option ℚ
  deriving DecidableEq, Repr

def servedByFailoverKey : String := "served_by_failover"

/-- `FetchSuccess` with what `__post_init__` checks of its failover marks. -/
structure FetchSuccess where
  raw : RawResponse
  normalizedSha256 : String
  validFrom : Date
  transactionTime : Instant
  confidence : Option ℚ
  record : Option NormalizedRecord
  corroborations : List Corroboration
  servedByFailover : Option String
  failoverReason : Option ObligationReasonCode
  declared : ∀ origin ∈ servedByFailover, origin ≠ "" ∧ ∃ r ∈ record, r.payload.lookup servedByFailoverKey = some (.text origin)
  single : servedByFailover.isSome → failoverReason = none
  servable : ∀ reason ∈ failoverReason, dispositionFor reason ≠ .stop

def seconds (n : ℤ) : ℤ := n * 1000000

def minutes (n : ℤ) : ℤ := seconds (60 * n)

def retrySpacing : ℤ := seconds 2

/-- `CaptureTimeline`, of which the attempts and the result read the cutoff. -/
structure CaptureTimeline where
  cutoff : Instant
  deriving DecidableEq, Repr

namespace CaptureTimeline

def firstAttemptAt (timeline : CaptureTimeline) : Instant := timeline.cutoff - minutes 60

def terminalAttemptAt (timeline : CaptureTimeline) : Instant := timeline.cutoff - minutes 59

def completedAt (timeline : CaptureTimeline) : Instant := timeline.cutoff - minutes 57

def startedAt (timeline : CaptureTimeline) (index : ℕ) : Instant := timeline.firstAttemptAt + index * retrySpacing

end CaptureTimeline

def attemptOutcome : ObligationReasonCode → FetchAttemptOutcome
  | .authFailed | .contractViolation | .releaseScopeMismatch | .lookAheadViolation | .checksumMismatch => .failed
  | .transientNetwork => .transportError
  | .timeout => .interrupted
  | .rateLimited => .rateLimited
  | .serverError => .serverError
  | .notYetKnowable | .fieldUnavailable | .lowConfidence | .deferredCapacity => .unavailable

def retriedOutcome : Option ObligationReasonCode → FetchAttemptOutcome
  | some reason => attemptOutcome reason
  | none => .success

def terminalOutcome : ObligationTerminalState → FetchAttemptOutcome
  | .success => .success
  | .unchanged => .unchanged
  | .unavailable => .unavailable
  | .skippedByPolicy => .unavailable
  | .failed => .failed

/-- The planned coordinates of one work item. -/
structure ObligationBinding where
  obligationId : String
  listObligationId : String
  sourceRequestId : String
  deriving DecidableEq, Repr

inductive CaptureWrite where
  | evidence (success : FetchSuccess)
  | content (vintage : VintageId) (success : FetchSuccess)
  | attempt (attempt : FetchAttempt)
  | attemptResult (result : FetchAttemptResult)
  | observation (obligationId : String) (success : FetchSuccess) (vintage : VintageId)
  | corroboration (obligationId : String) (corroboration : Corroboration)
  | obligationResult (obligationId : String) (result : ListObligationResult)

/-- `PostgresCaptureControlSink`. -/
structure CaptureSink where
  bindings : String → Option ObligationBinding
  timeline : CaptureTimeline
  retry : RetryPolicy

namespace CaptureSink

/-- The checks of `record_outcome` on what it is handed. -/
def checkHandover (sink : CaptureSink) (item : CaptureWorkItem) (attemptReasons : List (Option ObligationReasonCode))
    (terminalState : ObligationTerminalState) (success : Option FetchSuccess) : Except String Unit :=
  if attemptReasons = [] then .error "a terminal obligation must record at least one attempt"
  else if sink.retry.maxAttempts < attemptReasons.length then
    .error (item.workItemId ++ " ran " ++ toString attemptReasons.length ++ " attempts, beyond the " ++
      toString sink.retry.maxAttempts ++ " its retry policy permits")
  else match success with
    | none => .ok ()
    | some success =>
      if success.record = none then
        .error (item.workItemId ++ " succeeded without a normalized record to persist")
      else if terminalState ≠ .success then
        .error (item.workItemId ++ " handed over a success under " ++ terminalState.value)
      else if success.servedByFailover.isSome ≠ attemptReasons.getLast?.join.isSome then
        .error (item.workItemId ++ ": a failover success must follow a primary failure, " ++
          "and a primary success must end its attempts cleanly")
      else .ok ()

def landedVintage (binding : ObligationBinding) (success : FetchSuccess) : VintageId where
  sourceRequestId := binding.sourceRequestId
  sourceRecordId := success.raw.recordId
  sourcePublishedAt := some success.transactionTime
  rawObjectId := "raw-object:" ++ success.raw.sha256

/-- `_replay_attempts` from an index on: the id of the last attempt and the rows. -/
def replayAttempts (timeline : CaptureTimeline) (terminalState : ObligationTerminalState)
    (sourceVintageId : Option VintageId) (ledger : AttemptLedger) (lastAttemptId : Option AttemptId) (index : ℕ) :
    List (Option ObligationReasonCode) → Except String (Option AttemptId × List CaptureWrite)
  | [] => .ok (lastAttemptId, [])
  | reason :: rest => do
    let terminal := rest.isEmpty
    let (attempt, started) ← ledger.start (timeline.startedAt index)
    let outcome :=
      if terminal then terminalOutcome terminalState else retriedOutcome reason
    let completedAt :=
      if terminal then timeline.terminalAttemptAt else timeline.startedAt index + retrySpacing / 2
    let (result, finished) ← started.finish attempt completedAt outcome (reason.map ObligationReasonCode.value)
      (if outcome = .success then some 200 else none)
      (if terminal ∧ outcome = .success then sourceVintageId else none) none
    let (lastId, writes) ←
      replayAttempts timeline terminalState sourceVintageId finished (some attempt.attemptId) (index + 1) rest
    return (lastId, .attempt attempt :: .attemptResult result :: writes)

def recordedCodes (attemptReasons : List (Option ObligationReasonCode)) (success : Option FetchSuccess) : List String :=
  sortedSet (attemptReasons.reduceOption.map ObligationReasonCode.value ++
    if success.any fun success => success.servedByFailover.isSome then [servedByFailoverKey] else [])

/-- The reason codes of an obligation's result: `reasons or (terminal_state.value,)`. -/
def resultCodes (attemptReasons : List (Option ObligationReasonCode)) (terminalState : ObligationTerminalState)
    (success : Option FetchSuccess) : List String :=
  if recordedCodes attemptReasons success = [] then [terminalState.value] else recordedCodes attemptReasons success

def contentWrites (binding : ObligationBinding) (success : Option FetchSuccess) : List CaptureWrite :=
  success.toList.map fun success => .content (landedVintage binding success) success

/-- `_persist_observation`, with each corroboration or its recorded loss. -/
def observationWrites (binding : ObligationBinding) (success : Option FetchSuccess) : List CaptureWrite :=
  success.toList.flatMap fun success =>
    .observation binding.obligationId success (landedVintage binding success) ::
      success.corroborations.map (.corroboration binding.obligationId)

/-- `PostgresCaptureControlSink.record_outcome`: the rows that it writes. -/
def recordOutcome (sink : CaptureSink) (item : CaptureWorkItem)
    (attemptReasons : List (Option ObligationReasonCode)) (terminalState : ObligationTerminalState)
    (success : Option FetchSuccess) : Except String (List CaptureWrite) :=
  match sink.bindings item.workItemId with
  | none => .error ("work item is not part of the persisted plan: " ++ item.workItemId)
  | some binding => do
    sink.checkHandover item attemptReasons terminalState success
    -- a success without a record has been refused above
    let vintage := success.map (landedVintage binding)
    let (finalAttemptId, attempts) ← replayAttempts sink.timeline terminalState vintage
      (.empty item.workItemId sink.retry) none 0 attemptReasons
    let result ← ListObligationResult.build
      { obligationId := binding.listObligationId
        terminalState
        completedAt := sink.timeline.completedAt
        finalAttemptId
        reasonCodes := resultCodes attemptReasons terminalState success }
    return contentWrites binding success ++ attempts ++ observationWrites binding success ++
      [.obligationResult binding.obligationId result]

end CaptureSink

end TrueAlpha.Datahub
