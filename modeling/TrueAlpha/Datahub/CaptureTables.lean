import TrueAlpha.Datahub.CaptureSink
import TrueAlpha.Lib.AppendOnly
import TrueAlpha.Lib.Dict
import TrueAlpha.Lib.PrefixCode

/-!
# The capture tables

The rows of `raw.capture_*` and `staging.capture_*` that the reuse and the freeze read, with their writers.  No row is ever
changed; an id stands for the coordinates that it hashes.
-/

namespace TrueAlpha.Datahub

open Contracts

/-! ## Plans -/

inductive SemanticType where
  | financialFact
  | listingIdentity
  | marketPrice
  | universeMembership
  deriving DecidableEq, Repr

def SemanticType.value : SemanticType → String
  | .financialFact => "financial-fact"
  | .listingIdentity => "listing-identity"
  | .marketPrice => "market-price"
  | .universeMembership => "universe-membership"

/-- `EvidenceSubject`. -/
structure Subject where
  kind : String
  id : String
  deriving DecidableEq, Repr

/-- `raw.capture_obligations` for the requirement `<semantic type>:v1`, with its logical id. -/
structure CaptureObligation where
  obligationId : String
  listObligationId : String
  runId : String
  subject : Subject
  semanticType : SemanticType
  partitionKey : String
  deriving DecidableEq, Repr

structure Coordinates where
  issuerId : String
  instrumentId : String
  listingId : String
  ticker : String
  deriving DecidableEq, Repr

/-- `SourceRequest`, whose registry entry and policy are those of the semantic type. -/
structure SourceRequest where
  fingerprintVersion : String
  ordinal : ℕ
  subject : Subject
  semanticType : SemanticType
  partitionKey : String
  origin : Option String
  deriving DecidableEq, Repr

/-- The obligations of one run in the order of their ordinals. -/
structure PlannedRun where
  runId : String
  campaignId : String
  schedulePolicyId : String
  sourceLabel : String
  cutoff : Instant
  obligations : List CaptureObligation
  coordinates : Dict String Coordinates
  retry : RetryPolicy
  freshnessWindows : List (SemanticType × ℤ)
  defaultFreshnessMaxAge : ℤ
  forcedFetch : Bool
  ofRun : ∀ obligation ∈ obligations, obligation.runId = runId
  nodup : (obligations.map CaptureObligation.obligationId).Nodup

structure NormalizedObservation where
  semanticType : SemanticType
  subject : Subject
  validFrom : Instant
  validTo : Option Instant
  knowableAt : Instant
  sourceVintageId : VintageId
  parserVersion : String
  mappingVersion : String
  payload : List (String × Json)
  deriving DecidableEq, Repr

structure ContentIds where
  sourceRequest : SourceRequest → String
  observation : NormalizedObservation → String
  sourceRequest_injective : Function.Injective sourceRequest
  observation_injective : Function.Injective observation

theorem SemanticType.value_injective : Function.Injective SemanticType.value := by
  intro a b h
  cases a <;> cases b <;> simp_all [SemanticType.value]

namespace ContentIds

open PrefixCode

def subjectCode : PrefixCode Subject :=
  (text.pair text).comap (fun subject => (subject.kind, subject.id)) fun a b h => by cases a; cases b; simp_all

def semanticTypeCode : PrefixCode SemanticType := text.comap SemanticType.value SemanticType.value_injective

def sourceRequestCode : PrefixCode SourceRequest :=
  (text.pair (nat.pair (subjectCode.pair (semanticTypeCode.pair (text.pair text.option))))).comap
    (fun request => (request.fingerprintVersion, request.ordinal, request.subject, request.semanticType,
      request.partitionKey, request.origin)) fun a b h => by cases a; cases b; simp_all

def vintageCode : PrefixCode VintageId := (text.pair (text.pair (int.option.pair text))).comap
    (fun vintage => (vintage.sourceRequestId, vintage.sourceRecordId, vintage.sourcePublishedAt, vintage.rawObjectId))
    fun a b h => by cases a; cases b; simp_all

def observationCode : PrefixCode NormalizedObservation :=
  (semanticTypeCode.pair (subjectCode.pair (int.pair (int.option.pair (int.pair (vintageCode.pair (text.pair (text.pair
    (text.pair json).list)))))))).comap
    (fun observation => (observation.semanticType, observation.subject, observation.validFrom, observation.validTo,
      observation.knowableAt, observation.sourceVintageId, observation.parserVersion, observation.mappingVersion,
      observation.payload)) fun a b h => by cases a; cases b; simp_all

def coded : ContentIds where
  sourceRequest := sourceRequestCode.encode
  observation := observationCode.encode
  sourceRequest_injective := sourceRequestCode.encode_injective
  observation_injective := observationCode.encode_injective

end ContentIds

structure PlannedCell where
  ordinal : ℕ
  obligation : CaptureObligation
  sourceRequestId : String
  workItemId : String
  deriving DecidableEq, Repr

def PlannedCell.binding (cell : PlannedCell) : ObligationBinding :=
  ⟨cell.obligation.obligationId, cell.obligation.listObligationId, cell.sourceRequestId⟩

namespace PlannedRun

variable (plan : PlannedRun) (ids : ContentIds)

def sourceRequest (ordinal : ℕ) (obligation : CaptureObligation) : SourceRequest where
  fingerprintVersion := plan.sourceLabel ++ ":v1"
  ordinal
  subject := obligation.subject
  semanticType := obligation.semanticType
  partitionKey := obligation.partitionKey
  origin := none

def corroboratingRequest (ordinal : ℕ) (obligation : CaptureObligation) (origin : String) : SourceRequest :=
  { plan.sourceRequest ordinal obligation with
    fingerprintVersion := origin ++ "-" ++ plan.sourceLabel ++ ":v1"
    origin := some origin }

def cellOf (obligation : CaptureObligation × ℕ) : PlannedCell where
  ordinal := obligation.2
  obligation := obligation.1
  sourceRequestId := ids.sourceRequest (plan.sourceRequest obligation.2 obligation.1)
  workItemId := "capture-work-item:" ++ ids.sourceRequest (plan.sourceRequest obligation.2 obligation.1)

def cells : List PlannedCell := plan.obligations.zipIdx.map (plan.cellOf ids)

def workItem (cell : PlannedCell) : CaptureWorkItem :=
  ⟨cell.workItemId, plan.campaignId, cell.sourceRequestId, plan.schedulePolicyId⟩

def sink : CaptureSink where
  bindings workItemId := ((plan.cells ids).find? fun cell => cell.workItemId = workItemId).map PlannedCell.binding
  timeline := ⟨plan.cutoff⟩
  retry := plan.retry

end PlannedRun

/-- `staging.capture_normalized_observations` with the payload and the obligation that created the row. -/
structure ObservationRow where
  observation : NormalizedObservation
  captureObligationId : String
  deriving DecidableEq, Repr

structure RunPlanRow where
  runId : String
  forcedFetch : Bool
  freshnessWindows : List (SemanticType × ℤ)
  freshnessMaxAge : ℤ
  deriving DecidableEq, Repr

/-- `usages` is `staging.capture_observation_obligations`, `results` is `raw.capture_obligation_results`. -/
structure CaptureTables where
  obligations : List CaptureObligation
  runPlans : List RunPlanRow
  attemptResults : List FetchAttemptResult
  observations : AppendOnly ObservationRow.observation
  usages : List (String × NormalizedObservation)
  results : List (String × ListObligationResult)

namespace CaptureTables

def empty : CaptureTables := ⟨[], [], [], ⟨[], List.nodup_nil⟩, [], []⟩

variable (tables : CaptureTables)

def persistPlan (plan : PlannedRun) : CaptureTables :=
  { tables with
    obligations := tables.obligations ++ plan.obligations
    runPlans := tables.runPlans ++ [⟨plan.runId, plan.forcedFetch, plan.freshnessWindows, plan.defaultFreshnessMaxAge⟩] }

/-- An attempt has one result. -/
def putAttemptResult (result : FetchAttemptResult) : Except String CaptureTables :=
  match tables.attemptResults.find? fun stored => stored.attemptId = result.attemptId with
  | none => .ok { tables with attemptResults := tables.attemptResults ++ [result] }
  | some stored =>
    if stored = result then .ok tables
    else .error "duplicate key value violates unique constraint \"capture_attempt_results_attempt_id_key\""

def bindObservation (obligationId : String) (observation : NormalizedObservation) : CaptureTables :=
  if (obligationId, observation) ∈ tables.usages then tables
  else { tables with usages := tables.usages ++ [(obligationId, observation)] }

def putObservation (obligationId : String) (observation : NormalizedObservation) : CaptureTables :=
  { tables with observations := (tables.observations.insert ⟨observation, obligationId⟩).1 }.bindObservation obligationId
    observation

def resultOf (obligationId : String) : Option ListObligationResult := tables.results.lookup obligationId

/-- An obligation has one result. -/
def putObligationResult (obligationId : String) (result : ListObligationResult) : Except String CaptureTables :=
  match tables.obligations.find? fun obligation => obligation.obligationId = obligationId with
  | none => .error ("capture obligation not found: " ++ obligationId)
  | some obligation =>
    if obligation.listObligationId ≠ result.obligationId then
      .error "terminal result logical obligation does not match capture obligation"
    else match tables.resultOf obligationId with
      | none => .ok { tables with results := tables.results ++ [(obligationId, result)] }
      | some stored =>
        if stored = result then .ok tables
        else .error
          "duplicate key value violates unique constraint \"capture_obligation_results_capture_obligation_id_key\""

def midnightOf (day : Date) : Instant := day * microsPerDay

def primaryObservation (obligation : CaptureObligation) (success : FetchSuccess) (record : NormalizedRecord)
    (vintage : VintageId) : NormalizedObservation where
  semanticType := obligation.semanticType
  subject := obligation.subject
  validFrom := midnightOf success.validFrom
  validTo := none
  knowableAt := success.transactionTime
  sourceVintageId := vintage
  parserVersion := record.parserVersion
  mappingVersion := record.mappingVersion
  payload := record.payload

/-- The observation of `_persist_corroboration`, under a request of its own. -/
def corroboratingObservation (ids : ContentIds) (plan : PlannedRun) (cell : PlannedCell)
    (corroboration : Corroboration) : NormalizedObservation where
  semanticType := cell.obligation.semanticType
  subject := cell.obligation.subject
  validFrom := corroboration.transactionTime
  validTo := none
  knowableAt := corroboration.transactionTime
  sourceVintageId :=
    { sourceRequestId := ids.sourceRequest (plan.corroboratingRequest cell.ordinal cell.obligation corroboration.origin)
      sourceRecordId := corroboration.raw.recordId
      sourcePublishedAt := some corroboration.transactionTime
      rawObjectId := "raw-object:" ++ corroboration.raw.sha256 }
  parserVersion := corroboration.record.parserVersion
  mappingVersion := corroboration.record.mappingVersion
  payload := corroboration.record.payload

/-- One write of the sink; `lost` says which corroborations cannot be persisted. -/
def applyWrite (ids : ContentIds) (plan : PlannedRun) (cell : PlannedCell) (lost : Corroboration → Bool) :
    CaptureTables → CaptureWrite → Except String CaptureTables
  | tables, .attemptResult result => tables.putAttemptResult result
  | tables, .observation obligationId success vintage =>
    match success.record with
    | none => .error "assert success.record is not None"
    | some record =>
      .ok (tables.putObservation obligationId (primaryObservation cell.obligation success record vintage))
  | tables, .corroboration obligationId corroboration =>
    if lost corroboration then .ok tables
    else .ok (tables.putObservation obligationId (corroboratingObservation ids plan cell corroboration))
  | tables, .obligationResult obligationId result => tables.putObligationResult obligationId result
  -- the evidence graph, the landed bytes and the attempts are not read here
  | tables, .evidence _ => .ok tables
  | tables, .content _ _ => .ok tables
  | tables, .attempt _ => .ok tables

def recordOutcome (ids : ContentIds) (plan : PlannedRun) (cell : PlannedCell) (lost : Corroboration → Bool)
    (attemptReasons : List (Option ObligationReasonCode)) (terminalState : ObligationTerminalState)
    (success : Option FetchSuccess) : Except String CaptureTables := do
  let writes ← (plan.sink ids).recordOutcome (plan.workItem cell) attemptReasons terminalState success
  writes.foldlM (applyWrite ids plan cell lost) tables

end CaptureTables

end TrueAlpha.Datahub
