import TrueAlpha.Contracts.Snapshot
import TrueAlpha.Lib.Run

/-!
# Factor executions

The embedding of the executable half of `execution.py`: executions, runner selections and their two builders, input-read
events, and `materialize_factor_output` with the validators that it passes through.
-/

namespace TrueAlpha.Contracts

inductive FactorKind where
  | base
  | composite
  | strategy
  deriving DecidableEq, Repr

def FactorKind.text : FactorKind → String
  | .base => "base"
  | .composite => "composite"
  | .strategy => "strategy"

structure DependencyTemplate where
  dependencyAlias : String
  templateId : String
  dependencyAlias_valid : isStableId dependencyAlias
  templateId_valid : isContentId "factor-template" templateId

/-- `others` are the fields of its dump that nothing here reads. -/
structure FactorInvocationTemplate where
  factorKind : FactorKind
  dataRequirementIds : List String
  dependencies : List DependencyTemplate
  others : List (String × Json)
  requirements_sorted : dataRequirementIds.Pairwise (· < ·)
  requirements_ne : dataRequirementIds ≠ []
  requirements_valid : ∀ id ∈ dataRequirementIds, isContentId "data-requirement" id
  dependencies_sorted : dependencies.Pairwise fun a b => a.dependencyAlias < b.dependencyAlias
  dependencies_kind : factorKind = .base ↔ dependencies = []

def FactorInvocationTemplate.content (template : FactorInvocationTemplate) : List (String × Json) := template.others ++
    [("data_requirement_ids", dumpTexts template.dataRequirementIds),
      ("dependencies", .array (template.dependencies.map fun dependency =>
        .dict [("alias", .text dependency.dependencyAlias), ("template_id", .text dependency.templateId)])),
      ("factor_kind", .text template.factorKind.text)]

structure FactorExecution where
  template : FactorInvocationTemplate
  snapshotId : String
  snapshotSha256 : String
  orderedSubjects : List SubjectRef
  upstreamBatchIds : List String
  startedAt : Instant
  snapshotId_valid : isContentId "snapshot" snapshotId
  snapshotSha256_valid : isSha256 snapshotSha256
  subjects_ne : orderedSubjects ≠ []
  subjects_nodup : orderedSubjects.Nodup
  batches_sorted : upstreamBatchIds.Pairwise (· < ·)
  batches_kind : template.factorKind = .base ↔ upstreamBatchIds = []

/-- The start is no part of it. -/
def FactorExecution.factorExecutionId (canonicalSha256 : Json → String) (execution : FactorExecution) : String :=
  "factor-execution:" ++ canonicalSha256 (.dict
    [("ordered_subjects", .array (execution.orderedSubjects.map SubjectRef.dump)),
      ("snapshot_id", .text execution.snapshotId), ("snapshot_sha256", .text execution.snapshotSha256),
      ("template", identified canonicalSha256 "factor_template_id" "factor-template" execution.template.content),
      ("upstream_batch_ids", dumpTexts execution.upstreamBatchIds)])

structure Runner where
  runnerId : String
  runnerVersion : String
  runnerImplementationSha256 : String
  deriving DecidableEq

structure ProvenanceNeutralInput where
  subject : SubjectRef
  payloadModelKey : String
  payloadSha256 : String
  validFrom : Date
  validTo : Date
  confidence : ℚ
  asOf : Instant
  deriving DecidableEq

namespace ProvenanceNeutralInput

/-- The patterns, the bounds and `validate_period`. -/
def check (input : ProvenanceNeutralInput) : Except String Unit :=
  if !isStableId input.payloadModelKey then .error "payload_model_key"
  else if !isSha256 input.payloadSha256 then .error "payload_sha256"
  else if input.confidence < 0 ∨ 1 < input.confidence then .error "confidence"
  else if input.validTo < input.validFrom then .error "input valid_to must not precede valid_from"
  else .ok ()

def dump (input : ProvenanceNeutralInput) : Json :=
  .dict [("as_of", .number input.asOf), ("confidence", .decimal input.confidence),
    ("payload_model_key", .text input.payloadModelKey), ("payload_sha256", .text input.payloadSha256),
    ("subject", input.subject.dump), ("valid_from", .number input.validFrom), ("valid_to", .number input.validTo)]

end ProvenanceNeutralInput

inductive InputEvidenceStatus where
  | verified
  | degraded
  | rejected
  deriving DecidableEq, Repr

def InputEvidenceStatus.text : InputEvidenceStatus → String
  | .verified => "verified"
  | .degraded => "degraded"
  | .rejected => "rejected"

/-- `startswith("factor-output:")`. -/
def isFactorOutput (inputId : String) : Bool := "factor-output:".toList.isPrefixOf inputId.toList

/-- The handle is its id. -/
structure RunnerInputBinding where
  handleId : String
  demand : SnapshotDemandCell
  inputId : String
  observation : ProvenanceNeutralInput
  evidenceStatus : InputEvidenceStatus
  upstreamBatchId : Option String
  deriving DecidableEq

namespace RunnerInputBinding

/-- The patterns, the observation, and `validate_binding`. -/
def check (binding : RunnerInputBinding) : Except String Unit := do
  if !isContentId "requirement-handle" binding.handleId then .error "requirement_handle_id"
  else if !(isContentId "normalized-record" binding.inputId || isContentId "factor-output" binding.inputId) then
    .error "input_id"
  else if !(binding.upstreamBatchId.all (isContentId "factor-batch")) then .error "upstream_batch_id"
  else do
    binding.observation.check
    if binding.observation.subject ≠ binding.demand.subject then
      .error "runner observation subject does not match bound demand"
    else if isFactorOutput binding.inputId ≠ binding.upstreamBatchId.isSome then
      .error "factor-output bindings must name their persisted upstream batch"
    else .ok ()

def dump (canonicalSha256 : Json → String) (binding : RunnerInputBinding) : Json :=
  .dict [("demand", binding.demand.dump canonicalSha256), ("evidence_status", .text binding.evidenceStatus.text),
    ("handle", .dict [("requirement_handle_id", .text binding.handleId)]), ("input_id", .text binding.inputId),
    ("observation", binding.observation.dump), ("upstream_batch_id", .optional .text binding.upstreamBatchId)]

end RunnerInputBinding

section Selections

variable (canonicalSha256 : Json → String)

def mintRequirementHandle (factorExecutionId snapshotId : String) (demand : SnapshotDemandCell) (inputId : String)
    (runner : Runner) : String :=
  "requirement-handle:" ++ canonicalSha256 (.dict
    [("capture_requirement_id", .text demand.captureRequirementId), ("factor_execution_id", .text factorExecutionId),
      ("input_id", .text inputId), ("planned_cell_id", .text (demand.plannedCellId canonicalSha256)),
      ("requirement_id", .text demand.requirementId), ("runner_id", .text runner.runnerId),
      ("runner_implementation_sha256", .text runner.runnerImplementationSha256),
      ("runner_version", .text runner.runnerVersion), ("snapshot_id", .text snapshotId)])

structure RunnerInputSelection where
  selectionId : String
  contentSha256 : String
  factorExecutionId : String
  snapshotId : String
  bindings : List RunnerInputBinding
  selectedAt : Instant
  runner : Runner
  deriving DecidableEq

namespace RunnerInputSelection

def content (selection : RunnerInputSelection) : Json :=
  .dict [("bindings", .array (selection.bindings.map (RunnerInputBinding.dump canonicalSha256))),
    ("factor_execution_id", .text selection.factorExecutionId), ("runner_id", .text selection.runner.runnerId),
    ("runner_implementation_sha256", .text selection.runner.runnerImplementationSha256),
    ("runner_version", .text selection.runner.runnerVersion), ("selected_at", .number selection.selectedAt),
    ("snapshot_id", .text selection.snapshotId)]

def checkFields (selection : RunnerInputSelection) : Except String Unit :=
  if !isContentId "factor-execution" selection.factorExecutionId then .error "factor_execution_id"
  else if !isContentId "snapshot" selection.snapshotId then .error "snapshot_id"
  else if !isStableId selection.runner.runnerId then .error "runner_id"
  else if !isStableId selection.runner.runnerVersion then .error "runner_version"
  else if !isSha256 selection.runner.runnerImplementationSha256 then .error "runner_implementation_sha256"
  else .ok ()

def checkHandle (selection : RunnerInputSelection) (binding : RunnerInputBinding) : Except String Unit :=
  if binding.handleId = mintRequirementHandle canonicalSha256 selection.factorExecutionId selection.snapshotId binding.demand
      binding.inputId selection.runner then .ok ()
  else .error "requirement handle was not minted for the exact runner demand binding"

/-- The validation of a selection: its bindings first, then `freeze_and_identify`. -/
def freezeAndIdentify (selection : RunnerInputSelection) : Except String RunnerInputSelection := do
  selection.bindings.forM RunnerInputBinding.check
  selection.checkFields
  let bindings := sortedBy RunnerInputBinding.handleId selection.bindings
  if ¬ (bindings.map RunnerInputBinding.handleId).Nodup then .error "runner requirement handles must be unique"
  else if ¬ (bindings.map fun binding => (binding.demand.plannedCellId canonicalSha256, binding.inputId)).Nodup then
    .error "runner demand/input bindings must be unique"
  else do
    bindings.forM (selection.checkHandle canonicalSha256)
    let frozen := { selection with bindings := bindings }
    let (selectionId, hash) ← identify canonicalSha256 "selection_id" "runner-selection" (frozen.content canonicalSha256)
      selection.selectionId selection.contentSha256
    return { frozen with selectionId := selectionId, contentSha256 := hash }

end RunnerInputSelection

def NormalizedRecordRef.observation (record : NormalizedRecordRef) (asOf : Instant) : ProvenanceNeutralInput where
  subject := record.draft.subject
  payloadModelKey := record.draft.payloadModelKey
  payloadSha256 := record.draft.payloadSha256
  validFrom := record.draft.validFrom
  validTo := record.draft.validTo
  confidence := record.confidence
  asOf := asOf

def NormalizedRecordRef.evidenceStatus (record : NormalizedRecordRef) : InputEvidenceStatus :=
  if 0 < record.confidence then .verified else .rejected

variable {canonicalSha256}

def FactorExecution.Binds (execution : FactorExecution) (snapshot : SnapshotManifest canonicalSha256) : Prop :=
  execution.snapshotId = snapshot.snapshotId ∧ execution.snapshotSha256 = snapshot.contentSha256

instance (execution : FactorExecution) (snapshot : SnapshotManifest canonicalSha256) :
    Decidable (execution.Binds snapshot) := inferInstanceAs (Decidable (_ ∧ _))

def recordBinding (execution : FactorExecution) (snapshot : SnapshotManifest canonicalSha256) (runner : Runner)
    (demand : SnapshotDemandCell) (inputId : String) : Except String RunnerInputBinding :=
  match snapshot.record? inputId with
  | none => .error inputId
  | some record =>
    .ok ⟨mintRequirementHandle canonicalSha256 (execution.factorExecutionId canonicalSha256) snapshot.snapshotId demand
        inputId runner, demand, inputId, record.observation snapshot.request.asOf, record.evidenceStatus, none⟩

def recordBindings (execution : FactorExecution) (snapshot : SnapshotManifest canonicalSha256) (runner : Runner) :
    Except String (List RunnerInputBinding) := do
  let cells := snapshot.selections.filter fun cell => cell.demand.requirementId ∈ execution.template.dataRequirementIds
  return (← cells.mapM fun cell => cell.normalizedRecordIds.mapM (recordBinding execution snapshot runner cell.demand)).flatten

def buildRunnerInputSelection (execution : FactorExecution) (snapshot : SnapshotManifest canonicalSha256)
    (selectedAt : Instant) (runner : Runner) : Except String RunnerInputSelection :=
  if ¬ execution.Binds snapshot then .error "factor execution does not bind the supplied snapshot exactly"
  else
    let missing := execution.template.dataRequirementIds.filter
      (· ∉ snapshot.selections.map (·.demand.requirementId))
    if missing ≠ [] then
      .error ("factor requirements are absent from the frozen snapshot demand: " ++ ", ".intercalate missing)
    else do
      let bindings ← recordBindings execution snapshot runner
      RunnerInputSelection.freezeAndIdentify canonicalSha256
        ⟨"", "", execution.factorExecutionId canonicalSha256, snapshot.snapshotId, bindings, selectedAt, runner⟩

end Selections

/-! ## Outputs -/

structure InputReadEvent where
  factorExecutionId : String
  selectionId : String
  requirementHandleId : String
  outputKey : String
  readIndex : ℕ
  traceId : String
  occurredAt : Instant
  factorExecutionId_valid : isContentId "factor-execution" factorExecutionId
  selectionId_valid : isContentId "runner-selection" selectionId
  requirementHandleId_valid : isContentId "requirement-handle" requirementHandleId
  outputKey_valid : isStableId outputKey
  traceId_valid : isStableId traceId

def InputReadEvent.eventId (canonicalSha256 : Json → String) (event : InputReadEvent) : String :=
  "input-read:" ++ canonicalSha256 (.dict
    [("factor_execution_id", .text event.factorExecutionId), ("occurred_at", .number event.occurredAt),
      ("output_key", .text event.outputKey), ("read_index", .number event.readIndex),
      ("requirement_handle_id", .text event.requirementHandleId), ("selection_id", .text event.selectionId),
      ("trace_id", .text event.traceId)])

inductive AvailabilityStatus where
  | available
  | unavailable
  | stale
  | excluded
  | lowConfidence
  | error
  deriving DecidableEq, Repr

def AvailabilityStatus.text : AvailabilityStatus → String
  | .available => "available"
  | .unavailable => "unavailable"
  | .stale => "stale"
  | .excluded => "excluded"
  | .lowConfidence => "low_confidence"
  | .error => "error"

/-- `others` are the fields of its dump that nothing here reads. -/
@[ext]
structure FactorOutputDraft where
  outputKey : String
  subject : SubjectRef
  outputModelKey : String
  outputPayloadSha256 : String
  availabilityStatus : AvailabilityStatus
  reasonCodes : List String
  others : List (String × Json)
  outputKey_valid : isStableId outputKey
  outputModelKey_valid : isStableId outputModelKey
  outputPayloadSha256_valid : isSha256 outputPayloadSha256
  reasons_sorted : reasonCodes.Pairwise (· < ·)
  reasons_status : availabilityStatus = .available ↔ reasonCodes = []

instance : DecidableEq FactorOutputDraft := fun _ _ => decidable_of_iff _ FactorOutputDraft.ext_iff.symm

def FactorOutputDraft.dump (draft : FactorOutputDraft) : Json := .dict (draft.others ++
    [("availability_status", .text draft.availabilityStatus.text), ("output_key", .text draft.outputKey),
      ("output_model_key", .text draft.outputModelKey), ("output_payload_sha256", .text draft.outputPayloadSha256),
      ("reason_codes", dumpTexts draft.reasonCodes), ("subject", draft.subject.dump)])

structure InputConsumptionLineage where
  requirementId : String
  captureRequirementId : String
  plannedCellId : String
  requirementHandleId : String
  inputId : String
  evidenceStatus : InputEvidenceStatus
  inputReadEventIds : List String
  traceIds : List String
  deriving DecidableEq

namespace InputConsumptionLineage

def content (lineage : InputConsumptionLineage) : List (String × Json) :=
  [("capture_requirement_id", .text lineage.captureRequirementId), ("evidence_status", .text lineage.evidenceStatus.text),
    ("input_id", .text lineage.inputId), ("input_read_event_ids", dumpTexts lineage.inputReadEventIds),
    ("planned_cell_id", .text lineage.plannedCellId), ("requirement_handle_id", .text lineage.requirementHandleId),
    ("requirement_id", .text lineage.requirementId), ("trace_ids", dumpTexts lineage.traceIds)]

def lineageId (canonicalSha256 : Json → String) (lineage : InputConsumptionLineage) : String :=
  "input-lineage:" ++ canonicalSha256 (.dict lineage.content)

/-- `freeze_and_identify`. -/
def frozen (lineage : InputConsumptionLineage) : Except String InputConsumptionLineage :=
  if lineage.inputReadEventIds = [] then .error "input_read_event_ids"
  else if lineage.traceIds = [] then .error "trace_ids"
  else if ¬ lineage.inputReadEventIds.Nodup ∨ ¬ lineage.traceIds.Nodup then
    .error "input lineage read and trace IDs must be unique"
  else
    .ok { lineage with
      inputReadEventIds := sortedBy id lineage.inputReadEventIds, traceIds := sortedBy id lineage.traceIds }

end InputConsumptionLineage

structure MaterializedFactorOutput where
  materializedOutputId : String
  contentSha256 : String
  factorExecutionId : String
  snapshotId : String
  asOf : Instant
  draft : FactorOutputDraft
  inputLineage : List InputConsumptionLineage
  upstreamOutputIds : List String
  minimumConsumedConfidence : Option ℚ
  traceComplete : Bool
  materializedAt : Instant
  deriving DecidableEq

section Outputs

variable (canonicalSha256 : Json → String)

namespace MaterializedFactorOutput

def content (output : MaterializedFactorOutput) : Json := .dict [("as_of", .number output.asOf), ("draft", output.draft.dump),
    ("factor_execution_id", .text output.factorExecutionId),
    ("input_lineage", .array (output.inputLineage.map fun lineage =>
      identified canonicalSha256 "input_lineage_id" "input-lineage" lineage.content)),
    ("materialized_at", .number output.materializedAt),
    ("minimum_consumed_confidence", .optional .decimal output.minimumConsumedConfidence),
    ("snapshot_id", .text output.snapshotId), ("trace_complete", .text (if output.traceComplete then "true" else "false")),
    ("upstream_output_ids", dumpTexts output.upstreamOutputIds)]

def consumedInputIds (output : MaterializedFactorOutput) : List String := sortedBy id (output.inputLineage.map (·.inputId))

def checkStatus (output : MaterializedFactorOutput) : Except String Unit :=
  if output.draft.availabilityStatus = .available then
    if output.inputLineage = [] then .error "available output requires runner-derived input or upstream lineage"
    else if output.inputLineage.flatMap (·.inputReadEventIds) = [] then
      .error "consumed inputs require runner-owned read events"
    else if output.inputLineage.any (·.evidenceStatus = .rejected) then
      .error "available output cannot consume rejected evidence"
    else if !output.traceComplete then .error "available output cannot be materialized with incomplete trace"
    else .ok ()
  else if output.traceComplete then .error "unavailable output cannot claim a complete successful trace"
  else .ok ()

def freezeAndIdentify (output : MaterializedFactorOutput) : Except String MaterializedFactorOutput :=
  if !output.minimumConsumedConfidence.all (fun confidence => 0 ≤ confidence ∧ confidence ≤ 1) then
    .error "minimum_consumed_confidence"
  else if output.materializedAt < output.asOf then
    .error "factor output cannot materialize before its snapshot cutoff"
  else
    let lineage := sortedBy (InputConsumptionLineage.lineageId canonicalSha256) output.inputLineage
    if ¬ (lineage.map (InputConsumptionLineage.lineageId canonicalSha256)).Nodup then
      .error "materialized input lineage rows must be unique"
    else
      let upstream := sortedSet output.upstreamOutputIds
      if upstream ≠ sortedBy id ((lineage.map (·.inputId)).filter isFactorOutput) then
        .error "upstream links must be derived exactly from consumed capability reads"
      else do
        let frozen := { output with inputLineage := lineage, upstreamOutputIds := upstream }
        frozen.checkStatus
        if lineage = [] ↔ output.minimumConsumedConfidence ≠ none then
          .error "minimum confidence must be derived exactly when inputs were consumed"
        else do
          let (outputId, hash) ← identify canonicalSha256 "materialized_output_id" "factor-output"
            (frozen.content canonicalSha256) output.materializedOutputId output.contentSha256
          return { frozen with materializedOutputId := outputId, contentSha256 := hash }

end MaterializedFactorOutput

def lineageOf (events : List InputReadEvent) (binding : RunnerInputBinding) : Except String InputConsumptionLineage :=
  let reads := events.filter (·.requirementHandleId = binding.handleId)
  InputConsumptionLineage.frozen
    ⟨binding.demand.requirementId, binding.demand.captureRequirementId, binding.demand.plannedCellId canonicalSha256,
      binding.handleId, binding.inputId, binding.evidenceStatus, reads.map (·.eventId canonicalSha256),
      sortedSet (reads.map (·.traceId))⟩

/-- The bindings that the events read, by their handles. -/
def consumedBindings (selection : RunnerInputSelection) (events : List InputReadEvent) : List RunnerInputBinding :=
  (sortedSet (events.map (·.requirementHandleId))).filterMap fun handleId =>
    selection.bindings.find? (·.handleId = handleId)

def Attributable (execution : FactorExecution) (selection : RunnerInputSelection) (event : InputReadEvent) : Prop :=
  event.factorExecutionId = execution.factorExecutionId canonicalSha256 ∧ event.selectionId = selection.selectionId ∧
    event.requirementHandleId ∈ selection.bindings.map (·.handleId)

instance (execution : FactorExecution) (selection : RunnerInputSelection) (event : InputReadEvent) :
    Decidable (Attributable canonicalSha256 execution selection event) := inferInstanceAs (Decidable (_ ∧ _))

def checkUpstream (execution : FactorExecution) (consumed : List RunnerInputBinding) : Except String Unit :=
  let upstream := consumed.filter fun binding => isFactorOutput binding.inputId
  if execution.template.factorKind = .base then
    if upstream ≠ [] then .error "base factor output cannot consume upstream factor outputs" else .ok ()
  else if upstream = [] then .error "composite and strategy outputs require materialized upstream outputs"
  else if upstream.any fun binding => !(binding.upstreamBatchId.any (· ∈ execution.upstreamBatchIds)) then
    .error "upstream factor reads are not attributable to an execution batch"
  else .ok ()

def checkEvents (execution : FactorExecution) (selection : RunnerInputSelection) (draft : FactorOutputDraft)
    (events : List InputReadEvent) : Except String Unit :=
  if events.any (·.outputKey ≠ draft.outputKey) then
    .error "read evidence for another output cannot be mixed into this materialization"
  else if events.any fun event => ¬ Attributable canonicalSha256 execution selection event then
    .error "input-read evidence is not attributable to the exact execution selection"
  else if ¬ (events.map fun event => (event.requirementHandleId, event.readIndex)).Nodup then
    .error "input-read evidence contains duplicate read positions"
  else .ok ()

variable {canonicalSha256}

def checkConsumed (execution : FactorExecution) (snapshot : SnapshotManifest canonicalSha256)
    (consumed : List RunnerInputBinding) : Except String Unit :=
  if consumed.any (·.observation.asOf ≠ snapshot.request.asOf) then
    .error "factor inputs do not share the exact snapshot cutoff"
  else
    let undeclared := sortedSet ((consumed.map (·.demand.requirementId)).filter
      (· ∉ execution.template.dataRequirementIds))
    if undeclared ≠ [] then .error ("factor read undeclared data requirements: " ++ ", ".intercalate undeclared)
    else .ok ()

def materializeFactorOutput (execution : FactorExecution) (snapshot : SnapshotManifest canonicalSha256)
    (selection : RunnerInputSelection) (draft : FactorOutputDraft) (events : List InputReadEvent)
    (materializedAt : Instant) : Except String MaterializedFactorOutput :=
  if ¬ execution.Binds snapshot then .error "factor execution does not bind the supplied snapshot exactly"
  else if selection.factorExecutionId ≠ execution.factorExecutionId canonicalSha256 then
    .error "runner selection belongs to another factor execution"
  else if selection.snapshotId ≠ execution.snapshotId then .error "runner selection belongs to another snapshot"
  else do
    checkEvents canonicalSha256 execution selection draft events
    let consumed := consumedBindings selection events
    checkConsumed execution snapshot consumed
    let lineage ← consumed.mapM (lineageOf canonicalSha256 events)
    checkUpstream execution consumed
    MaterializedFactorOutput.freezeAndIdentify canonicalSha256
      ⟨"", "", execution.factorExecutionId canonicalSha256, execution.snapshotId, snapshot.request.asOf, draft, lineage,
        sortedBy id ((consumed.map (·.inputId)).filter isFactorOutput), (consumed.map (·.observation.confidence)).min?,
        draft.availabilityStatus = .available && !lineage.isEmpty, materializedAt⟩

structure MaterializedFactorBatch where
  factorExecutionId : String
  snapshotId : String
  outputIds : List String
  repositoryCommitId : String
  persistedAt : Instant
  factorExecutionId_valid : isContentId "factor-execution" factorExecutionId
  snapshotId_valid : isContentId "snapshot" snapshotId
  outputs_sorted : outputIds.Pairwise (· < ·)
  outputs_ne : outputIds ≠ []
  repositoryCommitId_valid : isStableId repositoryCommitId

def MaterializedFactorBatch.batchId (canonicalSha256 : Json → String) (batch : MaterializedFactorBatch) : String :=
  "factor-batch:" ++ canonicalSha256 (.dict
    [("factor_execution_id", .text batch.factorExecutionId), ("output_ids", dumpTexts batch.outputIds),
      ("persisted_at", .number batch.persistedAt), ("repository_commit_id", .text batch.repositoryCommitId),
      ("snapshot_id", .text batch.snapshotId)])

def checkUpstreamInput (execution : FactorExecution) (snapshot : SnapshotManifest canonicalSha256)
    (demand : SnapshotDemandCell) (batch : MaterializedFactorBatch) (output : MaterializedFactorOutput) :
    Except String Unit :=
  if ¬ execution.Binds snapshot then .error "factor execution does not bind the supplied snapshot exactly"
  else if execution.template.factorKind = .base then .error "base factors cannot select upstream factor outputs"
  else if batch.batchId canonicalSha256 ∉ execution.upstreamBatchIds then
    .error "upstream batch is not bound by the factor execution"
  else if output.materializedOutputId ∉ batch.outputIds then .error "upstream output is absent from the persisted batch"
  else if batch.snapshotId ≠ execution.snapshotId ∨ output.snapshotId ≠ execution.snapshotId then
    .error "upstream input does not belong to the execution snapshot"
  else if output.asOf ≠ snapshot.request.asOf then .error "upstream input does not share the exact snapshot cutoff"
  else if execution.startedAt < output.materializedAt then
    .error "future-dated upstream output cannot enter a composite execution"
  else if demand ∉ snapshot.selections.map (·.demand) then .error "upstream demand is absent from the frozen snapshot"
  else if demand.requirementId ∉ execution.template.dataRequirementIds then
    .error "upstream input is not bound to a declared data requirement"
  else .ok ()

def buildRunnerUpstreamInputSelection (execution : FactorExecution) (snapshot : SnapshotManifest canonicalSha256)
    (demand : SnapshotDemandCell) (batch : MaterializedFactorBatch) (output : MaterializedFactorOutput)
    (selectedAt : Instant) (runner : Runner) : Except String RunnerInputSelection := do
  checkUpstreamInput execution snapshot demand batch output
  match output.minimumConsumedConfidence with
  | none => .error "upstream input must be available with complete runner-derived evidence"
  | some confidence =>
    if output.draft.availabilityStatus ≠ .available ∨ !output.traceComplete then
      .error "upstream input must be available with complete runner-derived evidence"
    else
      let observation : ProvenanceNeutralInput :=
        ⟨output.draft.subject, output.draft.outputModelKey, output.draft.outputPayloadSha256, snapshot.request.validOn,
          snapshot.request.validOn, confidence, snapshot.request.asOf⟩
      let handleId := mintRequirementHandle canonicalSha256 (execution.factorExecutionId canonicalSha256)
        execution.snapshotId demand output.materializedOutputId runner
      RunnerInputSelection.freezeAndIdentify canonicalSha256
        ⟨"", "", execution.factorExecutionId canonicalSha256, execution.snapshotId,
          [⟨handleId, demand, output.materializedOutputId, observation, .verified, some (batch.batchId canonicalSha256)⟩],
          selectedAt, runner⟩

end Outputs

end TrueAlpha.Contracts
