import Mathlib.Data.Finset.Basic
import TrueAlpha.Contracts.Demand
import TrueAlpha.Lib.Closure
import TrueAlpha.Lib.Run
import TrueAlpha.Time

/-!
# Usage audits

The embedding of `usage.py`: planned cells, usage events, reverse lineage, `_reconcile_usage` and
`StrategyUsageAudit.freeze_and_identify`.  What validation has checked is a field.
-/

namespace TrueAlpha.Contracts

/-! ## Cells and events -/

inductive UsageStage where
  | capture
  | normalization
  | snapshotSelection
  | factorConsumption
  | strategyConsumption
  | stateTransition
  | tradeExecution
  | valuation
  | metric
  deriving DecidableEq, Repr

namespace UsageStage

def text : UsageStage → String
  | .capture => "capture"
  | .normalization => "normalization"
  | .snapshotSelection => "snapshot_selection"
  | .factorConsumption => "factor_consumption"
  | .strategyConsumption => "strategy_consumption"
  | .stateTransition => "state_transition"
  | .tradeExecution => "trade_execution"
  | .valuation => "valuation"
  | .metric => "metric"

def all : List UsageStage :=
  [.capture, .normalization, .snapshotSelection, .factorConsumption, .strategyConsumption, .stateTransition,
    .tradeExecution, .valuation, .metric]

theorem mem_all (stage : UsageStage) : stage ∈ all := by cases stage <;> decide

def sorted (stages : Finset UsageStage) : List UsageStage := sortedBy text (all.filter (· ∈ stages))

end UsageStage

inductive UsageEmitterKind where
  | captureManifestEvaluator
  | instrumentedRunner
  deriving DecidableEq, Repr

def UsageEmitterKind.text : UsageEmitterKind → String
  | .captureManifestEvaluator => "capture_manifest_evaluator"
  | .instrumentedRunner => "instrumented_runner"

def expectedEmitter (stage : UsageStage) : UsageEmitterKind :=
  if stage ∈ [.capture, .normalization] then .captureManifestEvaluator else .instrumentedRunner

structure PlannedDemandCell extends DemandCell where
  level : RequirementLevel
  expectedStages : Finset UsageStage
  expectedStages_ne : expectedStages.Nonempty
  deriving DecidableEq

/-- The ids are sorted and unique. -/
structure DataUsageEvent extends DemandCell where
  operationId : String
  emitterKind : UsageEmitterKind
  emitterId : String
  stage : UsageStage
  runId : String
  traceId : String
  normalizedRecordIds : List String
  consumedMarketEventIds : List String
  evidenceIds : List String
  occurredAt : Instant
  recordedAt : Instant
  retainedUntil : Instant
  operationId_valid : isStableId operationId
  emitterId_valid : isStableId emitterId
  runId_valid : isStableId runId
  traceId_valid : isStableId traceId
  recorded : occurredAt ≤ recordedAt
  retained : recordedAt ≤ retainedUntil
  emitter : emitterKind = expectedEmitter stage
  normalizedRecordIds_sorted : normalizedRecordIds.Pairwise (· < ·)
  consumedMarketEventIds_sorted : consumedMarketEventIds.Pairwise (· < ·)
  evidenceIds_sorted : evidenceIds.Pairwise (· < ·)
  evidenceIds_ne : evidenceIds ≠ []
  consumes : stage ≠ .capture → normalizedRecordIds ≠ [] ∨ consumedMarketEventIds ≠ []

structure MissingDemand where
  strategyRunId : String
  plannedCellId : String
  requirementId : String
  captureRequirementId : String
  subject : SubjectRef
  partitionKey : String
  missingStages : List UsageStage
  deriving DecidableEq

structure ReverseLineageEdge where
  downstreamId : String
  upstreamId : String
  relation : String
  downstreamId_ne : downstreamId ≠ ""
  upstreamId_ne : upstreamId ≠ ""
  relation_valid : isStableId relation
  noSelf : downstreamId ≠ upstreamId

section Dumps

variable (canonicalSha256 : Json → String)

def PlannedDemandCell.dump (cell : PlannedDemandCell) : Json := .dict (cell.fields ++
    [("expected_stages", dumpTexts ((UsageStage.sorted cell.expectedStages).map UsageStage.text)),
      ("level", .text cell.level.text), ("planned_cell_id", .text (cell.plannedCellId canonicalSha256))])

namespace DataUsageEvent

def identity (event : DataUsageEvent) : List (String × Json) := event.fields ++
    [("consumed_market_event_ids", dumpTexts event.consumedMarketEventIds), ("emitter_id", .text event.emitterId),
      ("emitter_kind", .text event.emitterKind.text), ("evidence_ids", dumpTexts event.evidenceIds),
      ("normalized_record_ids", dumpTexts event.normalizedRecordIds), ("operation_id", .text event.operationId),
      ("planned_cell_id", .text (event.plannedCellId canonicalSha256)), ("run_id", .text event.runId),
      ("stage", .text event.stage.text), ("trace_id", .text event.traceId)]

def usageEventId (event : DataUsageEvent) : String := "data-usage:" ++ canonicalSha256 (.dict (event.identity canonicalSha256))

def dump (event : DataUsageEvent) : Json := .dict (event.identity canonicalSha256 ++
    [("content_sha256", .text (canonicalSha256 (.dict (event.identity canonicalSha256)))),
      ("occurred_at", .number event.occurredAt), ("recorded_at", .number event.recordedAt),
      ("retained_until", .number event.retainedUntil),
      ("usage_event_id", .text (event.usageEventId canonicalSha256))])

def consumedIds (event : DataUsageEvent) : List String :=
  event.normalizedRecordIds ++ event.consumedMarketEventIds ++ event.evidenceIds

end DataUsageEvent

def MissingDemand.dump (missing : MissingDemand) : Json := .dict [("capture_requirement_id", .text missing.captureRequirementId),
    ("missing_stages", dumpTexts (missing.missingStages.map UsageStage.text)),
    ("partition_key", .text missing.partitionKey), ("planned_cell_id", .text missing.plannedCellId),
    ("requirement_id", .text missing.requirementId), ("strategy_run_id", .text missing.strategyRunId),
    ("subject", missing.subject.dump)]

namespace ReverseLineageEdge

def content (edge : ReverseLineageEdge) : List (String × Json) :=
  [("downstream_id", .text edge.downstreamId), ("relation", .text edge.relation), ("upstream_id", .text edge.upstreamId)]

def edgeId (edge : ReverseLineageEdge) : String := "reverse-lineage-edge:" ++ canonicalSha256 (.dict edge.content)

def dump (edge : ReverseLineageEdge) : Json := .dict (edge.content ++
    [("content_sha256", .text (canonicalSha256 (.dict edge.content))),
      ("reverse_lineage_edge_id", .text (edge.edgeId canonicalSha256))])

end ReverseLineageEdge

end Dumps

abbrev StageCounts := UsageStage → Option ℕ

instance : DecidableEq StageCounts := fun counts counts' =>
  decidable_of_iff (∀ stage ∈ UsageStage.all, counts stage = counts' stage)
    ⟨fun h => funext fun stage => h stage (UsageStage.mem_all stage), fun h _ _ => h ▸ rfl⟩

section Reconcile

variable (canonicalSha256 : Json → String)

def checkEvent (strategyRunId : String) (planned : List PlannedDemandCell) (event : DataUsageEvent) : Except String Unit :=
  if event.runId ≠ strategyRunId then .error "usage event belongs to another strategy run"
  else
    match planned.find? fun cell => cell.plannedCellId canonicalSha256 = event.plannedCellId canonicalSha256 with
    | none => .error ("usage event is not declared by planned demand: " ++ event.plannedCellId canonicalSha256)
    | some cell =>
      if event.toDemandCell ≠ cell.toDemandCell then .error "usage event demand binding does not match planned demand"
      else if event.stage ∉ cell.expectedStages then
        .error "usage event stage is undeclared for the planned demand cell"
      else .ok ()

def eventStages (events : List DataUsageEvent) (cell : PlannedDemandCell) : Finset UsageStage :=
  ((events.filter fun event => event.plannedCellId canonicalSha256 = cell.plannedCellId canonicalSha256).map
    (·.stage)).toFinset

def missingDemand (strategyRunId : String) (events : List DataUsageEvent) (cell : PlannedDemandCell) : Option MissingDemand :=
  let missing := cell.expectedStages \ eventStages canonicalSha256 events cell
  if cell.level = .required ∧ missing ≠ ∅ then
    some ⟨strategyRunId, cell.plannedCellId canonicalSha256, cell.requirementId, cell.captureRequirementId, cell.subject,
      cell.partitionKey, UsageStage.sorted missing⟩
  else none

/-- What `_reconcile_usage` returns. -/
structure ReconciledUsage where
  planned : List PlannedDemandCell
  events : List DataUsageEvent
  missing : List MissingDemand
  counts : StageCounts

def reconcileUsage (strategyRunId : String) (plannedCells : List PlannedDemandCell) (events : List DataUsageEvent) :
    Except String ReconciledUsage :=
  let planned : List PlannedDemandCell := sortedBy (·.plannedCellId canonicalSha256) plannedCells
  let ordered : List DataUsageEvent := sortedBy (·.usageEventId canonicalSha256) events
  if ¬ (planned.map (·.plannedCellId canonicalSha256)).Nodup then .error "planned demand cells must be unique"
  else if ¬ (ordered.map (·.usageEventId canonicalSha256)).Nodup then
    .error "duplicate idempotent usage events cannot be counted twice"
  else do
    ordered.forM (checkEvent canonicalSha256 strategyRunId planned)
    return ⟨planned, ordered, planned.filterMap (missingDemand canonicalSha256 strategyRunId ordered),
      fun stage => some (ordered.countP (·.stage = stage))⟩

end Reconcile

/-- `adjacency.get(node)`: what the edges of a node lead to. -/
def upstreamOf (edges : List ReverseLineageEdge) (node : String) : List String :=
  (edges.filter (·.downstreamId = node)).map (·.upstreamId)

/-- The loop over `reachable` from the run; every sweep but the last reaches a new end of an edge. -/
def reachableFrom (edges : List ReverseLineageEdge) (strategyRunId : String) : Option (List String) :=
  closure (upstreamOf edges) (edges.length + 1) [strategyRunId]

/-! ## The audit -/

structure AuditScope where
  researchCatalogId : String
  researchCatalogSha256 : String
  universeRef : UniverseRef
  applicabilityCatalogId : String
  applicabilityCatalogSha256 : String
  sloCatalogId : String
  sloCatalogSha256 : String
  releaseManifestId : String
  registrySnapshot : RegistrySnapshot
  auditorId : String
  auditorVersion : String
  auditorImplementationSha256 : String
  researchCatalogId_valid : isContentId "research-catalog" researchCatalogId
  researchCatalogSha256_valid : isSha256 researchCatalogSha256
  applicabilityCatalogId_valid : isContentId "applicability" applicabilityCatalogId
  applicabilityCatalogSha256_valid : isSha256 applicabilityCatalogSha256
  sloCatalogId_ne : sloCatalogId ≠ ""
  sloCatalogSha256_valid : isSha256 sloCatalogSha256
  releaseManifestId_valid : isContentId "release-manifest" releaseManifestId
  auditorId_valid : isStableId auditorId
  auditorVersion_valid : isStableId auditorVersion
  auditorImplementationSha256_valid : isSha256 auditorImplementationSha256

namespace AuditScope

def fields (scope : AuditScope) : List (String × Json) := [("applicability_catalog_id", .text scope.applicabilityCatalogId),
    ("applicability_catalog_sha256", .text scope.applicabilityCatalogSha256), ("auditor_id", .text scope.auditorId),
    ("auditor_implementation_sha256", .text scope.auditorImplementationSha256),
    ("auditor_version", .text scope.auditorVersion), ("registry_snapshot", scope.registrySnapshot.dump),
    ("release_manifest_id", .text scope.releaseManifestId), ("research_catalog_id", .text scope.researchCatalogId),
    ("research_catalog_sha256", .text scope.researchCatalogSha256), ("slo_catalog_id", .text scope.sloCatalogId),
    ("slo_catalog_sha256", .text scope.sloCatalogSha256), ("universe", scope.universeRef.dump)]

def derivationInputs (scope : AuditScope) : List String :=
  [scope.researchCatalogId, "universe-ref:" ++ scope.universeRef.contentSha256, scope.applicabilityCatalogId,
    scope.sloCatalogId, scope.releaseManifestId, scope.registrySnapshot.registrySnapshotId,
    scope.registrySnapshot.sourceRegistrySnapshotId, scope.registrySnapshot.semanticTypeRegistrySnapshotId]

end AuditScope

structure AffectedIds where
  decision : List String
  stateTransition : List String
  trade : List String
  valuation : List String
  metric : List String
  deriving DecidableEq

namespace AffectedIds

def all (affected : AffectedIds) : List String :=
  affected.decision ++ affected.stateTransition ++ affected.trade ++ affected.valuation ++ affected.metric

def checkField (name : String) (values : List String) : Except String (List String) :=
  if values.Nodup then .ok (sortedBy id values) else .error (name ++ " must contain unique identities")

def checked (affected : AffectedIds) : Except String AffectedIds := do
  return ⟨← checkField "affected_decision_ids" affected.decision,
    ← checkField "affected_state_transition_ids" affected.stateTransition,
    ← checkField "affected_trade_ids" affected.trade,
    ← checkField "affected_valuation_ids" affected.valuation,
    ← checkField "affected_metric_ids" affected.metric⟩

def fields (affected : AffectedIds) : List (String × Json) :=
  [("affected_decision_ids", dumpTexts affected.decision), ("affected_metric_ids", dumpTexts affected.metric),
    ("affected_state_transition_ids", dumpTexts affected.stateTransition),
    ("affected_trade_ids", dumpTexts affected.trade), ("affected_valuation_ids", dumpTexts affected.valuation)]

end AffectedIds

structure StrategyUsageAudit where
  strategyUsageAuditId : String
  contentSha256 : String
  strategyRunId : String
  scope : AuditScope
  runStartedAt : Instant
  runCompletedAt : Instant
  auditedAt : Instant
  plannedCells : List PlannedDemandCell
  usageEvents : List DataUsageEvent
  traceBundleIds : List String
  reverseLineage : List ReverseLineageEdge
  affected : AffectedIds
  derivationInputIds : List String
  missingRequired : List MissingDemand
  countsByStage : StageCounts
  telemetryComplete : Bool

namespace StrategyUsageAudit

variable (canonicalSha256 : Json → String)

def contentFields (audit : StrategyUsageAudit) : List (String × Json) := audit.scope.fields ++ audit.affected.fields ++
    [("audited_at", .number audit.auditedAt), ("counts_by_stage", .dict (UsageStage.all.filterMap fun stage =>
        (audit.countsByStage stage).map fun count => (stage.text, .number count))),
      ("derivation_input_ids", dumpTexts audit.derivationInputIds),
      ("missing_required", .array (audit.missingRequired.map MissingDemand.dump)),
      ("planned_cells", .array (audit.plannedCells.map (PlannedDemandCell.dump canonicalSha256))),
      ("reverse_lineage", .array (audit.reverseLineage.map (ReverseLineageEdge.dump canonicalSha256))),
      ("run_completed_at", .number audit.runCompletedAt), ("run_started_at", .number audit.runStartedAt),
      ("strategy_run_id", .text audit.strategyRunId),
      ("telemetry_complete", .text (if audit.telemetryComplete then "true" else "false")),
      ("trace_bundle_ids", dumpTexts audit.traceBundleIds),
      ("usage_events", .array (audit.usageEvents.map (DataUsageEvent.dump canonicalSha256)))]

def content (audit : StrategyUsageAudit) : Json := .dict (audit.contentFields canonicalSha256)

def dump (audit : StrategyUsageAudit) : Json := .dict (audit.contentFields canonicalSha256 ++
    [("content_sha256", .text audit.contentSha256), ("strategy_usage_audit_id", .text audit.strategyUsageAuditId)])

def checkFields (audit : StrategyUsageAudit) : Except String Unit :=
  if !isStableId audit.strategyRunId then .error "strategy_run_id"
  else if audit.plannedCells = [] then .error "planned_cells"
  else if audit.traceBundleIds = [] then .error "trace_bundle_ids"
  else if audit.reverseLineage = [] then .error "reverse_lineage"
  else if audit.affected.decision = [] then .error "affected_decision_ids"
  else .ok ()

def checkTraceBundles (audit : StrategyUsageAudit) : Except String (List String) :=
  let bundles := sortedBy id audit.traceBundleIds
  if bundles.Nodup ∧ ∀ item ∈ bundles, "trace-bundle:".toList <+: item.toList then .ok bundles
  else .error "strategy usage audit requires unique content-addressed trace bundles"

def checkEdges (audit : StrategyUsageAudit) : Except String (List ReverseLineageEdge) :=
  let edges := sortedBy (·.edgeId canonicalSha256) audit.reverseLineage
  if (edges.map (·.edgeId canonicalSha256)).Nodup then .ok edges
  else .error "strategy usage audit reverse-lineage edges must be unique"

def requiredIds (affected : AffectedIds) (events : List DataUsageEvent) : List String :=
  affected.all ++ events.map (·.traceId) ++ events.flatMap (·.consumedIds)

/-- `unresolved`. -/
def checkLineage (edges : List ReverseLineageEdge) (strategyRunId : String) (required : List String) : Except String Unit :=
  let reachable := (reachableFrom edges strategyRunId).getD []
  let unresolved := sortedSet (required.filter (· ∉ reachable))
  if unresolved = [] then .ok ()
  else .error ("strategy usage reverse lineage is incomplete: " ++ ", ".intercalate unresolved)

def derivationInputs (scope : AuditScope) (planned : List PlannedDemandCell) (events : List DataUsageEvent)
    (edges : List ReverseLineageEdge) (traceBundles : List String) : List String :=
  sortedSet (scope.derivationInputs ++ planned.map (·.plannedCellId canonicalSha256) ++ planned.map (·.requirementId) ++
    planned.map (·.captureRequirementId) ++ events.map (·.usageEventId canonicalSha256) ++
    edges.map (·.edgeId canonicalSha256) ++ traceBundles)

def checkSupplied (supplied : Bool) (same : Bool) (message : String) : Except String Unit :=
  if supplied && !same then .error message else .ok ()

/-- `telemetrySet` says whether `telemetry_complete` was supplied. -/
def freezeAndIdentify (telemetrySet : Bool) (audit : StrategyUsageAudit) : Except String StrategyUsageAudit := do
  audit.checkFields
  if audit.runCompletedAt < audit.runStartedAt then .error "strategy run cannot complete before it starts"
  else if audit.auditedAt < audit.runCompletedAt then
    .error "strategy usage cannot be audited before the run completes"
  else do
    let usage ← reconcileUsage canonicalSha256 audit.strategyRunId audit.plannedCells audit.usageEvents
    if usage.events.any (audit.auditedAt < ·.recordedAt) then
      .error "strategy usage audit cannot contain future telemetry"
    else do
      let traceBundles ← audit.checkTraceBundles
      let edges ← audit.checkEdges canonicalSha256
      let affected ← audit.affected.checked
      checkLineage edges audit.strategyRunId (requiredIds affected usage.events)
      let derivationInputIds := derivationInputs canonicalSha256 audit.scope usage.planned usage.events edges traceBundles
      let complete := decide (usage.missing = []) && !usage.events.isEmpty
      checkSupplied (audit.derivationInputIds ≠ []) (audit.derivationInputIds = derivationInputIds)
        "derivation_input_ids must be derived from exact audit inputs"
      checkSupplied (audit.missingRequired ≠ []) (audit.missingRequired = usage.missing)
        "missing_required must be derived from planned demand and events"
      checkSupplied (audit.countsByStage ≠ fun _ => none) (audit.countsByStage = usage.counts)
        "counts_by_stage must be derived from usage events"
      checkSupplied telemetrySet (audit.telemetryComplete = complete)
        "telemetry_complete must be derived from the complete run audit"
      let frozen : StrategyUsageAudit :=
        { audit with
          plannedCells := usage.planned, usageEvents := usage.events, traceBundleIds := traceBundles,
          reverseLineage := edges, affected := affected, derivationInputIds := derivationInputIds,
          missingRequired := usage.missing, countsByStage := usage.counts, telemetryComplete := complete }
      let (auditId, hash) ← identify canonicalSha256 "strategy_usage_audit_id" "strategy-usage-audit"
        (frozen.content canonicalSha256) audit.strategyUsageAuditId audit.contentSha256
      return { frozen with strategyUsageAuditId := auditId, contentSha256 := hash }

end StrategyUsageAudit

end TrueAlpha.Contracts
