import TrueAlpha.Contracts.Usage

/-!
# What an accepted audit says

An accepted audit is complete exactly when every required cell was exercised at all its stages; its events and its lineage are
those of its cells, and its identity does not depend on the order of its inputs.
-/

namespace TrueAlpha.Contracts

variable {canonicalSha256 : Json → String} {strategyRunId : String} {planned plannedCells : List PlannedDemandCell}
  {events : List DataUsageEvent} {edges : List ReverseLineageEdge} {usage : ReconciledUsage} {cell : PlannedDemandCell}
  {event : DataUsageEvent} {supplied audit : StrategyUsageAudit} {telemetrySet : Bool}

def BoundTo (event : DataUsageEvent) (cell : PlannedDemandCell) : Prop := event.toDemandCell = cell.toDemandCell

theorem checkEvent_eq_ok (h : checkEvent canonicalSha256 strategyRunId planned event = .ok ()) :
    event.runId = strategyRunId ∧ ∃ cell ∈ planned, BoundTo event cell ∧ event.stage ∈ cell.expectedStages := by
  unfold checkEvent at h
  split at h
  · cases h
  · next hrun =>
    refine ⟨not_not.mp hrun, ?_⟩
    split at h
    · cases h
    · next cell hfind =>
      split at h
      · cases h
      · next hbound =>
        split at h
        · cases h
        · next hstage => exact ⟨cell, List.mem_of_find?_eq_some hfind, not_not.mp hbound, not_not.mp hstage⟩

/-- The cells and events of `_reconcile_usage` are in order, and every event is of a cell. -/
structure Reconciled (canonicalSha256 : Json → String) (strategyRunId : String) (usage : ReconciledUsage) : Prop where
  planned_nodup : (usage.planned.map (·.plannedCellId canonicalSha256)).Nodup
  events_nodup : (usage.events.map (·.usageEventId canonicalSha256)).Nodup
  events_checked : ∀ event ∈ usage.events, event.runId = strategyRunId ∧
    ∃ cell ∈ usage.planned, BoundTo event cell ∧ event.stage ∈ cell.expectedStages
  missing : usage.missing = usage.planned.filterMap (missingDemand canonicalSha256 strategyRunId usage.events)
  counts : ∀ stage, usage.counts stage = some (usage.events.countP (·.stage = stage))

theorem reconcileUsage_eq_ok (h : reconcileUsage canonicalSha256 strategyRunId plannedCells events = .ok usage) :
    usage.planned.Perm plannedCells ∧ usage.events.Perm events ∧ Reconciled canonicalSha256 strategyRunId usage := by
  unfold reconcileUsage at h
  dsimp only at h
  split at h
  · cases h
  · next hplanned =>
    split at h
    · cases h
    · next hevents =>
      obtain ⟨_, hchecked, h⟩ := bind_eq_ok_iff.mp h
      cases h
      refine ⟨perm_sortedBy _ _, perm_sortedBy _ _, not_not.mp hplanned, not_not.mp hevents, fun event hevent => ?_, rfl,
        fun _ => rfl⟩
      exact checkEvent_eq_ok (forM_eq_ok_iff.mp hchecked event hevent)

theorem Reconciled.mem_eventStages (h : Reconciled canonicalSha256 strategyRunId usage) {stage : UsageStage}
    (hcell : cell ∈ usage.planned) :
    stage ∈ eventStages canonicalSha256 usage.events cell ↔ ∃ event ∈ usage.events, BoundTo event cell ∧ event.stage = stage := by
  rw [eventStages, List.mem_toFinset, List.mem_map]
  constructor
  · rintro ⟨event, hmem, rfl⟩
    obtain ⟨hevent, hid⟩ := List.mem_filter.mp hmem
    obtain ⟨-, other, hother, hbound, -⟩ := h.events_checked event hevent
    have hsame : other.plannedCellId canonicalSha256 = cell.plannedCellId canonicalSha256 := by
      rw [← of_decide_eq_true hid]
      exact congrArg (DemandCell.plannedCellId canonicalSha256) hbound.symm
    have heq : other = cell := List.inj_on_of_nodup_map h.planned_nodup hother hcell hsame
    exact ⟨event, hevent, heq ▸ hbound, rfl⟩
  · rintro ⟨event, hevent, hbound, hstage⟩
    refine ⟨event, List.mem_filter.mpr ⟨hevent, decide_eq_true ?_⟩, hstage⟩
    exact congrArg (DemandCell.plannedCellId canonicalSha256) hbound

def Exercised (events : List DataUsageEvent) (cell : PlannedDemandCell) : Prop :=
  ∀ stage ∈ cell.expectedStages, ∃ event ∈ events, BoundTo event cell ∧ event.stage = stage

theorem Reconciled.missing_eq_nil_iff (h : Reconciled canonicalSha256 strategyRunId usage) :
    usage.missing = [] ↔ ∀ cell ∈ usage.planned, cell.level = .required → Exercised usage.events cell := by
  rw [h.missing, List.filterMap_eq_nil_iff]
  refine forall₂_congr fun cell hcell => ?_
  have hstages : cell.expectedStages \ eventStages canonicalSha256 usage.events cell = ∅ ↔ Exercised usage.events cell := by
    rw [Finset.sdiff_eq_empty_iff_subset]
    exact forall₂_congr fun stage _ => h.mem_eventStages hcell
  rw [← hstages, missingDemand]
  by_cases hlevel : cell.level = .required
  · by_cases hempty : cell.expectedStages \ eventStages canonicalSha256 usage.events cell = ∅ <;> simp [hlevel, hempty]
  · simp [hlevel]

def LeadsTo (edges : List ReverseLineageEdge) (downstreamId upstreamId : String) : Prop :=
  ∃ edge ∈ edges, edge.downstreamId = downstreamId ∧ edge.upstreamId = upstreamId

def ReachableFrom (edges : List ReverseLineageEdge) (strategyRunId id : String) : Prop :=
  Relation.ReflTransGen (LeadsTo edges) strategyRunId id

theorem mem_upstreamOf {downstreamId upstreamId : String} :
    upstreamId ∈ upstreamOf edges downstreamId ↔ LeadsTo edges downstreamId upstreamId := by
  rw [upstreamOf, List.mem_map]
  constructor
  · rintro ⟨edge, hmem, rfl⟩
    obtain ⟨hedge, hdown⟩ := List.mem_filter.mp hmem
    exact ⟨edge, hedge, of_decide_eq_true hdown, rfl⟩
  · rintro ⟨edge, hedge, hdown, rfl⟩
    exact ⟨edge, List.mem_filter.mpr ⟨hedge, decide_eq_true hdown⟩, rfl⟩

theorem exists_reachableFrom (edges : List ReverseLineageEdge) (strategyRunId : String) :
    ∃ reachable, reachableFrom edges strategyRunId = some reachable ∧
      ∀ id, id ∈ reachable ↔ ReachableFrom edges strategyRunId id := by
  have hnodup : [strategyRunId].Nodup := List.nodup_singleton _
  have hends : ∀ node ∈ strategyRunId :: edges.map (·.upstreamId),
      upstreamOf edges node ⊆ strategyRunId :: edges.map (·.upstreamId) := by
    intro node _ id hid
    obtain ⟨edge, hedge, -, rfl⟩ := mem_upstreamOf.mp hid
    exact List.mem_cons_of_mem _ (List.mem_map_of_mem hedge)
  have hfuel : (strategyRunId :: edges.map (·.upstreamId)).length < edges.length + 1 + [strategyRunId].length := by simp
  obtain ⟨reachable, hreachable⟩ := exists_closure (strategyRunId :: edges.map (·.upstreamId)) hnodup (by simp) hends hfuel
  refine ⟨reachable, hreachable, fun id => ?_⟩
  rw [mem_closure_iff hnodup hreachable]
  have hrelation : (fun a b => b ∈ upstreamOf edges a) = LeadsTo edges := by
    funext a b
    exact propext mem_upstreamOf
  constructor
  · rintro ⟨source, hsource, hpath⟩
    rw [List.mem_singleton.mp hsource, hrelation] at hpath
    exact hpath
  · intro hpath
    exact ⟨strategyRunId, List.mem_singleton_self _, hrelation ▸ hpath⟩

theorem checkLineage_eq_ok {required : List String} (h : StrategyUsageAudit.checkLineage edges strategyRunId required = .ok ()) :
    ∀ id ∈ required, ReachableFrom edges strategyRunId id := by
  obtain ⟨reachable, hreachable, hmem⟩ := exists_reachableFrom edges strategyRunId
  unfold StrategyUsageAudit.checkLineage at h
  rw [hreachable, Option.getD_some] at h
  dsimp only at h
  split at h
  · next hnil =>
    intro id hid
    by_contra hnot
    have hin : id ∈ sortedSet (required.filter (· ∉ reachable)) := by
      rw [mem_sortedSet, List.mem_filter, decide_eq_true_eq, hmem]
      exact ⟨hid, hnot⟩
    rw [hnil] at hin
    cases hin
  · cases h

structure Accepted (canonicalSha256 : Json → String) (supplied audit : StrategyUsageAudit) : Prop where
  run : audit.strategyRunId = supplied.strategyRunId
  planned : audit.plannedCells.Perm supplied.plannedCells
  events : audit.usageEvents.Perm supplied.usageEvents
  reconciled : Reconciled canonicalSha256 audit.strategyRunId
    ⟨audit.plannedCells, audit.usageEvents, audit.missingRequired, audit.countsByStage⟩
  lineage : ∀ id ∈ StrategyUsageAudit.requiredIds audit.affected audit.usageEvents,
    ReachableFrom audit.reverseLineage audit.strategyRunId id
  complete : audit.telemetryComplete = (decide (audit.missingRequired = []) && !audit.usageEvents.isEmpty)

theorem freezeAndIdentify_eq_ok (h : supplied.freezeAndIdentify canonicalSha256 telemetrySet = .ok audit) :
    Accepted canonicalSha256 supplied audit := by
  unfold StrategyUsageAudit.freezeAndIdentify at h
  obtain ⟨_, -, h⟩ := bind_eq_ok_iff.mp h
  split at h
  · cases h
  · split at h
    · cases h
    · obtain ⟨usage, husage, h⟩ := bind_eq_ok_iff.mp h
      split at h
      · cases h
      · obtain ⟨traceBundles, -, h⟩ := bind_eq_ok_iff.mp h
        obtain ⟨edges, -, h⟩ := bind_eq_ok_iff.mp h
        obtain ⟨affected, -, h⟩ := bind_eq_ok_iff.mp h
        obtain ⟨_, hlineage, h⟩ := bind_eq_ok_iff.mp h
        obtain ⟨_, -, h⟩ := bind_eq_ok_iff.mp h
        obtain ⟨_, -, h⟩ := bind_eq_ok_iff.mp h
        obtain ⟨_, -, h⟩ := bind_eq_ok_iff.mp h
        obtain ⟨_, -, h⟩ := bind_eq_ok_iff.mp h
        obtain ⟨⟨auditId, hash⟩, -, h⟩ := bind_eq_ok_iff.mp h
        cases h
        obtain ⟨hplanned, hevents, hreconciled⟩ := reconcileUsage_eq_ok husage
        exact ⟨rfl, hplanned, hevents, hreconciled, checkLineage_eq_ok hlineage, rfl⟩

theorem Accepted.telemetryComplete_iff (h : Accepted canonicalSha256 supplied audit) :
    audit.telemetryComplete = true ↔ audit.usageEvents ≠ [] ∧
      ∀ cell ∈ audit.plannedCells, cell.level = .required → Exercised audit.usageEvents cell := by
  rw [h.complete, Bool.and_eq_true, decide_eq_true_eq, h.reconciled.missing_eq_nil_iff, Bool.not_eq_true',
    List.isEmpty_eq_false_iff, and_comm]

/-! ## Order -/

theorem sortedBy_perm {α : Type} (key : α → String) {l l' : List α} (h : l'.Perm l) :
    (((sortedBy key l').map key).Nodup ↔ ((sortedBy key l).map key).Nodup) ∧
      (((sortedBy key l).map key).Nodup → sortedBy key l' = sortedBy key l) := by
  have hnodup : ∀ l : List α, ((sortedBy key l).map key).Nodup ↔ (l.map key).Nodup := fun l =>
    ((perm_sortedBy key l).map key).nodup_iff
  refine ⟨by rw [hnodup, hnodup, (h.map key).nodup_iff], fun hn => ?_⟩
  exact (sortedBy_eq_of_perm key h.symm ((hnodup l).mp hn)).symm

theorem reconcileUsage_perm {plannedCells' : List PlannedDemandCell} {events' : List DataUsageEvent}
    (hplanned : plannedCells'.Perm plannedCells) (hevents : events'.Perm events) :
    reconcileUsage canonicalSha256 strategyRunId plannedCells' events' =
      reconcileUsage canonicalSha256 strategyRunId plannedCells events := by
  obtain ⟨hiff, heq⟩ := sortedBy_perm (fun cell : PlannedDemandCell => cell.plannedCellId canonicalSha256) hplanned
  obtain ⟨hiff', heq'⟩ := sortedBy_perm (fun event : DataUsageEvent => event.usageEventId canonicalSha256) hevents
  unfold reconcileUsage
  dsimp only
  by_cases hn : ((sortedBy (fun cell : PlannedDemandCell => cell.plannedCellId canonicalSha256) plannedCells).map
      fun cell => cell.plannedCellId canonicalSha256).Nodup
  · by_cases hn' : ((sortedBy (fun event : DataUsageEvent => event.usageEventId canonicalSha256) events).map
        fun event => event.usageEventId canonicalSha256).Nodup
    · rw [heq hn, heq' hn']
    · rw [if_neg (not_not.mpr hn), if_neg (not_not.mpr (hiff.mpr hn)), if_pos hn', if_pos (mt hiff'.mp hn')]
  · rw [if_pos hn, if_pos (mt hiff.mp hn)]

theorem checkEdges_perm {audit' : StrategyUsageAudit} (h : audit'.reverseLineage.Perm audit.reverseLineage) :
    audit'.checkEdges canonicalSha256 = audit.checkEdges canonicalSha256 := by
  obtain ⟨hiff, heq⟩ := sortedBy_perm (fun edge : ReverseLineageEdge => edge.edgeId canonicalSha256) h
  unfold StrategyUsageAudit.checkEdges
  dsimp only
  by_cases hn : ((sortedBy (fun edge : ReverseLineageEdge => edge.edgeId canonicalSha256) audit.reverseLineage).map
      fun edge => edge.edgeId canonicalSha256).Nodup
  · rw [heq hn]
  · rw [if_neg hn, if_neg (mt hiff.mp hn)]

structure AffectedIds.Reordered (affected' affected : AffectedIds) : Prop where
  decision : affected'.decision.Perm affected.decision
  stateTransition : affected'.stateTransition.Perm affected.stateTransition
  trade : affected'.trade.Perm affected.trade
  valuation : affected'.valuation.Perm affected.valuation
  metric : affected'.metric.Perm affected.metric

theorem checkField_perm {name : String} {values values' : List String} (h : values'.Perm values) :
    AffectedIds.checkField name values' = AffectedIds.checkField name values := by
  unfold AffectedIds.checkField
  by_cases hn : values.Nodup
  · rw [if_pos hn, if_pos (h.nodup_iff.mpr hn), sortedBy_eq_of_perm id h (by rw [List.map_id, h.nodup_iff]; exact hn)]
  · rw [if_neg hn, if_neg (mt h.nodup_iff.mp hn)]

theorem AffectedIds.Reordered.checked {affected' affected : AffectedIds} (h : affected'.Reordered affected) :
    affected'.checked = affected.checked := by
  unfold AffectedIds.checked
  rw [checkField_perm h.decision, checkField_perm h.stateTransition, checkField_perm h.trade, checkField_perm h.valuation,
    checkField_perm h.metric]

def StrategyUsageAudit.reorder (audit : StrategyUsageAudit) (plannedCells : List PlannedDemandCell)
    (events : List DataUsageEvent) (edges : List ReverseLineageEdge) (affected : AffectedIds) : StrategyUsageAudit :=
  { audit with plannedCells := plannedCells, usageEvents := events, reverseLineage := edges, affected := affected }

theorem freezeAndIdentify_reorder {affected : AffectedIds} (hplanned : plannedCells.Perm audit.plannedCells)
    (hevents : events.Perm audit.usageEvents) (hedges : edges.Perm audit.reverseLineage)
    (haffected : affected.Reordered audit.affected) :
    (audit.reorder plannedCells events edges affected).freezeAndIdentify canonicalSha256 telemetrySet =
      audit.freezeAndIdentify canonicalSha256 telemetrySet := by
  have hfields : (audit.reorder plannedCells events edges affected).checkFields = audit.checkFields := by
    unfold StrategyUsageAudit.checkFields StrategyUsageAudit.reorder
    simp only [← List.length_eq_zero_iff, hplanned.length_eq, hedges.length_eq, haffected.decision.length_eq]
  have hlineage : (audit.reorder plannedCells events edges affected).checkEdges canonicalSha256 =
      audit.checkEdges canonicalSha256 := checkEdges_perm hedges
  unfold StrategyUsageAudit.freezeAndIdentify
  rw [hfields, hlineage]
  unfold StrategyUsageAudit.reorder StrategyUsageAudit.checkTraceBundles
  dsimp only
  rw [reconcileUsage_perm hplanned hevents, haffected.checked]

/-- An accepted audit is complete exactly when there is an event and every required cell was exercised; its events are of its
cells; its lineage reaches all that it names; the order of its inputs does not matter. -/
theorem accepted_audit_is_exact (canonicalSha256 : Json → String) (supplied audit : StrategyUsageAudit)
    (telemetrySet : Bool) (h : supplied.freezeAndIdentify canonicalSha256 telemetrySet = .ok audit) :
    (audit.telemetryComplete = true ↔ audit.usageEvents ≠ [] ∧
      ∀ cell ∈ audit.plannedCells, cell.level = .required → Exercised audit.usageEvents cell) ∧
    (audit.plannedCells.Perm supplied.plannedCells ∧ audit.usageEvents.Perm supplied.usageEvents) ∧
    (∀ event ∈ audit.usageEvents, event.runId = audit.strategyRunId ∧
      ∃ cell ∈ audit.plannedCells, BoundTo event cell ∧ event.stage ∈ cell.expectedStages) ∧
    (audit.usageEvents.Nodup ∧ ∀ stage, audit.countsByStage stage = some (audit.usageEvents.countP (·.stage = stage))) ∧
    (∀ id ∈ audit.affected.all ++ audit.usageEvents.map (·.traceId) ++ audit.usageEvents.flatMap (·.consumedIds),
      ReachableFrom audit.reverseLineage audit.strategyRunId id) ∧
    (∃ reachable, reachableFrom audit.reverseLineage audit.strategyRunId = some reachable ∧
      ∀ id, id ∈ reachable ↔ ReachableFrom audit.reverseLineage audit.strategyRunId id) ∧
    ∀ plannedCells events edges affected, plannedCells.Perm supplied.plannedCells → events.Perm supplied.usageEvents →
      edges.Perm supplied.reverseLineage → AffectedIds.Reordered affected supplied.affected →
      (supplied.reorder plannedCells events edges affected).freezeAndIdentify canonicalSha256 telemetrySet = .ok audit := by
  have haccepted := freezeAndIdentify_eq_ok h
  refine ⟨haccepted.telemetryComplete_iff, ⟨haccepted.planned, haccepted.events⟩, haccepted.reconciled.events_checked,
    ⟨.of_map _ haccepted.reconciled.events_nodup, haccepted.reconciled.counts⟩, haccepted.lineage,
    exists_reachableFrom .., fun plannedCells events edges affected hplanned hevents hedges haffected => ?_⟩
  rw [freezeAndIdentify_reorder hplanned hevents hedges haffected, h]

/-! ### One run -/

def edgeSha256 : Json → String
  | .field _ _ (.field _ _ (.field _ (.text upstreamId) .empty)) => digestOf (upstreamId.toList.getLastD 'f')
  | _ => digestOf 'f'

def priceCell (level : RequirementLevel) : PlannedDemandCell :=
  { priceDemand with level, expectedStages := {.capture}, expectedStages_ne := ⟨.capture, by decide⟩ }

theorem trace_valid : isStableId "trace-1" := by decide +kernel

theorem no_records_sorted : ([] : List String).Pairwise (· < ·) := List.Pairwise.nil

def priceCaptured : DataUsageEvent :=
  { priceDemand with
    operationId := "operation-1", emitterKind := .captureManifestEvaluator, emitterId := "emitter-1", stage := .capture
    runId := "run-1", traceId := "trace-1", normalizedRecordIds := [], consumedMarketEventIds := []
    evidenceIds := ["evidence-3"], occurredAt := 1, recordedAt := 2, retainedUntil := 3
    operationId_valid := by decide +kernel, emitterId_valid := by decide +kernel, runId_valid := by decide +kernel
    traceId_valid := trace_valid, recorded := by decide, retained := by decide, emitter := by decide
    normalizedRecordIds_sorted := no_records_sorted, consumedMarketEventIds_sorted := no_records_sorted
    evidenceIds_sorted := by decide, evidenceIds_ne := by decide, consumes := by decide }

def readinessReport : String := "source-readiness:" ++ digestOf '9'

def runLineage : List ReverseLineageEdge :=
  [⟨"run-1", "trace-1", "traced", by decide, by decide, by decide +kernel, by decide⟩,
    ⟨"run-1", "decision-2", "decided", by decide, by decide, by decide +kernel, by decide⟩,
    ⟨"trace-1", "evidence-3", "observed", by decide, by decide, by decide +kernel, by decide⟩,
    ⟨"evidence-3", readinessReport, "assessed", by decide, by decide +kernel, by decide +kernel, by decide +kernel⟩]

theorem universe_version_valid : isStableReference "v1" := by decide +kernel

theorem catalog_sha256_valid : isSha256 (digestOf '3') := isSha256_digestOf rfl

theorem slo_sha256_valid : isSha256 (digestOf '6') := isSha256_digestOf rfl

theorem auditor_sha256_valid : isSha256 (digestOf 'a') := isSha256_digestOf rfl

def sampleScope : AuditScope where
  researchCatalogId := "research-catalog:" ++ digestOf '3'
  researchCatalogSha256 := digestOf '3'
  universeRef := ⟨"universe-1", "v1", digestOf '4', by decide +kernel, universe_version_valid, isSha256_digestOf rfl⟩
  applicabilityCatalogId := "applicability:" ++ digestOf '5'
  applicabilityCatalogSha256 := digestOf '5'
  sloCatalogId := "slo-1"
  sloCatalogSha256 := digestOf '6'
  releaseManifestId := "release-manifest:" ++ digestOf '7'
  registrySnapshot := ⟨"registry-snapshot:" ++ digestOf '8', digestOf '8', "source-registry:" ++ digestOf '8', digestOf '8',
    "semantic-type-registry:" ++ digestOf '8', digestOf '8', [], [], .empty⟩
  auditorId := "auditor-1"
  auditorVersion := "v1"
  auditorImplementationSha256 := digestOf 'a'
  researchCatalogId_valid := isContentId_digestOf rfl rfl
  researchCatalogSha256_valid := catalog_sha256_valid
  applicabilityCatalogId_valid := isContentId_digestOf rfl rfl
  applicabilityCatalogSha256_valid := isSha256_digestOf rfl
  sloCatalogId_ne := by decide
  sloCatalogSha256_valid := slo_sha256_valid
  releaseManifestId_valid := isContentId_digestOf rfl rfl
  auditorId_valid := by decide +kernel
  auditorVersion_valid := isStableId_v1
  auditorImplementationSha256_valid := auditor_sha256_valid

def suppliedAudit : StrategyUsageAudit where
  strategyUsageAuditId := ""
  contentSha256 := ""
  strategyRunId := "run-1"
  scope := sampleScope
  runStartedAt := 1
  runCompletedAt := 2
  auditedAt := 3
  plannedCells := [priceCell .required]
  usageEvents := [priceCaptured]
  traceBundleIds := ["trace-bundle:1"]
  reverseLineage := runLineage
  affected := ⟨["decision-2"], [], [], [], []⟩
  derivationInputIds := []
  missingRequired := []
  countsByStage := fun _ => none
  telemetryComplete := false

/-- The audit of a run that captured its price is complete. -/
theorem captured_price_completes_the_audit :
    ∃ audit, suppliedAudit.freezeAndIdentify edgeSha256 false = .ok audit ∧ audit.telemetryComplete = true ∧
      ∀ cell ∈ audit.plannedCells, cell.level = .required → Exercised audit.usageEvents cell := by
  have hrun : (suppliedAudit.freezeAndIdentify edgeSha256 false).toOption.any (·.telemetryComplete) := by
    decide +kernel
  obtain ⟨audit, haudit, hcomplete⟩ := exists_ok_of_any hrun
  obtain ⟨hiff, -⟩ := accepted_audit_is_exact edgeSha256 suppliedAudit audit false haudit
  exact ⟨audit, haudit, hcomplete, (hiff.mp hcomplete).2⟩

end TrueAlpha.Contracts
