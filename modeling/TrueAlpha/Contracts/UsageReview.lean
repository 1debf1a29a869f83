import TrueAlpha.Contracts.UsageAudit

/-!
# Reviews of an audited run

The embedding of `PlannedCellQuality` and `StrategyDataQualityReview`.  A row has its own copy of a planned cell, matched by an
identity that the level is no part of, and the blockers read the level of the copy.
-/

namespace TrueAlpha.Contracts

inductive QualityState where
  | pass
  | fail
  | unknown
  deriving DecidableEq, Repr

def QualityState.text : QualityState → String
  | .pass => "pass"
  | .fail => "fail"
  | .unknown => "unknown"

structure PlannedCellQuality where
  plannedCell : PlannedDemandCell
  sourceCoverageEntryIds : List String
  sourceReadinessReportId : String
  sourceReadinessReportSha256 : String
  semanticQualityEvidenceIds : List String
  sourceState : QualityState
  semanticTypeState : QualityState
  freshnessState : QualityState
  rightsState : QualityState
  sourceCoverageEntryIds_sorted : sourceCoverageEntryIds.Pairwise (· < ·)
  sourceCoverageEntryIds_ne : sourceCoverageEntryIds ≠ []
  sourceCoverageEntryIds_valid : ∀ item ∈ sourceCoverageEntryIds, "source-coverage-entry:".toList <+: item.toList
  sourceReadinessReportId_eq : sourceReadinessReportId = "source-readiness:" ++ sourceReadinessReportSha256
  sourceReadinessReportSha256_valid : isSha256 sourceReadinessReportSha256
  semanticQualityEvidenceIds_sorted : semanticQualityEvidenceIds.Pairwise (· < ·)
  semanticQualityEvidenceIds_ne : semanticQualityEvidenceIds ≠ []

namespace PlannedCellQuality

def states (row : PlannedCellQuality) : List (String × QualityState) :=
  [("source", row.sourceState), ("semantic_type", row.semanticTypeState), ("freshness", row.freshnessState),
    ("rights", row.rightsState)]

def evidenceIds (row : PlannedCellQuality) : List String := row.sourceReadinessReportId :: row.semanticQualityEvidenceIds

def blockers (row : PlannedCellQuality) : List String :=
  if row.plannedCell.level = .required then
    row.states.filterMap fun (dimension, state) =>
      if state = .pass then none
      else some ("quality." ++ dimension ++ "_" ++ state.text ++ ":" ++ row.plannedCell.requirementId ++ "/" ++
        row.plannedCell.subject.id)
  else []

def dump (canonicalSha256 : Json → String) (row : PlannedCellQuality) : Json :=
  .dict [("freshness_state", .text row.freshnessState.text), ("planned_cell", row.plannedCell.dump canonicalSha256),
    ("rights_state", .text row.rightsState.text),
    ("semantic_quality_evidence_ids", dumpTexts row.semanticQualityEvidenceIds),
    ("semantic_type_state", .text row.semanticTypeState.text),
    ("source_coverage_entry_ids", dumpTexts row.sourceCoverageEntryIds),
    ("source_readiness_report_id", .text row.sourceReadinessReportId),
    ("source_readiness_report_sha256", .text row.sourceReadinessReportSha256),
    ("source_state", .text row.sourceState.text)]

end PlannedCellQuality

structure StrategyDataQualityReview where
  reviewId : String
  contentSha256 : String
  strategyRunId : String
  strategyUsageAuditId : String
  usageAudit : StrategyUsageAudit
  cellQuality : List PlannedCellQuality
  evaluatorId : String
  evaluatorVersion : String
  evaluatorImplementationSha256 : String
  evaluatedAt : Instant
  evaluatorId_valid : isStableId evaluatorId
  evaluatorVersion_valid : isStableId evaluatorVersion
  evaluatorImplementationSha256_valid : isSha256 evaluatorImplementationSha256

namespace StrategyDataQualityReview

def missingCode (missing : MissingDemand) : String :=
  "usage.required_zero_or_under_use:" ++ missing.strategyRunId ++ "/" ++ missing.requirementId ++ "/" ++
    missing.subject.kind.text ++ "/" ++ missing.subject.id ++ "/" ++ missing.partitionKey

def blockers (review : StrategyDataQualityReview) : List String :=
  let reachable := (reachableFrom review.usageAudit.reverseLineage review.strategyRunId).getD []
  let missingPaths := (review.cellQuality.flatMap (·.evidenceIds)).filter (· ∉ reachable)
  sortedSet ((if review.usageAudit.telemetryComplete then [] else ["usage.telemetry_incomplete"]) ++
    review.usageAudit.missingRequired.map missingCode ++ review.cellQuality.flatMap (·.blockers) ++
    if missingPaths = [] then [] else ["lineage.quality_evidence_unreachable"])

def ready (review : StrategyDataQualityReview) : Bool := review.blockers.isEmpty

variable (canonicalSha256 : Json → String)

def content (review : StrategyDataQualityReview) : Json := .dict [("blocking_reason_codes", dumpTexts review.blockers),
    ("cell_quality", .array (review.cellQuality.map (PlannedCellQuality.dump canonicalSha256))),
    ("evaluated_at", .number review.evaluatedAt), ("evaluator_id", .text review.evaluatorId),
    ("evaluator_implementation_sha256", .text review.evaluatorImplementationSha256),
    ("evaluator_version", .text review.evaluatorVersion),
    ("ready", .text (if review.ready then "true" else "false")), ("strategy_run_id", .text review.strategyRunId),
    ("strategy_usage_audit_id", .text review.strategyUsageAuditId),
    ("usage_audit", review.usageAudit.dump canonicalSha256)]

def rowIds (rows : List PlannedCellQuality) : List String := rows.map (·.plannedCell.plannedCellId canonicalSha256)

def freezeAndIdentify (review : StrategyDataQualityReview) : Except String StrategyDataQualityReview := do
  if review.strategyRunId ≠ review.usageAudit.strategyRunId then .error "strategy review belongs to another audited run"
  else if review.strategyUsageAuditId ≠ review.usageAudit.strategyUsageAuditId then
    .error "strategy review does not bind the exact usage audit"
  else if review.evaluatedAt < review.usageAudit.auditedAt then
    .error "strategy review cannot precede its complete usage audit"
  else
    let qualities : List PlannedCellQuality := sortedBy (·.plannedCell.plannedCellId canonicalSha256) review.cellQuality
    let planned := review.usageAudit.plannedCells.map (·.plannedCellId canonicalSha256)
    if ¬ (rowIds canonicalSha256 qualities).Nodup then .error "strategy review cell quality rows must be unique"
    else if ¬ (rowIds canonicalSha256 qualities ⊆ planned ∧ planned ⊆ rowIds canonicalSha256 qualities) then
      .error "strategy review must be row-complete over planned demand"
    else do
      let frozen := { review with cellQuality := qualities }
      let (reviewId, hash) ← identify canonicalSha256 "review_id" "strategy-data-quality-review"
        (frozen.content canonicalSha256) review.reviewId review.contentSha256
      return { frozen with reviewId := reviewId, contentSha256 := hash }

end StrategyDataQualityReview

variable {canonicalSha256 : Json → String} {supplied audit : StrategyUsageAudit}
  {draft review : StrategyDataQualityReview} {row : PlannedCellQuality} {telemetrySet : Bool}

/-- All four states are `pass`. -/
def PlannedCellQuality.Passed (row : PlannedCellQuality) : Prop := ∀ entry ∈ row.states, entry.2 = .pass

instance (row : PlannedCellQuality) : Decidable row.Passed := inferInstanceAs (Decidable (∀ entry ∈ row.states, _))

theorem blockers_row_eq_nil_iff : row.blockers = [] ↔ (row.plannedCell.level = .required → row.Passed) := by
  unfold PlannedCellQuality.blockers PlannedCellQuality.Passed
  by_cases hlevel : row.plannedCell.level = .required
  · rw [if_pos hlevel, List.filterMap_eq_nil_iff]
    simp [hlevel]
  · simp [hlevel]

theorem sortedSet_eq_nil_iff {l : List String} : sortedSet l = [] ↔ l = [] := by
  rw [List.eq_nil_iff_forall_not_mem, List.eq_nil_iff_forall_not_mem]
  simp only [mem_sortedSet]

theorem ready_iff : review.ready = true ↔ review.usageAudit.telemetryComplete = true ∧ review.usageAudit.missingRequired = [] ∧
      (∀ row ∈ review.cellQuality, row.plannedCell.level = .required → row.Passed) ∧
      ∀ row ∈ review.cellQuality, ∀ id ∈ row.evidenceIds,
        ReachableFrom review.usageAudit.reverseLineage review.strategyRunId id := by
  obtain ⟨reachable, hreachable, hmem⟩ := exists_reachableFrom review.usageAudit.reverseLineage review.strategyRunId
  have hpaths : ((review.cellQuality.flatMap (·.evidenceIds)).filter (· ∉ reachable)) = [] ↔
      ∀ row ∈ review.cellQuality, ∀ id ∈ row.evidenceIds,
        ReachableFrom review.usageAudit.reverseLineage review.strategyRunId id := by
    rw [List.filter_eq_nil_iff]
    simp only [List.mem_flatMap, decide_eq_true_eq, not_not, hmem]
    exact ⟨fun h row hrow id hid => h id ⟨row, hrow, hid⟩, fun h id ⟨row, hrow, hid⟩ => h row hrow id hid⟩
  unfold StrategyDataQualityReview.ready StrategyDataQualityReview.blockers
  rw [List.isEmpty_iff, hreachable, Option.getD_some]
  dsimp only
  rw [sortedSet_eq_nil_iff, List.append_eq_nil_iff, List.append_eq_nil_iff, List.append_eq_nil_iff, List.map_eq_nil_iff,
    List.flatMap_eq_nil_iff, ← hpaths]
  simp only [blockers_row_eq_nil_iff]
  cases review.usageAudit.telemetryComplete <;> simp [and_assoc]

structure AcceptedReview (canonicalSha256 : Json → String) (review : StrategyDataQualityReview) : Prop where
  run : review.strategyRunId = review.usageAudit.strategyRunId
  rows_nodup : (StrategyDataQualityReview.rowIds canonicalSha256 review.cellQuality).Nodup
  covers : ∀ cell ∈ review.usageAudit.plannedCells, ∃ row ∈ review.cellQuality,
    row.plannedCell.plannedCellId canonicalSha256 = cell.plannedCellId canonicalSha256

theorem reviewFreeze_eq_ok (h : draft.freezeAndIdentify canonicalSha256 = .ok review) :
    review.usageAudit = draft.usageAudit ∧ AcceptedReview canonicalSha256 review := by
  unfold StrategyDataQualityReview.freezeAndIdentify at h
  split at h
  · cases h
  · next hrun =>
    split at h
    · cases h
    · split at h
      · cases h
      · dsimp only at h
        split at h
        · cases h
        · next hnodup =>
          split at h
          · cases h
          · next hcover =>
            obtain ⟨⟨reviewId, hash⟩, -, h⟩ := bind_eq_ok_iff.mp h
            cases h
            refine ⟨rfl, not_not.mp hrun, not_not.mp hnodup, fun cell hcell => ?_⟩
            have hid := (not_not.mp hcover).2 (List.mem_map_of_mem hcell)
            obtain ⟨row, hrow, heq⟩ := List.mem_map.mp hid
            exact ⟨row, hrow, heq⟩

/-! ## A ready review -/

structure PlanPassed (canonicalSha256 : Json → String) (review : StrategyDataQualityReview) : Prop where
  passed : ∀ cell ∈ review.usageAudit.plannedCells, cell.level = .required → ∃ row ∈ review.cellQuality,
    row.plannedCell.plannedCellId canonicalSha256 = cell.plannedCellId canonicalSha256 ∧ row.Passed
  exercised : ∀ cell ∈ review.usageAudit.plannedCells, cell.level = .required → Exercised review.usageAudit.usageEvents cell
  evidence : ∀ row ∈ review.cellQuality, ∀ id ∈ row.evidenceIds,
    ReachableFrom review.usageAudit.reverseLineage review.strategyRunId id

def CopiesRequired (canonicalSha256 : Json → String) (review : StrategyDataQualityReview) : Prop :=
  ∀ cell ∈ review.usageAudit.plannedCells, cell.level = .required → ∀ row ∈ review.cellQuality,
    row.plannedCell.plannedCellId canonicalSha256 = cell.plannedCellId canonicalSha256 →
      row.plannedCell.level = .required ∨ row.Passed

def BlockedElsewhere (review : StrategyDataQualityReview) : Prop := review.usageAudit.usageEvents = [] ∨
    (∃ cell ∈ review.usageAudit.plannedCells, cell.level = .required ∧ ¬ Exercised review.usageAudit.usageEvents cell) ∨
    (∃ row ∈ review.cellQuality, row.plannedCell.level = .required ∧ ¬ row.Passed) ∨
    ∃ row ∈ review.cellQuality, ∃ id ∈ row.evidenceIds, ¬ ReachableFrom review.usageAudit.reverseLineage review.strategyRunId id

theorem ready_iff_not_blocked (haudit : Accepted canonicalSha256 supplied review.usageAudit) :
    review.ready = true ↔ ¬ BlockedElsewhere review := by
  have hmissing := haudit.reconciled.missing_eq_nil_iff
  dsimp only at hmissing
  rw [ready_iff, haudit.telemetryComplete_iff, hmissing]
  unfold BlockedElsewhere
  push Not
  constructor
  · rintro ⟨⟨hevents, -⟩, hexercised, hpassed, hevidence⟩
    exact ⟨hevents, hexercised, hpassed, hevidence⟩
  · rintro ⟨hevents, hexercised, hpassed, hevidence⟩
    exact ⟨⟨hevents, hexercised⟩, hexercised, hpassed, hevidence⟩

/-- A ready review means that the plan passed exactly when every row of a required cell has a required copy or passed, or
something else blocks it. -/
theorem ready_means_passed_iff (canonicalSha256 : Json → String) (supplied audit : StrategyUsageAudit)
    (draft review : StrategyDataQualityReview) (telemetrySet : Bool)
    (haudit : supplied.freezeAndIdentify canonicalSha256 telemetrySet = .ok audit)
    (hreview : draft.freezeAndIdentify canonicalSha256 = .ok review) (hof : draft.usageAudit = audit) :
    (review.ready = true → PlanPassed canonicalSha256 review) ↔
      CopiesRequired canonicalSha256 review ∨ BlockedElsewhere review := by
  obtain ⟨hsame, haccepted⟩ := reviewFreeze_eq_ok hreview
  have hfrozen : Accepted canonicalSha256 supplied review.usageAudit := by
    rw [hsame, hof]
    exact freezeAndIdentify_eq_ok haudit
  have hready : review.ready = true ↔ ¬ BlockedElsewhere review := ready_iff_not_blocked hfrozen
  by_cases hblocked : BlockedElsewhere review
  · exact iff_of_true (fun h => absurd hblocked (hready.mp h)) (.inr hblocked)
  · have hopen := hready.mpr hblocked
    obtain ⟨hcomplete, -, hrows, hevidence⟩ := ready_iff.mp hopen
    rw [or_iff_left hblocked]
    constructor
    · intro hpassed cell hcell hlevel row hrow hid
      obtain ⟨other, hother, hsameId, hstates⟩ := (hpassed hopen).passed cell hcell hlevel
      have heq : other = row := List.inj_on_of_nodup_map haccepted.rows_nodup hother hrow (hsameId.trans hid.symm)
      exact .inr (heq ▸ hstates)
    · intro hcopies _
      refine ⟨fun cell hcell hlevel => ?_, (hfrozen.telemetryComplete_iff.mp hcomplete).2, hevidence⟩
      obtain ⟨row, hrow, hid⟩ := haccepted.covers cell hcell
      refine ⟨row, hrow, hid, ?_⟩
      obtain hrequired | hpassed := hcopies cell hcell hlevel row hrow hid
      · exact hrows row hrow hrequired
      · exact hpassed

/-! ### One row -/

def priceRow (level : RequirementLevel) (state : QualityState) : PlannedCellQuality where
  plannedCell := priceCell level
  sourceCoverageEntryIds := ["source-coverage-entry:1"]
  sourceReadinessReportId := readinessReport
  sourceReadinessReportSha256 := digestOf '9'
  semanticQualityEvidenceIds := ["evidence-3"]
  sourceState := state
  semanticTypeState := .pass
  freshnessState := .pass
  rightsState := .pass
  sourceCoverageEntryIds_sorted := by decide
  sourceCoverageEntryIds_ne := by decide
  sourceCoverageEntryIds_valid := by decide
  sourceReadinessReportId_eq := rfl
  sourceReadinessReportSha256_valid := isSha256_digestOf rfl
  semanticQualityEvidenceIds_sorted := priceCaptured.evidenceIds_sorted
  semanticQualityEvidenceIds_ne := priceCaptured.evidenceIds_ne

def priceReview (audit : StrategyUsageAudit) (level : RequirementLevel) (state : QualityState) : StrategyDataQualityReview where
  reviewId := ""
  contentSha256 := ""
  strategyRunId := audit.strategyRunId
  strategyUsageAuditId := audit.strategyUsageAuditId
  usageAudit := audit
  cellQuality := [priceRow level state]
  evaluatorId := "evaluator-1"
  evaluatorVersion := "v1"
  evaluatorImplementationSha256 := digestOf 'b'
  evaluatedAt := 4
  evaluatorId_valid := by decide +kernel
  evaluatorVersion_valid := isStableId_v1
  evaluatorImplementationSha256_valid := isSha256_digestOf rfl

theorem sampleReviews_accepted : (suppliedAudit.freezeAndIdentify edgeSha256 false).toOption.any fun audit =>
    audit.plannedCells = [priceCell .required] ∧
      (((priceReview audit .optional .fail).freezeAndIdentify edgeSha256).toOption.any fun review =>
        review.ready ∧ review.usageAudit.plannedCells = [priceCell .required] ∧ ∀ row ∈ review.cellQuality, ¬ row.Passed) ∧
      (((priceReview audit .required .pass).freezeAndIdentify edgeSha256).toOption.any fun review =>
        ∀ row ∈ review.cellQuality, row.plannedCell.level = .required) := by
  decide +kernel

/-- A review is ready over a failed source of a required cell whose copy is optional. -/
theorem optional_copy_hides_a_failure : ¬ ∀ (canonicalSha256 : Json → String) (supplied audit : StrategyUsageAudit)
      (draft review : StrategyDataQualityReview) (telemetrySet : Bool),
      supplied.freezeAndIdentify canonicalSha256 telemetrySet = .ok audit →
      draft.freezeAndIdentify canonicalSha256 = .ok review → draft.usageAudit = audit →
      review.ready = true → PlanPassed canonicalSha256 review := by
  intro hall
  obtain ⟨audit, haudit, hreviews⟩ := exists_ok_of_any sampleReviews_accepted
  obtain ⟨-, hreviewed, -⟩ := of_decide_eq_true hreviews
  obtain ⟨review, hreview, hfacts⟩ := exists_ok_of_any hreviewed
  obtain ⟨hready, hplanned, hfailed⟩ := of_decide_eq_true hfacts
  have hpassed := (hall edgeSha256 suppliedAudit audit (priceReview audit .optional .fail) review false haudit hreview
    rfl hready).passed
  obtain ⟨row, hrow, -, hstates⟩ := hpassed (priceCell .required) (by rw [hplanned]; exact List.mem_singleton_self _) rfl
  exact hfailed row hrow hstates

/-- A required copy that passed: the plan passed. -/
theorem required_copy_passes : ∃ audit review, suppliedAudit.freezeAndIdentify edgeSha256 false = .ok audit ∧
      (priceReview audit .required .pass).freezeAndIdentify edgeSha256 = .ok review ∧
      (review.ready = true → PlanPassed edgeSha256 review) := by
  obtain ⟨audit, haudit, hreviews⟩ := exists_ok_of_any sampleReviews_accepted
  obtain ⟨-, -, hreviewed⟩ := of_decide_eq_true hreviews
  obtain ⟨review, hreview, hlevels⟩ := exists_ok_of_any hreviewed
  refine ⟨audit, review, haudit, hreview, (ready_means_passed_iff edgeSha256 suppliedAudit audit
    (priceReview audit .required .pass) review false haudit hreview rfl).mpr (.inl fun _ _ _ row hrow _ => ?_)⟩
  exact .inl (of_decide_eq_true hlevels row hrow)

end TrueAlpha.Contracts
