import TrueAlpha.Contracts.Capture
import TrueAlpha.Contracts.Demand
import TrueAlpha.Contracts.Provenance
import TrueAlpha.Lib.Dict

/-!
# The closed bundle of the data hub

The records of `DataHubInterfaceBundle` with their ids, and `validate_closed_bundle`: the indexes, the references, and the nodes
and edges that the provenance graph must have.
-/

namespace TrueAlpha.Contracts.InterfaceBundle

/-! ## The records -/

structure CaptureSchedulePolicy where
  schedulePolicyId : String
  contentSha256 : String
  retry : RetryPolicy

structure CaptureCampaign where
  campaignId : String
  contentSha256 : String
  universeRefs : List UniverseRef

structure CaptureRun where
  runId : String
  contentSha256 : String
  campaignId : String
  schedulePolicyId : String

structure ListObligation where
  obligationId : String
  contentSha256 : String
  runId : String
  universeRef : UniverseRef
  subject : SubjectRef
  captureRequirementId : String
  partition : String

structure SourceRequest where
  sourceRequestId : String
  contentSha256 : String
  subjectRefs : List SubjectRef
  captureRequirementIds : List String
  partition : String

structure CaptureWorkItem where
  workItemId : String
  contentSha256 : String
  campaignId : String
  sourceRequestId : String
  schedulePolicyId : String

structure ObligationWorkBinding where
  bindingId : String
  contentSha256 : String
  obligationId : String
  workItemId : String

structure RawObjectIdentity where
  rawObjectId : String
  contentSha256 : String

@[ext]
structure FetchAttempt where
  attemptId : String
  contentSha256 : String
  workItemId : String
  attemptNumber : ℕ
  startedAt : Instant
  positive : 1 ≤ attemptNumber

instance : DecidableEq FetchAttempt := fun _ _ => decidable_of_iff _ FetchAttempt.ext_iff.symm

def VintagesNamed (outcome : FetchAttemptOutcome) (sourceVintageId reusedSourceVintageId : Option String) : Prop :=
  (sourceVintageId.isSome ↔ outcome = .success) ∧ (reusedSourceVintageId.isSome ↔ outcome = .unchanged)

structure FetchAttemptResult where
  attemptResultId : String
  contentSha256 : String
  attemptId : String
  completedAt : Instant
  outcome : FetchAttemptOutcome
  sourceVintageId : Option String
  reusedSourceVintageId : Option String
  vintages : VintagesNamed outcome sourceVintageId reusedSourceVintageId

structure SourceVintage where
  sourceVintageId : String
  contentSha256 : String
  sourceRequestId : String
  rawObjectId : String

structure ListObligationResult where
  resultId : String
  contentSha256 : String
  obligationId : String
  terminalState : ObligationTerminalState
  finalAttemptId : Option String
  skipped_iff : terminalState = .skippedByPolicy ↔ finalAttemptId = none

/-- `NormalizedObservation`, which does not supersede itself. -/
structure NormalizedObservation where
  observationId : String
  contentSha256 : String
  semanticType : String
  semanticVersion : String
  subject : SubjectRef
  validFrom : Instant
  knowableAt : Instant
  sourceVintageId : String
  normalizedPayloadSha256 : String
  supersedesObservationId : Option String
  proper : supersedesObservationId ≠ some observationId

inductive AssessmentApplicability where
  | applicable
  | notApplicable
  | notYetKnowable
  deriving DecidableEq, Repr

/-- `ConfidenceAssessment`, which targets an observation or an obligation. -/
structure ConfidenceAssessment where
  assessmentId : String
  contentSha256 : String
  observationId : Option String
  obligationId : Option String
  confidence : Option ℚ
  applicability : AssessmentApplicability
  evaluationCutoff : Instant
  one_target : observationId = none ↔ obligationId ≠ none

end InterfaceBundle

open InterfaceBundle

/-- `DataHubInterfaceBundle` before its validator. -/
structure DataHubInterfaceBundle where
  schedulePolicies : List CaptureSchedulePolicy
  campaigns : List CaptureCampaign
  runs : List CaptureRun
  obligations : List ListObligation
  sourceRequests : List SourceRequest
  workItems : List InterfaceBundle.CaptureWorkItem
  bindings : List ObligationWorkBinding
  attempts : List InterfaceBundle.FetchAttempt
  attemptResults : List InterfaceBundle.FetchAttemptResult
  rawObjects : List RawObjectIdentity
  sourceVintages : List SourceVintage
  results : List InterfaceBundle.ListObligationResult
  observations : List NormalizedObservation
  assessments : List ConfidenceAssessment
  provenance : ProvenanceGraph
  nonempty : schedulePolicies ≠ [] ∧ campaigns ≠ [] ∧ runs ≠ [] ∧ obligations ≠ [] ∧ sourceRequests ≠ [] ∧
    workItems ≠ [] ∧ bindings ≠ [] ∧ attempts ≠ [] ∧ attemptResults ≠ [] ∧ results ≠ []

namespace InterfaceBundle

/-- `index[key]`. -/
def item {ν : Type} (index : Dict String ν) (key : String) : Except String ν :=
  match index.get? key with
  | some value => .ok value
  | none => .error ("KeyError: " ++ key)

theorem item_eq_ok_iff {ν : Type} {index : Dict String ν} {key : String} {value : ν} :
    item index key = .ok value ↔ index.get? key = some value := by
  unfold item
  cases index.get? key <;> simp

/-- The records by their ids, which are unique. -/
def index {ν : Type} (idField : String) (identifier contentSha256 : ν → String) (values : List ν) :
    Except String (Dict String ν) :=
  values.foldlM (fun index value =>
    match index.get? (identifier value) with
    | some existing =>
      if contentSha256 existing ≠ contentSha256 value then
        .error (idField ++ " collision has conflicting append-only content")
      else .error ("duplicate " ++ idField ++ " is forbidden")
    | none => .ok (index.set (identifier value) value)) Dict.empty

theorem items_of_index {ν : Type} {idField : String} {identifier contentSha256 : ν → String} {values : List ν}
    {found : Dict String ν} (h : index idField identifier contentSha256 values = .ok found) :
    found.items = values.map fun value => (identifier value, value) := by
  refine foldlM_inv (fun seen (found : Dict String ν) => found.items = seen.map fun value => (identifier value, value))
    h rfl ?_
  intro seen value _ found found' _ hitems hstep
  cases hget : found.get? (identifier value) with
  | some existing =>
    simp only [hget] at hstep
    split_ifs at hstep
  | none =>
    simp only [hget, Except.ok.injEq] at hstep
    rw [← hstep, Dict.items_set_of_not_mem _ ((Dict.get?_eq_none_iff _ _).mp hget), hitems, List.map_append]
    rfl

theorem get?_of_index {ν : Type} {idField : String} {identifier contentSha256 : ν → String} {values : List ν}
    {found : Dict String ν} (h : index idField identifier contentSha256 values = .ok found) {key : String} {value : ν} :
    found.get? key = some value ↔ value ∈ values ∧ identifier value = key := by
  rw [Dict.get?_eq_some_iff, items_of_index h, List.mem_map]
  simp only [Prod.mk.injEq]
  constructor
  · rintro ⟨other, hother, rfl, rfl⟩
    exact ⟨hother, rfl⟩
  · rintro ⟨hvalue, rfl⟩
    exact ⟨value, hvalue, rfl, rfl⟩

structure Indexes where
  policies : Dict String CaptureSchedulePolicy
  campaigns : Dict String CaptureCampaign
  runs : Dict String CaptureRun
  obligations : Dict String ListObligation
  sourceRequests : Dict String SourceRequest
  workItems : Dict String CaptureWorkItem
  attempts : Dict String FetchAttempt
  attemptResults : Dict String FetchAttemptResult
  rawObjects : Dict String RawObjectIdentity
  sourceVintages : Dict String SourceVintage
  results : Dict String ListObligationResult
  observations : Dict String NormalizedObservation

def indexes (bundle : DataHubInterfaceBundle) : Except String Indexes := do
  let policies ← index "schedule_policy_id" CaptureSchedulePolicy.schedulePolicyId CaptureSchedulePolicy.contentSha256
    bundle.schedulePolicies
  let campaigns ← index "campaign_id" CaptureCampaign.campaignId CaptureCampaign.contentSha256 bundle.campaigns
  let runs ← index "run_id" CaptureRun.runId CaptureRun.contentSha256 bundle.runs
  let obligations ← index "obligation_id" ListObligation.obligationId ListObligation.contentSha256 bundle.obligations
  let sourceRequests ← index "source_request_id" SourceRequest.sourceRequestId SourceRequest.contentSha256
    bundle.sourceRequests
  let workItems ← index "work_item_id" CaptureWorkItem.workItemId CaptureWorkItem.contentSha256 bundle.workItems
  let _ ← index "binding_id" ObligationWorkBinding.bindingId ObligationWorkBinding.contentSha256 bundle.bindings
  let attempts ← index "attempt_id" FetchAttempt.attemptId FetchAttempt.contentSha256 bundle.attempts
  let attemptResults ← index "attempt_result_id" FetchAttemptResult.attemptResultId FetchAttemptResult.contentSha256
    bundle.attemptResults
  let rawObjects ← index "raw_object_id" RawObjectIdentity.rawObjectId RawObjectIdentity.contentSha256 bundle.rawObjects
  let sourceVintages ← index "source_vintage_id" SourceVintage.sourceVintageId SourceVintage.contentSha256
    bundle.sourceVintages
  let results ← index "result_id" ListObligationResult.resultId ListObligationResult.contentSha256 bundle.results
  let observations ← index "observation_id" NormalizedObservation.observationId NormalizedObservation.contentSha256
    bundle.observations
  let _ ← index "assessment_id" ConfidenceAssessment.assessmentId ConfidenceAssessment.contentSha256 bundle.assessments
  return {
    policies, campaigns, runs, obligations, sourceRequests, workItems, attempts, attemptResults, rawObjects,
    sourceVintages, results, observations }

/-! ## The references -/

namespace Indexes

variable (indexes : Indexes)

def checkRun (run : CaptureRun) : Except String Unit :=
  require (run.campaignId ∈ indexes.campaigns.keys ∧ run.schedulePolicyId ∈ indexes.policies.keys)
    "run references an unknown campaign or schedule policy"

def checkObligation (obligation : ListObligation) : Except String Unit :=
  match indexes.runs.get? obligation.runId with
  | none => .error "obligation references an unknown run"
  | some run => do
    let campaign ← item indexes.campaigns run.campaignId
    require (obligation.universeRef ∈ campaign.universeRefs) "obligation universe is outside its frozen campaign"

def checkWorkItem (workItem : CaptureWorkItem) : Except String Unit :=
  require (workItem.campaignId ∈ indexes.campaigns.keys ∧ workItem.sourceRequestId ∈ indexes.sourceRequests.keys ∧
    workItem.schedulePolicyId ∈ indexes.policies.keys)
    "work item references an unknown campaign, request, or schedule policy"

def addResult (resultByObligation : Dict String ListObligationResult) (result : ListObligationResult) :
    Except String (Dict String ListObligationResult) := do
  require (result.obligationId ∈ indexes.obligations.keys) "result references an unknown obligation"
  require (result.obligationId ∉ resultByObligation.keys)
    "every obligation may have only one terminal result in a bundle"
  return resultByObligation.set result.obligationId result

def addBinding (skippedObligationIds : List String) (boundWorkByObligation : Dict String String)
    (binding : ObligationWorkBinding) : Except String (Dict String String) :=
  match indexes.obligations.get? binding.obligationId, indexes.workItems.get? binding.workItemId with
  | some obligation, some workItem => do
    require (binding.obligationId ∉ skippedObligationIds) "a policy-skipped obligation cannot bind source work"
    let obligationRun ← item indexes.runs obligation.runId
    require (obligationRun.campaignId = workItem.campaignId ∧ obligationRun.schedulePolicyId = workItem.schedulePolicyId)
      "binding must use work from the obligation's campaign and schedule policy"
    let sourceRequest ← item indexes.sourceRequests workItem.sourceRequestId
    require (obligation.subject ∈ sourceRequest.subjectRefs ∧
      obligation.captureRequirementId ∈ sourceRequest.captureRequirementIds ∧
      obligation.partition = sourceRequest.partition) "binding must use a request that covers its obligation"
    require (binding.obligationId ∉ boundWorkByObligation.keys) "each obligation must bind exactly one work item"
    return boundWorkByObligation.set binding.obligationId binding.workItemId
  | _, _ => .error "binding references an unknown obligation or work item"

def addAttempt (attemptsByWork : Dict String (List FetchAttempt)) (attempt : FetchAttempt) :
    Except String (Dict String (List FetchAttempt)) := do
  require (attempt.workItemId ∈ indexes.workItems.keys) "attempt references an unknown work item"
  return attemptsByWork.set attempt.workItemId (((attemptsByWork.get? attempt.workItemId).getD []) ++ [attempt])

def addAttemptResult (resultByAttempt : Dict String FetchAttemptResult) (attemptResult : FetchAttemptResult) :
    Except String (Dict String FetchAttemptResult) :=
  match indexes.attempts.get? attemptResult.attemptId with
  | none => .error "attempt result references an unknown attempt"
  | some attempt => do
    require (attemptResult.attemptId ∉ resultByAttempt.keys) "every attempt may have only one append-only result"
    require (attempt.startedAt ≤ attemptResult.completedAt) "attempt result cannot precede dispatch"
    return resultByAttempt.set attemptResult.attemptId attemptResult

def checkSourceVintage (sourceVintage : SourceVintage) : Except String Unit := do
  require (sourceVintage.sourceRequestId ∈ indexes.sourceRequests.keys)
    "source vintage references an unknown source request"
  require (sourceVintage.rawObjectId ∈ indexes.rawObjects.keys) "source vintage references an unknown raw object"

def checkOutcome (resultByAttempt : Dict String FetchAttemptResult) (retry : RetryPolicy) (count : ℕ)
    (placed : FetchAttempt × ℕ) : Except String Unit := do
  let attemptResult ← item resultByAttempt placed.1.attemptId
  require (¬ (attemptResult.outcome ∈ retry.terminalOutcomes ∧ placed.2 ≠ count - 1))
    "a fetch attempt cannot follow a terminal outcome"
  require (attemptResult.outcome ∈ retry.terminalOutcomes ∨ attemptResult.outcome ∈ retry.retryableOutcomes)
    "a nonterminal outcome is not retryable under the frozen policy"

def addTerminalAttempt (resultByAttempt : Dict String FetchAttemptResult)
    (terminalAttemptByWork : Dict String FetchAttempt) (work : String × List FetchAttempt) :
    Except String (Dict String FetchAttempt) := do
  let workItem ← item indexes.workItems work.1
  let policy ← item indexes.policies workItem.schedulePolicyId
  let ordered := sortedBy FetchAttempt.attemptNumber work.2
  require (ordered.map FetchAttempt.attemptNumber = List.range' 1 ordered.length)
    "fetch attempts must be contiguous from one"
  require (ordered.length ≤ policy.retry.maxAttempts) "fetch attempts exceed the frozen retry budget"
  ordered.zipIdx.forM (checkOutcome resultByAttempt policy.retry ordered.length)
  match ordered.getLast? with
  | none => .error "IndexError: list index out of range"
  | some last =>
    let finalResult ← item resultByAttempt last.attemptId
    require (finalResult.outcome ∈ policy.retry.terminalOutcomes)
      "every work item must finish with explicit terminal evidence"
    return terminalAttemptByWork.set work.1 last

def checkAttemptVintage (attemptResult : FetchAttemptResult) : Except String Unit := do
  let attempt ← item indexes.attempts attemptResult.attemptId
  let workItem ← item indexes.workItems attempt.workItemId
  match attemptResult.sourceVintageId.or attemptResult.reusedSourceVintageId with
  | none => return ()
  | some sourceVintageId =>
    match indexes.sourceVintages.get? sourceVintageId with
    | none => .error "attempt result references an unknown source vintage"
    | some sourceVintage =>
      require (sourceVintage.sourceRequestId = workItem.sourceRequestId)
        "attempt result cannot reuse a source vintage from another request"

def terminalStateOf : FetchAttemptOutcome → Except String ObligationTerminalState
  | .success => .ok .success
  | .unchanged => .ok .unchanged
  | .unavailable => .ok .unavailable
  | .failed => .ok .failed
  | outcome => .error (outcome.value ++ " is not a valid ObligationTerminalState")

def checkFinalAttempt (boundWorkByObligation : Dict String String) (resultByAttempt : Dict String FetchAttemptResult)
    (terminalAttemptByWork : Dict String FetchAttempt) (result : ListObligationResult) : Except String Unit :=
  match result.finalAttemptId with
  | none => return ()
  | some finalAttemptId => do
    let workItemId ← item boundWorkByObligation result.obligationId
    match indexes.attempts.get? finalAttemptId with
    | none => .error "result must name its bound work item's terminal attempt"
    | some finalAttempt =>
      let terminalAttempt ← item terminalAttemptByWork workItemId
      require (finalAttempt = terminalAttempt) "result must name its bound work item's terminal attempt"
      let attemptResult ← item resultByAttempt finalAttempt.attemptId
      let expectedState ← terminalStateOf attemptResult.outcome
      require (result.terminalState = expectedState) "obligation result disagrees with its terminal attempt"

def checkObservation (observation : NormalizedObservation) : Except String Unit := do
  require (observation.sourceVintageId ∈ indexes.sourceVintages.keys)
    "observation references an unknown source vintage"
  match observation.supersedesObservationId with
  | none => return ()
  | some predecessorId =>
    match indexes.observations.get? predecessorId with
    | none => .error "restatement predecessor is missing"
    | some predecessor =>
      require (observation.semanticType = predecessor.semanticType ∧
        observation.semanticVersion = predecessor.semanticVersion ∧ observation.subject = predecessor.subject ∧
        observation.validFrom = predecessor.validFrom) "restatement must preserve the superseded semantic coordinate"
      require (predecessor.knowableAt < observation.knowableAt) "restatement must append at a later knowable time"
      require (observation.normalizedPayloadSha256 ≠ predecessor.normalizedPayloadSha256)
        "an unchanged payload is not a restatement"

def checkAssessment (assessment : ConfidenceAssessment) : Except String Unit :=
  match assessment.observationId with
  | some observationId =>
    match indexes.observations.get? observationId with
    | none => .error "assessment references an unknown observation"
    | some observation =>
      require (¬ (assessment.evaluationCutoff < observation.knowableAt ∧
        (assessment.applicability ≠ .notYetKnowable ∨ assessment.confidence ≠ none)))
        "future knowledge must be excluded rather than scored"
  | none =>
    require (assessment.obligationId.any (· ∈ indexes.obligations.keys))
      "absence assessment references an unknown obligation"

end Indexes

def requiredNodes (bundle : DataHubInterfaceBundle) : List (String × ProvenanceNodeKind) :=
  bundle.campaigns.map (fun value => (value.campaignId, ProvenanceNodeKind.campaign)) ++
  bundle.runs.map (fun value => (value.runId, ProvenanceNodeKind.run)) ++
  bundle.obligations.map (fun value => (value.obligationId, ProvenanceNodeKind.listObligation)) ++
  bundle.sourceRequests.map (fun value => (value.sourceRequestId, ProvenanceNodeKind.sourceRequest)) ++
  bundle.workItems.map (fun value => (value.workItemId, ProvenanceNodeKind.workItem)) ++
  bundle.attempts.map (fun value => (value.attemptId, ProvenanceNodeKind.fetchAttempt)) ++
  bundle.attemptResults.map (fun value => (value.attemptResultId, ProvenanceNodeKind.fetchAttemptResult)) ++
  bundle.rawObjects.map (fun value => (value.rawObjectId, ProvenanceNodeKind.rawObject)) ++
  bundle.sourceVintages.map (fun value => (value.sourceVintageId, ProvenanceNodeKind.sourceVintage)) ++
  bundle.observations.map (fun value => (value.observationId, ProvenanceNodeKind.normalizedObservation)) ++
  bundle.assessments.map (fun value => (value.assessmentId, ProvenanceNodeKind.confidenceAssessment))

def listText (ids : List String) : String := "['" ++ "', '".intercalate ids ++ "']"

def checkNodes (bundle : DataHubInterfaceBundle) : Except String Unit := do
  let required := Dict.ofList (requiredNodes bundle)
  let actual := Dict.ofList (bundle.provenance.nodes.map fun node => (node.nodeId, node.kind))
  let missing := required.keys.filter (· ∉ actual.keys)
  require (missing = []) ("provenance graph is missing core nodes: " ++ listText (sortedBy id missing))
  let mismatched := (required.items.filter fun entry => actual.get? entry.1 ≠ some entry.2).map Prod.fst
  require (mismatched = [])
    ("provenance graph has incorrectly typed core nodes: " ++ listText (sortedBy id mismatched))
  let incoming := bundle.provenance.edges.map ProvenanceEdge.toNodeId
  let nonRoot := (required.items.filter fun entry => entry.2 ≠ .campaign).map Prod.fst
  let disconnected := nonRoot.filter (· ∉ incoming)
  require (disconnected = []) ("provenance graph has unlinked core nodes: " ++ listText (sortedBy id disconnected))

def requireEdge (edges : List ProvenanceEdge) (fromNodeId : String) (edgeType : ProvenanceEdgeKind)
    (toNodeId : String) : Except String Unit :=
  require ((fromNodeId, edgeType, toNodeId) ∈ edges.map fun edge => (edge.fromNodeId, edge.edgeType, edge.toNodeId))
    ("provenance graph is missing required " ++ edgeType.value ++ " edge")

def checkAttemptEdges (edges : List ProvenanceEdge) (resultByAttempt : Dict String FetchAttemptResult)
    (attempt : FetchAttempt) : Except String Unit := do
  requireEdge edges attempt.workItemId .attemptedBy attempt.attemptId
  let attemptResult ← item resultByAttempt attempt.attemptId
  requireEdge edges attempt.attemptId .completes attemptResult.attemptResultId
  attemptResult.sourceVintageId.toList.forM (requireEdge edges attemptResult.attemptResultId .observed)
  attemptResult.reusedSourceVintageId.toList.forM (requireEdge edges attemptResult.attemptResultId .reuses)

def checkEdges (bundle : DataHubInterfaceBundle) (boundWorkByObligation : Dict String String)
    (resultByAttempt : Dict String FetchAttemptResult) : Except String Unit := do
  let edges := bundle.provenance.edges
  bundle.runs.forM fun run => requireEdge edges run.campaignId .contains run.runId
  bundle.obligations.forM fun obligation => requireEdge edges obligation.runId .requires obligation.obligationId
  boundWorkByObligation.items.forM fun bound => requireEdge edges bound.1 .satisfiedBy bound.2
  bundle.workItems.forM fun workItem => do
    requireEdge edges workItem.campaignId .contains workItem.sourceRequestId
    requireEdge edges workItem.sourceRequestId .dispatches workItem.workItemId
  bundle.attempts.forM (checkAttemptEdges edges resultByAttempt)
  bundle.sourceVintages.forM fun sourceVintage =>
    requireEdge edges sourceVintage.sourceVintageId .archivesAs sourceVintage.rawObjectId
  bundle.observations.forM fun observation =>
    requireEdge edges observation.sourceVintageId .normalizedAs observation.observationId

def sameMembers (keys keys' : List String) : Bool := keys.all (· ∈ keys') && keys'.all (· ∈ keys)

end InterfaceBundle

def DataHubInterfaceBundle.validateClosedBundle (bundle : DataHubInterfaceBundle) : Except String Unit := do
  let indexes ← indexes bundle
  bundle.runs.forM indexes.checkRun
  bundle.obligations.forM indexes.checkObligation
  bundle.workItems.forM indexes.checkWorkItem
  let resultByObligation ← indexes.results.values.foldlM indexes.addResult Dict.empty
  require (sameMembers resultByObligation.keys indexes.obligations.keys)
    "every obligation must retain a persisted terminal result"
  let skippedObligationIds := (resultByObligation.values.filter fun result =>
    result.terminalState = .skippedByPolicy).map InterfaceBundle.ListObligationResult.obligationId
  let boundWorkByObligation ← bundle.bindings.foldlM (indexes.addBinding skippedObligationIds) Dict.empty
  require (sameMembers boundWorkByObligation.keys (indexes.obligations.keys.filter (· ∉ skippedObligationIds)))
    "every obligation must retain an explicit work binding"
  let attemptsByWork ← bundle.attempts.foldlM indexes.addAttempt Dict.empty
  require (sameMembers attemptsByWork.keys indexes.workItems.keys) "every work item must retain attempt evidence"
  let resultByAttempt ← indexes.attemptResults.values.foldlM indexes.addAttemptResult Dict.empty
  require (sameMembers resultByAttempt.keys indexes.attempts.keys)
    "a closed bundle requires an outcome for every dispatched attempt"
  bundle.sourceVintages.forM indexes.checkSourceVintage
  let terminalAttemptByWork ← attemptsByWork.items.foldlM (indexes.addTerminalAttempt resultByAttempt) Dict.empty
  indexes.attemptResults.values.forM indexes.checkAttemptVintage
  indexes.results.values.forM (indexes.checkFinalAttempt boundWorkByObligation resultByAttempt terminalAttemptByWork)
  bundle.observations.forM indexes.checkObservation
  bundle.assessments.forM indexes.checkAssessment
  checkNodes bundle
  checkEdges bundle boundWorkByObligation resultByAttempt

end TrueAlpha.Contracts
