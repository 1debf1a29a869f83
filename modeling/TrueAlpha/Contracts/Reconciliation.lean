import TrueAlpha.Contracts.Common
import TrueAlpha.Contracts.Consensus
import TrueAlpha.Lib.Dict
import TrueAlpha.Time

/-!
# Point-in-time reconciliation of source assertions

`reconcileSourceAssertions` drops what was not knowable or is unregistered, keeps one representative per origin group, and
serves a value by the policy's rule.  `ReconciliationResult.validated` checks every field of a result.
-/

namespace TrueAlpha.Contracts

def isLowercase (c : Char) : Bool := 'a' ≤ c && c ≤ 'z'

/-- `^[a-z][a-z0-9_.-]*$`. -/
def isReasonCode (value : String) : Bool :=
  match value.toList with
  | [] => false
  | first :: rest =>
    isLowercase first &&
      rest.all fun c => isLowercase c || ('0' ≤ c && c ≤ '9') || c == '_' || c == '.' || c == '-'

structure ReconciliationCell where
  cellId : String
  cellId_valid : isContentId "reconciliation-cell" cellId
  deriving DecidableEq

@[ext]
structure SourceAssertion (N : Type) where
  assertionId : String
  cellId : String
  sourceId : String
  originGroupId : String
  knowableAt : Instant
  normalizedValueSha256 : String
  numericValue : Option N
  lineageComplete : Bool
  assertionId_valid : isContentId "source-assertion" assertionId
  value_valid : isSha256 normalizedValueSha256

instance {N : Type} [DecidableEq N] : DecidableEq (SourceAssertion N) := fun _ _ =>
  decidable_of_iff _ SourceAssertion.ext_iff.symm

inductive ConflictBehavior where
  | reportAndAbstain
  | medianConsensus
  deriving DecidableEq, Repr

structure ReconciliationPolicy where
  policyId : String
  sourcePriority : List String
  absoluteTolerance : ℚ
  relativeTolerance : ℚ
  minimumIndependentOriginGroups : ℕ
  conflictBehavior : ConflictBehavior
  policyId_valid : isContentId "reconciliation-policy" policyId
  sourcePriority_ne : sourcePriority ≠ []
  sourcePriority_nodup : sourcePriority.Nodup
  absoluteTolerance_nonneg : 0 ≤ absoluteTolerance
  relativeTolerance_nonneg : 0 ≤ relativeTolerance
  one_le_minimum : 1 ≤ minimumIndependentOriginGroups
  consensus_minimum : conflictBehavior = .medianConsensus → minimumIndependentOriginGroups = pairQuorumGroups

def ReconciliationPolicy.rank (policy : ReconciliationPolicy) (sourceId : String) : ℕ := policy.sourcePriority.idxOf sourceId

/-! ## Results -/

inductive ReconciliationOutcome where
  | agreed
  | insufficientIndependentOrigins
  | conflictAbstained
  | conflictPriorityServed
  | notYetKnowable
  | unavailable
  deriving DecidableEq, Repr

def ReconciliationOutcome.text : ReconciliationOutcome → String
  | .agreed => "agreed"
  | .insufficientIndependentOrigins => "insufficient_independent_origins"
  | .conflictAbstained => "conflict_abstained"
  | .conflictPriorityServed => "conflict_priority_served"
  | .notYetKnowable => "not_yet_knowable"
  | .unavailable => "unavailable"

structure ReconciliationResult (N : Type) where
  resultId : String
  contentSha256 : String
  cellId : String
  policyId : String
  minimumIndependentOriginGroups : ℕ
  cutoff : Instant
  outcome : ReconciliationOutcome
  assertionIds : List String
  eligibleAssertionIds : List String
  futureAssertionIds : List String
  unregisteredAssertionIds : List String
  representativeAssertionIds : List String
  agreeingAssertionIds : List String
  conflictingAssertionIds : List String
  originGroupIds : List String
  comparisonAnchorAssertionId : Option String
  selectedAssertionId : Option String
  selectedValueSha256 : Option String
  selectedNumericValue : Option N
  lineageComplete : Bool
  reasonCodes : List String
  deriving DecidableEq

section Validation

variable {N : Type}

/-- A run of `if violated: raise ValueError(message)`. -/
def raiseFirst : List (Bool × String) → Except String Unit
  | [] => .ok ()
  | (violated, message) :: checks => if violated then .error message else raiseFirst checks

def ReconciliationResult.fieldChecks (draft : ReconciliationResult N) : List (Bool × String) :=
  [ (!isContentId "reconciliation-cell" draft.cellId, "cell_id: string should match pattern"),
    (!isContentId "reconciliation-policy" draft.policyId, "policy_id: string should match pattern"),
    (draft.minimumIndependentOriginGroups < 1, "minimum_independent_origin_groups: input should be greater than or equal to 1"),
    (!draft.assertionIds.Nodup, "assertion_ids must not contain duplicates"),
    (!draft.eligibleAssertionIds.Nodup, "eligible_assertion_ids must not contain duplicates"),
    (!draft.futureAssertionIds.Nodup, "future_assertion_ids must not contain duplicates"),
    (!draft.unregisteredAssertionIds.Nodup, "unregistered_assertion_ids must not contain duplicates"),
    (!draft.representativeAssertionIds.Nodup, "representative_assertion_ids must not contain duplicates"),
    (!draft.agreeingAssertionIds.Nodup, "agreeing_assertion_ids must not contain duplicates"),
    (!draft.conflictingAssertionIds.Nodup, "conflicting_assertion_ids must not contain duplicates"),
    (!draft.originGroupIds.Nodup, "origin_group_ids must not contain duplicates"),
    (!draft.comparisonAnchorAssertionId.all (isContentId "source-assertion"),
      "comparison_anchor_assertion_id: string should match pattern"),
    (!draft.selectedAssertionId.all (isContentId "source-assertion"), "selected_assertion_id: string should match pattern"),
    (!draft.selectedValueSha256.all isSha256, "selected_value_sha256: string should match pattern"),
    (draft.reasonCodes.isEmpty, "reason_codes: tuple should have at least 1 item"),
    (!draft.reasonCodes.Nodup, "reason_codes must not contain duplicates"),
    (!draft.reasonCodes.all isReasonCode, "reason_codes must contain stable machine-readable codes") ]

def ReconciliationResult.normalized (draft : ReconciliationResult N) : ReconciliationResult N :=
  { draft with
    assertionIds := sortedBy id draft.assertionIds
    eligibleAssertionIds := sortedBy id draft.eligibleAssertionIds
    futureAssertionIds := sortedBy id draft.futureAssertionIds
    unregisteredAssertionIds := sortedBy id draft.unregisteredAssertionIds
    representativeAssertionIds := sortedBy id draft.representativeAssertionIds
    agreeingAssertionIds := sortedBy id draft.agreeingAssertionIds
    conflictingAssertionIds := sortedBy id draft.conflictingAssertionIds
    originGroupIds := sortedBy id draft.originGroupIds
    reasonCodes := sortedBy id draft.reasonCodes }

/-- The equations between the fields, in the order in which `identify` raises. -/
def ReconciliationResult.identifyChecks (result : ReconciliationResult N) : List (Bool × String) :=
  let selected := result.selectedAssertionId.isSome
  let assertionIds := result.assertionIds.toFinset
  let eligibleIds := result.eligibleAssertionIds.toFinset
  let futureIds := result.futureAssertionIds.toFinset
  let unregisteredIds := result.unregisteredAssertionIds.toFinset
  let representativeIds := result.representativeAssertionIds.toFinset
  let agreeingIds := result.agreeingAssertionIds.toFinset
  let conflictingIds := result.conflictingAssertionIds.toFinset
  let anchored := result.comparisonAnchorAssertionId.isSome
  let anchoredIn (ids : Finset String) := result.comparisonAnchorAssertionId.all (· ∈ ids)
  let selectedIn (ids : Finset String) := result.selectedAssertionId.all (· ∈ ids)
  let origins := result.originGroupIds.length
  let minimum := result.minimumIndependentOriginGroups
  let outcome := result.outcome
  [ (selected != result.selectedValueSha256.isSome, "selected assertion and value hash must be present together"),
    (result.selectedNumericValue.isSome && !selected, "selected numeric value requires a selected assertion"),
    (!(futureIds ∩ eligibleIds = ∅ ∧ futureIds ∩ unregisteredIds = ∅ ∧ eligibleIds ∩ unregisteredIds = ∅),
      "future, eligible, and unregistered assertions must be disjoint"),
    (!(futureIds ∪ eligibleIds ∪ unregisteredIds = assertionIds), "assertion classifications must exactly cover every assertion"),
    (!(representativeIds ⊆ eligibleIds), "representative assertions must be eligible"),
    (!(agreeingIds ∩ conflictingIds = ∅ ∧ agreeingIds ∪ conflictingIds = representativeIds),
      "agreeing and conflicting assertions must partition representatives"),
    (!(origins = result.representativeAssertionIds.length),
      "each representative must correspond to one independent origin group"),
    (!(anchored = true ↔ representativeIds ≠ ∅), "comparison anchor must be present exactly when representatives exist"),
    (anchored && !anchoredIn agreeingIds, "comparison anchor must be an agreeing representative"),
    (selected && !(selectedIn representativeIds && selectedIn agreeingIds),
      "selected assertion must be an agreeing representative"),
    (selected && !(result.selectedAssertionId = result.comparisonAnchorAssertionId),
      "selected assertion must equal the comparison anchor"),
    ((outcome = .conflictAbstained ∨ outcome = .notYetKnowable ∨ outcome = .unavailable) && selected,
      "abstained or unavailable reconciliation cannot select a value"),
    ((outcome = .agreed ∨ outcome = .insufficientIndependentOrigins ∨ outcome = .conflictPriorityServed) && !selected,
      "an agreed, insufficient-origin, or priority-served result must select an assertion"),
    (outcome = .agreed ∧ origins < minimum, "agreement does not meet the bound independent-origin threshold"),
    (outcome = .agreed ∧ conflictingIds ≠ ∅ ∧ agreeingIds.card < pairQuorumGroups,
      "an agreed result with conflicting assertions needs at least two agreeing origin groups"),
    (outcome = .insufficientIndependentOrigins ∧ minimum ≤ origins, "an insufficient-origin result meets its bound threshold"),
    (outcome = .insufficientIndependentOrigins ∧ conflictingIds ≠ ∅,
      "an insufficient-origin result cannot contain conflicting assertions"),
    ((outcome = .conflictAbstained ∨ outcome = .conflictPriorityServed) ∧ (agreeingIds = ∅ ∨ conflictingIds = ∅ ∨ origins < 2),
      "a conflict requires an agreeing anchor and a disagreeing origin"),
    (outcome = .conflictPriorityServed ∧ agreeingIds.card ≠ 1, "a priority-served conflict serves one origin group"),
    ((outcome = .notYetKnowable ∨ outcome = .unavailable) ∧
        (eligibleIds ≠ ∅ ∨ representativeIds ≠ ∅ ∨ result.originGroupIds ≠ []),
      "an unavailable result cannot contain eligible representatives"),
    (outcome = .notYetKnowable ∧ futureIds = ∅, "a not-yet-knowable result requires future assertions"),
    (outcome = .unavailable ∧ futureIds ≠ ∅, "an unavailable result cannot contain future assertions") ]

variable (str : N → String) (canonicalSha256 : Json → String)

def textArray (values : List String) : Json := .array (values.map .text)

def ReconciliationResult.content (result : ReconciliationResult N) : Json := .object
    [ ("agreeing_assertion_ids", textArray result.agreeingAssertionIds), ("assertion_ids", textArray result.assertionIds),
      ("cell_id", .text result.cellId),
      ("comparison_anchor_assertion_id", .optional .text result.comparisonAnchorAssertionId),
      ("conflicting_assertion_ids", textArray result.conflictingAssertionIds),
      ("cutoff", .number result.cutoff),
      ("eligible_assertion_ids", textArray result.eligibleAssertionIds),
      ("future_assertion_ids", textArray result.futureAssertionIds),
      ("lineage_complete", .number (if result.lineageComplete then 1 else 0)),
      ("minimum_independent_origin_groups", .number result.minimumIndependentOriginGroups),
      ("origin_group_ids", textArray result.originGroupIds),
      ("outcome", .text result.outcome.text),
      ("policy_id", .text result.policyId),
      ("reason_codes", textArray result.reasonCodes),
      ("representative_assertion_ids", textArray result.representativeAssertionIds),
      ("selected_assertion_id", .optional .text result.selectedAssertionId),
      ("selected_numeric_value", .optional (fun value => .text (str value)) result.selectedNumericValue),
      ("selected_value_sha256", .optional .text result.selectedValueSha256),
      ("unregistered_assertion_ids", textArray result.unregisteredAssertionIds) ]

def ReconciliationResult.identity (result : ReconciliationResult N) : Json := .object
    [ ("identity", .object
        [ ("assertion_ids", textArray result.assertionIds), ("cell_id", .text result.cellId), ("cutoff", .number result.cutoff),
          ("policy_id", .text result.policyId) ]),
      ("kind", .text "reconciliation-result") ]

def ReconciliationResult.frozen (result : ReconciliationResult N) : Except String (ReconciliationResult N) :=
  let expectedId := "reconciliation-result:" ++ canonicalSha256 result.identity
  let expectedHash := canonicalSha256 (result.content str)
  if result.resultId ∉ ["", expectedId] then .error "result_id does not match its declared identity grain"
  else if result.contentSha256 ∉ ["", expectedHash] then .error "content_sha256 does not match the canonical record"
  else .ok { result with resultId := expectedId, contentSha256 := expectedHash }

def ReconciliationResult.validated (draft : ReconciliationResult N) : Except String (ReconciliationResult N) := do
  raiseFirst draft.fieldChecks
  raiseFirst draft.normalized.identifyChecks
  draft.normalized.frozen str canonicalSha256

end Validation

/-! ## Reconciliation -/

section Reconcile

variable {N : Type}

def preferred (policy : ReconciliationPolicy) (items : List (SourceAssertion N)) : Except String (SourceAssertion N) :=
  match (items.map fun item => policy.rank item.sourceId).min? with
  | none => .error "min() iterable argument is empty"
  | some best =>
    match (items.filter fun item => policy.rank item.sourceId = best).argmax
        (fun item => (toLex (item.knowableAt, item.assertionId) : Instant ×ₗ String)) with
    | none => .error "max() iterable argument is empty"
    | some item => .ok item

structure Classified (N : Type) where
  ordered : List (SourceAssertion N)
  future : List (SourceAssertion N)
  unregistered : List (SourceAssertion N)
  eligible : List (SourceAssertion N)

def classify (policy : ReconciliationPolicy) (cutoff : Instant) (assertions : List (SourceAssertion N)) : Classified N :=
  let ordered := sortedBy SourceAssertion.assertionId assertions
  let knowable := ordered.filter fun item => item.knowableAt ≤ cutoff
  { ordered
    future := ordered.filter fun item => cutoff < item.knowableAt
    unregistered := knowable.filter fun item => item.sourceId ∉ policy.sourcePriority
    eligible := knowable.filter fun item => item.sourceId ∈ policy.sourcePriority }

def representativesOf (policy : ReconciliationPolicy) (eligible : List (SourceAssertion N)) :
    Except String (List (SourceAssertion N)) :=
  (sortedSet (eligible.map SourceAssertion.originGroupId)).mapM fun originGroupId =>
    preferred policy (eligible.filter fun item => item.originGroupId = originGroupId)

def futureReason : String := "reconciliation.future_knowledge_excluded"

def exclusionReasons (sorted : Classified N) : List String := (if sorted.future ≠ [] then [futureReason] else []) ++
    if sorted.unregistered ≠ [] then ["reconciliation.unregistered_source_excluded"] else []

def unavailableDraft (cell : ReconciliationCell) (policy : ReconciliationPolicy) (cutoff : Instant)
    (sorted : Classified N) : ReconciliationResult N :=
  { resultId := "", contentSha256 := ""
    cellId := cell.cellId, policyId := policy.policyId
    minimumIndependentOriginGroups := policy.minimumIndependentOriginGroups, cutoff
    outcome := if sorted.future ≠ [] then .notYetKnowable else .unavailable
    assertionIds := sorted.ordered.map SourceAssertion.assertionId
    eligibleAssertionIds := []
    futureAssertionIds := sorted.future.map SourceAssertion.assertionId
    unregisteredAssertionIds := sorted.unregistered.map SourceAssertion.assertionId
    representativeAssertionIds := [], agreeingAssertionIds := [], conflictingAssertionIds := [], originGroupIds := []
    comparisonAnchorAssertionId := none, selectedAssertionId := none, selectedValueSha256 := none
    selectedNumericValue := none, lineageComplete := false
    reasonCodes := "reconciliation.no_eligible_assertion" :: exclusionReasons sorted }

structure Decision (N : Type) where
  outcome : ReconciliationOutcome
  agreeing : List (SourceAssertion N)
  conflicting : List (SourceAssertion N)
  anchor : SourceAssertion N
  selected : Option (String × Option N)
  reasons : List String

def comparedDraft (cell : ReconciliationCell) (policy : ReconciliationPolicy) (cutoff : Instant)
    (sorted : Classified N) (representatives : List (SourceAssertion N)) (decision : Decision N) :
    ReconciliationResult N :=
  { resultId := "", contentSha256 := ""
    cellId := cell.cellId, policyId := policy.policyId
    minimumIndependentOriginGroups := policy.minimumIndependentOriginGroups, cutoff
    outcome := decision.outcome
    assertionIds := sorted.ordered.map SourceAssertion.assertionId
    eligibleAssertionIds := sorted.eligible.map SourceAssertion.assertionId
    futureAssertionIds := sorted.future.map SourceAssertion.assertionId
    unregisteredAssertionIds := sorted.unregistered.map SourceAssertion.assertionId
    representativeAssertionIds := representatives.map SourceAssertion.assertionId
    agreeingAssertionIds := decision.agreeing.map SourceAssertion.assertionId
    conflictingAssertionIds := decision.conflicting.map SourceAssertion.assertionId
    originGroupIds := representatives.map SourceAssertion.originGroupId
    comparisonAnchorAssertionId := some decision.anchor.assertionId
    selectedAssertionId := decision.selected.map fun _ => decision.anchor.assertionId
    selectedValueSha256 := decision.selected.map Prod.fst
    selectedNumericValue := decision.selected.bind Prod.snd
    lineageComplete := representatives.all SourceAssertion.lineageComplete
    reasonCodes := exclusionReasons sorted ++
      (if representatives.length < sorted.eligible.length then ["reconciliation.same_origin_deduplicated"] else []) ++
      decision.reasons }

variable (arithmetic : Arithmetic N)

def assertionsAgree (policy : ReconciliationPolicy) (left right : SourceAssertion N) : Bool :=
  match left.numericValue, right.numericValue with
  | some leftValue, some rightValue =>
    let difference := |arithmetic.value leftValue - arithmetic.value rightValue|
    let scale := max |arithmetic.value leftValue| |arithmetic.value rightValue|
    difference ≤ policy.absoluteTolerance + policy.relativeTolerance * scale
  | none, none => left.normalizedValueSha256 == right.normalizedValueSha256
  | _, _ => false

def anchoredDecision (policy : ReconciliationPolicy) (representatives agreeing conflicting : List (SourceAssertion N))
    (selected : SourceAssertion N) : Decision N :=
  if conflicting ≠ [] then
    ⟨.conflictAbstained, agreeing, conflicting, selected, none, ["reconciliation.cross_origin_conflict"]⟩
  else if representatives.length < policy.minimumIndependentOriginGroups then
    ⟨.insufficientIndependentOrigins, agreeing, conflicting, selected,
      some (selected.normalizedValueSha256, selected.numericValue),
      ["reconciliation.insufficient_independent_origins"]⟩
  else
    ⟨.agreed, agreeing, conflicting, selected, some (selected.normalizedValueSha256, selected.numericValue),
      ["reconciliation.independent_origins_agree"]⟩

def abstainingDecision [DecidableEq N] (policy : ReconciliationPolicy) (representatives : List (SourceAssertion N)) :
    Except String (Decision N) :=
  (preferred policy representatives).map fun selected =>
    let agreeing := representatives.filter (assertionsAgree arithmetic policy selected)
    let conflicting := representatives.filter fun item => item ∉ agreeing
    anchoredDecision policy representatives agreeing conflicting selected

def voteOf (policy : ReconciliationPolicy) (item : SourceAssertion N) : ConsensusVote N :=
  { groupId := item.originGroupId
    rank := policy.rank item.sourceId
    value := match item.numericValue with
      | none => .text item.normalizedValueSha256
      | some value => .number value }

def groupMember (representatives : List (SourceAssertion N)) (group : String) : Except String (SourceAssertion N) :=
  match (Dict.ofList (representatives.map fun item => (item.originGroupId, item))).get? group with
  | none => .error ("KeyError: " ++ group)
  | some item => .ok item

variable (str : N → String) (canonicalSha256 : Json → String)

/-- The served value's own text, the selected assertion's hash when it has the same number, or the number's hash. -/
def servedSha256 (selected : SourceAssertion N) : VoteValue N → String
  | .text value => value
  | .number value =>
    match selected.numericValue with
    | some own =>
      if arithmetic.value value = arithmetic.value own then selected.normalizedValueSha256
      else canonicalSha256 (.text (str value))
    | none => canonicalSha256 (.text (str value))

def gradedDecision (representatives agreeing conflicting : List (SourceAssertion N)) (selected : SourceAssertion N)
    (served : VoteValue N) : Decision N :=
  let value := some (servedSha256 arithmetic str canonicalSha256 selected served, served.number?)
  if pairQuorumGroups ≤ agreeing.length then
    let quorum := if medianQuorumGroups ≤ agreeing.length then "reconciliation.three_origins_agree"
      else "reconciliation.two_origins_agree"
    let outliers := if conflicting ≠ [] then ["reconciliation.outlier_recorded"] else []
    ⟨.agreed, agreeing, conflicting, selected, value, quorum :: outliers⟩
  else if representatives.length = 1 then
    ⟨.insufficientIndependentOrigins, agreeing, conflicting, selected, value, ["reconciliation.insufficient_independent_origins"]⟩
  else
    ⟨.conflictPriorityServed, agreeing, conflicting, selected, value, ["reconciliation.cross_origin_conflict"]⟩

def consensusDecision (policy : ReconciliationPolicy) (representatives : List (SourceAssertion N)) :
    Except String (Decision N) := do
  let grade ← gradeConsensus arithmetic (representatives.map (voteOf policy)) policy.relativeTolerance
    policy.absoluteTolerance
  match grade.servedGroupId, grade.servedValue with
  | some servedGroupId, some served =>
    let selected ← groupMember representatives servedGroupId
    let agreeing ← grade.agreeingGroupIds.mapM (groupMember representatives)
    let conflicting ← grade.outlierGroupIds.mapM (groupMember representatives)
    .ok (gradedDecision arithmetic str canonicalSha256 representatives agreeing conflicting selected served)
  | _, _ => .error "AssertionError"

def decisionOf [DecidableEq N] (policy : ReconciliationPolicy) (representatives : List (SourceAssertion N)) :
    Except String (Decision N) :=
  match policy.conflictBehavior with
  | .medianConsensus => consensusDecision arithmetic str canonicalSha256 policy representatives
  | .reportAndAbstain => abstainingDecision arithmetic policy representatives

def reconcileSourceAssertions [DecidableEq N] (cell : ReconciliationCell) (assertions : List (SourceAssertion N))
    (policy : ReconciliationPolicy) (cutoff : Instant) : Except String (ReconciliationResult N) :=
  if assertions.any fun item => item.cellId ≠ cell.cellId then
    .error "every assertion must belong to the reconciled cell"
  else if ¬ (assertions.map SourceAssertion.assertionId).Nodup then .error "assertions must not contain duplicates"
  else do
    let sorted := classify policy cutoff assertions
    let representatives ← representativesOf policy sorted.eligible
    if representatives = [] then (unavailableDraft cell policy cutoff sorted).validated str canonicalSha256
    else
      let decision ← decisionOf arithmetic str canonicalSha256 policy representatives
      (comparedDraft cell policy cutoff sorted representatives decision).validated str canonicalSha256

end Reconcile

end TrueAlpha.Contracts
