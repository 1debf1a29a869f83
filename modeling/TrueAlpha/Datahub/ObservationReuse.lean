import TrueAlpha.Datahub.CaptureTables

/-!
# Reuse of recent observations

`_satisfy_from_recent_observations` of `composition.py`: the query, the filter on the origin sources, and the loop that resolves
cells unchanged.  Rows that tie in `row_number()` are picked by a `TieBreak`.
-/

namespace TrueAlpha.Datahub

open Contracts

/-! ## The query -/

def payloadText (payload : List (String × Json)) (key : String) : Option String :=
  match payload.lookup key with
  | some (.text value) => some value
  | _ => none

def unavailablePayloadKey : String := "registry_unavailable"

def reuseMaxAge : ℤ := minutes (12 * 60)

def releaseSemantics : List SemanticType := [.listingIdentity, .universeMembership]

structure ReuseSettings where
  parserVersion : String
  parserVersionHistory : List String
  /-- The origin source of `SOURCE_BY_PARSER`. -/
  sourceByParser : String → Option String
  /-- `configured_origin_sources` for the universe of the plan. -/
  configuredOriginSources : SemanticType → List String
  sessionBound : SemanticType → Bool
  /-- `last_settled_session_date` of the cutoff. -/
  settled : Date

def ValidOn (day : Date) (observation : NormalizedObservation) : Prop :=
  utcDate observation.validFrom ≤ day ∧ ∀ validTo ∈ observation.validTo, day ≤ utcDate validTo

instance (day : Date) (observation : NormalizedObservation) : Decidable (ValidOn day observation) :=
  inferInstanceAs (Decidable (_ ∧ ∀ validTo ∈ observation.validTo, _))

/-- A row of `anchors`. -/
structure AnchorRow where
  sourceObligationId : String
  observation : NormalizedObservation
  originalCompletedAt : Instant
  completedAt : Instant
  forced : Bool
  deriving DecidableEq, Repr

structure TieBreak (α : Type) where
  pick : List α → Option α
  pick_mem : ∀ rows row, pick rows = some row → row ∈ rows
  pick_none : ∀ rows, pick rows = none → rows = []

def TieBreak.stored {α : Type} : TieBreak α := ⟨List.head?, fun _ _ => List.mem_of_head?, fun _ => List.head?_eq_none_iff.mp⟩

def resolvedStates : List ObligationTerminalState := [.success, .unchanged]

/-- `coalesce(attempt.source_vintage_id, attempt.reused_source_vintage_id)`. -/
def attemptVintage (attempt : FetchAttemptResult) : Option VintageId := attempt.sourceVintageId.or attempt.reusedSourceVintageId

/-- A reused observation set: `by_target` of one obligation. -/
structure ReuseCandidate where
  vintage : VintageId
  knowableAt : Instant
  observations : List NormalizedObservation

namespace CaptureTables

variable (tables : CaptureTables) (ids : ContentIds) (settings : ReuseSettings) (plan : PlannedRun)

def forcedFetch (runId : String) : Bool := tables.runPlans.any fun row => row.runId = runId ∧ row.forcedFetch

/-- A row of `mine`: the coordinates of a cell whose semantic type may ride reuse. -/
def mine (cell : PlannedCell) : Option Coordinates :=
  if cell.obligation.semanticType ∈ releaseSemantics then none
  else plan.coordinates.get? cell.obligation.subject.id

def IsSource (cell : PlannedCell) (source : CaptureObligation) : Prop :=
  source.subject = cell.obligation.subject ∧ source.semanticType = cell.obligation.semanticType ∧ source.runId ≠ plan.runId

def IsAnchorObservation (cell : PlannedCell) (coordinates : Coordinates) (observation : NormalizedObservation) : Prop :=
  observation.subject = cell.obligation.subject ∧ observation.semanticType = cell.obligation.semanticType ∧
    observation.knowableAt ≤ plan.cutoff ∧ observation.parserVersion = settings.parserVersion ∧
    ValidOn (utcDate plan.cutoff) observation ∧
    payloadText observation.payload "listing_id" = some coordinates.listingId ∧
    payloadText observation.payload unavailablePayloadKey ≠ some "true"

def IsRecent (original : ListObligationResult) : Prop :=
  original.terminalState = .success ∧ plan.cutoff - reuseMaxAge < original.completedAt ∧ original.completedAt ≤ plan.cutoff

instance (cell : PlannedCell) (source : CaptureObligation) : Decidable (IsSource plan cell source) :=
  inferInstanceAs (Decidable (_ ∧ _))

instance (cell : PlannedCell) (coordinates : Coordinates) (observation : NormalizedObservation) :
    Decidable (IsAnchorObservation settings plan cell coordinates observation) :=
  inferInstanceAs (Decidable (_ ∧ _))

instance (original : ListObligationResult) : Decidable (IsRecent plan original) := inferInstanceAs (Decidable (_ ∧ _))

def anchors (cell : PlannedCell) (coordinates : Coordinates) : List AnchorRow :=
  (tables.obligations.filter (IsSource plan cell ·)).flatMap fun source =>
  (tables.results.filter fun done => done.1 = source.obligationId ∧ done.2.terminalState ∈ resolvedStates ∧
    done.2.completedAt ≤ plan.cutoff).flatMap fun done =>
  (tables.attemptResults.filter fun attempt => some attempt.attemptId = done.2.finalAttemptId).flatMap fun attempt =>
  (tables.observations.rows.filter fun row => some row.observation.sourceVintageId = attemptVintage attempt ∧
    IsAnchorObservation settings plan cell coordinates row.observation).flatMap fun row =>
  (tables.results.filter fun original => original.1 = row.captureObligationId ∧ IsRecent plan original.2).map fun original =>
    ⟨source.obligationId, row.observation, original.2.completedAt, done.2.completedAt, tables.forcedFetch source.runId⟩

def anchorKey (anchor : AnchorRow) : ℤ ×ₗ ℤ ×ₗ Bool ×ₗ ℤ ×ₗ String :=
  toLex (anchor.originalCompletedAt, toLex (anchor.completedAt, toLex (anchor.forced,
    toLex (anchor.observation.knowableAt, ids.observation anchor.observation))))

def firstAnchors (cell : PlannedCell) (coordinates : Coordinates) : List AnchorRow :=
  (tables.anchors settings plan cell coordinates).filter fun anchor =>
    ∀ other ∈ tables.anchors settings plan cell coordinates, anchorKey ids other ≤ anchorKey ids anchor

def boundTo (obligationId : String) : List NormalizedObservation :=
  (tables.usages.filter fun usage => usage.1 = obligationId).map Prod.snd

def Qualifies (coordinates : Coordinates) (observation : NormalizedObservation) : Prop :=
  payloadText observation.payload "listing_id" = some coordinates.listingId ∧ observation.knowableAt ≤ plan.cutoff ∧
    ValidOn (utcDate plan.cutoff) observation

instance (coordinates : Coordinates) (observation : NormalizedObservation) :
    Decidable (Qualifies plan coordinates observation) := inferInstanceAs (Decidable (_ ∧ _))

def originSource (parserVersion : String) : Option String :=
  if parserVersion ∈ settings.parserVersionHistory ∨ parserVersion = settings.parserVersion then some "primary"
  else settings.sourceByParser parserVersion

def CoversOrigins (semanticType : SemanticType) (observations : List NormalizedObservation) : Prop :=
  (∀ observation ∈ observations, (originSource settings observation.parserVersion).isSome) ∧
    (∀ source ∈ settings.configuredOriginSources semanticType,
      ∃ observation ∈ observations, originSource settings observation.parserVersion = some source) ∧
    ∀ observation ∈ observations, ∀ source ∈ originSource settings observation.parserVersion,
      source ∈ settings.configuredOriginSources semanticType

instance (semanticType : SemanticType) (observations : List NormalizedObservation) :
    Decidable (CoversOrigins settings semanticType observations) := inferInstanceAs (Decidable (_ ∧ _))

def TakenWhole (cell : PlannedCell) (coordinates : Coordinates) (anchor : AnchorRow) : Prop :=
  tables.boundTo anchor.sourceObligationId ≠ [] ∧
    (∀ observation ∈ tables.boundTo anchor.sourceObligationId, Qualifies plan coordinates observation) ∧
    CoversOrigins settings cell.obligation.semanticType (tables.boundTo anchor.sourceObligationId)

instance (cell : PlannedCell) (coordinates : Coordinates) (anchor : AnchorRow) :
    Decidable (tables.TakenWhole settings plan cell coordinates anchor) := inferInstanceAs (Decidable (_ ∧ _))

/-- `by_target` at the obligation of a cell. -/
def reuseCandidate (first : TieBreak AnchorRow) (cell : PlannedCell) : Option ReuseCandidate := do
  let coordinates ← mine plan cell
  let anchor ← first.pick (tables.firstAnchors ids settings plan cell coordinates)
  if tables.TakenWhole settings plan cell coordinates anchor then
    some ⟨anchor.observation.sourceVintageId, anchor.observation.knowableAt,
      sortedBy ids.observation (tables.boundTo anchor.sourceObligationId)⟩
  else none

/-- `_is_settled_session` where the semantic type is bound to a session. -/
def InSession (semanticType : SemanticType) (knowableAt : Instant) : Prop :=
  settings.sessionBound semanticType = true → utcDate knowableAt = settings.settled

instance (semanticType : SemanticType) (knowableAt : Instant) : Decidable (InSession settings semanticType knowableAt) :=
  inferInstanceAs (Decidable (_ → _))

def resolveUnchanged (cell : PlannedCell) (candidate : ReuseCandidate) : Except String CaptureTables := do
  let (attempt, started) ← (AttemptLedger.empty cell.workItemId plan.retry).start plan.cutoff
  let (attemptResult, _) ← started.finish attempt plan.cutoff .unchanged none none none (some candidate.vintage)
  let tables ← tables.putAttemptResult attemptResult
  let tables := candidate.observations.foldl (bindObservation · cell.obligation.obligationId) tables
  let result ← ListObligationResult.build
    { obligationId := cell.obligation.listObligationId
      terminalState := .unchanged
      completedAt := plan.cutoff
      finalAttemptId := some attempt.attemptId
      reasonCodes := ["unchanged"] }
  tables.putObligationResult cell.obligation.obligationId result

def satisfyCell (candidates : PlannedCell → Option ReuseCandidate) (state : CaptureTables × List String)
    (cell : PlannedCell) : Except String (CaptureTables × List String) :=
  match candidates cell with
  | none => .ok state
  | some candidate =>
    if InSession settings cell.obligation.semanticType candidate.knowableAt then do
      let tables ← state.1.resolveUnchanged plan cell candidate
      return (tables, state.2 ++ [cell.workItemId])
    else .ok state

def satisfyFrom (candidates : PlannedCell → Option ReuseCandidate) : Except String (CaptureTables × List String) :=
  (plan.cells ids).foldlM (satisfyCell settings plan candidates) (tables, [])

def satisfyFromRecentObservations (first : TieBreak AnchorRow) : Except String (CaptureTables × List String) :=
  tables.satisfyFrom ids settings plan (tables.reuseCandidate ids settings plan first)

end CaptureTables

end TrueAlpha.Datahub
