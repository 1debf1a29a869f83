import TrueAlpha.Contracts.Common
import TrueAlpha.Lib.LinkedLog
import TrueAlpha.Lib.Run
import TrueAlpha.Time

/-!
# The registry of governed heads

The embedding of `register_run_evidence`, of `append` and `advance`, and of `mart.current_pointer`.  A head is the row of its
key with the greatest sequence.  The status of a run is a parameter.
-/

namespace TrueAlpha.Datahub

open TrueAlpha.Contracts

/-! ## Identities -/

inductive CaptureEnvironment where
  | local_
  | localDev
  | localTest
  | githubCi
  | preview
  | staging
  | production
  deriving DecidableEq, Repr

def CaptureEnvironment.text : CaptureEnvironment → String
  | .local_ => "local"
  | .localDev => "local_dev"
  | .localTest => "local_test"
  | .githubCi => "github_ci"
  | .preview => "preview"
  | .staging => "staging"
  | .production => "production"

def CaptureEnvironment.ofText (raw : String) : Option CaptureEnvironment :=
  [.local_, .localDev, .localTest, .githubCi, .preview, .staging, .production].find? (·.text = raw)

inductive RegistryError where
  | noCaptureStatus (runId : String)
  | environment (raw : String)
  | nodeId (kind nodeId : String)
  | selfEdge
  | unstable (field value : String)
  | mutableVersion
  | keepsRun
  | firstHasPrevious
  | laterHasNoPrevious
  | firstAdvance
  | advanceSequence
  | advancePrevious
  | uniqueAdvance
  | foreignKey
  deriving DecidableEq, Repr

/-- `EvidenceNodeRef`: an id has the prefix of its kind. -/
def checkNodeRef (kind nodeId : String) : Except RegistryError Unit :=
  if isContentId kind nodeId then .ok () else .error (.nodeId kind nodeId)

structure CurrentPointerKey where
  environment : CaptureEnvironment
  universeId : String
  universeVersion : String
  factorId : String
  deriving DecidableEq

def CurrentPointerKey.validated (key : CurrentPointerKey) : Except RegistryError CurrentPointerKey :=
  if !isStableId key.universeId then .error (.unstable "universe_id" key.universeId)
  else if !isStableId key.universeVersion then .error (.unstable "universe_version" key.universeVersion)
  else if !isStableId key.factorId then .error (.unstable "factor_id" key.factorId)
  else if isMutableVersion key.universeVersion || isMutableVersion key.factorId then .error .mutableVersion
  else .ok key

/-- A row of `mart.current_pointer`. -/
structure CurrentPointer where
  key : CurrentPointerKey
  targetRun : String
  sequence : ℕ
  previousRun : Option String
  advancedAt : Instant
  deriving DecidableEq

def CurrentPointer.validated (pointer : CurrentPointer) : Except RegistryError CurrentPointer :=
  match pointer.previousRun with
  | some previous =>
    if previous = pointer.targetRun then .error .keepsRun
    else if pointer.sequence = 0 then .error .firstHasPrevious
    else .ok pointer
  | none => if pointer.sequence ≠ 0 then .error .laterHasNoPrevious else .ok pointer

/-- `BitemporalStamp` of an open period. -/
structure BitemporalStamp where
  validFrom : Date
  transactionTime : Instant
  recordedAt : Instant
  deriving DecidableEq

/-- A row of `staging.evidence_nodes`. -/
structure EvidenceNode where
  nodeId : String
  kind : String
  stamp : BitemporalStamp
  deriving DecidableEq

/-- A row of `staging.evidence_edges`: all its columns are content of its id. -/
structure EvidenceEdge where
  fromId : String
  toId : String
  relation : String
  stamp : BitemporalStamp
  deriving DecidableEq

structure EvidenceStore where
  nodes : List EvidenceNode
  edges : List EvidenceEdge
  pointers : List CurrentPointer
  deriving DecidableEq

namespace EvidenceStore

/-- `on conflict (node_id) do nothing`. -/
def appendNode (store : EvidenceStore) (node : EvidenceNode) : EvidenceStore :=
  if node.nodeId ∈ store.nodes.map (·.nodeId) then store else { store with nodes := store.nodes ++ [node] }

/-- `on conflict (edge_id) do nothing`, and the foreign keys of an edge. -/
def appendEdge (store : EvidenceStore) (edge : EvidenceEdge) : Except RegistryError EvidenceStore :=
  if edge ∈ store.edges then .ok store
  else if edge.fromId ∈ store.nodes.map (·.nodeId) ∧ edge.toId ∈ store.nodes.map (·.nodeId) then
    .ok { store with edges := store.edges ++ [edge] }
  else .error .foreignKey

end EvidenceStore

def historyOf (pointers : List CurrentPointer) (key : CurrentPointerKey) : List CurrentPointer := pointers.filter (·.key = key)

/-- `mart.current_pointer_head`, and the read of `advance` that takes the row lock. -/
def headOf (pointers : List CurrentPointer) (key : CurrentPointerKey) : Option CurrentPointer :=
  latestBy (·.sequence) (historyOf pointers key)

/-- The comparison of `advance` with the row that it locked. -/
def checkAdvance (head : Option CurrentPointer) (pointer : CurrentPointer) : Except RegistryError Unit :=
  match head with
  | none => if pointer.sequence ≠ 0 ∨ pointer.previousRun ≠ none then .error .firstAdvance else .ok ()
  | some head =>
    if pointer.sequence ≠ head.sequence + 1 then .error .advanceSequence
    else if pointer.previousRun ≠ some head.targetRun then .error .advancePrevious
    else .ok ()

/-- The constraints of a row of `mart.current_pointer`: the kinds of its runs and the link to the previous one. -/
def checkRow (nodes : List EvidenceNode) (pointer : CurrentPointer) : Except RegistryError Unit :=
  if ¬ (pointer.sequence = 0 ↔ pointer.previousRun = none) then .error .firstHasPrevious
  else if pointer.previousRun = some pointer.targetRun then .error .keepsRun
  else if pointer.targetRun ∉ nodes.map (·.nodeId) then .error .foreignKey
  else .ok ()

/-- `current_pointer_unique_advance`. -/
def SamePlace (pointer stored : CurrentPointer) : Prop := stored.key = pointer.key ∧ stored.sequence = pointer.sequence

instance (pointer stored : CurrentPointer) : Decidable (SamePlace pointer stored) := inferInstanceAs (Decidable (_ ∧ _))

def insertPointer (nodes : List EvidenceNode) (pointers : List CurrentPointer) (pointer : CurrentPointer) :
    Except RegistryError (List CurrentPointer) := do
  checkRow nodes pointer
  if ∃ stored ∈ pointers, SamePlace pointer stored then .error .uniqueAdvance else .ok (pointers ++ [pointer])

def EvidenceStore.advance (store : EvidenceStore) (pointer : CurrentPointer) : Except RegistryError EvidenceStore := do
  checkAdvance (headOf store.pointers pointer.key) pointer
  return { store with pointers := ← insertPointer store.nodes store.pointers pointer }

/-- A row of `mart.topt_capture_status`, as far as a registration reads it. -/
structure CaptureStatus where
  universeId : String
  universeVersion : String
  cutoff : Instant
  environment : String

def pointerFactorId : String := "gross_profit_per_employee"

/-- `PointerRegistration`, without the objectives that the report misses. -/
structure PointerRegistration where
  runId : String
  sequence : Option ℕ
  advanced : Bool
  deriving DecidableEq

structure RunStatuses where
  status : String → Option CaptureStatus
  localDate : Instant → Date

namespace RunStatuses

/-- `CaptureEnvironment(raw_env)`. -/
def environmentOf (status : CaptureStatus) : Except RegistryError CaptureEnvironment :=
  match CaptureEnvironment.ofText status.environment with
  | none => .error (.environment status.environment)
  | some environment => .ok environment

def nextPointer (key : CurrentPointerKey) (head : Option CurrentPointer) (runId : String) (cutoff : Instant) :
    Except RegistryError (Option CurrentPointer) :=
  match head with
  | none => (CurrentPointer.validated ⟨key, runId, 0, none, cutoff⟩).map some
  | some head =>
    if head.targetRun = runId then .ok none
    else (CurrentPointer.validated ⟨key, runId, head.sequence + 1, some head.targetRun, cutoff⟩).map some

variable (runs : RunStatuses)

/-- The manifest node and the `bound_to` edge of a run. -/
def bindManifest (store : EvidenceStore) (runId manifestId : String) (cutoff : Instant) : Except RegistryError EvidenceStore := do
  checkNodeRef "capture-run" runId
  checkNodeRef "release-manifest" manifestId
  let stamp : BitemporalStamp := ⟨runs.localDate cutoff, cutoff, cutoff⟩
  if runId = manifestId then .error .selfEdge
  else (store.appendNode ⟨manifestId, "release_manifest", stamp⟩).appendEdge ⟨runId, manifestId, "bound_to", stamp⟩

def registerRunEvidence (store : EvidenceStore) (runId manifestId : String) :
    Except RegistryError (PointerRegistration × EvidenceStore) :=
  match runs.status runId with
  | none => .error (.noCaptureStatus runId)
  | some status => do
    let environment ← environmentOf status
    let bound ← runs.bindManifest store runId manifestId status.cutoff
    let key ← CurrentPointerKey.validated ⟨environment, status.universeId, status.universeVersion, pointerFactorId⟩
    let head := headOf bound.pointers key
    match ← nextPointer key head runId status.cutoff with
    | none => return (⟨runId, head.map (·.sequence), false⟩, bound)
    | some pointer => return (⟨runId, some pointer.sequence, true⟩, ← bound.advance pointer)

end RunStatuses

end TrueAlpha.Datahub
