import Mathlib.Algebra.Order.Ring.Rat
import TrueAlpha.Contracts.Demand
import TrueAlpha.Time

/-!
# Snapshots

The embedding of `SnapshotRequest`, `NormalizedRecordRef`, `SnapshotCellSelection` and `SnapshotManifest`.  An accepted object
carries what its validation has checked, and its identity is a function of its fields.
-/

namespace TrueAlpha.Contracts

/-- The fields that are read here, and the others of its dump. -/
@[ext]
structure SemanticDraft where
  semanticTypeId : String
  semanticTypeVersion : String
  payloadModelKey : String
  payloadSha256 : String
  subject : SubjectRef
  validFrom : Date
  validTo : Date
  knowableAt : Instant
  others : List (String × Json)
  semanticTypeId_valid : isSemanticTypeId semanticTypeId
  semanticTypeVersion_valid : isStableId semanticTypeVersion
  payloadModelKey_valid : isStableId payloadModelKey
  payloadSha256_valid : isSha256 payloadSha256
  period : validFrom ≤ validTo

instance : DecidableEq SemanticDraft := fun _ _ => decidable_of_iff _ SemanticDraft.ext_iff.symm

def SemanticDraft.content (draft : SemanticDraft) : List (String × Json) := draft.others ++
    [("knowable_at", .number draft.knowableAt), ("payload_model_key", .text draft.payloadModelKey),
      ("payload_sha256", .text draft.payloadSha256), ("semantic_type_id", .text draft.semanticTypeId),
      ("semantic_type_version", .text draft.semanticTypeVersion), ("subject", draft.subject.dump),
      ("valid_from", .number draft.validFrom), ("valid_to", .number draft.validTo)]

structure NormalizedRecordRef where
  draft : SemanticDraft
  sourceRegistryEntryId : String
  sourceRegistryEntrySha256 : String
  recordedAt : Instant
  confidence : ℚ
  others : List (String × Json)
  confidence_nonneg : 0 ≤ confidence
  confidence_le : confidence ≤ 1
  recorded : draft.knowableAt ≤ recordedAt
  deriving DecidableEq

namespace NormalizedRecordRef

variable (canonicalSha256 : Json → String)

def content (record : NormalizedRecordRef) : List (String × Json) := record.others ++ [("confidence", .decimal record.confidence),
      ("draft", identified canonicalSha256 "semantic_draft_id" "semantic-draft" record.draft.content),
      ("recorded_at", .number record.recordedAt), ("source_registry_entry_id", .text record.sourceRegistryEntryId),
      ("source_registry_entry_sha256", .text record.sourceRegistryEntrySha256)]

def normalizedRecordId (record : NormalizedRecordRef) : String :=
  "normalized-record:" ++ canonicalSha256 (.dict (record.content canonicalSha256))

def dump (record : NormalizedRecordRef) : Json :=
  identified canonicalSha256 "normalized_record_id" "normalized-record" (record.content canonicalSha256)

end NormalizedRecordRef

inductive PolicyRole where
  | membership
  | identity
  | metric
  | fusion
  | extraction
  | price
  | fx
  | corporateAction
  | marketCalendar
  | applicability
  deriving DecidableEq, Repr

def PolicyRole.text : PolicyRole → String
  | .membership => "membership"
  | .identity => "identity"
  | .metric => "metric"
  | .fusion => "fusion"
  | .extraction => "extraction"
  | .price => "price"
  | .fx => "fx"
  | .corporateAction => "corporate_action"
  | .marketCalendar => "market_calendar"
  | .applicability => "applicability"

def requiredRoles : List PolicyRole :=
  [.identity, .metric, .fusion, .extraction, .price, .fx, .corporateAction, .marketCalendar, .applicability]

structure PolicyBinding where
  role : PolicyRole
  policyId : String
  policyVersion : String
  implementationSha256 : String
  policyId_valid : isStableId policyId
  policyVersion_valid : isStableId policyVersion
  implementationSha256_valid : isSha256 implementationSha256

def PolicyBinding.dump (binding : PolicyBinding) : Json :=
  .dict [("implementation_sha256", .text binding.implementationSha256), ("policy_id", .text binding.policyId),
    ("policy_version", .text binding.policyVersion), ("role", .text binding.role.text)]

@[ext]
structure SnapshotDemandCell extends DemandCell where
  semanticTypeVersion : String
  level : RequirementLevel
  semanticTypeVersion_valid : isStableId semanticTypeVersion

instance : DecidableEq SnapshotDemandCell := fun _ _ => decidable_of_iff _ SnapshotDemandCell.ext_iff.symm

def SnapshotDemandCell.dump (canonicalSha256 : Json → String) (cell : SnapshotDemandCell) : Json := .dict (cell.fields ++
    [("level", .text cell.level.text), ("planned_cell_id", .text (cell.plannedCellId canonicalSha256)),
      ("semantic_type_version", .text cell.semanticTypeVersion)])

def RegistrySnapshot.identities (registry : RegistrySnapshot) : List String :=
  [registry.registrySnapshotId, registry.contentSha256, registry.sourceRegistrySnapshotId, registry.sourceRegistrySha256,
    registry.semanticTypeRegistrySnapshotId, registry.semanticTypeRegistrySha256]

/-- `registryIdentities` are its six registry fields, in the order of `RegistrySnapshot.identities`. -/
structure SnapshotRequest where
  subjects : List SubjectRef
  universeRef : Option UniverseRef
  asOf : Instant
  validOn : Date
  registryIdentities : List String
  policyBindings : List PolicyBinding
  demandCells : List SnapshotDemandCell
  oneScope : subjects = [] ↔ universeRef ≠ none
  subjects_sorted : subjects.Pairwise fun a b => a.key < b.key
  policies_sorted : policyBindings.Pairwise fun a b => a.role.text < b.role.text
  policies_complete : ∀ role ∈ requiredRoles, role ∈ policyBindings.map (·.role)
  membership_policy : universeRef ≠ none → .membership ∈ policyBindings.map (·.role)
  cells_ne : demandCells ≠ []
  cells_sorted : demandCells.Pairwise fun a b => a.key < b.key
  cells_inside : subjects ≠ [] → ∀ cell ∈ demandCells, cell.subject ∈ subjects

namespace SnapshotRequest

variable (canonicalSha256 : Json → String)

def content (request : SnapshotRequest) : List (String × Json) :=
  [("as_of", .number request.asOf), ("demand_cells", .array (request.demandCells.map (SnapshotDemandCell.dump canonicalSha256))),
    ("policy_bindings", .array (request.policyBindings.map PolicyBinding.dump)),
    ("registry", dumpTexts request.registryIdentities), ("subjects", .array (request.subjects.map SubjectRef.dump)),
    ("universe", .optional UniverseRef.dump request.universeRef), ("valid_on", .number request.validOn)]

def dump (request : SnapshotRequest) : Json :=
  identified canonicalSha256 "snapshot_request_id" "snapshot-request" (request.content canonicalSha256)

end SnapshotRequest

/-! ## Manifests -/

structure SnapshotCellSelection where
  demand : SnapshotDemandCell
  normalizedRecordIds : List String
  reasonCodes : List String
  records_sorted : normalizedRecordIds.Pairwise (· < ·)
  reasons_sorted : reasonCodes.Pairwise (· < ·)
  required_selected : demand.level = .required → normalizedRecordIds ≠ []
  selected_or_absent : normalizedRecordIds = [] ↔ reasonCodes ≠ []
  deriving DecidableEq

def SnapshotCellSelection.dump (canonicalSha256 : Json → String) (selection : SnapshotCellSelection) : Json :=
  .dict [("demand", selection.demand.dump canonicalSha256),
    ("normalized_record_ids", dumpTexts selection.normalizedRecordIds), ("reason_codes", dumpTexts selection.reasonCodes)]

/-- The reference and the members, and the others of its dump. -/
structure UniverseManifest where
  ref : UniverseRef
  membershipIds : List String
  others : List (String × Json)
  deriving DecidableEq

def UniverseManifest.dump (manifest : UniverseManifest) : Json :=
  .dict (manifest.others ++ [("membership_ids", dumpTexts manifest.membershipIds), ("ref", manifest.ref.dump)])

structure UniverseMembership where
  membershipId : String
  universeId : String
  subject : SubjectRef
  validFrom : Date
  validTo : Option Date
  knowableAt : Instant
  others : List (String × Json)
  deriving DecidableEq

def UniverseMembership.dump (membership : UniverseMembership) : Json := .dict (membership.others ++
    [("knowable_at", .number membership.knowableAt), ("membership_id", .text membership.membershipId),
      ("subject", membership.subject.dump), ("universe_id", .text membership.universeId),
      ("valid_from", .number membership.validFrom), ("valid_to", .optional .number membership.validTo)])

def UniverseEvidence (request : SnapshotRequest) (resolvedSubjects : List SubjectRef)
    (manifest : Option UniverseManifest) (memberships : List UniverseMembership) : Prop :=
  match request.universeRef with
  | none => memberships = [] ∧ manifest = none
  | some ref =>
    (∀ found ∈ manifest, found.ref = ref ∧ (found.membershipIds ≠ [] → memberships.map (·.membershipId) = found.membershipIds)) ∧
    manifest ≠ none ∧ memberships ≠ [] ∧
    (∀ membership ∈ memberships, membership.universeId = ref.universeId) ∧
    (∀ subject, subject ∈ resolvedSubjects ↔ subject ∈ memberships.map (·.subject)) ∧
    ∀ membership ∈ memberships, membership.validFrom ≤ request.validOn ∧
      (∀ validTo ∈ membership.validTo, request.validOn ≤ validTo) ∧ membership.knowableAt ≤ request.asOf

structure SnapshotManifest (canonicalSha256 : Json → String) where
  request : SnapshotRequest
  registrySnapshot : RegistrySnapshot
  resolvedSubjects : List SubjectRef
  universeManifest : Option UniverseManifest
  universeMemberships : List UniverseMembership
  normalizedRecords : List NormalizedRecordRef
  selections : List SnapshotCellSelection
  resolvedAt : Instant
  resolverId : String
  resolverVersion : String
  resolverImplementationSha256 : String
  resolved : request.asOf ≤ resolvedAt
  registry_bound : request.registryIdentities = registrySnapshot.identities
  subjects_ne : resolvedSubjects ≠ []
  subjects_sorted : resolvedSubjects.Pairwise fun a b => a.key < b.key
  subjects_explicit : request.subjects ≠ [] → resolvedSubjects = request.subjects
  memberships_sorted : universeMemberships.Pairwise fun a b => a.membershipId ≤ b.membershipId
  universe_evidence : UniverseEvidence request resolvedSubjects universeManifest universeMemberships
  records_ne : normalizedRecords ≠ []
  records_sorted : normalizedRecords.Pairwise fun a b =>
    a.normalizedRecordId canonicalSha256 < b.normalizedRecordId canonicalSha256
  records_typed : ∀ record ∈ normalizedRecords,
    (record.draft.semanticTypeId, record.draft.semanticTypeVersion) ∈ registrySnapshot.semanticTypes
  records_knowable : ∀ record ∈ normalizedRecords, record.draft.knowableAt ≤ request.asOf
  records_valid : ∀ record ∈ normalizedRecords, record.draft.validFrom ≤ request.validOn ∧ request.validOn ≤ record.draft.validTo
  records_sourced : ∀ record ∈ normalizedRecords,
    (record.sourceRegistryEntryId, record.sourceRegistryEntrySha256) ∈ registrySnapshot.sources
  selections_ne : selections ≠ []
  selections_complete : selections.map (·.demand.key) = request.demandCells.map (·.key)
  selections_match : ∀ selection ∈ selections, ∀ id ∈ selection.normalizedRecordIds,
    ∃ record ∈ normalizedRecords, record.normalizedRecordId canonicalSha256 = id ∧
      record.draft.subject = selection.demand.subject ∧
      record.draft.semanticTypeId = selection.demand.semanticTypeId ∧
      record.draft.semanticTypeVersion = selection.demand.semanticTypeVersion
  records_selected : ∀ record ∈ normalizedRecords, ∃ selection ∈ selections,
    record.normalizedRecordId canonicalSha256 ∈ selection.normalizedRecordIds
  resolverId_valid : isStableId resolverId
  resolverVersion_valid : isStableId resolverVersion
  resolverImplementationSha256_valid : isSha256 resolverImplementationSha256

namespace SnapshotManifest

variable {canonicalSha256 : Json → String} (snapshot : SnapshotManifest canonicalSha256)

def content : List (String × Json) :=
  [("normalized_records", .array (snapshot.normalizedRecords.map (NormalizedRecordRef.dump canonicalSha256))),
    ("registry_snapshot", snapshot.registrySnapshot.dump), ("request", snapshot.request.dump canonicalSha256),
    ("resolved_at", .number snapshot.resolvedAt),
    ("resolved_subjects", .array (snapshot.resolvedSubjects.map SubjectRef.dump)),
    ("resolver_id", .text snapshot.resolverId),
    ("resolver_implementation_sha256", .text snapshot.resolverImplementationSha256),
    ("resolver_version", .text snapshot.resolverVersion),
    ("selections", .array (snapshot.selections.map (SnapshotCellSelection.dump canonicalSha256))),
    ("universe_manifest", .optional UniverseManifest.dump snapshot.universeManifest),
    ("universe_memberships", .array (snapshot.universeMemberships.map UniverseMembership.dump))]

def contentSha256 : String := canonicalSha256 (.dict snapshot.content)

def snapshotId : String := "snapshot:" ++ snapshot.contentSha256

/-- The record of an id: `record_map`. -/
def record? (id : String) : Option NormalizedRecordRef :=
  snapshot.normalizedRecords.find? (·.normalizedRecordId canonicalSha256 = id)

theorem record?_eq_some {id : String} {record : NormalizedRecordRef} : snapshot.record? id = some record ↔
      record ∈ snapshot.normalizedRecords ∧ record.normalizedRecordId canonicalSha256 = id := by
  constructor
  · intro h
    exact ⟨List.mem_of_find?_eq_some h, by simpa using List.find?_some h⟩
  · rintro ⟨hmem, rfl⟩
    obtain ⟨found, hfound⟩ : ∃ found, snapshot.record? (record.normalizedRecordId canonicalSha256) = some found :=
      Option.isSome_iff_exists.mp (List.find?_isSome.mpr ⟨record, hmem, decide_eq_true rfl⟩)
    have hsame : found.normalizedRecordId canonicalSha256 = record.normalizedRecordId canonicalSha256 := by
      simpa using List.find?_some hfound
    have hnodup : (snapshot.normalizedRecords.map (·.normalizedRecordId canonicalSha256)).Nodup :=
      List.pairwise_map.mpr (snapshot.records_sorted.imp ne_of_lt)
    rw [hfound, List.inj_on_of_nodup_map hnodup (List.mem_of_find?_eq_some hfound) hmem hsame]

end SnapshotManifest

end TrueAlpha.Contracts
