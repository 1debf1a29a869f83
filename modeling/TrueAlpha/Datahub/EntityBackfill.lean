import TrueAlpha.Datahub.PrimaryListing

/-!
# The entity backfill

The embedding of `staging.entity_backfill`.  The alias claims of a component name one entity: those that hold one of them are
merged, or one is minted; a component that raises is rolled back.  Then relation claims join the entities.
-/

namespace TrueAlpha.Datahub

structure AliasClaim where
  kind : String
  component : String
  scheme : String
  value : String
  validFrom : PgDate
  transactionTime : PgTime
  source : String
  method : String
  confidence : ℚ
  status : String
  deriving DecidableEq

structure RelationClaim where
  relationType : String
  kind : String
  component : String
  toKind : String
  toComponent : String
  validFrom : PgDate
  transactionTime : PgTime
  source : String
  method : String
  status : String
  deriving DecidableEq

/-- What `staging.entity_backfill_plan` selects. -/
structure Plan where
  aliases : List AliasClaim
  relations : List RelationClaim

/-- An alias claim as the registry has it: a refused value is held back, one that never changes hands holds for all time. -/
def AliasClaim.registered (ontology : Ontology) (claim : AliasClaim) : AliasClaim :=
  if claim.status = "planned" then
    match ontology.aliasScheme claim.scheme with
    | none => claim
    | some scheme =>
      { claim with
        status :=
          if claim.value ≠ ontology.entityAliasNormalize claim.scheme claim.value ∨
              !scheme.valuePattern claim.value ∨ !ontology.entityKindIsA (some claim.kind) scheme.appliesToKind then
            "skipped:invalid-value"
          else claim.status
        validFrom := if scheme.valueReusable then claim.validFrom else ⊥ }
  else claim

def Plan.planned (ontology : Ontology) (plan : Plan) : List AliasClaim :=
  (plan.aliases.map (AliasClaim.registered ontology)).filter (·.status = "planned")

def componentsOf (db : Database) (claims : List AliasClaim) : List (String × String) :=
  sortedBy (fun component : String × String => toLex (db.collation component.1, db.collation component.2))
    (distinct (claims.map fun claim => (claim.kind, claim.component)))

def claimsOf (claims : List AliasClaim) (component : String × String) : List AliasClaim :=
  claims.filter fun claim => claim.kind = component.1 ∧ claim.component = component.2

structure Backfill where
  store : EntityStore
  survivors : List (ℕ × ℕ)
  components : List ((String × String) × ℕ)
  failed : List ((String × String) × StoreError)

namespace EntityStore

def mergeEdge (store : EntityStore) (entityId : ℕ) : Option ℕ :=
  (latestBy (fun relation : RelationRow => toLex (relation.transactionTime, relation.relationId))
    (store.relations.filter fun relation =>
      relation.relationType = "superseded_by" ∧ relation.fromEntityId = entityId ∧ ¬ store.Retracted relation)).map
    (·.toEntityId)

def survivorMap (store : EntityStore) : List (ℕ × ℕ) :=
  store.entities.map fun row => (row.entityId, terminus store.mergeEdge 32 row.entityId)

def aliasEffectiveTo (store : EntityStore) (claim : AliasRow) : PgDate :=
  (least claim.validTo (earliest ((store.retractions.filter fun retraction =>
    retraction.target = .aliasClaim claim.aliasId).map (·.validTo)))).getD ⊤

def relationEffectiveTo (store : EntityStore) (relation : RelationRow) : PgDate :=
  (least relation.validTo (earliest ((store.retractions.filter fun retraction =>
    retraction.target = .relation relation.relationId).map (·.validTo)))).getD ⊤

def AliasRetracted (store : EntityStore) (claim : AliasRow) : Prop :=
  ∃ retraction ∈ store.retractions, retraction.target = .aliasClaim claim.aliasId

instance (store : EntityStore) (claim : AliasRow) : Decidable (store.AliasRetracted claim) :=
  inferInstanceAs (Decidable (∃ retraction ∈ _, _))

end EntityStore

/-! ## A component -/

def Overlaps (store : EntityStore) (claim : AliasClaim) (row : AliasRow) : Prop :=
  row.scheme = claim.scheme ∧ row.value = claim.value ∧ row.validFrom < store.aliasEffectiveTo row ∧
    claim.validFrom < store.aliasEffectiveTo row

instance (store : EntityStore) (claim : AliasClaim) (row : AliasRow) : Decidable (Overlaps store claim row) :=
  inferInstanceAs (Decidable (_ ∧ _ ∧ _ ∧ _))

def existingEntities (ontology : Ontology) (state : Backfill) (claims : List AliasClaim) : List ℕ := (claims.flatMap fun claim =>
    if (ontology.aliasScheme claim.scheme).any (·.isUnique) then
      (state.store.aliases.filter fun row => Overlaps state.store claim row).filterMap fun row =>
        state.survivors.lookup row.entityId
    else []).dedup

def birthOrder (db : Database) (claim : AliasClaim) : ℕ ×ₗ PgTime ×ₗ List ℕ ×ₗ List ℕ :=
  toLex (if claim.scheme = "legacy-id" then 0 else 1,
    toLex (claim.transactionTime, toLex (db.collation claim.scheme, db.collation claim.value)))

def birthClaim (db : Database) (claims : List AliasClaim) : Option AliasClaim := (sortedBy (birthOrder db) claims).head?

def birthKnown (store : EntityStore) (row : EntityRow) : WithTop PgTime :=
  match earliest ((store.aliases.filter fun claim => claim.entityId = row.entityId ∧ claim.scheme = row.birthScheme ∧
      claim.value = row.birthValue).map (·.transactionTime)) with
  | none => ⊤
  | some known => (known : WithTop PgTime)

def survivorOrder (db : Database) (store : EntityStore) (birth : AliasClaim) (row : EntityRow) :
    ℕ ×ₗ ℕ ×ₗ WithTop PgTime ×ₗ List ℕ ×ₗ List ℕ ×ₗ ℕ :=
  toLex (if row.birthScheme = birth.scheme ∧ row.birthValue = birth.value then 0 else 1,
    toLex (if row.birthScheme = "legacy-id" then 0 else 1, toLex (birthKnown store row,
        toLex (db.collation row.birthScheme, toLex (db.collation row.birthValue, row.birthGeneration)))))

def mergeOrder (db : Database) (store : EntityStore) (birth : AliasClaim) (existing : List ℕ) : Option (ℕ × List ℕ) :=
  let rows := store.entities.filter fun row => row.entityId ∈ existing
  (sortedBy (survivorOrder db store birth) rows).head?.map fun survivor =>
    (survivor.entityId, (sortedBy (fun row : EntityRow =>
      toLex (db.collation row.birthScheme, toLex (db.collation row.birthValue, row.birthGeneration)))
      (rows.filter fun row => row.entityId ≠ survivor.entityId)).map (·.entityId))

def mergeRelation (ontology : Ontology) (relationType : String) (loser survivor : ℕ) (known : PgTime) : RelationRow :=
  let claim : RelationRow := ⟨0, relationType, loser, survivor, ⊥, none, known, "entity-backfill", "merge"⟩
  { claim with relationId := ontology.relationUuid claim }

def mergeLoser (ontology : Ontology) (clock known : PgTime) (survivor : ℕ) (state : Backfill) (loser : ℕ) :
    Except StoreError Backfill := do
  let same ← state.store.insert ontology (.relation (mergeRelation ontology "same_as" loser survivor known) clock)
  let store ← same.insert ontology (.relation (mergeRelation ontology "superseded_by" loser survivor known) clock)
  return { state with
    store
    survivors := state.survivors.map fun entry => if entry.2 = loser then (entry.1, survivor) else entry }

def claimEntity (db : Database) (clock : PgTime) (component : String × String) (claims : List AliasClaim)
    (birth : AliasClaim) (state : Backfill) : Except StoreError (ℕ × Backfill) :=
  let existing := existingEntities db.ontology state claims
  if existing = [] then do
    let minted ← state.store.entityMint db.ontology component.1 birth.scheme birth.value
    return (minted.1, { state with store := minted.2, survivors := state.survivors ++ [(minted.1, minted.1)] })
  else if ∃ row ∈ state.store.entities, row.entityId ∈ existing ∧ row.kind ≠ component.1 then
    .error (.namesAnotherKind component.2)
  else
    match mergeOrder db state.store birth existing with
    | none => .error .foreignKey
    | some (survivor, losers) => do
      let known := (claims.map (·.transactionTime)).foldl max ⊥
      return (survivor, ← losers.foldlM (mergeLoser db.ontology clock known survivor) state)

def Holds (state : Backfill) (survivor : ℕ) (claim : AliasClaim) : Prop :=
  ∃ row ∈ state.store.aliases, row.scheme = claim.scheme ∧ row.value = claim.value ∧ row.method = claim.method ∧
    row.source = claim.source ∧ state.survivors.lookup row.entityId = some survivor ∧
    row.validFrom ≤ claim.validFrom ∧ row.validTo = none ∧ ¬ state.store.AliasRetracted row

instance (state : Backfill) (survivor : ℕ) (claim : AliasClaim) : Decidable (Holds state survivor claim) :=
  inferInstanceAs (Decidable (∃ row ∈ _, _))

def AliasClaim.row (survivor : ℕ) (claim : AliasClaim) : AliasRow :=
  ⟨0, survivor, claim.scheme, claim.value, claim.validFrom, none, claim.transactionTime, claim.source, claim.method,
    claim.confidence⟩

def writeClaim (ontology : Ontology) (clock : PgTime) (survivor : ℕ) (state : Backfill) (claim : AliasClaim) :
    Except StoreError Backfill :=
  if Holds state survivor claim then .ok state
  else do
    let store ← state.store.insert ontology (.aliasClaim (claim.row survivor) clock)
    return { state with store }

def claimOrder (db : Database) (birth claim : AliasClaim) : ℕ ×ₗ PgTime ×ₗ List ℕ ×ₗ List ℕ ×ₗ List ℕ ×ₗ List ℕ :=
  toLex (if claim.scheme = birth.scheme ∧ claim.value = birth.value then 0 else 1,
    toLex (claim.transactionTime, toLex (db.collation claim.scheme, toLex (db.collation claim.value,
      toLex (db.collation claim.method, db.collation claim.source)))))

def writeComponent (db : Database) (clock : PgTime) (component : String × String) (claims : List AliasClaim)
    (state : Backfill) : Except StoreError Backfill :=
  match birthClaim db claims with
  | none => .ok state
  | some birth => do
    let claimed ← claimEntity db clock component claims birth state
    let written ← (sortedBy (claimOrder db birth) claims).foldlM (writeClaim db.ontology clock claimed.1) claimed.2
    return { written with components := written.components ++ [(component, claimed.1)] }

def runComponent (db : Database) (clock : PgTime) (claims : List AliasClaim) (state : Backfill)
    (component : String × String) : Backfill :=
  match writeComponent db clock component (claimsOf claims component) state with
  | .ok written => written
  | .error error => { state with failed := state.failed ++ [(component, error)] }

def runComponents (db : Database) (clock : PgTime) (plan : Plan) (store : EntityStore) : Backfill :=
  let claims := plan.planned db.ontology
  (componentsOf db claims).foldl (runComponent db clock claims) ⟨store, store.survivorMap, [], []⟩

def HeldByAnother (state : Backfill) (claim : RelationClaim) (fromEntity toEntity : ℕ) : Prop :=
  ∃ relation ∈ state.store.relations, relation.relationType = claim.relationType ∧
    state.survivors.lookup relation.toEntityId = some toEntity ∧
    (∃ origin ∈ state.survivors.lookup relation.fromEntityId, origin ≠ fromEntity) ∧
    relation.validFrom < state.store.relationEffectiveTo relation ∧
    claim.validFrom < state.store.relationEffectiveTo relation

instance (state : Backfill) (claim : RelationClaim) (fromEntity toEntity : ℕ) :
    Decidable (HeldByAnother state claim fromEntity toEntity) :=
  inferInstanceAs (Decidable (∃ relation ∈ _, _))

def HoldsRelation (state : Backfill) (claim : RelationClaim) (fromEntity toEntity : ℕ) : Prop :=
  ∃ relation ∈ state.store.relations, relation.relationType = claim.relationType ∧
    state.survivors.lookup relation.toEntityId = some toEntity ∧
    state.survivors.lookup relation.fromEntityId = some fromEntity ∧
    relation.method = claim.method ∧ relation.source = claim.source ∧ relation.validFrom ≤ claim.validFrom ∧
    relation.validTo = none ∧ ¬ state.store.Retracted relation

instance (state : Backfill) (claim : RelationClaim) (fromEntity toEntity : ℕ) :
    Decidable (HoldsRelation state claim fromEntity toEntity) :=
  inferInstanceAs (Decidable (∃ relation ∈ _, _))

def RelationClaim.row (ontology : Ontology) (claim : RelationClaim) (fromEntity toEntity : ℕ) : RelationRow :=
  let row : RelationRow := ⟨0, claim.relationType, fromEntity, toEntity, claim.validFrom, none, claim.transactionTime,
    claim.source, claim.method⟩
  { row with relationId := ontology.relationUuid row }

def writeRelation (ontology : Ontology) (clock : PgTime) (state : Backfill) (claim : RelationClaim) : Backfill :=
  match state.components.lookup (claim.kind, claim.component), state.components.lookup (claim.toKind, claim.toComponent) with
  | some fromEntity, some toEntity =>
    if HeldByAnother state claim fromEntity toEntity then state
    else if HoldsRelation state claim fromEntity toEntity then state
    else
      match state.store.insert ontology (.relation (claim.row ontology fromEntity toEntity) clock) with
      | .ok store => { state with store }
      | .error error => { state with failed := state.failed ++ [((claim.kind, claim.component), error)] }
  | _, _ => state

def Plan.plannedRelations (db : Database) (plan : Plan) : List RelationClaim :=
  sortedBy (fun claim : RelationClaim => toLex (db.collation claim.relationType, toLex (claim.transactionTime,
      toLex (db.collation claim.component, db.collation claim.toComponent))))
    (plan.relations.filter (·.status = "planned"))

def entityBackfill (db : Database) (clock : PgTime) (plan : Plan) (store : EntityStore) : Backfill :=
  (plan.plannedRelations db).foldl (writeRelation db.ontology clock) (runComponents db clock plan store)

end TrueAlpha.Datahub
