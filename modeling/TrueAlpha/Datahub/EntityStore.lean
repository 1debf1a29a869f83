import Mathlib.Algebra.Order.Ring.Rat
import TrueAlpha.Lib.Chain
import TrueAlpha.Lib.Latest
import TrueAlpha.Lib.Run
import TrueAlpha.Time

/-!
# The entity identity store

The embedding of the tables, readers and insert guards of `staging.entities`, `entity_aliases`, `entity_relations` and
`entity_retractions`, all append-only.  `-infinity` and `infinity` are `⊥` and `⊤`; a null `valid_to` is `none`.
-/

namespace TrueAlpha.Datahub

/-- A `date`. -/
abbrev PgDate := WithBot (WithTop Date)

/-- A `timestamptz`. -/
abbrev PgTime := WithBot (WithTop Instant)

/-- A row of `staging.entities`. -/
structure EntityRow where
  entityId : ℕ
  kind : String
  birthScheme : String
  birthValue : String
  birthGeneration : ℕ
  deriving DecidableEq

/-- A row of `staging.entity_aliases`. -/
structure AliasRow where
  aliasId : ℕ
  entityId : ℕ
  scheme : String
  value : String
  validFrom : PgDate
  validTo : Option PgDate
  transactionTime : PgTime
  source : String
  method : String
  confidence : ℚ
  deriving DecidableEq

/-- A row of `staging.entity_relations`. -/
structure RelationRow where
  relationId : ℕ
  relationType : String
  fromEntityId : ℕ
  toEntityId : ℕ
  validFrom : PgDate
  validTo : Option PgDate
  transactionTime : PgTime
  source : String
  method : String
  deriving DecidableEq

inductive RetractionTarget where
  | aliasClaim (aliasId : ℕ)
  | relation (relationId : ℕ)
  deriving DecidableEq

/-- A row of `staging.entity_retractions`. -/
structure RetractionRow where
  target : RetractionTarget
  validTo : PgDate
  transactionTime : PgTime
  deriving DecidableEq

structure EntityStore where
  entities : List EntityRow
  aliases : List AliasRow
  relations : List RelationRow
  retractions : List RetractionRow

def EntityStore.empty : EntityStore := ⟨[], [], [], []⟩

/-- A row of `staging.entity_kinds`. -/
structure EntityKind where
  parentKind : Option String
  isAbstract : Bool

/-- A row of `staging.entity_alias_schemes`, its pattern as the values that match. -/
structure AliasScheme where
  appliesToKind : String
  isUnique : Bool
  valueReusable : Bool
  valuePattern : String → Bool

/-- A row of `staging.entity_relation_types`. -/
structure RelationType where
  domainKind : String
  rangeKind : String
  sameKind : Bool

/-- The registry tables by key, with `upper`, `staging.entity_uuid_v5` and `staging.entity_relation_uuid`. -/
structure Ontology where
  entityKind : String → Option EntityKind
  aliasScheme : String → Option AliasScheme
  relationType : String → Option RelationType
  upper : String → String
  entityUuid : String → String → ℕ
  relationUuid : RelationRow → ℕ

/-- The loop of `entity_kind_is_a`. -/
def Ontology.climbsTo (ontology : Ontology) (ancestor : String) : ℕ → Option String → Bool
  | 0, _ => false
  | _ + 1, none => false
  | steps + 1, some kind =>
    kind == ancestor || ontology.climbsTo ancestor steps ((ontology.entityKind kind).bind (·.parentKind))

/-- `staging.entity_kind_is_a`: the loop runs while the depth is at most 16. -/
def Ontology.entityKindIsA (ontology : Ontology) (kind : Option String) (ancestor : String) : Bool :=
  ontology.climbsTo ancestor 17 kind

/-- Without the blanks at both ends. -/
def btrim (value : List Char) : List Char := ((value.dropWhile (· == ' ')).reverse.dropWhile (· == ' ')).reverse

/-- `^[0-9]{1,10}$`. -/
def isShortNumber (value : List Char) : Bool := value.length != 0 && value.length ≤ 10 && value.all Char.isDigit

def Ontology.entityAliasNormalize (ontology : Ontology) (scheme value : String) : String :=
  let trimmed := btrim value.toList
  if scheme = "legacy-id" ∨ scheme = "name" then String.ofList trimmed
  else if scheme = "cik" ∧ isShortNumber trimmed then
    String.ofList (List.replicate (10 - trimmed.length) '0' ++ trimmed)
  else ontology.upper (String.ofList trimmed)

/-- `staging.entity_birth_name`: the name that an entity id is derived from. -/
def entityBirthName (scheme value : String) (generation : ℕ) : String :=
  scheme ++ ":" ++ value ++ if 1 < generation then "#" ++ toString generation else ""

def Ontology.Unique (ontology : Ontology) (scheme : String) : Prop :=
  ∃ row, ontology.aliasScheme scheme = some row ∧ row.isUnique = true

/-! ## Point-in-time reads -/

/-- `min` of a column: null where no row is selected. -/
def earliest {β : Type} [LinearOrder β] (column : List β) : Option β := column.min?

/-- Nulls are ignored. -/
def least {β : Type} [LinearOrder β] : Option β → Option β → Option β
  | none, b => b
  | some a, none => some a
  | some a, some b => some (min a b)

namespace EntityStore

/-- `staging.entity_alias_valid_to`: the end of an alias as known at an instant. -/
def entityAliasValidTo (store : EntityStore) (claim : AliasRow) (knownAt : PgTime) : Option PgDate := least claim.validTo
    (earliest ((store.retractions.filter fun retraction =>
      retraction.target = .aliasClaim claim.aliasId ∧ retraction.transactionTime ≤ knownAt).map (·.validTo)))

def Withdrawn (store : EntityStore) (relation : RelationRow) (knownAt : PgTime) : Prop := ∃ retraction ∈ store.retractions,
    retraction.target = .relation relation.relationId ∧ retraction.transactionTime ≤ knownAt

instance (store : EntityStore) (relation : RelationRow) (knownAt : PgTime) :
    Decidable (store.Withdrawn relation knownAt) :=
  inferInstanceAs (Decidable (∃ retraction ∈ _, _))

/-- An effective `superseded_by` edge of an entity at an instant. -/
def Supersedes (store : EntityStore) (knownAt : PgTime) (entityId : ℕ) (relation : RelationRow) : Prop :=
  relation.relationType = "superseded_by" ∧ relation.fromEntityId = entityId ∧ relation.transactionTime ≤ knownAt ∧
    ¬ store.Withdrawn relation knownAt

instance (store : EntityStore) (knownAt : PgTime) (entityId : ℕ) (relation : RelationRow) :
    Decidable (store.Supersedes knownAt entityId relation) :=
  inferInstanceAs (Decidable (_ ∧ _))

/-- The lateral join of `entity_survivor`: the target of the newest effective edge. -/
def successor (store : EntityStore) (knownAt : PgTime) (entityId : ℕ) : Option ℕ :=
  (latestBy (fun relation : RelationRow => toLex (relation.transactionTime, relation.relationId))
    (store.relations.filter fun relation => store.Supersedes knownAt entityId relation)).map (·.toEntityId)

/-- The recursive table of `entity_survivor`, by depth. -/
def supersessionChain (store : EntityStore) (entityId : ℕ) (knownAt : PgTime) : List ℕ :=
  chain (store.successor knownAt) 32 entityId

/-- `staging.entity_survivor`: the deepest entity of the chain. -/
def entitySurvivor (store : EntityStore) (entityId : ℕ) (knownAt : PgTime) : ℕ := terminus (store.successor knownAt) 32 entityId

/-- The validity condition of `entity_resolve`. -/
def ValidOn (store : EntityStore) (claim : AliasRow) (validAt : PgDate) (knownAt : PgTime) : Prop :=
  claim.validFrom ≤ validAt ∧ ∀ validTo ∈ store.entityAliasValidTo claim knownAt, validAt < validTo

instance (store : EntityStore) (claim : AliasRow) (validAt : PgDate) (knownAt : PgTime) :
    Decidable (store.ValidOn claim validAt knownAt) :=
  inferInstanceAs (Decidable (_ ∧ _))

/-- The aliases that `entity_resolve` reads. -/
def matchingAliases (store : EntityStore) (scheme value : String) (validAt : PgDate) (knownAt : PgTime) : List AliasRow :=
  store.aliases.filter fun claim =>
    claim.scheme = scheme ∧ claim.value = value ∧ claim.transactionTime ≤ knownAt ∧ store.ValidOn claim validAt knownAt

end EntityStore

inductive StoreError where
  | namesAnotherKind (component : String)
  | cannotBeMinted (kind : String)
  | generationsCollide
  | abstractKind (kind : String)
  | birthNotCanonical (scheme value : String)
  | entityIdNotDerived (entityId : ℕ)
  | notCanonical (scheme value canonical : String)
  | patternMismatch (scheme value : String)
  | schemeKind (scheme : String) (kind : Option String)
  | alreadyNames (scheme value : String) (entityId aliasId : ℕ)
  | domainKind (relationType : String) (kind : Option String)
  | rangeKind (relationType : String) (kind : Option String)
  | oneKind (relationType : String) (fromKind toKind : Option String)
  | relationIdNotDerived (relationId : ℕ)
  | alreadySuperseded (entityId : ℕ)
  | closesCycle (fromEntityId toEntityId : ℕ)
  | foreignKey
  | duplicateKey
  | period
  | selfRelation
  | recordedBeforeKnowable
  | confidence
  | explicitTimes
  | unknownScheme (scheme : String)
  | labelScheme (scheme : String)
  | namesMany (scheme value : String) (count : ℕ) (validAt : PgDate) (knownAt : PgTime)
  deriving DecidableEq

def EntityStore.entityResolve (ontology : Ontology) (store : EntityStore) (scheme value : String)
    (validAt : Option PgDate) (knownAt : Option PgTime) : Except StoreError (Option ℕ) :=
  match validAt, knownAt with
  | some validAt, some knownAt =>
    let value := ontology.entityAliasNormalize scheme value
    match ontology.aliasScheme scheme with
    | none => .error (.unknownScheme scheme)
    | some row =>
      if !row.isUnique then .error (.labelScheme scheme)
      else
        let hits := ((store.matchingAliases scheme value validAt knownAt).map fun claim =>
          store.entitySurvivor claim.entityId knownAt).dedup
        if hits.length > 1 then .error (.namesMany scheme value hits.length validAt knownAt) else .ok hits.head?
  | _, _ => .error .explicitTimes

namespace EntityStore

def kindOf (store : EntityStore) (entityId : ℕ) : Option String := (store.entities.find? (·.entityId = entityId)).map (·.kind)

def validateEntity (ontology : Ontology) (row : EntityRow) : Except StoreError Unit :=
  match ontology.entityKind row.kind with
  | none => .error .foreignKey
  | some kind =>
    if kind.isAbstract then .error (.abstractKind row.kind)
    else if row.birthValue ≠ ontology.entityAliasNormalize row.birthScheme row.birthValue then
      .error (.birthNotCanonical row.birthScheme row.birthValue)
    else if row.entityId ≠ ontology.entityUuid row.kind (entityBirthName row.birthScheme row.birthValue row.birthGeneration) then
      .error (.entityIdNotDerived row.entityId)
    else if (ontology.aliasScheme row.birthScheme).isNone then .error .foreignKey
    else .ok ()

/-- One comparison of `validate_entity_alias`, as known when the later claim became knowable. -/
def compareAlias (store : EntityStore) (row other : AliasRow) : Except StoreError Unit :=
  let asOf := max other.transactionTime row.transactionTime
  if store.entitySurvivor other.entityId asOf = store.entitySurvivor row.entityId asOf then .ok ()
  else
    let otherTo := store.entityAliasValidTo other asOf
    if other.validFrom < row.validTo.getD ⊤ ∧ row.validFrom < otherTo.getD ⊤ ∧ other.validFrom < otherTo.getD ⊤ then
      .error (.alreadyNames row.scheme row.value other.entityId other.aliasId)
    else .ok ()

def rivals (store : EntityStore) (row : AliasRow) : List AliasRow := store.aliases.filter fun other =>
    other.scheme = row.scheme ∧ other.value = row.value ∧ other.entityId ≠ row.entityId

def validateEntityAlias (ontology : Ontology) (store : EntityStore) (row : AliasRow) : Except StoreError Unit :=
  if row.value ≠ ontology.entityAliasNormalize row.scheme row.value then
    .error (.notCanonical row.scheme row.value (ontology.entityAliasNormalize row.scheme row.value))
  else
    match ontology.aliasScheme row.scheme with
    | none => .error (.schemeKind row.scheme (store.kindOf row.entityId))
    | some scheme =>
      if !scheme.valuePattern row.value then .error (.patternMismatch row.scheme row.value)
      else if !ontology.entityKindIsA (store.kindOf row.entityId) scheme.appliesToKind then
        .error (.schemeKind row.scheme (store.kindOf row.entityId))
      else if !scheme.isUnique then .ok ()
      else (store.rivals row).forM (store.compareAlias row)

/-- The branch of `validate_entity_relation` for a merge, read at the instant `infinity`. -/
def validateMerge (store : EntityStore) (row : RelationRow) : Except StoreError Unit :=
  if store.entitySurvivor row.fromEntityId ⊤ ≠ row.fromEntityId then .error (.alreadySuperseded row.fromEntityId)
  else if store.entitySurvivor row.toEntityId ⊤ = row.fromEntityId then
    .error (.closesCycle row.fromEntityId row.toEntityId)
  else .ok ()

def validateEntityRelation (ontology : Ontology) (store : EntityStore) (row : RelationRow) : Except StoreError Unit :=
  let fromKind := store.kindOf row.fromEntityId
  let toKind := store.kindOf row.toEntityId
  match ontology.relationType row.relationType with
  | none => .error (.domainKind row.relationType fromKind)
  | some type =>
    if !ontology.entityKindIsA fromKind type.domainKind then .error (.domainKind row.relationType fromKind)
    else if !ontology.entityKindIsA toKind type.rangeKind then .error (.rangeKind row.relationType toKind)
    else if type.sameKind && fromKind != toKind then .error (.oneKind row.relationType fromKind toKind)
    else if row.relationId ≠ ontology.relationUuid row then .error (.relationIdNotDerived row.relationId)
    else if row.relationType = "superseded_by" then store.validateMerge row
    else .ok ()

def refuseIf (condition : Prop) [Decidable condition] (error : StoreError) : Except StoreError Unit :=
  if condition then .error error else .ok ()

def checkClaim (validFrom : PgDate) (validTo : Option PgDate) (transactionTime recordedAt : PgTime) : Except StoreError Unit := do
  refuseIf (¬ ∀ last ∈ validTo, validFrom < last) .period
  refuseIf (recordedAt < transactionTime) .recordedBeforeKnowable

/-- The unique key `entity_alias_vintage`. -/
def vintage (row : AliasRow) : String × String × ℕ × PgDate × PgTime × String × String :=
  (row.scheme, row.value, row.entityId, row.validFrom, row.transactionTime, row.method, row.source)

def checkVintage (store : EntityStore) (row : AliasRow) : Except StoreError Unit :=
  refuseIf (vintage row ∈ store.aliases.map vintage) .duplicateKey

def checkEntity (store : EntityStore) (entityId : ℕ) : Except StoreError Unit :=
  refuseIf ((store.kindOf entityId).isNone) .foreignKey

def checkTarget (store : EntityStore) : RetractionTarget → Except StoreError Unit
  | .aliasClaim aliasId => refuseIf (aliasId ∉ store.aliases.map (·.aliasId)) .foreignKey
  | .relation relationId => refuseIf (relationId ∉ store.relations.map (·.relationId)) .foreignKey

end EntityStore

inductive Insert where
  | entity (row : EntityRow)
  | aliasClaim (row : AliasRow) (recordedAt : PgTime)
  | relation (row : RelationRow) (recordedAt : PgTime)
  | retraction (row : RetractionRow) (recordedAt : PgTime)

namespace EntityStore

def identified (store : EntityStore) (row : AliasRow) : AliasRow := { row with aliasId := store.aliases.length + 1 }

def admits (ontology : Ontology) (store : EntityStore) : Insert → Except StoreError Unit
  | .entity row => do
    validateEntity ontology row
    refuseIf (row.entityId ∈ store.entities.map (·.entityId)) .duplicateKey
  | .aliasClaim row recordedAt => do
    store.validateEntityAlias ontology (store.identified row)
    checkClaim row.validFrom row.validTo row.transactionTime recordedAt
    refuseIf (¬ (0 ≤ row.confidence ∧ row.confidence ≤ 1)) .confidence
    store.checkVintage row
    store.checkEntity row.entityId
  | .relation row recordedAt => do
    store.validateEntityRelation ontology row
    refuseIf (row.fromEntityId = row.toEntityId) .selfRelation
    checkClaim row.validFrom row.validTo row.transactionTime recordedAt
    refuseIf (row.relationId ∈ store.relations.map (·.relationId)) .duplicateKey
    store.checkEntity row.fromEntityId
    store.checkEntity row.toEntityId
  | .retraction row recordedAt => do
    refuseIf (recordedAt < row.transactionTime) .recordedBeforeKnowable
    store.checkTarget row.target

def append (store : EntityStore) : Insert → EntityStore
  | .entity row => { store with entities := store.entities ++ [row] }
  | .aliasClaim row _ => { store with aliases := store.aliases ++ [store.identified row] }
  | .relation row _ => { store with relations := store.relations ++ [row] }
  | .retraction row _ => { store with retractions := store.retractions ++ [row] }

def insert (ontology : Ontology) (store : EntityStore) (row : Insert) : Except StoreError EntityStore :=
  (store.admits ontology row).map fun _ => store.append row

end EntityStore

end TrueAlpha.Datahub
