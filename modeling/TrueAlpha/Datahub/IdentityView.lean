import TrueAlpha.Datahub.EntityBackfill

/-!
# The identity view

The embedding of `mart.entity_identity` in its three definitions: with a helper for each row, set-based, and over
`primary_listing`.  They differ in how they find survivors and active aliases, rank listings and read a name.
-/

namespace TrueAlpha.Datahub

/-- The row of `staging.kg_entities` that the view reads. -/
structure KgEntity where
  id : String
  displayName : String
  deriving DecidableEq

/-- A row of `mart.entity_identity`. -/
structure IdentityRow where
  entityId : ℕ
  kind : String
  currentTicker : Option String
  name : Option String
  cik : Option String
  lei : Option String
  listingId : Option String
  legacyId : Option String
  deriving DecidableEq

def splitPart (value : String) (n : ℕ) : String := String.ofList ((value.toList.splitOn ':').getD (n - 1) [])

/-- `^listing:[0-9a-z]{4}:[0-9a-z][0-9a-z.\-]*$`. -/
def isListingId (value : String) : Bool :=
  let isLowerAlnum := fun c : Char => c.isDigit || c.isLower
  let code := value.toList.drop 8
  "listing:".toList.isPrefixOf value.toList && (code.take 4).length == 4 && (code.take 4).all isLowerAlnum &&
    (code.drop 4).head?.any (· == ':') && (code.drop 5).head?.any isLowerAlnum &&
    (code.drop 5).all fun c => isLowerAlnum c || c == '.' || c == '-'

/-- Where the definitions differ: survivors, active aliases, a listing's rank by ticker and by id, and a row's name. -/
structure ViewRules where
  survivor : ℕ → Option ℕ
  active : AliasRow → Bool
  tickerRank : ℕ → ℕ → String → ℕ
  listingRank : ℕ → ℕ → String → ℕ
  name : Option String → Option String → Option String → Option String

section Shape

variable (db : Database) (lower : String → String) (rules : ViewRules) (store : EntityStore)

def latestByScheme (survivorId : ℕ) (scheme : String) : Option AliasRow :=
  latestBy (fun row : AliasRow => toLex (row.confidence, toLex (row.transactionTime, row.aliasId)))
    (store.aliases.filter fun row =>
      rules.active row && rules.survivor row.entityId == some survivorId && row.scheme == scheme)

def directTicker (survivorId : ℕ) : Option String :=
  match latestByScheme rules store survivorId "mic-ticker" with
  | some row => some (splitPart row.value 2)
  | none => ((latestByScheme rules store survivorId "legacy-id").filter (isListingId ·.value)).map fun row =>
      db.upper (splitPart row.value 3)

def directListing (survivorId : ℕ) : Option String :=
  match latestByScheme rules store survivorId "legacy-id" with
  | some row => if isListingId row.value then some row.value else none
  | none => (latestByScheme rules store survivorId "mic-ticker").map fun row =>
      "listing:" ++ lower (splitPart row.value 1) ++ ":" ++ lower (splitPart row.value 2)

/-- The `issues` edges of an issuer joined with the `listed_as` edges of their ends, with a text of the listing. -/
def listingsOf (text : ℕ → Option String) (issuer : ℕ) : List (RelationRow × ℕ × String) :=
  (store.relations.filter fun issues => issues.relationType = "issues" ∧ issues.fromEntityId = issuer).flatMap
    fun issues =>
      (store.relations.filter fun listed =>
        listed.relationType = "listed_as" ∧ listed.fromEntityId = issues.toEntityId).filterMap fun listed =>
          (text listed.toEntityId).map fun shown => (issues, listed.toEntityId, shown)

def issuerText (rank : ℕ → ℕ → String → ℕ) (text : ℕ → Option String) (issuer : ℕ) : Option String :=
  (sortedBy (fun candidate : RelationRow × ℕ × String =>
    toLex (rank issuer candidate.2.1 candidate.2.2, toLex (OrderDual.toDual candidate.1.transactionTime,
      toLex (db.collation candidate.2.2, OrderDual.toDual candidate.1.relationId))))
    (listingsOf store text issuer)).head?.map (·.2.2)

def instrumentTicker (instrument : ℕ) : Option String := (sortedBy (fun candidate : RelationRow × String =>
    toLex (OrderDual.toDual candidate.1.transactionTime,
      toLex (db.collation candidate.2, OrderDual.toDual candidate.1.relationId)))
    ((store.relations.filter fun listed =>
      listed.relationType = "listed_as" ∧ listed.fromEntityId = instrument).filterMap fun listed =>
        (directTicker db rules store listed.toEntityId).map fun ticker => (listed, ticker))).head?.map (·.2)

/-- The rows of an entity: one for each matching row of `staging.kg_entities`, or one without. -/
def identityRowsOf (kg : List KgEntity) (row : EntityRow) (survivorId : ℕ) : List IdentityRow :=
  let legacyId := (latestByScheme rules store survivorId "legacy-id").map (·.value)
  let currentTicker := (directTicker db rules store survivorId).or
    ((issuerText db store rules.tickerRank (directTicker db rules store) survivorId).or
      (instrumentTicker db rules store survivorId))
  let matching := kg.filter fun known => known.id = uuidText row.entityId ∨ legacyId = some known.id
  let displayNames : List (Option String) := if matching = [] then [none] else matching.map fun known => known.displayName
  displayNames.map fun displayName =>
    { entityId := row.entityId
      kind := row.kind
      currentTicker
      name := rules.name ((latestByScheme rules store survivorId "name").map (·.value)) displayName currentTicker
      cik := (latestByScheme rules store survivorId "cik").map (·.value)
      lei := (latestByScheme rules store survivorId "lei").map (·.value)
      listingId := (directListing lower rules store survivorId).or
        (issuerText db store rules.listingRank (directListing lower rules store) survivorId)
      legacyId }

def identityRows (kg : List KgEntity) : List IdentityRow := store.entities.flatMap fun row =>
    ((rules.survivor row.entityId).toList).flatMap (identityRowsOf db lower rules store kg row)

end Shape

def literalRank (first last text : String) : ℕ := if text = first then 0 else if text = last then 2 else 1

def nameOrDisplayName (name displayName _ticker : Option String) : Option String := name.or displayName

/-- The view that calls `entity_survivor` and `entity_alias_valid_to` for each row. -/
def helperRules (store : EntityStore) : ViewRules where
  survivor entityId := some (store.entitySurvivor entityId ⊤)
  active row := decide (∀ validTo ∈ store.entityAliasValidTo row ⊤, row.validFrom < validTo)
  tickerRank _ _ := literalRank "GOOGL" "GOOG"
  listingRank _ _ := literalRank "listing:xnas:googl" "listing:xnas:goog"
  name := nameOrDisplayName

/-- The end of an alias in `active_aliases`, from `alias_retractions`. -/
def retractedTo (store : EntityStore) (row : AliasRow) : Option PgDate :=
  least row.validTo (earliest ((store.retractions.filter fun retraction =>
    retraction.target = .aliasClaim row.aliasId).map (·.validTo)))

def setBasedRules (store : EntityStore) : ViewRules where
  survivor entityId := store.survivorMap.lookup entityId
  active row := decide (∀ validTo ∈ retractedTo store row, row.validFrom < validTo)
  tickerRank _ _ := literalRank "GOOGL" "GOOG"
  listingRank _ _ := literalRank "listing:xnas:googl" "listing:xnas:goog"
  name := nameOrDisplayName

/-- `primary_listings`: the newest declaration of an issuer that is not retracted. -/
def primaryListing (store : EntityStore) (issuer : ℕ) : Option ℕ :=
  (latestBy (fun relation : RelationRow => toLex (relation.transactionTime, relation.relationId))
    (store.relations.filter fun relation =>
      relation.relationType = "primary_listing" ∧ relation.fromEntityId = issuer ∧ ¬ store.Retracted relation)).map
    (·.toEntityId)

def declaredRank (store : EntityStore) (issuer listing : ℕ) (_text : String) : ℕ :=
  if primaryListing store issuer = some listing then 0 else 1

/-- `btrim` of a text. -/
def trimmed (value : String) : String := String.ofList (btrim value.toList)

def nameOrOtherName (upper : String → String) (name displayName ticker : Option String) : Option String :=
  name.or (displayName.bind fun shown =>
    if upper (trimmed shown) ≠ upper (trimmed (ticker.getD "")) ∧ trimmed shown ≠ "" then some (trimmed shown) else none)

def declaredRules (db : Database) (store : EntityStore) : ViewRules where
  survivor entityId := store.survivorMap.lookup entityId
  active row := decide (∀ validTo ∈ retractedTo store row, row.validFrom < validTo)
  tickerRank := declaredRank store
  listingRank := declaredRank store
  name := nameOrOtherName db.upper

def entityIdentityByHelpers (db : Database) (lower : String → String) (kg : List KgEntity) (store : EntityStore) :
    List IdentityRow :=
  identityRows db lower (helperRules store) store kg

def entityIdentitySetBased (db : Database) (lower : String → String) (kg : List KgEntity) (store : EntityStore) :
    List IdentityRow :=
  identityRows db lower (setBasedRules store) store kg

def entityIdentity (db : Database) (lower : String → String) (kg : List KgEntity) (store : EntityStore) : List IdentityRow :=
  identityRows db lower (declaredRules db store) store kg

end TrueAlpha.Datahub
