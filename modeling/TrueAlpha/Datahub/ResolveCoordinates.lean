import TrueAlpha.Datahub.Bundle
import TrueAlpha.Datahub.EntityRegistry

/-!
# Entity coordinates

The embedding of `parse_alias`, `lookup_entity`, `resolve_entity`, `resolve_coordinates` and `alias_of`.  A pattern without case
also matches four letters outside ASCII.  `RowChoice` is the first row of an unordered read.
-/

namespace TrueAlpha.Datahub

/-! ## Text ids -/

/-- The rest of a text after a prefix whose letters are compared by `same`. -/
def dropMatching (same : Char → Char → Bool) : List Char → List Char → Option (List Char)
  | [], rest => some rest
  | _ :: _, [] => none
  | p :: ps, c :: cs => if same p c then dropMatching same ps cs else none

def sameLetter (p c : Char) : Bool :=
  c.toLower == p || (p == 'i' && (c == 'İ' || c == 'ı')) || (p == 's' && c == 'ſ') || (p == 'k' && c == 'K')

/-- `[0-9a-z]` without case. -/
def isAnyAlnum (c : Char) : Bool := c.isAlphanum || c == 'İ' || c == 'ı' || c == 'ſ' || c == 'K'

/-- `[B-DF-HJ-NP-TV-Z]` without case. -/
def isAnyConsonant (c : Char) : Bool := isUpperConsonant c.toUpper || c == 'ſ' || c == 'K'

/-- `str.upper` of a character that one of the patterns matches. -/
def upperLetter (c : Char) : Char := if c = 'ſ' then 'S' else if c = 'ı' then 'I' else c.toUpper

/-- `_LEI_RE`: the code of `issuer:lei:…`. -/
def leiOf (raw : List Char) : Option (List Char) := (dropMatching (· == ·) "issuer:lei:".toList raw).filter fun code =>
    code.length == 20 && (code.take 18).all Char.isAlphanum && (code.drop 18).all Char.isDigit

/-- `_CIK_RE`: the number of `issuer:cik:…`. -/
def cikOf (raw : List Char) : Option (List Char) := (dropMatching (· == ·) "issuer:cik:".toList raw).filter isShortNumber

/-- `_CUSIP_RE`: the code of `security:cusip:…`. -/
def cusipOf (raw : List Char) : Option (List Char) := (dropMatching (· == ·) "security:cusip:".toList raw).filter fun code =>
    code.length == 9 && (code.take 8).all (fun c => c.isAlphanum || c == '*' || c == '@' || c == '#') &&
      (code.drop 8).all Char.isDigit

/-- `_FIGI_RE`: the code of `security:figi:…`. -/
def figiOf (raw : List Char) : Option (List Char) := (dropMatching sameLetter "security:figi:".toList raw).filter fun code =>
    code.length == 12 && (code.take 2).all isAnyConsonant && ((code.drop 2).take 1).all (sameLetter 'g') &&
      ((code.drop 3).take 8).all (fun c => isAnyConsonant c || c.isDigit) && (code.drop 11).all Char.isDigit

/-- `_MIC_TICKER_RE`: the venue and the symbol of `listing:…:…`. -/
def micTickerOf (raw : List Char) : Option (List Char × List Char) :=
  ((dropMatching sameLetter "listing:".toList raw).filter fun code =>
    (code.take 4).length == 4 && (code.take 4).all isAnyAlnum && (code.drop 4).head?.any (· == ':') &&
      (code.drop 5).head?.any isAnyAlnum && (code.drop 5).all fun c => isAnyAlnum c || c == '.' || c == '-').map
    fun code => (code.take 4, code.drop 5)

/-- `str.upper` of what a pattern matched. -/
def upperText (text : List Char) : String := String.ofList (text.map upperLetter)

def zfill10 (text : List Char) : String := String.ofList (List.replicate (10 - text.length) '0' ++ text)

def parseAlias (rawId role : String) : String × String :=
  let raw := strip rawId
  if role = "issuer" then
    match leiOf raw.toList with
    | some code => ("lei", upperText code)
    | none =>
      match cikOf raw.toList with
      | some number => ("cik", zfill10 number)
      | none => ("legacy-id", raw)
  else if role = "instrument" then
    match cusipOf raw.toList with
    | some code => ("cusip", upperText code)
    | none =>
      match figiOf raw.toList with
      | some code => ("figi", upperText code)
      | none => ("legacy-id", raw)
  else if role = "listing" then
    match micTickerOf raw.toList with
    | some (mic, ticker) => ("mic-ticker", upperText mic ++ ":" ++ upperText ticker)
    | none => ("legacy-id", raw)
  else ("legacy-id", raw)

/-- `[0-9a-f]` without case. -/
def isHex (c : Char) : Bool := c.isDigit || ('a' ≤ c.toLower && c.toLower ≤ 'f')

/-- The pattern allows a line break at the end. -/
def isUuid (value : String) : Bool :=
  let text := if value.toList.getLast? = some '\n' then value.toList.dropLast else value.toList
  let groups := text.splitOn '-'
  groups.map List.length == [8, 4, 4, 4, 12] && groups.all fun group => group.all isHex

def uuidOf (value : String) : ℕ := (value.toList.filter isHex).foldl (fun n c =>
    16 * n + if c.isDigit then c.toNat - '0'.toNat else c.toLower.toNat - 'a'.toNat + 10) 0

def uuidText (id : ℕ) : String :=
  let digits := Nat.toDigits 16 id
  let hex := List.replicate (32 - digits.length) '0' ++ digits
  String.ofList (hex.take 8 ++ '-' :: (hex.drop 8).take 4 ++ '-' :: (hex.drop 12).take 4 ++
    '-' :: (hex.drop 16).take 4 ++ '-' :: hex.drop 20)

structure RowChoice where
  entity : List EntityRow → Option EntityRow
  claim : List AliasRow → Option AliasRow
  entity_mem : ∀ rows row, entity rows = some row → row ∈ rows
  entity_none : ∀ rows, entity rows = none → rows = []
  claim_mem : ∀ rows row, claim rows = some row → row ∈ rows
  claim_none : ∀ rows, claim rows = none → rows = []

def RowChoice.stored : RowChoice where
  entity := List.head?
  claim := List.head?
  entity_mem _ _ := List.mem_of_head?
  entity_none _ := List.head?_eq_none_iff.mp
  claim_mem _ _ := List.mem_of_head?
  claim_none _ := List.head?_eq_none_iff.mp

namespace EntityStore

variable (choice : RowChoice) (ontology : Ontology) (store : EntityStore)

def bornFrom (scheme value : String) : List EntityRow := store.entities.filter fun row =>
    row.birthScheme = scheme ∧ row.birthValue = ontology.entityAliasNormalize scheme value ∧ row.birthGeneration = 1

def lookupMintedEntity (scheme value : String) (knownAt : PgTime) : Option ℕ :=
  (choice.entity (store.bornFrom ontology scheme value)).map fun row => store.entitySurvivor row.entityId knownAt

/-- Stages 1 and 2 of `lookup_entity`: the aliases of the typed value, then of the text id. -/
def resolveAlias (scheme value raw : String) (asOf : PgDate) (knownAt : PgTime) : Except StoreError (Option ℕ) := do
  match ← store.entityResolve ontology scheme value (some asOf) (some knownAt) with
  | some found => return some found
  | none =>
    if scheme ≠ "legacy-id" then store.entityResolve ontology "legacy-id" raw (some asOf) (some knownAt)
    else return none

/-- Stage 2b of `lookup_entity`: the entity born from the typed value, or from the text id. -/
def lookupBirth (scheme value raw : String) (knownAt : PgTime) : Option ℕ :=
  match store.lookupMintedEntity choice ontology scheme value knownAt with
  | some found => some found
  | none =>
    if scheme ≠ "legacy-id" then store.lookupMintedEntity choice ontology "legacy-id" raw knownAt else none

def lookupEntity (rawId role : String) (asOf : PgDate) (knownAt : PgTime) : Except StoreError (Option ℕ) :=
  let raw := strip rawId
  if isUuid raw then .ok (some (store.entitySurvivor (uuidOf raw) knownAt))
  else do
    let typed := parseAlias raw role
    match ← store.resolveAlias ontology typed.1 typed.2 raw asOf knownAt with
    | some found => return some found
    | none => return store.lookupBirth choice ontology typed.1 typed.2 raw knownAt

/-- The rows of `alias_of` that none precedes in confidence and transaction time. -/
def authoritativeAliases (entityId : ℕ) (scheme : String) (validAt : PgDate) (knownAt : PgTime) : List AliasRow :=
  let rows := store.aliases.filter fun claim =>
    store.entitySurvivor claim.entityId knownAt = store.entitySurvivor entityId knownAt ∧ claim.scheme = scheme ∧
      store.ValidOn claim validAt knownAt ∧ claim.transactionTime ≤ knownAt
  rows.filter fun claim => rows.all fun other =>
    toLex (other.confidence, other.transactionTime) ≤ toLex (claim.confidence, claim.transactionTime)

def aliasOf (entityId : ℕ) (scheme : String) (validAt : PgDate) (knownAt : PgTime) : Option String :=
  (choice.claim (store.authoritativeAliases entityId scheme validAt knownAt)).map (·.value)

/-- The loop of `entity_mint`: the first generation whose id no entity holds, among the first ones. -/
def mintGeneration (kind scheme value : String) : Option ℕ :=
  ((List.range (store.entities.length + 1)).map (· + 1)).find? fun generation =>
    ontology.entityUuid kind (entityBirthName scheme value generation) ∉ store.entities.map (·.entityId)

def entityMint (kind scheme value : String) : Except StoreError (ℕ × EntityStore) :=
  match ontology.entityKind kind with
  | none => .error (.cannotBeMinted kind)
  | some row =>
    if row.isAbstract then .error (.cannotBeMinted kind)
    else
      let value := ontology.entityAliasNormalize scheme value
      match store.mintGeneration ontology kind scheme value with
      | none => .error .generationsCollide
      | some generation => do
        let entityId := ontology.entityUuid kind (entityBirthName scheme value generation)
        return (entityId, ← store.insert ontology (.entity ⟨entityId, kind, scheme, value, generation⟩))

/-- An insert with `on conflict do nothing`. -/
def insertOrSkip (row : Insert) : Except StoreError EntityStore :=
  match store.insert ontology row with
  | .error .duplicateKey => .ok store
  | outcome => outcome

def captureAlias (entityId : ℕ) (scheme value : String) (knownAt clock : PgTime) : Insert :=
  .aliasClaim ⟨0, entityId, scheme, value, ⊥, none, min knownAt clock, "datahub.capture", "asserted", 1⟩ clock

def resolveEntity (rawId role : String) (asOf : PgDate) (knownAt clock : PgTime) : Except StoreError (ℕ × EntityStore) := do
  match ← store.lookupEntity choice ontology rawId role asOf knownAt with
  | some found => return (found, store)
  | none =>
    let raw := strip rawId
    let typed := parseAlias raw role
    let minted ← store.entityMint ontology role typed.1 typed.2
    let born ← minted.2.insertOrSkip ontology (captureAlias minted.1 typed.1 typed.2 knownAt clock)
    if typed.1 ≠ "legacy-id" then
      return (minted.1, ← born.insertOrSkip ontology (captureAlias minted.1 "legacy-id" raw knownAt clock))
    else return (minted.1, born)

def Captured (relationType : String) (fromEntity toEntity : ℕ) : Prop :=
  ∃ relation ∈ store.relations, relation.relationType = relationType ∧ relation.fromEntityId = fromEntity ∧
    relation.toEntityId = toEntity ∧ relation.source = "datahub.capture"

instance (relationType : String) (fromEntity toEntity : ℕ) :
    Decidable (store.Captured relationType fromEntity toEntity) :=
  inferInstanceAs (Decidable (∃ relation ∈ _, _))

def captureRelation (relationType : String) (fromEntity toEntity : ℕ) (knownAt clock : PgTime) : RelationRow :=
  let claim : RelationRow := ⟨0, relationType, fromEntity, toEntity, ⊥, none, min knownAt clock, "datahub.capture", "asserted"⟩
  { claim with relationId := ontology.relationUuid claim }

def assertRelation (relationType : String) (fromEntity toEntity : ℕ) (knownAt clock : PgTime) : Except StoreError EntityStore :=
  if store.Captured relationType fromEntity toEntity then .ok store
  else store.insertOrSkip ontology
    (.relation (captureRelation ontology relationType fromEntity toEntity knownAt clock) clock)

def assertIssuerNameAlias (issuer : ℕ) (displayName : String) (knownAt clock : PgTime) : Except StoreError EntityStore :=
  if ∃ claim ∈ store.aliases, claim.entityId = issuer ∧ claim.scheme = "name" ∧ claim.value = displayName then .ok store
  else store.insertOrSkip ontology (captureAlias issuer "name" displayName knownAt clock)

end EntityStore

end TrueAlpha.Datahub
