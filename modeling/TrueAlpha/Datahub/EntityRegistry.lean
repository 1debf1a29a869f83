import TrueAlpha.Datahub.EntityStore

/-!
# The registries of the entity identity store

The rows that the migrations seed for kinds, alias schemes and relation types.  `Database` holds the functions of the database
whose result depends on its locale or on a hash.
-/

namespace TrueAlpha.Datahub

/-- `upper`, the class `\s`, the order of texts under the collation, and the two UUIDv5 derivations. -/
structure Database where
  upper : String → String
  isSpace : Char → Bool
  collation : String → List ℕ
  entityUuid : String → String → ℕ
  relationUuid : RelationRow → ℕ
  upper_ascii : ∀ text : String, (∀ c ∈ text.toList, c.isAlphanum ∨ c ∈ ['*', '@', '#', '.', '-', ':']) →
    upper text = String.ofList (text.toList.map Char.toUpper)
  collation_injective : Function.Injective collation

def seededKinds : List (String × EntityKind) :=
  [("entity", ⟨none, true⟩), ("agent", ⟨some "entity", true⟩), ("organization", ⟨some "agent", true⟩),
    ("issuer", ⟨some "organization", false⟩), ("fund", ⟨some "issuer", false⟩), ("person", ⟨some "agent", false⟩),
    ("instrument", ⟨some "entity", false⟩), ("listing", ⟨some "entity", false⟩), ("universe", ⟨some "entity", false⟩),
    ("segment", ⟨some "entity", false⟩), ("product", ⟨some "entity", false⟩)]

/-- `[0-9A-Z]`. -/
def isUpperAlnum (c : Char) : Bool := c.isDigit || c.isUpper

/-- `[B-DF-HJ-NP-TV-Z]`. -/
def isUpperConsonant (c : Char) : Bool := c.isUpper && !(['A', 'E', 'I', 'O', 'U'].contains c)

/-- `^[a-z][a-z0-9-]*:[a-z0-9-]+:\S+$`. -/
def legacyIdPattern (isSpace : Char → Bool) (value : List Char) : Bool :=
  let isWord := fun c : Char => c.isLower || c.isDigit || c == '-'
  let kind := value.takeWhile (· != ':')
  let rest := (value.dropWhile (· != ':')).drop 1
  let scheme := rest.takeWhile (· != ':')
  let id := (rest.dropWhile (· != ':')).drop 1
  kind.head?.any Char.isLower && kind.all isWord && !scheme.isEmpty && scheme.all isWord && !id.isEmpty &&
    id.all fun c => !isSpace c

/-- `^[0-9A-Z]{18}[0-9]{2}$`. -/
def leiPattern (value : List Char) : Bool :=
  value.length == 20 && (value.take 18).all isUpperAlnum && (value.drop 18).all Char.isDigit

/-- `^[0-9]{10}$`. -/
def cikPattern (value : List Char) : Bool := value.length == 10 && value.all Char.isDigit

/-- `^[0-9A-Z*@#]{8}[0-9]$`. -/
def cusipPattern (value : List Char) : Bool :=
  value.length == 9 && (value.take 8).all (fun c => isUpperAlnum c || c == '*' || c == '@' || c == '#') &&
    (value.drop 8).all Char.isDigit

/-- `^[A-Z]{2}[0-9A-Z]{9}[0-9]$`. -/
def isinPattern (value : List Char) : Bool :=
  value.length == 12 && (value.take 2).all Char.isUpper && ((value.drop 2).take 9).all isUpperAlnum &&
    (value.drop 11).all Char.isDigit

/-- `^[B-DF-HJ-NP-TV-Z]{2}G[B-DF-HJ-NP-TV-Z0-9]{8}[0-9]$`. -/
def figiPattern (value : List Char) : Bool :=
  value.length == 12 && (value.take 2).all isUpperConsonant && ((value.drop 2).take 1).all (· == 'G') &&
    ((value.drop 3).take 8).all (fun c => isUpperConsonant c || c.isDigit) && (value.drop 11).all Char.isDigit

/-- `^[A-Z0-9]{4}:[A-Z0-9][A-Z0-9.\-]*$`. -/
def micTickerPattern (value : List Char) : Bool :=
  let ticker := value.drop 5
  (value.take 4).length == 4 && (value.take 4).all isUpperAlnum && (value.drop 4).head?.any (· == ':') &&
    ticker.head?.any isUpperAlnum && ticker.all fun c => isUpperAlnum c || c == '.' || c == '-'

/-- `^S[0-9]{9}$`. -/
def secSeriesPattern (value : List Char) : Bool :=
  value.length == 10 && value.head?.any (· == 'S') && (value.drop 1).all Char.isDigit

/-- `^[A-Z]{2}\.[A-Z0-9][A-Z0-9.\-]*$`. -/
def moomooCodePattern (value : List Char) : Bool :=
  let code := value.drop 3
  (value.take 2).length == 2 && (value.take 2).all Char.isUpper && (value.drop 2).head?.any (· == '.') &&
    code.head?.any isUpperAlnum && code.all fun c => isUpperAlnum c || c == '.' || c == '-'

/-- `^\S(.*\S)?$`. -/
def namePattern (isSpace : Char → Bool) (value : List Char) : Bool :=
  value.head?.any (fun c => !isSpace c) && value.getLast?.any fun c => !isSpace c

def seededSchemes (isSpace : Char → Bool) : List (String × AliasScheme) :=
  [("legacy-id", ⟨"entity", true, false, fun value => legacyIdPattern isSpace value.toList⟩),
    ("lei", ⟨"organization", true, false, fun value => leiPattern value.toList⟩),
    ("cik", ⟨"organization", true, false, fun value => cikPattern value.toList⟩),
    ("cusip", ⟨"instrument", true, true, fun value => cusipPattern value.toList⟩),
    ("isin", ⟨"instrument", true, true, fun value => isinPattern value.toList⟩),
    ("figi", ⟨"instrument", true, false, fun value => figiPattern value.toList⟩),
    ("mic-ticker", ⟨"listing", true, true, fun value => micTickerPattern value.toList⟩),
    ("sec-series", ⟨"fund", true, false, fun value => secSeriesPattern value.toList⟩),
    ("moomoo-code", ⟨"listing", true, true, fun value => moomooCodePattern value.toList⟩),
    ("name", ⟨"entity", false, true, fun value => namePattern isSpace value.toList⟩)]

def seededRelationTypes : List (String × RelationType) :=
  [("issues", ⟨"issuer", "instrument", false⟩), ("listed_as", ⟨"instrument", "listing", false⟩),
    ("holds", ⟨"fund", "instrument", false⟩), ("member_of", ⟨"entity", "universe", false⟩),
    ("subsidiary_of", ⟨"organization", "organization", false⟩), ("successor_of", ⟨"organization", "organization", false⟩),
    ("segment_of", ⟨"segment", "issuer", false⟩), ("produces", ⟨"organization", "product", false⟩),
    ("supplies_to", ⟨"organization", "organization", false⟩), ("covers", ⟨"person", "issuer", false⟩),
    ("same_as", ⟨"entity", "entity", true⟩), ("superseded_by", ⟨"entity", "entity", true⟩),
    ("split_into", ⟨"entity", "entity", true⟩), ("primary_listing", ⟨"issuer", "listing", false⟩)]

def Database.ontology (db : Database) : Ontology where
  entityKind := (seededKinds.lookup ·)
  aliasScheme := ((seededSchemes db.isSpace).lookup ·)
  relationType := (seededRelationTypes.lookup ·)
  upper := db.upper
  entityUuid := db.entityUuid
  relationUuid := db.relationUuid

end TrueAlpha.Datahub
