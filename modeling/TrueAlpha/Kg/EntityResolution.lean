import Mathlib.Algebra.Order.Ring.Rat
import TrueAlpha.Lib.AppendOnly
import TrueAlpha.Lib.Run
import TrueAlpha.Time

/-!
# Entity resolution over the knowledge graph

The embedding of `factors.shared.entity_resolution` over three append-only tables.  Both writers skip a call that repeats the
newest vintage over all time; an insert can fail a check, or be swallowed by the unique key.
-/

namespace TrueAlpha.Kg

/-- A row of `staging.kg_identifiers`, and the arguments of `assert_identifier`. -/
structure IdentifierRow where
  entityId : String
  source : String
  identifierType : String
  identifierValue : String
  validFrom : Date
  transactionTime : Instant
  confidence : ℚ
  rawRef : String
  deriving DecidableEq, Repr

def IdentifierRow.key (row : IdentifierRow) : String × String × String × Instant :=
  (row.source, row.identifierType, row.identifierValue, row.transactionTime)

/-- A row of `staging.kg_edges`, and the arguments of `add_edge`. -/
structure EdgeRow where
  fromId : String
  toId : String
  relationType : String
  validFrom : Date
  transactionTime : Instant
  confidence : ℚ
  source : String
  rawRef : String
  deriving DecidableEq, Repr

/-- The index `uq_kg_edges_vintage`. -/
def EdgeRow.key (row : EdgeRow) : String × String × String × Instant × String × String :=
  (row.fromId, row.toId, row.relationType, row.transactionTime, row.source, row.rawRef)

structure Store where
  entities : List String
  identifiers : AppendOnly IdentifierRow.key
  edges : AppendOnly EdgeRow.key

inductive InsertError where
  | confidence
  | recordedBeforeKnowable
  | unknownEntity (entityId : String)
  deriving DecidableEq, Repr

def checkRow (confidence : ℚ) (transactionTime recordedAt : Instant) : Except InsertError Unit :=
  if ¬ (0 ≤ confidence ∧ confidence ≤ 1) then .error .confidence
  else if recordedAt < transactionTime then .error .recordedBeforeKnowable
  else .ok ()

def requireEntities (entities : List String) : List String → Except InsertError Unit
  | [] => .ok ()
  | entityId :: rest => if entityId ∈ entities then requireEntities entities rest else .error (.unknownEntity entityId)

def insertRow {ρ κ : Type} [DecidableEq κ] {key : ρ → κ} (table : AppendOnly key) (row : ρ)
    (checks : Except InsertError Unit) (references : Except InsertError Unit) :
    Except InsertError (AppendOnly key × Bool) := do
  checks
  if (table.insert row).2 then references.map fun _ => table.insert row else return table.insert row

def IdentifierRow.Names (identifierType identifierValue : String) (row : IdentifierRow) : Prop :=
  row.identifierType = identifierType ∧ row.identifierValue = identifierValue

instance (identifierType identifierValue : String) (row : IdentifierRow) :
    Decidable (row.Names identifierType identifierValue) :=
  inferInstanceAs (Decidable (_ ∧ _))

/-- An identifier's newest row over all time, which `assert_identifier` compares with. -/
def Store.latestIdentifier (store : Store) (identifierType identifierValue : String) : Option IdentifierRow :=
  store.identifiers.newestOf IdentifierRow.transactionTime fun row => row.Names identifierType identifierValue

def IdentifierRow.Repeats (latest row : IdentifierRow) : Prop :=
  latest.entityId = row.entityId ∧ latest.confidence = row.confidence

instance (latest row : IdentifierRow) : Decidable (latest.Repeats row) := inferInstanceAs (Decidable (_ ∧ _))

def Store.RepeatsIdentifier (store : Store) (row : IdentifierRow) : Prop :=
  ∃ latest ∈ store.latestIdentifier row.identifierType row.identifierValue, latest.Repeats row

instance (store : Store) (row : IdentifierRow) : Decidable (store.RepeatsIdentifier row) :=
  inferInstanceAs (Decidable (∃ latest ∈ _, _))

/-- The store after it, and whether a row was added. -/
def assertIdentifier (store : Store) (recordedAt : Instant) (row : IdentifierRow) : Except InsertError (Store × Bool) :=
  if store.RepeatsIdentifier row then .ok (store, false)
  else do
    let (identifiers, inserted) ← insertRow store.identifiers row
      (checkRow row.confidence row.transactionTime recordedAt) (requireEntities store.entities [row.entityId])
    return ({ store with identifiers }, inserted)

/-- The row that `resolve` reads: the newest at an instant, of the highest confidence. -/
def Store.identifierAt (store : Store) (identifierType identifierValue : String) (asOf : Instant) : Option IdentifierRow :=
  store.identifiers.newestOf (fun row => toLex (row.transactionTime, row.confidence))
    fun row => row.Names identifierType identifierValue ∧ row.transactionTime ≤ asOf

def EdgeRow.Joins (fromId toId relationType : String) (row : EdgeRow) : Prop :=
  row.fromId = fromId ∧ row.toId = toId ∧ row.relationType = relationType

instance (fromId toId relationType : String) (row : EdgeRow) : Decidable (row.Joins fromId toId relationType) :=
  inferInstanceAs (Decidable (_ ∧ _))

/-- The newest vintage of an edge over all time: what `add_edge` compares with. -/
def Store.latestEdge (store : Store) (fromId toId relationType : String) : Option EdgeRow :=
  store.edges.newestOf EdgeRow.transactionTime fun row => row.Joins fromId toId relationType

def EdgeRow.Repeats (latest row : EdgeRow) : Prop := latest.source = row.source ∧ latest.confidence = row.confidence

instance (latest row : EdgeRow) : Decidable (latest.Repeats row) := inferInstanceAs (Decidable (_ ∧ _))

def Store.RepeatsEdge (store : Store) (row : EdgeRow) : Prop :=
  ∃ latest ∈ store.latestEdge row.fromId row.toId row.relationType, latest.Repeats row

instance (store : Store) (row : EdgeRow) : Decidable (store.RepeatsEdge row) :=
  inferInstanceAs (Decidable (∃ latest ∈ _, _))

/-- The store after it, and whether a vintage was added. -/
def addEdge (store : Store) (recordedAt : Instant) (row : EdgeRow) : Except InsertError (Store × Bool) :=
  if store.RepeatsEdge row then .ok (store, false)
  else do
    let (edges, inserted) ← insertRow store.edges row
      (checkRow row.confidence row.transactionTime recordedAt)
      (requireEntities store.entities [row.fromId, row.toId])
    return ({ store with edges }, inserted)

end TrueAlpha.Kg
