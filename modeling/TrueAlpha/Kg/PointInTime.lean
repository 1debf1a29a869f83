import TrueAlpha.Kg.EntityResolution
import TrueAlpha.Lib.Sort
import Mathlib.Data.String.Basic

/-!
# What the knowledge graph knows at an instant

A writer compares a call with the newest vintage over all time, a reader takes the newest one at its instant: when an assertion
is visible (`assertIdentifier_visible_iff`) and an edge complete (`addEdge_complete_iff`).  What a reader returned stays so
(`readers_of_later_calls`).
-/

namespace TrueAlpha.Kg

variable {inserted : Bool}

theorem insertRow_eq_ok {ρ κ : Type} [DecidableEq κ] {key : ρ → κ} {table table' : AppendOnly key} {row : ρ}
    {checks references : Except InsertError Unit} (h : insertRow table row checks references = .ok (table', inserted)) :
    (table.Holds row ∧ table' = table ∧ inserted = false) ∨
      (¬ table.Holds row ∧ table' = (table.insert row).1 ∧ inserted = true) := by
  obtain ⟨_, _, h⟩ := bind_eq_ok_iff.mp h
  by_cases hkey : table.Holds row
  · rw [AppendOnly.insert_of_holds hkey] at h
    cases h
    exact .inl ⟨hkey, rfl, rfl⟩
  · obtain ⟨_, hinserted⟩ := AppendOnly.insert_of_not_holds hkey
    rw [if_pos hinserted] at h
    obtain ⟨_, _, h⟩ := map_eq_ok_iff.mp h
    refine .inr ⟨hkey, ?_, ?_⟩
    · rw [h]
    · rw [← hinserted, h]

/-- The three ways in which `assert_identifier` returns. -/
inductive Asserted (store : Store) (row : IdentifierRow) : Store → Bool → Prop
  | repeated (h : store.RepeatsIdentifier row) : Asserted store row store false
  | swallowed (hnew : ¬ store.RepeatsIdentifier row) (h : store.identifiers.Holds row) : Asserted store row store false
  | added (hnew : ¬ store.RepeatsIdentifier row) (h : ¬ store.identifiers.Holds row) :
      Asserted store row { store with identifiers := (store.identifiers.insert row).1 } true

variable {store : Store} {row : IdentifierRow}

theorem asserted_of_assertIdentifier {store' : Store} {recordedAt : Instant}
    (h : assertIdentifier store recordedAt row = .ok (store', inserted)) : Asserted store row store' inserted := by
  rw [assertIdentifier] at h
  by_cases hrepeat : store.RepeatsIdentifier row
  · rw [if_pos hrepeat] at h
    cases h
    exact .repeated hrepeat
  · rw [if_neg hrepeat] at h
    obtain ⟨⟨table, added⟩, hinsert, h⟩ := bind_eq_ok_iff.mp h
    cases h
    rcases insertRow_eq_ok hinsert with ⟨hkey, rfl, rfl⟩ | ⟨hkey, rfl, rfl⟩
    · exact .swallowed hrepeat hkey
    · exact .added hrepeat hkey

/-- The three ways in which `add_edge` returns. -/
inductive Added (store : Store) (row : EdgeRow) : Store → Bool → Prop
  | repeated (h : store.RepeatsEdge row) : Added store row store false
  | swallowed (hnew : ¬ store.RepeatsEdge row) (h : store.edges.Holds row) : Added store row store false
  | added (hnew : ¬ store.RepeatsEdge row) (h : ¬ store.edges.Holds row) :
      Added store row { store with edges := (store.edges.insert row).1 } true

theorem added_of_addEdge {store' : Store} {recordedAt : Instant} {row : EdgeRow}
    (h : addEdge store recordedAt row = .ok (store', inserted)) : Added store row store' inserted := by
  rw [addEdge] at h
  by_cases hrepeat : store.RepeatsEdge row
  · rw [if_pos hrepeat] at h
    cases h
    exact .repeated hrepeat
  · rw [if_neg hrepeat] at h
    obtain ⟨⟨table, added⟩, hinsert, h⟩ := bind_eq_ok_iff.mp h
    cases h
    rcases insertRow_eq_ok hinsert with ⟨hkey, rfl, rfl⟩ | ⟨hkey, rfl, rfl⟩
    · exact .swallowed hrepeat hkey
    · exact .added hrepeat hkey

/-- The row that `resolve` reads at an instant names an entity. -/
def Store.Shows (store : Store) (identifierType identifierValue : String) (asOf : Instant) (entityId : String) : Prop :=
  ∃ row, store.identifierAt identifierType identifierValue asOf = some row ∧ row.entityId = entityId

/-- From an instant to the identifier's next row, `resolve` reads a row that names an entity. -/
def Store.ShowsFrom (store : Store) (identifierType identifierValue : String) (start : Instant) (entityId : String) : Prop :=
  ∀ asOf, start ≤ asOf → (∀ row ∈ store.identifiers.rows, row.Names identifierType identifierValue →
      ¬ (start < row.transactionTime ∧ row.transactionTime ≤ asOf)) →
    store.Shows identifierType identifierValue asOf entityId

theorem showsFrom_iff {identifierType identifierValue : String} {start : Instant} {entityId : String} :
    store.ShowsFrom identifierType identifierValue start entityId ↔
      store.Shows identifierType identifierValue start entityId := by
  constructor
  · intro h
    exact h start le_rfl fun row _ _ hbetween => absurd hbetween.2 (not_le.mpr hbetween.1)
  · intro ⟨row, hread, hentity⟩ asOf hle hquiet
    refine ⟨row, ?_, hentity⟩
    rw [← hread]
    apply AppendOnly.newestOf_congr
    intro other hother
    rw [decide_eq_decide]
    refine and_congr_right fun hnames => ⟨fun hlater => ?_, fun hstart => hstart.trans hle⟩
    exact not_lt.mp fun hlt => hquiet other hother hnames ⟨hlt, hlater⟩

def Store.Unrivalled (store : Store) (row : IdentifierRow) : Prop :=
  ∀ other ∈ store.identifiers.rows, other.Names row.identifierType row.identifierValue →
    other.transactionTime = row.transactionTime → other.confidence ≤ row.confidence

/-- The order of `resolve`: the instant, then the confidence. -/
def IdentifierRow.rank (row : IdentifierRow) : Instant ×ₗ ℚ := toLex (row.transactionTime, row.confidence)

theorem rank_le_iff {other : IdentifierRow} (h : other.transactionTime = row.transactionTime) :
    other.rank ≤ row.rank ↔ other.confidence ≤ row.confidence := by
  rw [IdentifierRow.rank, IdentifierRow.rank, Prod.Lex.toLex_le_toLex, h]
  simp

theorem unrivalled_iff : store.Unrivalled row ↔
      ∀ best ∈ store.identifierAt row.identifierType row.identifierValue row.transactionTime, best.rank ≤ row.rank := by
  constructor
  · intro h best hbest
    obtain ⟨hmem, hselect, -⟩ := AppendOnly.mem_of_newestOf hbest
    obtain ⟨hnames, htime⟩ := of_decide_eq_true hselect
    rcases htime.lt_or_eq with hlt | heq
    · exact (Prod.Lex.toLex_lt_toLex.mpr (.inl hlt)).le
    · exact (rank_le_iff heq).mpr (h best hmem hnames heq)
  · intro h other hother hnames htime
    have hselect := decide_eq_true (And.intro hnames htime.le)
    obtain ⟨best, hbest⟩ := AppendOnly.exists_newestOf IdentifierRow.rank (fun other =>
      other.Names row.identifierType row.identifierValue ∧ other.transactionTime ≤ row.transactionTime) hother hselect
    obtain ⟨-, -, hmax⟩ := AppendOnly.mem_of_newestOf hbest
    exact (rank_le_iff htime).mp ((hmax other hother hselect).trans (h best hbest))

theorem shows_insert_iff (hkey : ¬ store.identifiers.Holds row) :
    ({ store with identifiers := (store.identifiers.insert row).1 } : Store).Shows row.identifierType
        row.identifierValue row.transactionTime row.entityId ↔
      store.Shows row.identifierType row.identifierValue row.transactionTime row.entityId ∨ store.Unrivalled row := by
  have hselect : decide (row.Names row.identifierType row.identifierValue ∧ row.transactionTime ≤ row.transactionTime)
      = true := decide_eq_true ⟨⟨rfl, rfl⟩, le_rfl⟩
  rw [Store.Shows, Store.identifierAt, AppendOnly.newestOf_insert hkey _ hselect, unrivalled_iff, Store.Shows]
  change (∃ read, newer IdentifierRow.rank (store.identifierAt _ _ _) row = some read ∧ _) ↔ _
  rcases store.identifierAt row.identifierType row.identifierValue row.transactionTime with _ | best
  · simp [newer]
  · by_cases hle : best.rank ≤ row.rank
    · simp [newer, hle]
    · simp [newer, hle]

/-- A returned assertion is visible from its instant exactly when it was before, or adds a row that none of that instant exceeds
in confidence. -/
theorem assertIdentifier_visible_iff {store store' : Store} {recordedAt : Instant} {row : IdentifierRow}
    {inserted : Bool} (h : assertIdentifier store recordedAt row = .ok (store', inserted)) :
    store'.ShowsFrom row.identifierType row.identifierValue row.transactionTime row.entityId ↔
      store.Shows row.identifierType row.identifierValue row.transactionTime row.entityId ∨
        (¬ store.RepeatsIdentifier row ∧ ¬ store.identifiers.Holds row ∧ store.Unrivalled row) := by
  rw [showsFrom_iff]
  cases asserted_of_assertIdentifier h with
  | repeated hrepeat => simp [hrepeat]
  | swallowed hnew hkey => simp [hkey]
  | added hnew hkey =>
    rw [shows_insert_iff hkey]
    simp [hnew, hkey]

/-- A store with one identifier: `TICK` names `a` from the instant one on. -/
def sampleIdentifiers : Store where
  entities := ["a", "b"]
  identifiers := ⟨[⟨"a", "sec", "ticker", "TICK", 1, 1, 1, "raw"⟩], by decide⟩
  edges := ⟨[], by decide⟩

/-- Another source names `b` one instant later. -/
def sampleAssertion : IdentifierRow := ⟨"b", "figi", "ticker", "TICK", 2, 2, 1, "raw"⟩

theorem assertIdentifier_visible_sample :
    ∃ store' inserted, assertIdentifier sampleIdentifiers 5 sampleAssertion = .ok (store', inserted) ∧
      store'.ShowsFrom "ticker" "TICK" 2 "b" := by
  obtain ⟨⟨store', inserted⟩, h⟩ : ∃ result, assertIdentifier sampleIdentifiers 5 sampleAssertion = .ok result := ⟨_, rfl⟩
  have hkey : ¬ sampleIdentifiers.identifiers.Holds sampleAssertion := by
    rw [← AppendOnly.mem_keys_iff]
    decide
  have hunrivalled : sampleIdentifiers.Unrivalled sampleAssertion := by
    rw [unrivalled_iff]
    decide +kernel
  exact ⟨store', inserted, h, (assertIdentifier_visible_iff h).mpr (.inr ⟨by decide +kernel, hkey, hunrivalled⟩)⟩

/-- The source that named `a` cannot name `b` at the same instant: the insert is swallowed. -/
theorem assertIdentifier_swallowed :
    ¬ ∀ (store : Store) (recordedAt : Instant) (row : IdentifierRow) (store' : Store) (inserted : Bool),
      assertIdentifier store recordedAt row = .ok (store', inserted) →
        store'.ShowsFrom row.identifierType row.identifierValue row.transactionTime row.entityId := by
  intro h
  have hshows := h sampleIdentifiers 5 ⟨"b", "sec", "ticker", "TICK", 1, 1, 1, "raw"⟩ sampleIdentifiers false rfl
  obtain ⟨row, hread, hentity⟩ := showsFrom_iff.mp hshows
  have ha : sampleIdentifiers.identifierAt "ticker" "TICK" 1 = some ⟨"a", "sec", "ticker", "TICK", 1, 1, 1, "raw"⟩ := by
    decide +kernel
  rw [ha] at hread
  cases hread
  exact absurd hentity (by decide)

def Store.Vintage (store : Store) (row vintage : EdgeRow) : Prop :=
  vintage ∈ store.edges.rows ∧ vintage.Joins row.fromId row.toId row.relationType

def Store.KnowsFrom (store : Store) (row : EdgeRow) (start : Instant) : Prop :=
  ∀ asOf, start ≤ asOf → ∃ vintage, store.Vintage row vintage ∧ vintage.transactionTime ≤ asOf

theorem knowsFrom_iff {row : EdgeRow} {start : Instant} :
    store.KnowsFrom row start ↔ ∃ vintage, store.Vintage row vintage ∧ vintage.transactionTime ≤ start := by
  constructor
  · intro h
    exact h start le_rfl
  · intro ⟨vintage, hvintage, hle⟩ asOf hasOf
    exact ⟨vintage, hvintage, hle.trans hasOf⟩

def sampleEdges : Store where
  entities := ["fund", "company"]
  identifiers := ⟨[], by decide⟩
  edges := ⟨[⟨"fund", "company", "holds", 1, 1, 1, "nport", "raw"⟩], by decide⟩

def sampleRevision : EdgeRow := ⟨"fund", "company", "holds", 2, 2, 1 / 2, "nport", "raw"⟩

/-- The registry ignores an id that it has. -/
def ensureEntity (store : Store) (entityId : String) : Store :=
  if entityId ∈ store.entities then store else { store with entities := store.entities ++ [entityId] }

def mergeTarget (store : Store) (entityId : String) (asOf : Instant) : Option String :=
  (store.edges.newestOf EdgeRow.transactionTime fun row =>
    row.fromId = entityId ∧ row.relationType = "same_as" ∧ row.transactionTime ≤ asOf).map EdgeRow.toId

/-- `resolve` follows at most one merge. -/
def resolve (store : Store) (identifierType value : String) (asOf : Instant) : Option String :=
  (store.identifierAt identifierType value asOf).map fun row => (mergeTarget store row.entityId asOf).getD row.entityId

/-- The values of a type in `crosswalk`. -/
def crosswalk (store : Store) (entityId : String) (asOf : Instant) (identifierType : String) : List String :=
  sortedSet ((store.identifiers.rows.filter fun row => row.entityId = entityId ∧ row.identifierType = identifierType ∧
    row.transactionTime ≤ asOf).map IdentifierRow.identifierValue)

/-- Each value with its newest row's entity. -/
def identifiers (store : Store) (identifierType : String) (asOf : Instant) : List (String × String) :=
  (sortedSet ((store.identifiers.rows.filter fun row => row.identifierType = identifierType ∧
    row.transactionTime ≤ asOf).map IdentifierRow.identifierValue)).filterMap fun value =>
      (store.identifierAt identifierType value asOf).map fun row => (value, row.entityId)

/-- A writer's call, with the instant at which the transaction runs. -/
inductive Call where
  | ensureEntity (entityId : String)
  | assertIdentifier (recordedAt : Instant) (row : IdentifierRow)
  | addEdge (recordedAt : Instant) (row : EdgeRow)

def Call.run (store : Store) : Call → Except InsertError Store
  | ensureEntity entityId => .ok (Kg.ensureEntity store entityId)
  | assertIdentifier recordedAt row => (Kg.assertIdentifier store recordedAt row).map Prod.fst
  | addEdge recordedAt row => (Kg.addEdge store recordedAt row).map Prod.fst

/-- The store after a call: one that raises is rolled back. -/
def Store.after (store : Store) (call : Call) : Store := (call.run store).toOption.getD store

/-- What a call asserts becomes knowable after an instant. -/
def Call.After (asOf : Instant) : Call → Prop
  | ensureEntity _ => True
  | assertIdentifier _ row => asOf < row.transactionTime
  | addEdge _ row => asOf < row.transactionTime

/-- Two stores with one past: their rows up to an instant are the same. -/
def SamePast (asOf : Instant) (store store' : Store) : Prop :=
  (store'.identifiers.rows.filter fun row => row.transactionTime ≤ asOf) =
      store.identifiers.rows.filter (fun row => row.transactionTime ≤ asOf) ∧
    (store'.edges.rows.filter fun row => row.transactionTime ≤ asOf) =
      store.edges.rows.filter fun row => row.transactionTime ≤ asOf

theorem filter_insert {ρ κ : Type} [DecidableEq κ] {key : ρ → κ} {table : AppendOnly key} {row : ρ} {select : ρ → Bool}
    (hkey : ¬ table.Holds row) (h : select row = false) :
    (table.insert row).1.rows.filter select = table.rows.filter select := by
  rw [(AppendOnly.insert_of_not_holds hkey).1, List.filter_append, List.filter_cons_of_neg (by simp [h]), List.filter_nil,
    List.append_nil]

variable {store : Store} {asOf : Instant} {identifierType : String}

/-- One call. -/
theorem samePast_after (store : Store) {call : Call} (h : call.After asOf) : SamePast asOf store (store.after call) := by
  unfold Store.after
  rcases hrun : call.run store with e | store'
  · exact ⟨rfl, rfl⟩
  change SamePast asOf store store'
  cases call with
  | ensureEntity entityId =>
    obtain rfl := Except.ok.inj hrun
    unfold ensureEntity
    split_ifs
    · exact ⟨rfl, rfl⟩
    · exact ⟨rfl, rfl⟩
  | assertIdentifier recordedAt row =>
    obtain ⟨⟨_, inserted⟩, hcall, rfl⟩ := map_eq_ok_iff.mp hrun
    cases asserted_of_assertIdentifier hcall with
    | repeated => exact ⟨rfl, rfl⟩
    | swallowed => exact ⟨rfl, rfl⟩
    | added _ hkey => exact ⟨filter_insert hkey (decide_eq_false (not_le.mpr h)), rfl⟩
  | addEdge recordedAt row =>
    obtain ⟨⟨_, inserted⟩, hcall, rfl⟩ := map_eq_ok_iff.mp hrun
    cases added_of_addEdge hcall with
    | repeated => exact ⟨rfl, rfl⟩
    | swallowed => exact ⟨rfl, rfl⟩
    | added _ hkey => exact ⟨rfl, filter_insert hkey (decide_eq_false (not_le.mpr h))⟩

theorem filter_of_filter {ρ : Type} {rows rows' : List ρ} {past select : ρ → Bool}
    (h : rows'.filter past = rows.filter past) (hpast : ∀ row, select row → past row) :
    rows'.filter select = rows.filter select := by
  have hfilter : ∀ rows : List ρ, (rows.filter past).filter select = rows.filter select := fun rows => by
    rw [List.filter_filter]
    refine List.filter_congr fun row _ => ?_
    rcases hselect : select row with _ | _
    · rfl
    · rw [hpast row hselect, Bool.and_self]
  rw [← hfilter, h, hfilter]

/-- No call that asserts later facts changes what a reader returns at an instant. -/
theorem readers_of_later_calls {calls : List Call} {asOf' : Instant} (h : ∀ call ∈ calls, call.After asOf) (hle : asOf' ≤ asOf) :
    (∀ identifierType value,
      resolve (calls.foldl Store.after store) identifierType value asOf' = resolve store identifierType value asOf') ∧
    (∀ entityId identifierType, crosswalk (calls.foldl Store.after store) entityId asOf' identifierType =
      crosswalk store entityId asOf' identifierType) ∧
    ∀ identifierType, identifiers (calls.foldl Store.after store) identifierType asOf' = identifiers store identifierType asOf' := by
  obtain ⟨hidentifiers, hedges⟩ : SamePast asOf store (calls.foldl Store.after store) := by
    induction calls generalizing store with
    | nil => exact ⟨rfl, rfl⟩
    | cons call calls ih =>
      obtain ⟨hidentifiers, hedges⟩ := samePast_after store (h call List.mem_cons_self)
      obtain ⟨hidentifiers', hedges'⟩ := @ih (store.after call) fun call hcall => h call (List.mem_cons_of_mem _ hcall)
      exact ⟨hidentifiers'.trans hidentifiers, hedges'.trans hedges⟩
  generalize calls.foldl Store.after store = store' at hidentifiers hedges ⊢
  have hread : ∀ identifierType value,
      store'.identifierAt identifierType value asOf' = store.identifierAt identifierType value asOf' := fun _ _ =>
    congrArg (latestBy _) (filter_of_filter hidentifiers fun row hrow =>
      decide_eq_true ((of_decide_eq_true hrow).2.trans hle))
  have hmerge : ∀ entityId, mergeTarget store' entityId asOf' = mergeTarget store entityId asOf' := fun _ =>
    congrArg (Option.map EdgeRow.toId) (congrArg (latestBy _) (filter_of_filter hedges fun row hrow =>
      decide_eq_true ((of_decide_eq_true hrow).2.2.trans hle)))
  refine ⟨fun identifierType value => ?_, fun entityId identifierType => ?_, fun identifierType => ?_⟩
  · simp only [resolve, hread, hmerge]
  · rw [crosswalk, crosswalk, filter_of_filter hidentifiers fun row hrow =>
      decide_eq_true ((of_decide_eq_true hrow).2.2.trans hle)]
  · simp only [identifiers, hread]
    rw [filter_of_filter hidentifiers fun row hrow => decide_eq_true ((of_decide_eq_true hrow).2.trans hle)]

theorem mem_identifiers_iff {value entityId : String} : (value, entityId) ∈ identifiers store identifierType asOf ↔
    store.Shows identifierType value asOf entityId := by
  rw [identifiers, List.mem_filterMap, Store.Shows]
  constructor
  · rintro ⟨_, -, h⟩
    obtain ⟨row, hrow, heq⟩ := Option.map_eq_some_iff.mp h
    cases heq
    exact ⟨row, hrow, rfl⟩
  · rintro ⟨row, hrow, rfl⟩
    obtain ⟨hmem, hselect, -⟩ := AppendOnly.mem_of_newestOf hrow
    obtain ⟨⟨htype, rfl⟩, htime⟩ := of_decide_eq_true hselect
    refine ⟨row.identifierValue, mem_sortedSet.mpr (List.mem_map_of_mem (List.mem_filter.mpr ⟨hmem, ?_⟩)), ?_⟩
    · exact decide_eq_true ⟨htype, htime⟩
    · rw [hrow, Option.map_some]

theorem readers_of_later_calls_sample :
    resolve ([.assertIdentifier 5 sampleAssertion].foldl Store.after sampleIdentifiers) "ticker" "TICK" 1 =
      resolve sampleIdentifiers "ticker" "TICK" 1 :=
  (readers_of_later_calls (fun call hcall => by
    cases List.mem_singleton.mp hcall
    exact (show (1 : Instant) < 2 by decide)) le_rfl).1 "ticker" "TICK"

end TrueAlpha.Kg
