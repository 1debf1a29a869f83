import TrueAlpha.Datahub.MergeChains
import TrueAlpha.Datahub.ResolveCoordinates
import TrueAlpha.Lib.QueryText

/-!
# What a lookup reads

`lookup_entity` answers from the aliases of the typed form that are in force (`InForce`), else from those of the id, else from
the entity born from one of them.  It depends on what was known then (`SameUpTo`).
-/

namespace TrueAlpha.Datahub

variable {choice : RowChoice} {ontology : Ontology} {db : Database} {store store' : EntityStore}
  {asOf validAt : PgDate} {knownAt : PgTime} {scheme value raw : String} {e : ℕ}

namespace EntityStore

def InForce (store : EntityStore) (claim : AliasRow) (asOf : PgDate) (knownAt : PgTime) : Prop :=
  claim.transactionTime ≤ knownAt ∧ claim.validFrom ≤ asOf ∧ (∀ last ∈ claim.validTo, asOf < last) ∧
    ∀ retraction ∈ store.retractions, retraction.target = .aliasClaim claim.aliasId →
      retraction.transactionTime ≤ knownAt → asOf < retraction.validTo

instance (store : EntityStore) (claim : AliasRow) (asOf : PgDate) (knownAt : PgTime) :
    Decidable (store.InForce claim asOf knownAt) :=
  inferInstanceAs (Decidable (_ ∧ _ ∧ _ ∧ _))

def Names (ontology : Ontology) (store : EntityStore) (scheme value : String) (asOf : PgDate) (knownAt : PgTime)
    (e : ℕ) : Prop :=
  ∃ claim ∈ store.aliases, claim.scheme = scheme ∧ claim.value = ontology.entityAliasNormalize scheme value ∧
    store.InForce claim asOf knownAt ∧ store.entitySurvivor claim.entityId knownAt = e

def NamesOnly (ontology : Ontology) (store : EntityStore) (scheme value : String) (asOf : PgDate) (knownAt : PgTime)
    (e : ℕ) : Prop :=
  store.Names ontology scheme value asOf knownAt e ∧ ∀ e', store.Names ontology scheme value asOf knownAt e' → e' = e

def NamesTwo (ontology : Ontology) (store : EntityStore) (scheme value : String) (asOf : PgDate) (knownAt : PgTime) : Prop :=
  ∃ e e', store.Names ontology scheme value asOf knownAt e ∧ store.Names ontology scheme value asOf knownAt e' ∧ e ≠ e'

def Born (choice : RowChoice) (ontology : Ontology) (store : EntityStore) (scheme value : String) (knownAt : PgTime)
    (e : ℕ) : Prop :=
  ∃ row, choice.entity (store.bornFrom ontology scheme value) = some row ∧ store.entitySurvivor row.entityId knownAt = e

structure SameUpTo (knownAt : PgTime) (store store' : EntityStore) : Prop where
  entities : store'.entities = store.entities
  aliases : store'.aliases.filter (fun row => decide (row.transactionTime ≤ knownAt)) =
    store.aliases.filter fun row => decide (row.transactionTime ≤ knownAt)
  relations : store'.relations.filter (fun row => decide (row.transactionTime ≤ knownAt)) =
    store.relations.filter fun row => decide (row.transactionTime ≤ knownAt)
  retractions : store'.retractions.filter (fun row => decide (row.transactionTime ≤ knownAt)) =
    store.retractions.filter fun row => decide (row.transactionTime ≤ knownAt)

theorem mem_matching_iff {claim : AliasRow} : claim ∈ store.matchingAliases scheme value asOf knownAt ↔
    claim ∈ store.aliases ∧ claim.scheme = scheme ∧ claim.value = value ∧ store.InForce claim asOf knownAt := by
  rw [mem_matchingAliases, ValidOn, lt_validTo_iff]
  simp only [InForce]

variable (ontology store asOf knownAt scheme value e) in
theorem mem_hits_iff : e ∈ ((store.matchingAliases scheme (ontology.entityAliasNormalize scheme value) asOf knownAt).map
    fun claim => store.entitySurvivor claim.entityId knownAt).dedup ↔ store.Names ontology scheme value asOf knownAt e := by
  rw [List.mem_dedup, List.mem_map]
  simp only [mem_matching_iff, Names]
  tauto

theorem one_lt_length_iff {l : List ℕ} (hl : l.Nodup) : 1 < l.length ↔ ∃ x y, x ∈ l ∧ y ∈ l ∧ x ≠ y := by
  constructor
  · intro h
    match l, h with
    | x :: y :: rest, _ =>
      refine ⟨x, y, by simp, by simp, fun heq => ?_⟩
      rw [heq] at hl
      simp at hl
  · rintro ⟨x, y, hx, hy, hne⟩
    match l with
    | [] => cases hx
    | [z] =>
      rw [List.mem_singleton] at hx hy
      exact absurd (hx.trans hy.symm) hne
    | _ :: _ :: _ =>
      simp only [List.length_cons]
      omega

variable (store asOf knownAt value) in
theorem entityResolve_cases (hunique : ontology.Unique scheme) : (store.NamesTwo ontology scheme value asOf knownAt ∧
      ∃ error, store.entityResolve ontology scheme value (some asOf) (some knownAt) = .error error) ∨
    (∃ e, store.NamesOnly ontology scheme value asOf knownAt e ∧
      store.entityResolve ontology scheme value (some asOf) (some knownAt) = .ok (some e)) ∨
    ((∀ e, ¬ store.Names ontology scheme value asOf knownAt e) ∧
      store.entityResolve ontology scheme value (some asOf) (some knownAt) = .ok none) := by
  obtain ⟨row, hrow, hisUnique⟩ := hunique
  rw [entityResolve, hrow]
  dsimp only
  rw [hisUnique, if_neg (by decide)]
  have hmem := mem_hits_iff ontology store asOf knownAt scheme value
  generalize hhits : ((store.matchingAliases scheme (ontology.entityAliasNormalize scheme value) asOf knownAt).map
    fun claim => store.entitySurvivor claim.entityId knownAt).dedup = hits at hmem
  have hnodup : hits.Nodup := hhits ▸ List.nodup_dedup _
  by_cases hmany : 1 < hits.length
  · refine .inl ⟨?_, _, if_pos hmany⟩
    obtain ⟨x, y, hx, hy, hne⟩ := (one_lt_length_iff hnodup).mp hmany
    exact ⟨x, y, (hmem x).mp hx, (hmem y).mp hy, hne⟩
  · rw [if_neg hmany]
    refine .inr ?_
    cases hits with
    | nil => exact .inr ⟨fun e he => List.not_mem_nil ((hmem e).mpr he), rfl⟩
    | cons x rest =>
      have hnil : rest = [] := by
        rw [← List.length_eq_zero_iff]
        simp only [List.length_cons] at hmany
        omega
      subst hnil
      refine .inl ⟨x, ⟨(hmem x).mp List.mem_cons_self, fun e he => ?_⟩, rfl⟩
      exact List.mem_singleton.mp ((hmem e).mpr he)

end EntityStore

theorem strip_strip (text : String) : strip (strip text) = strip text := by
  rw [strip, strip, String.toList_ofList, strip_idempotent]

theorem parseAlias_cases (rawId role : String) : parseAlias rawId role = ("legacy-id", strip rawId) ∨
    (parseAlias rawId role).1 ∈ ["lei", "cik", "cusip", "figi", "mic-ticker"] := by
  rw [parseAlias]
  split
  · split
    · exact .inr (by simp)
    · split
      · exact .inr (by simp)
      · exact .inl rfl
  · split
    · split
      · exact .inr (by simp)
      · split
        · exact .inr (by simp)
        · exact .inl rfl
    · split
      · split
        · exact .inr (by simp)
        · exact .inl rfl
      · exact .inl rfl

theorem legacyId_unique (db : Database) : db.ontology.Unique "legacy-id" := ⟨_, rfl, rfl⟩

theorem parseAlias_unique (db : Database) (rawId role : String) : db.ontology.Unique (parseAlias rawId role).1 := by
  obtain h | h := parseAlias_cases rawId role
  · rw [h]
    exact legacyId_unique db
  · generalize (parseAlias rawId role).1 = scheme at h
    simp only [List.mem_cons, List.not_mem_nil, or_false] at h
    obtain rfl | rfl | rfl | rfl | rfl := h <;> exact ⟨_, rfl, rfl⟩

namespace EntityStore

def AliasAnswer (ontology : Ontology) (store : EntityStore) (typed : String × String) (raw : String) (asOf : PgDate)
    (knownAt : PgTime) (e : ℕ) : Prop :=
  store.NamesOnly ontology typed.1 typed.2 asOf knownAt e ∨ (∀ e', ¬ store.Names ontology typed.1 typed.2 asOf knownAt e') ∧
      store.NamesOnly ontology "legacy-id" raw asOf knownAt e

def Ambiguous (ontology : Ontology) (store : EntityStore) (typed : String × String) (raw : String) (asOf : PgDate)
    (knownAt : PgTime) : Prop :=
  store.NamesTwo ontology typed.1 typed.2 asOf knownAt ∨ (∀ e', ¬ store.Names ontology typed.1 typed.2 asOf knownAt e') ∧
      store.NamesTwo ontology "legacy-id" raw asOf knownAt

def Unnamed (ontology : Ontology) (store : EntityStore) (typed : String × String) (raw : String) (asOf : PgDate)
    (knownAt : PgTime) : Prop :=
  (∀ e, ¬ store.Names ontology typed.1 typed.2 asOf knownAt e) ∧ ∀ e, ¬ store.Names ontology "legacy-id" raw asOf knownAt e

def BirthAnswer (choice : RowChoice) (ontology : Ontology) (store : EntityStore) (typed : String × String) (raw : String)
    (knownAt : PgTime) (e : ℕ) : Prop :=
  store.Born choice ontology typed.1 typed.2 knownAt e ∨
    (∀ e', ¬ store.Born choice ontology typed.1 typed.2 knownAt e') ∧ store.Born choice ontology "legacy-id" raw knownAt e

variable {typed : String × String}

theorem NamesOnly.unique {e' : ℕ} (h : store.NamesOnly ontology scheme value asOf knownAt e)
    (h' : store.Names ontology scheme value asOf knownAt e') : e' = e :=
  h.2 e' h'

theorem not_namesTwo (h : store.NamesOnly ontology scheme value asOf knownAt e) :
    ¬ store.NamesTwo ontology scheme value asOf knownAt := by
  intro ⟨x, y, hx, hy, hne⟩
  exact hne ((h.unique hx).trans (h.unique hy).symm)

theorem AliasAnswer.unique {e' : ℕ} (h : store.AliasAnswer ontology typed raw asOf knownAt e)
    (h' : store.AliasAnswer ontology typed raw asOf knownAt e') : e = e' := by
  obtain h | ⟨hnone, h⟩ := h <;> obtain h' | ⟨hnone', h'⟩ := h'
  · exact h'.unique h.1
  · exact absurd h.1 (hnone' e)
  · exact absurd h'.1 (hnone e')
  · exact h'.unique h.1

theorem AliasAnswer.not_unnamed (h : store.AliasAnswer ontology typed raw asOf knownAt e) :
    ¬ store.Unnamed ontology typed raw asOf knownAt := by
  intro hunnamed
  obtain ⟨hnames, _⟩ | ⟨_, hnames, _⟩ := h
  · exact hunnamed.1 e hnames
  · exact hunnamed.2 e hnames

theorem Ambiguous.not_unnamed (h : store.Ambiguous ontology typed raw asOf knownAt) :
    ¬ store.Unnamed ontology typed raw asOf knownAt := by
  intro hunnamed
  obtain ⟨x, _, hx, _⟩ | ⟨_, x, _, hx, _⟩ := h
  · exact hunnamed.1 x hx
  · exact hunnamed.2 x hx

theorem AliasAnswer.not_ambiguous (h : store.AliasAnswer ontology typed raw asOf knownAt e) :
    ¬ store.Ambiguous ontology typed raw asOf knownAt := by
  intro hambiguous
  obtain honly | ⟨hnone, honly⟩ := h <;> obtain htwo | ⟨hnone', htwo⟩ := hambiguous
  · exact not_namesTwo honly htwo
  · exact hnone' e honly.1
  · obtain ⟨x, _, hx, _⟩ := htwo
    exact hnone x hx
  · exact not_namesTwo honly htwo

variable (store asOf knownAt) in
theorem resolveAlias_cases (htyped : ontology.Unique typed.1) (hlegacy : ontology.Unique "legacy-id")
    (hraw : typed.1 = "legacy-id" → typed.2 = raw) :
    (store.Ambiguous ontology typed raw asOf knownAt ∧
      ∃ error, store.resolveAlias ontology typed.1 typed.2 raw asOf knownAt = .error error) ∨
    (∃ e, store.AliasAnswer ontology typed raw asOf knownAt e ∧
      store.resolveAlias ontology typed.1 typed.2 raw asOf knownAt = .ok (some e)) ∨
    (store.Unnamed ontology typed raw asOf knownAt ∧
      store.resolveAlias ontology typed.1 typed.2 raw asOf knownAt = .ok none) := by
  obtain ⟨htwo, error, hresolve⟩ | ⟨e, honly, hresolve⟩ | ⟨hnone, hresolve⟩ :=
    entityResolve_cases store asOf knownAt typed.2 htyped
  · refine .inl ⟨.inl htwo, error, ?_⟩
    rw [resolveAlias, hresolve]
    rfl
  · refine .inr (.inl ⟨e, .inl honly, ?_⟩)
    rw [resolveAlias, hresolve]
    rfl
  · by_cases hscheme : typed.1 = "legacy-id"
    · refine .inr (.inr ⟨⟨hnone, ?_⟩, ?_⟩)
      · rw [hscheme, hraw hscheme] at hnone
        exact hnone
      · rw [resolveAlias, hresolve, hscheme]
        rfl
    · have hstage : store.resolveAlias ontology typed.1 typed.2 raw asOf knownAt =
          store.entityResolve ontology "legacy-id" raw (some asOf) (some knownAt) := by
        rw [resolveAlias, hresolve]
        exact if_pos hscheme
      rw [hstage]
      obtain ⟨htwo, error, hresolve'⟩ | ⟨e, honly, hresolve'⟩ | ⟨hnone', hresolve'⟩ :=
        entityResolve_cases store asOf knownAt raw hlegacy
      · exact .inl ⟨.inr ⟨hnone, htwo⟩, error, hresolve'⟩
      · exact .inr (.inl ⟨e, .inr ⟨hnone, honly⟩, hresolve'⟩)
      · exact .inr (.inr ⟨⟨hnone, hnone'⟩, hresolve'⟩)

theorem lookupMintedEntity_eq_some_iff :
    store.lookupMintedEntity choice ontology scheme value knownAt = some e ↔ store.Born choice ontology scheme value knownAt e := by
  rw [lookupMintedEntity, Option.map_eq_some_iff]
  rfl

theorem lookupBirth_eq_some_iff (hraw : typed.1 = "legacy-id" → typed.2 = raw) :
    store.lookupBirth choice ontology typed.1 typed.2 raw knownAt = some e ↔
      store.BirthAnswer choice ontology typed raw knownAt e := by
  rw [lookupBirth, BirthAnswer]
  simp only [← lookupMintedEntity_eq_some_iff]
  rcases hborn : store.lookupMintedEntity choice ontology typed.1 typed.2 knownAt with _ | found
  · by_cases hscheme : typed.1 = "legacy-id"
    · rw [hscheme, hraw hscheme] at hborn
      simp [hscheme, hborn]
    · simp [hscheme]
  · simp

theorem filter_eq_of_known {α : Type} {known selected : α → Bool} {l l' : List α}
    (h : l'.filter known = l.filter known) (hknown : ∀ a, selected a → known a) : l'.filter selected = l.filter selected := by
  have hthrough : ∀ l : List α, l.filter selected = (l.filter known).filter selected := by
    intro l
    rw [List.filter_filter]
    refine List.filter_congr fun a _ => ?_
    by_cases ha : selected a
    · rw [hknown a ha, ha]
      rfl
    · rw [Bool.not_eq_true] at ha
      rw [ha]
      rfl
  rw [hthrough, h, ← hthrough]

section Later

variable (h : SameUpTo knownAt store store')

include h

theorem SameUpTo.mem_retractions_iff {retraction : RetractionRow} (htime : retraction.transactionTime ≤ knownAt) :
    retraction ∈ store'.retractions ↔ retraction ∈ store.retractions := by
  have hmem : ∀ l : List RetractionRow, retraction ∈ l ↔
      retraction ∈ l.filter fun row => decide (row.transactionTime ≤ knownAt) := by
    intro l
    rw [List.mem_filter, decide_eq_true htime]
    simp
  rw [hmem, h.retractions, ← hmem]

theorem SameUpTo.supersedes_iff {x : ℕ} {relation : RelationRow} :
    store'.Supersedes knownAt x relation ↔ store.Supersedes knownAt x relation := by
  have hwithdrawn : store'.Withdrawn relation knownAt ↔ store.Withdrawn relation knownAt := by
    constructor
    · rintro ⟨retraction, hmem, htarget, htime⟩
      exact ⟨retraction, (h.mem_retractions_iff htime).mp hmem, htarget, htime⟩
    · rintro ⟨retraction, hmem, htarget, htime⟩
      exact ⟨retraction, (h.mem_retractions_iff htime).mpr hmem, htarget, htime⟩
  rw [Supersedes, Supersedes, hwithdrawn]

theorem SameUpTo.successor_eq : store'.successor knownAt = store.successor knownAt := by
  funext x
  have hsame : store'.relations.filter (fun relation => decide (store'.Supersedes knownAt x relation)) =
      store.relations.filter fun relation => decide (store.Supersedes knownAt x relation) := by
    simp only [h.supersedes_iff]
    exact filter_eq_of_known h.relations fun relation hsup =>
      decide_eq_true (of_decide_eq_true hsup : store.Supersedes knownAt x relation).2.2.1
  rw [successor, successor, hsame]

theorem SameUpTo.entitySurvivor_eq (x : ℕ) : store'.entitySurvivor x knownAt = store.entitySurvivor x knownAt := by
  rw [entitySurvivor, entitySurvivor, h.successor_eq]

theorem SameUpTo.validOn_iff {claim : AliasRow} : store'.ValidOn claim validAt knownAt ↔ store.ValidOn claim validAt knownAt := by
  have hend : store'.entityAliasValidTo claim knownAt = store.entityAliasValidTo claim knownAt := by
    rw [entityAliasValidTo, entityAliasValidTo, filter_eq_of_known h.retractions fun retraction hsel =>
      decide_eq_true (of_decide_eq_true hsel : _ ∧ _).2]
  rw [ValidOn, ValidOn, hend]

theorem SameUpTo.matchingAliases_eq (scheme value : String) :
    store'.matchingAliases scheme value asOf knownAt = store.matchingAliases scheme value asOf knownAt := by
  simp only [matchingAliases, h.validOn_iff]
  exact filter_eq_of_known h.aliases fun claim hsel => decide_eq_true (of_decide_eq_true hsel : _ ∧ _ ∧ _ ∧ _).2.2.1

theorem SameUpTo.entityResolve_eq (scheme value : String) :
    store'.entityResolve ontology scheme value (some asOf) (some knownAt) =
      store.entityResolve ontology scheme value (some asOf) (some knownAt) := by
  simp only [entityResolve, h.matchingAliases_eq, h.entitySurvivor_eq]

theorem SameUpTo.lookupMintedEntity_eq (scheme value : String) :
    store'.lookupMintedEntity choice ontology scheme value knownAt = store.lookupMintedEntity choice ontology scheme value knownAt := by
  simp only [lookupMintedEntity, bornFrom, h.entities, h.entitySurvivor_eq]

theorem SameUpTo.lookupEntity_eq (rawId role : String) :
    store'.lookupEntity choice ontology rawId role asOf knownAt = store.lookupEntity choice ontology rawId role asOf knownAt := by
  simp only [lookupEntity, resolveAlias, lookupBirth, h.entityResolve_eq, h.lookupMintedEntity_eq, h.entitySurvivor_eq]

theorem SameUpTo.aliasOf_eq (entityId : ℕ) (scheme : String) :
    store'.aliasOf choice entityId scheme validAt knownAt = store.aliasOf choice entityId scheme validAt knownAt := by
  have hrows : store'.aliases.filter (fun claim =>
        store'.entitySurvivor claim.entityId knownAt = store'.entitySurvivor entityId knownAt ∧ claim.scheme = scheme ∧
          store'.ValidOn claim validAt knownAt ∧ claim.transactionTime ≤ knownAt) =
      store.aliases.filter fun claim =>
        store.entitySurvivor claim.entityId knownAt = store.entitySurvivor entityId knownAt ∧ claim.scheme = scheme ∧
          store.ValidOn claim validAt knownAt ∧ claim.transactionTime ≤ knownAt := by
    simp only [h.entitySurvivor_eq, h.validOn_iff]
    exact filter_eq_of_known h.aliases fun claim hsel => decide_eq_true (of_decide_eq_true hsel : _ ∧ _ ∧ _ ∧ _).2.2.2
  simp only [aliasOf, authoritativeAliases, hrows]

end Later

/-! ## The lookup -/

theorem parseAlias_legacy {rawId role : String} (h : (parseAlias (strip rawId) role).1 = "legacy-id") :
    (parseAlias (strip rawId) role).2 = strip rawId := by
  obtain hparse | hparse := parseAlias_cases (strip rawId) role
  · rw [hparse, strip_strip]
  · rw [h] at hparse
    exact absurd hparse (by decide)

variable (choice store asOf knownAt) in
theorem lookupEntity_cases (db : Database) {rawId : String} (role : String) (hraw : isUuid (strip rawId) = false) :
    (store.Ambiguous db.ontology (parseAlias (strip rawId) role) (strip rawId) asOf knownAt ∧
      ∃ error, store.lookupEntity choice db.ontology rawId role asOf knownAt = .error error) ∨
    (∃ e, store.AliasAnswer db.ontology (parseAlias (strip rawId) role) (strip rawId) asOf knownAt e ∧
      store.lookupEntity choice db.ontology rawId role asOf knownAt = .ok (some e)) ∨
    (store.Unnamed db.ontology (parseAlias (strip rawId) role) (strip rawId) asOf knownAt ∧
      store.lookupEntity choice db.ontology rawId role asOf knownAt = .ok (store.lookupBirth choice db.ontology
        (parseAlias (strip rawId) role).1 (parseAlias (strip rawId) role).2 (strip rawId) knownAt)) := by
  rw [lookupEntity]
  simp only [hraw, Bool.false_eq_true, if_false]
  obtain ⟨hambiguous, error, hstages⟩ | ⟨found, hfound, hstages⟩ | ⟨hunnamed, hstages⟩ := resolveAlias_cases store asOf knownAt
      (parseAlias_unique db (strip rawId) role) (legacyId_unique db) parseAlias_legacy
  · refine .inl ⟨hambiguous, error, ?_⟩
    rw [hstages]
    rfl
  · refine .inr (.inl ⟨found, hfound, ?_⟩)
    rw [hstages]
    rfl
  · refine .inr (.inr ⟨hunnamed, ?_⟩)
    rw [hstages]
    rfl

end EntityStore

/-- A lookup answers from the aliases in force of the typed form, else of the id, else from the births; it raises where they name
two entities; rows known later change nothing. -/
theorem lookup_entity_spec (choice : RowChoice) (db : Database) (store : EntityStore) (rawId role : String)
    (asOf : PgDate) (knownAt : PgTime) (hraw : isUuid (strip rawId) = false) :
    let typed := parseAlias (strip rawId) role
    let answer := store.lookupEntity choice db.ontology rawId role asOf knownAt
    (∀ e, answer = .ok (some e) ↔ store.AliasAnswer db.ontology typed (strip rawId) asOf knownAt e ∨
      store.Unnamed db.ontology typed (strip rawId) asOf knownAt ∧
        store.BirthAnswer choice db.ontology typed (strip rawId) knownAt e) ∧
    (answer = .ok none ↔ store.Unnamed db.ontology typed (strip rawId) asOf knownAt ∧
      ∀ e, ¬ store.BirthAnswer choice db.ontology typed (strip rawId) knownAt e) ∧
    ((∃ error, answer = .error error) ↔ store.Ambiguous db.ontology typed (strip rawId) asOf knownAt) ∧
    ∀ store', EntityStore.SameUpTo knownAt store store' →
      store'.lookupEntity choice db.ontology rawId role asOf knownAt = answer := by
  intro typed answer
  have hbirth : ∀ e, store.lookupBirth choice db.ontology typed.1 typed.2 (strip rawId) knownAt = some e ↔
      store.BirthAnswer choice db.ontology typed (strip rawId) knownAt e :=
    fun e => EntityStore.lookupBirth_eq_some_iff EntityStore.parseAlias_legacy
  have hlater : ∀ store', EntityStore.SameUpTo knownAt store store' →
      store'.lookupEntity choice db.ontology rawId role asOf knownAt = answer :=
    fun store' hsame => hsame.lookupEntity_eq rawId role
  obtain ⟨hambiguous, error, hraise⟩ | ⟨found, hfound, hreturn⟩ | ⟨hunnamed, hreturn⟩ :=
    EntityStore.lookupEntity_cases choice store asOf knownAt db role hraw
  · rw [show answer = .error error from hraise] at hlater ⊢
    refine ⟨fun e => ?_, ?_, ?_, hlater⟩
    · refine iff_of_false (by simp) ?_
      rintro (h | ⟨h, _⟩)
      · exact h.not_ambiguous hambiguous
      · exact hambiguous.not_unnamed h
    · exact iff_of_false (by simp) fun h => hambiguous.not_unnamed h.1
    · exact iff_of_true ⟨error, rfl⟩ hambiguous
  · rw [show answer = .ok (some found) from hreturn] at hlater ⊢
    refine ⟨fun e => ?_, ?_, ?_, hlater⟩
    · rw [Except.ok.injEq, Option.some.injEq, or_iff_left fun h => hfound.not_unnamed h.1]
      constructor
      · rintro rfl
        exact hfound
      · exact hfound.unique
    · exact iff_of_false (by simp) fun h => hfound.not_unnamed h.1
    · exact iff_of_false (by simp) hfound.not_ambiguous
  · rw [show answer = .ok _ from hreturn] at hlater ⊢
    refine ⟨fun e => ?_, ?_, ?_, hlater⟩
    · rw [Except.ok.injEq, hbirth, or_iff_right fun h => h.not_unnamed hunnamed, and_iff_right hunnamed]
    · rw [Except.ok.injEq, Option.eq_none_iff_forall_ne_some, and_iff_right hunnamed]
      exact forall_congr' fun e => not_congr (hbirth e)
    · exact iff_of_false (by simp) fun h => h.not_unnamed hunnamed

/-! ### A withdrawn birth alias -/

/-- The listing born from `XNAS:GOOG`. -/
def googListing : ℕ := 100349467497544930384400464569272672950

/-- The listing born from `XNAS:GOOGL`. -/
def googlListing : ℕ := 197740438138019861790776582633843824199

def textCode (text : List Char) : ℕ := text.foldl (fun n c => n * 2097152 + (c.toNat + 1)) 0

theorem textCode_injective : Function.Injective textCode := by
  have hconcat : ∀ (l : List Char) (c : Char), textCode (l ++ [c]) = textCode l * 2097152 + (c.toNat + 1) := by
    intro l c
    simp [textCode]
  have hsmall : ∀ c : Char, c.toNat + 1 < 2097152 := by
    intro c
    rcases c.valid with h | ⟨-, h⟩ <;> simp only [Char.toNat] <;> omega
  intro l
  induction l using List.reverseRecOn with
  | nil =>
    intro l' h
    induction l' using List.reverseRecOn with
    | nil => rfl
    | append_singleton l' c _ =>
      rw [hconcat] at h
      exact absurd h.symm (by simp [textCode])
  | append_singleton l c ih =>
    intro l' h
    induction l' using List.reverseRecOn with
    | nil =>
      rw [hconcat] at h
      exact absurd h (by simp [textCode])
    | append_singleton l' c' _ =>
      rw [hconcat, hconcat] at h
      have hc := hsmall c
      have hc' := hsmall c'
      have hrest : textCode l = textCode l' := by omega
      have hlast : c.toNat = c'.toNat := by omega
      rw [ih hrest, Char.toNat_inj.mp hlast]

def sampleIds : List (String × ℕ) :=
  [("cik:0000320193", cikIssuer), ("cik:0001652044", secondCikIssuer), ("mic-ticker:XNAS:GOOG", googListing),
    ("mic-ticker:XNAS:GOOGL", googlListing), ("legacy-id:issuer:cik:320193", 117149669837732290434158211997995792830),
    ("legacy-id:custom:random:id", 300717964347332889805766222922673965890)]

def sampleUuid (name : String) : ℕ :=
  match sampleIds.lookup name with
  | some id => id
  | none => 2 ^ 128 + textCode name.toList

theorem sampleUuid_injective : Function.Injective sampleUuid := by
  have hsmall : ∀ entry ∈ sampleIds, entry.2 < 2 ^ 128 := by decide
  have hdistinct : ∀ entry ∈ sampleIds, ∀ entry' ∈ sampleIds, entry.2 = entry'.2 → entry.1 = entry'.1 := by decide
  have hmem : ∀ {name : String} {id : ℕ}, sampleIds.lookup name = some id → (name, id) ∈ sampleIds := by
    intro name id h
    obtain ⟨l, l', heq, _⟩ := List.lookup_eq_some_iff.mp h
    rw [heq]
    simp
  intro name name' h
  rw [sampleUuid, sampleUuid] at h
  rcases hname : sampleIds.lookup name with _ | id <;> rcases hname' : sampleIds.lookup name' with _ | id' <;>
    rw [hname, hname'] at h <;> dsimp only at h
  · exact String.toList_inj.mp (textCode_injective (by omega))
  · have := hsmall _ (hmem hname')
    omega
  · have := hsmall _ (hmem hname)
    omega
  · exact hdistinct _ (hmem hname) _ (hmem hname') h

def sampleDatabase (relationUuid : RelationRow → ℕ) : Database where
  upper value := String.ofList (value.toList.map Char.toUpper)
  isSpace := isSpace
  collation text := text.toList.map Char.toNat
  entityUuid _ := sampleUuid
  relationUuid := relationUuid
  upper_ascii _ _ := rfl
  collation_injective := fun _ _ h => String.toList_inj.mp (List.map_injective_iff.mpr (fun _ _ => Char.toNat_inj.mp) h)

def withdrawnBirth : List Insert :=
  [.entity ⟨cikIssuer, "issuer", "cik", "0000320193", 1⟩, issuerAlias cikIssuer "cik" "0000320193" 0,
    .retraction ⟨.aliasClaim 1, ⊥, midnight 1⟩ (midnight 9)]

def newYear : PgDate := ((739617 : ℤ) : WithTop ℤ)

/-- A lookup still answers with an issuer whose only alias is withdrawn. -/
theorem withdrawn_alias_names_its_entity : ¬ ∀ (db : Database) (rows : List Insert) (store : EntityStore),
      rows.foldlM (EntityStore.insert db.ontology) .empty = .ok store →
      ∀ (rawId role : String) (asOf : PgDate) (knownAt : PgTime), isUuid (strip rawId) = false → ∀ e,
        store.lookupEntity .stored db.ontology rawId role asOf knownAt = .ok (some e) ↔
          store.Names db.ontology (parseAlias rawId role).1 (parseAlias rawId role).2 asOf knownAt e ∨
            (∀ e', ¬ store.Names db.ontology (parseAlias rawId role).1 (parseAlias rawId role).2 asOf knownAt e') ∧
              store.Names db.ontology "legacy-id" (strip rawId) asOf knownAt e := by
  intro hall
  have hrun : (withdrawnBirth.foldlM (EntityStore.insert (sampleDatabase fun _ => 0).ontology) .empty).toOption.any
      fun store => store.lookupEntity .stored (sampleDatabase fun _ => 0).ontology "issuer:cik:320193" "issuer" newYear
          (midnight 3) = .ok (some cikIssuer) ∧
        ∀ claim ∈ store.aliases, ¬ store.InForce claim newYear (midnight 3) := by decide +kernel
  obtain ⟨store, hstore, hanswer⟩ := exists_ok_of_any hrun
  obtain ⟨hlookup, hended⟩ := of_decide_eq_true hanswer
  have hnone : ∀ scheme value e, ¬ store.Names (sampleDatabase fun _ => 0).ontology scheme value newYear (midnight 3) e :=
    fun scheme value e ⟨claim, hclaim, _, _, hforce, _⟩ => hended claim hclaim hforce
  obtain hnames | ⟨_, hnames⟩ := (hall _ _ store hstore "issuer:cik:320193" "issuer" newYear (midnight 3)
    (by decide +kernel) cikIssuer).mp hlookup
  · exact hnone _ _ _ hnames
  · exact hnone _ _ _ hnames

/-- The lookup of an issuer whose birth alias is withdrawn answers from its birth. -/
theorem withdrawn_birth_lookup : ∃ store : EntityStore,
      withdrawnBirth.foldlM (EntityStore.insert (sampleDatabase fun _ => 0).ontology) .empty = .ok store ∧
      (store.lookupEntity .stored (sampleDatabase fun _ => 0).ontology "issuer:cik:320193" "issuer" newYear
        (midnight 3) = .ok (some cikIssuer) ↔
        store.AliasAnswer (sampleDatabase fun _ => 0).ontology ("cik", "0000320193") "issuer:cik:320193" newYear
          (midnight 3) cikIssuer ∨
        store.Unnamed (sampleDatabase fun _ => 0).ontology ("cik", "0000320193") "issuer:cik:320193" newYear (midnight 3) ∧
          store.BirthAnswer .stored (sampleDatabase fun _ => 0).ontology ("cik", "0000320193") "issuer:cik:320193"
            (midnight 3) cikIssuer) := by
  have hrun : (withdrawnBirth.foldlM (EntityStore.insert (sampleDatabase fun _ => 0).ontology) .empty).toOption.any
      fun _ => true := by decide +kernel
  obtain ⟨store, hstore, _⟩ := exists_ok_of_any hrun
  have hspec := (lookup_entity_spec .stored (sampleDatabase fun _ => 0) store "issuer:cik:320193" "issuer" newYear
    (midnight 3) (by decide +kernel)).1 cikIssuer
  have hparse : parseAlias (strip "issuer:cik:320193") "issuer" = ("cik", "0000320193") := by decide +kernel
  have hstrip : strip "issuer:cik:320193" = "issuer:cik:320193" := by decide +kernel
  rw [hparse, hstrip] at hspec
  exact ⟨store, hstore, hspec⟩

end TrueAlpha.Datahub
