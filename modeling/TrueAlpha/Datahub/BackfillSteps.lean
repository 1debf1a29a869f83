import TrueAlpha.Datahub.EntityBackfill

/-!
# What one step of the backfill does

One lemma for each step of `staging.entity_backfill` that returned: what it added to the store, and what it did to the
temporary tables.
-/

namespace TrueAlpha.Datahub

variable {ontology : Ontology} {db : Database} {store store' : EntityStore} {state state' : Backfill}
  {clock known : PgTime} {component : String × String} {claims : List AliasClaim} {birth claim : AliasClaim}

namespace EntityStore

theorem insert_eq_ok_iff {row : Insert} :
    store.insert ontology row = .ok store' ↔ store.admits ontology row = .ok () ∧ store' = store.append row := by
  rw [EntityStore.insert, map_eq_ok_iff]
  constructor
  · rintro ⟨_, hadmits, heq⟩
    exact ⟨hadmits, heq.symm⟩
  · rintro ⟨hadmits, heq⟩
    exact ⟨(), hadmits, heq.symm⟩

def mintedRow (ontology : Ontology) (kind scheme value : String) (generation : ℕ) : EntityRow :=
  let value := ontology.entityAliasNormalize scheme value
  ⟨ontology.entityUuid kind (entityBirthName scheme value generation), kind, scheme, value, generation⟩

theorem entityMint_eq_ok {kind scheme value : String} {minted : ℕ × EntityStore}
    (h : store.entityMint ontology kind scheme value = .ok minted) :
    ∃ generation, store.mintGeneration ontology kind scheme (ontology.entityAliasNormalize scheme value) = some generation ∧
      minted.1 = (mintedRow ontology kind scheme value generation).entityId ∧
      store.admits ontology (.entity (mintedRow ontology kind scheme value generation)) = .ok () ∧
      minted.2 = store.append (.entity (mintedRow ontology kind scheme value generation)) := by
  rw [entityMint] at h
  split at h
  · cases h
  · split at h
    · cases h
    · dsimp only at h
      split at h
      · cases h
      · next generation hgeneration =>
        obtain ⟨last, hinsert, heq⟩ := bind_eq_ok_iff.mp h
        cases heq
        obtain ⟨hadmits, hlast⟩ := insert_eq_ok_iff.mp hinsert
        exact ⟨generation, hgeneration, rfl, hadmits, hlast⟩

end EntityStore

def Backfill.merged (ontology : Ontology) (clock known : PgTime) (survivor loser : ℕ) (state : Backfill) : Backfill :=
  { state with
    store := (state.store.append (.relation (mergeRelation ontology "same_as" loser survivor known) clock)).append
      (.relation (mergeRelation ontology "superseded_by" loser survivor known) clock)
    survivors := state.survivors.map fun entry => if entry.2 = loser then (entry.1, survivor) else entry }

variable {survivor : ℕ}

theorem mergeLoser_eq_ok {loser : ℕ} (h : mergeLoser ontology clock known survivor state loser = .ok state') :
    state' = state.merged ontology clock known survivor loser ∧
      state.store.admits ontology (.relation (mergeRelation ontology "same_as" loser survivor known) clock) = .ok () ∧
      (state.store.append (.relation (mergeRelation ontology "same_as" loser survivor known) clock)).admits ontology
        (.relation (mergeRelation ontology "superseded_by" loser survivor known) clock) = .ok () := by
  obtain ⟨same, hsame, h⟩ := bind_eq_ok_iff.mp h
  obtain ⟨last, hlast, h⟩ := bind_eq_ok_iff.mp h
  cases h
  obtain ⟨hadmits, rfl⟩ := EntityStore.insert_eq_ok_iff.mp hsame
  obtain ⟨hadmits', rfl⟩ := EntityStore.insert_eq_ok_iff.mp hlast
  exact ⟨rfl, hadmits, hadmits'⟩

def Backfill.minted (state : Backfill) (minted : ℕ × EntityStore) : Backfill :=
  { state with store := minted.2, survivors := state.survivors ++ [(minted.1, minted.1)] }

def mergeKnown (claims : List AliasClaim) : PgTime := (claims.map (·.transactionTime)).foldl max ⊥

theorem claimEntity_eq_ok {claimed : ℕ × Backfill} (h : claimEntity db clock component claims birth state = .ok claimed) :
    (existingEntities db.ontology state claims = [] ∧ ∃ minted,
      state.store.entityMint db.ontology component.1 birth.scheme birth.value = .ok minted ∧
        claimed = (minted.1, state.minted minted)) ∨
    (existingEntities db.ontology state claims ≠ [] ∧
      (∀ row ∈ state.store.entities, row.entityId ∈ existingEntities db.ontology state claims → row.kind = component.1) ∧
      ∃ losers, mergeOrder db state.store birth (existingEntities db.ontology state claims) = some (claimed.1, losers) ∧
        losers.foldlM (mergeLoser db.ontology clock (mergeKnown claims) claimed.1) state = .ok claimed.2) := by
  rw [claimEntity] at h
  dsimp only at h
  split at h
  · next hnone =>
    obtain ⟨minted, hminted, h⟩ := bind_eq_ok_iff.mp h
    cases h
    exact .inl ⟨hnone, minted, hminted, rfl⟩
  · next hsome =>
    split at h
    · cases h
    · next hkinds =>
      split at h
      · cases h
      · next survivor losers horder =>
        obtain ⟨last, hlast, h⟩ := bind_eq_ok_iff.mp h
        cases h
        refine .inr ⟨hsome, fun row hrow hmem => ?_, losers, horder, hlast⟩
        by_contra hkind
        exact hkinds ⟨row, hrow, hmem, hkind⟩

theorem writeClaim_eq_ok (h : writeClaim ontology clock survivor state claim = .ok state') :
    (Holds state survivor claim ∧ state' = state) ∨
    (¬ Holds state survivor claim ∧ state.store.admits ontology (.aliasClaim (claim.row survivor) clock) = .ok () ∧
      state' = { state with store := state.store.append (.aliasClaim (claim.row survivor) clock) }) := by
  rw [writeClaim] at h
  split at h
  · next hholds =>
    cases h
    exact .inl ⟨hholds, rfl⟩
  · next hholds =>
    obtain ⟨last, hlast, h⟩ := bind_eq_ok_iff.mp h
    cases h
    obtain ⟨hadmits, rfl⟩ := EntityStore.insert_eq_ok_iff.mp hlast
    exact .inr ⟨hholds, hadmits, rfl⟩

structure SameButAliases (state state' : Backfill) : Prop where
  survivors : state'.survivors = state.survivors
  components : state'.components = state.components
  failed : state'.failed = state.failed
  entities : state'.store.entities = state.store.entities
  relations : state'.store.relations = state.store.relations
  retractions : state'.store.retractions = state.store.retractions
  aliases : ∃ new, state'.store.aliases = state.store.aliases ++ new

theorem SameButAliases.refl (state : Backfill) : SameButAliases state state :=
  ⟨rfl, rfl, rfl, rfl, rfl, rfl, [], (List.append_nil _).symm⟩

theorem SameButAliases.trans {state'' : Backfill} (h : SameButAliases state state') (h' : SameButAliases state' state'') :
    SameButAliases state state'' := by
  obtain ⟨new, hnew⟩ := h.aliases
  obtain ⟨new', hnew'⟩ := h'.aliases
  exact ⟨h'.survivors.trans h.survivors, h'.components.trans h.components, h'.failed.trans h.failed,
    h'.entities.trans h.entities, h'.relations.trans h.relations, h'.retractions.trans h.retractions,
    new ++ new', by rw [hnew', hnew, List.append_assoc]⟩

theorem writeClaim_frame (h : writeClaim ontology clock survivor state claim = .ok state') : SameButAliases state state' := by
  obtain ⟨-, rfl⟩ | ⟨-, -, rfl⟩ := writeClaim_eq_ok h
  · exact .refl state'
  · exact ⟨rfl, rfl, rfl, rfl, rfl, rfl, _, rfl⟩

theorem writeClaims_frame (h : claims.foldlM (writeClaim ontology clock survivor) state = .ok state') :
    SameButAliases state state' :=
  foldlM_inv (fun _ last => SameButAliases state last) h (.refl state)
    fun _ _ _ _ _ _ hsame hstep => hsame.trans (writeClaim_frame hstep)

theorem writeComponent_eq_ok (h : writeComponent db clock component claims state = .ok state') :
    (birthClaim db claims = none ∧ state' = state) ∨
    ∃ birth claimed written, birthClaim db claims = some birth ∧ claimEntity db clock component claims birth state = .ok claimed ∧
      (sortedBy (claimOrder db birth) claims).foldlM (writeClaim db.ontology clock claimed.1) claimed.2 = .ok written ∧
      state' = { written with components := written.components ++ [(component, claimed.1)] } := by
  rw [writeComponent] at h
  split at h
  · next hbirth =>
    cases h
    exact .inl ⟨hbirth, rfl⟩
  · next birth hbirth =>
    obtain ⟨claimed, hclaimed, h⟩ := bind_eq_ok_iff.mp h
    obtain ⟨written, hwritten, h⟩ := bind_eq_ok_iff.mp h
    cases h
    exact .inr ⟨birth, claimed, written, hbirth, hclaimed, hwritten, rfl⟩

theorem birthClaim_eq_some (h : birthClaim db claims = some birth) :
    birth ∈ claims ∧ ∀ claim ∈ claims, birthOrder db birth ≤ birthOrder db claim :=
  head?_sortedBy_eq_some _ h

theorem birthClaim_eq_none_iff : birthClaim db claims = none ↔ claims = [] := by
  rw [birthClaim, List.head?_eq_none_iff, ← List.length_eq_zero_iff, (perm_sortedBy _ claims).length_eq, List.length_eq_zero_iff]

theorem birthClaim_legacy (h : birthClaim db claims = some birth) {legacy : AliasClaim} (hlegacy : legacy ∈ claims)
    (hscheme : legacy.scheme = "legacy-id") : birth.scheme = "legacy-id" := by
  have hfirst := Prod.Lex.monotone_fst _ _ ((birthClaim_eq_some h).2 legacy hlegacy)
  by_contra hbirth
  simp [birthOrder, hscheme, hbirth] at hfirst

theorem mem_componentsOf : component ∈ componentsOf db claims ↔
    ∃ claim ∈ claims, claim.kind = component.1 ∧ claim.component = component.2 := by
  rw [componentsOf, mem_sortedBy, mem_distinct, List.mem_map]
  simp only [Prod.ext_iff]

theorem nodup_componentsOf (db : Database) (claims : List AliasClaim) : (componentsOf db claims).Nodup :=
  (perm_sortedBy _ _).nodup_iff.mpr (nodup_distinct _)

end TrueAlpha.Datahub
