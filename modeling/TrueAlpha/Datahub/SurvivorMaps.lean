import TrueAlpha.Datahub.BackfillSteps
import TrueAlpha.Datahub.IdentityView
import TrueAlpha.Datahub.ReachableStore

/-!
# Three computations of the survivor

`staging.entity_survivor` and the identity view agree on every store.  The map of the backfill agrees with them after a merge
exactly when the merge fits it (`FitsMap`).
-/

namespace TrueAlpha.Datahub

variable {ontology : Ontology} {db : Database} {store : EntityStore} {state state' : Backfill}
  {clock known : PgTime} {component : String × String} {claims : List AliasClaim} {survivor loser : ℕ}

inductive MapChange where
  | mint (before after : Backfill)
  | merge (before after : Backfill) (loser survivor : ℕ)

def MapChange.before : MapChange → Backfill
  | .mint before _ => before
  | .merge before _ _ _ => before

def MapChange.after : MapChange → Backfill
  | .mint _ after => after
  | .merge _ after _ _ => after

/-- A merge fits the map: its survivor has no merge in force, and no entity is over 32 merges from the loser. -/
def FitsMap (store : EntityStore) (loser survivor : ℕ) : Prop :=
  (∀ x, ¬ store.SupersededBy ⊤ survivor x) ∧ ∀ x, ¬ Hops (store.SupersededBy ⊤) 32 x loser

def MapChange.Fits : MapChange → Prop
  | .mint _ _ => True
  | .merge before _ loser survivor => FitsMap before.store loser survivor

def mergeChanges (ontology : Ontology) (clock known : PgTime) (survivor : ℕ) : List ℕ → Backfill → List MapChange
  | [], _ => []
  | loser :: losers, state =>
    match mergeLoser ontology clock known survivor state loser with
    | .error _ => []
    | .ok next => .merge state next loser survivor :: mergeChanges ontology clock known survivor losers next

def componentChanges (db : Database) (clock : PgTime) (component : String × String) (claims : List AliasClaim)
    (state : Backfill) : List MapChange :=
  match birthClaim db claims with
  | none => []
  | some birth =>
    let existing := existingEntities db.ontology state claims
    if existing = [] then
      match state.store.entityMint db.ontology component.1 birth.scheme birth.value with
      | .error _ => []
      | .ok minted => [.mint state (state.minted minted)]
    else if ∃ row ∈ state.store.entities, row.entityId ∈ existing ∧ row.kind ≠ component.1 then []
    else
      match mergeOrder db state.store birth existing with
      | none => []
      | some (survivor, losers) => mergeChanges db.ontology clock (mergeKnown claims) survivor losers state

def loopChanges (db : Database) (clock : PgTime) (claims : List AliasClaim) : List (String × String) → Backfill → List MapChange
  | [], _ => []
  | component :: components, state =>
    componentChanges db clock component (claimsOf claims component) state ++
      loopChanges db clock claims components (runComponent db clock claims state component)

def Backfill.start (store : EntityStore) : Backfill := ⟨store, store.survivorMap, [], []⟩

def backfillChanges (db : Database) (clock : PgTime) (plan : Plan) (store : EntityStore) : List MapChange :=
  let claims := plan.planned db.ontology
  loopChanges db clock claims (componentsOf db claims) (.start store)

def Backfill.MapCurrent (state : Backfill) : Prop :=
  ∀ entityId ∈ state.store.ids, state.survivors.lookup entityId = some (state.store.entitySurvivor entityId ⊤)

theorem EntityStore.mergeEdge_eq (store : EntityStore) : store.mergeEdge = store.successor ⊤ := by
  funext entityId
  rw [mergeEdge, successor]
  congr 2
  refine List.filter_congr fun relation _ => decide_eq_decide.mpr ?_
  rw [supersedes_top_iff]

variable {x : ℕ}

theorem lookup_map {β : Type} {l : List ℕ} {f : ℕ → β} (h : x ∈ l) : (l.map fun y => (y, f y)).lookup x = some (f x) := by
  induction l with
  | nil => cases h
  | cons y l ih =>
    rw [List.map_cons, List.lookup_cons]
    by_cases heq : x = y
    · subst heq
      simp
    · rw [beq_false_of_ne heq]
      exact ih (List.mem_of_ne_of_mem heq h)

theorem EntityStore.lookup_survivorMap {entityId : ℕ} (h : entityId ∈ store.ids) :
    store.survivorMap.lookup entityId = some (store.entitySurvivor entityId ⊤) := by
  have hmap : store.survivorMap = store.ids.map fun e => (e, store.entitySurvivor e ⊤) := by
    rw [survivorMap, ids, List.map_map, mergeEdge_eq]
    rfl
  rw [hmap, lookup_map h]

structure Backfill.Kept (ontology : Ontology) (state : Backfill) : Prop where
  reachable : state.store.Reachable ontology
  keys : state.survivors.map Prod.fst = state.store.ids

theorem mapCurrent_start (store : EntityStore) : (Backfill.start store).MapCurrent := fun _ => EntityStore.lookup_survivorMap

theorem kept_start (h : store.Reachable ontology) : (Backfill.start store).Kept ontology where
  reachable := h
  keys := by
    rw [Backfill.start, EntityStore.survivorMap, EntityStore.ids, List.map_map]
    rfl

theorem EntityStore.successor_eq {store' : EntityStore} (hrelations : store'.relations = store.relations)
    (hretractions : store'.retractions = store.retractions) (knownAt : PgTime) :
    store'.successor knownAt = store.successor knownAt := by
  funext entityId
  refine successor_congr hrelations fun relation _ => ?_
  rw [Supersedes, Supersedes, Withdrawn, Withdrawn, hretractions]

theorem lookup_append_of_some {β : Type} {l l' : List (ℕ × β)} {b : β} (h : l.lookup x = some b) :
    (l ++ l').lookup x = some b := by
  rw [List.lookup_append, h, Option.some_or]

theorem lookup_eq_none_of_keys {β : Type} {l : List (ℕ × β)} (h : x ∉ l.map Prod.fst) : l.lookup x = none := by
  rw [List.lookup_eq_none_iff]
  intro entry hentry
  rw [bne_iff_ne]
  rintro rfl
  exact h (List.mem_map_of_mem hentry)

theorem minted_mapCurrent {minted : ℕ × EntityStore} {kind scheme value : String} (hkept : state.Kept ontology)
    (hcurrent : state.MapCurrent) (h : state.store.entityMint ontology kind scheme value = .ok minted) :
    (state.minted minted).Kept ontology ∧ (state.minted minted).MapCurrent := by
  obtain ⟨generation, -, hid, hadmits, hstore⟩ := EntityStore.entityMint_eq_ok h
  have hfresh := EntityStore.admits_entity hadmits
  rw [← hid] at hfresh
  have hids : minted.2.ids = state.store.ids ++ [minted.1] := by
    rw [hstore, hid, EntityStore.ids, EntityStore.append, List.map_append]
    rfl
  have hsurvivor : ∀ e, minted.2.entitySurvivor e ⊤ = state.store.entitySurvivor e ⊤ := by
    intro e
    rw [hstore, EntityStore.entitySurvivor, EntityStore.successor_eq rfl rfl]
    rfl
  refine ⟨⟨?_, ?_⟩, fun e he => ?_⟩
  · rw [Backfill.minted, hstore]
    exact hkept.reachable.append hadmits
  · rw [Backfill.minted, List.map_append, hkept.keys, hids]
    rfl
  · rw [Backfill.minted] at he ⊢
    rw [hids] at he
    rw [hsurvivor]
    obtain he | he := List.mem_append.mp he
    · exact lookup_append_of_some (hcurrent e he)
    · rw [List.mem_singleton.mp he]
      have hnone : state.store.successor ⊤ minted.1 = none := by
        by_contra hne
        obtain ⟨next, hnext⟩ := Option.ne_none_iff_exists'.mp hne
        exact hfresh (hkept.reachable.consistent.mem_ids_of_successor hnext).1
      rw [List.lookup_append, lookup_eq_none_of_keys (hkept.keys ▸ hfresh), EntityStore.entitySurvivor,
        (Ends.stop hnone).terminus_eq (Nat.zero_le _)]
      simp

theorem lookup_relabel {l : List (ℕ × ℕ)} : (l.map fun entry => if entry.2 = loser then (entry.1, survivor) else entry).lookup x =
      (l.lookup x).map fun y => if y = loser then survivor else y := by
  induction l with
  | nil => rfl
  | cons entry l ih =>
    obtain ⟨key, value⟩ := entry
    have hentry : (if value = loser then (key, survivor) else (key, value)) = (key, if value = loser then survivor else value) := by
      split <;> rfl
    rw [List.map_cons, hentry, List.lookup_cons, List.lookup_cons]
    rcases x == key with _ | _
    · exact ih
    · rfl

section

variable (hkept : state.Kept ontology)

include hkept

section

variable (hcurrent : state.MapCurrent)

include hcurrent

theorem merged_mapCurrent_iff
    (h : mergeLoser ontology clock known survivor state loser = .ok state') :
    state'.Kept ontology ∧ (state'.MapCurrent ↔ FitsMap state.store loser survivor) := by
  obtain ⟨rfl, hsame, hadmits⟩ := mergeLoser_eq_ok h
  have hreachable := (hkept.reachable.append hsame).append hadmits
  have hconsistent := hkept.reachable.consistent
  obtain ⟨hnone, hlink, hrest, hback⟩ := (hkept.reachable.append hsame).consistent.successor_merge hadmits rfl
  have hsuccessor : (state.store.append (.relation (mergeRelation ontology "same_as" loser survivor known) clock)).successor ⊤ =
      state.store.successor ⊤ := by
    refine EntityStore.successor_append_of_not_merge ?_
    show "same_as" ≠ "superseded_by"
    decide
  have hsurvivor : ∀ e, (state.store.append
      (.relation (mergeRelation ontology "same_as" loser survivor known) clock)).entitySurvivor e ⊤ =
        state.store.entitySurvivor e ⊤ := by
    intro e
    rw [EntityStore.entitySurvivor, hsuccessor]
    rfl
  simp only [hsuccessor, hsurvivor] at hnone hlink hrest hback
  change state.store.successor ⊤ loser = none at hnone
  change ((state.merged ontology clock known survivor loser).store).successor ⊤ loser = some survivor at hlink
  change ∀ e ≠ loser, ((state.merged ontology clock known survivor loser).store).successor ⊤ e = _ at hrest
  change state.store.entitySurvivor survivor ⊤ ≠ loser at hback
  have hids : (state.merged ontology clock known survivor loser).store.ids = state.store.ids := rfl
  have hlookup : ∀ e ∈ state.store.ids, (state.merged ontology clock known survivor loser).survivors.lookup e =
      some (if state.store.entitySurvivor e ⊤ = loser then survivor else state.store.entitySurvivor e ⊤) := by
    intro e he
    rw [Backfill.merged, lookup_relabel, hcurrent e he]
    rfl
  obtain ⟨-, hne, -, -, -, hloser, -⟩ := EntityStore.admits_relation_iff.mp hadmits
  change loser ≠ survivor at hne
  change loser ∈ state.store.ids at hloser
  refine ⟨⟨hreachable, ?_⟩, fun hafter => ⟨fun x hx => ?_, fun x hhops => ?_⟩, ?_⟩
  · rw [hids, ← hkept.keys, Backfill.merged, List.map_map]
    refine List.map_congr_left fun entry _ => ?_
    rw [Function.comp_apply]
    split <;> rfl
  · -- a survivor with a merge of its own is not where the loser stops
    have hsome := (hrest survivor hne.symm).trans (hconsistent.successor_iff.mpr hx)
    have hmap := (hlookup loser hloser).symm.trans (hafter loser hloser)
    have hown : state.store.entitySurvivor loser ⊤ = loser := (Ends.stop hnone).terminus_eq (Nat.zero_le _)
    rw [if_pos hown, EntityStore.entitySurvivor, terminus, chain_succ_of_some hlink, List.getLastD_cons, getLastD_chain] at hmap
    have hself := hreachable.consistent.noCycle.next_eq_none (by omega) (by omega) (Option.some.inj hmap).symm
    exact absurd (hsome.symm.trans hself) (by simp)
  · -- an entity that is followed over the whole depth to the loser is followed no further
    have hchain := hhops.mono fun _ _ hstep => hconsistent.successor_iff.mpr hstep
    have hstored : x ∈ state.store.ids := by
      cases hchain with
      | head hstep _ => exact (hconsistent.mem_ids_of_successor hstep).1
    have hmap := (hlookup x hstored).symm.trans (hafter x hstored)
    have hlast : state.store.entitySurvivor x ⊤ = loser := terminus_of_hops hchain
    rw [if_pos hlast, EntityStore.entitySurvivor, terminus_of_hops (hchain.link hnone hrest)] at hmap
    exact hne (Option.some.inj hmap).symm
  · rintro ⟨hend, hdepth⟩ e he
    rw [hlookup e he]
    congr 1
    split
    · next heq =>
      have hstop : state.store.successor ⊤ survivor = none := EntityStore.successor_eq_none_iff_supersededBy.mpr hend
      obtain ⟨n, hn, hends⟩ := ends_of_next_terminus (show state.store.successor ⊤ (terminus _ 32 e) = none from
        (congrArg _ heq).trans hnone)
      rw [show terminus (state.store.successor ⊤) 32 e = loser from heq] at hends
      have hshort : n ≠ 32 := by
        rintro rfl
        exact hdepth e (hends.hops.mono fun _ _ hstep => hconsistent.successor_iff.mp hstep)
      have hthrough := hends.link_through hnone hlink hrest (.stop ((hrest survivor hne.symm).trans hstop))
      exact (hthrough.terminus_eq (by omega)).symm
    · next hne => exact (terminus_link_of_ne hnone hrest hne).symm

theorem mergeChanges_iff {losers : List ℕ} :
    (∀ change ∈ mergeChanges ontology clock known survivor losers state, change.after.MapCurrent) ↔
      ∀ change ∈ mergeChanges ontology clock known survivor losers state, change.Fits := by
  induction losers generalizing state with
  | nil => simp [mergeChanges]
  | cons loser losers ih =>
    rw [mergeChanges]
    split
    · simp
    · next next hnext =>
      obtain ⟨hkept', hstep⟩ := merged_mapCurrent_iff hkept hcurrent hnext
      rw [List.forall_mem_cons, List.forall_mem_cons]
      show next.MapCurrent ∧ _ ↔ FitsMap state.store loser survivor ∧ _
      rw [hstep]
      exact and_congr_right fun hfits => ih hkept' (hstep.mpr hfits)

theorem merges_kept {losers : List ℕ} (h : losers.foldlM (mergeLoser ontology clock known survivor) state = .ok state')
    (hafter : ∀ change ∈ mergeChanges ontology clock known survivor losers state, change.after.MapCurrent) :
    state'.Kept ontology ∧ state'.MapCurrent := by
  induction losers generalizing state with
  | nil =>
    obtain rfl := foldlM_nil_eq_ok.mp h
    exact ⟨hkept, hcurrent⟩
  | cons loser losers ih =>
    obtain ⟨next, hnext, hrest⟩ := foldlM_cons_eq_ok.mp h
    rw [mergeChanges, hnext] at hafter
    dsimp only at hafter
    rw [List.forall_mem_cons] at hafter
    exact ih (merged_mapCurrent_iff hkept hcurrent hnext).1 hafter.1 hrest hafter.2

theorem writeClaim_kept {claim : AliasClaim}
    (h : writeClaim ontology clock survivor state claim = .ok state') : state'.Kept ontology ∧ state'.MapCurrent := by
  obtain ⟨-, rfl⟩ | ⟨-, hadmits, rfl⟩ := writeClaim_eq_ok h
  · exact ⟨hkept, hcurrent⟩
  · exact ⟨⟨hkept.reachable.append hadmits, hkept.keys⟩, hcurrent⟩

end

end

section

variable (hkept : state.Kept db.ontology)

include hkept

section

variable (hcurrent : state.MapCurrent)

include hcurrent

theorem componentChanges_iff : (∀ change ∈ componentChanges db clock component claims state, change.after.MapCurrent) ↔
      ∀ change ∈ componentChanges db clock component claims state, change.Fits := by
  rw [componentChanges]
  dsimp only
  split
  · simp
  · split
    · split
      · simp
      · next minted hminted =>
        rw [List.forall_mem_singleton, List.forall_mem_singleton]
        exact iff_of_true (minted_mapCurrent hkept hcurrent hminted).2 trivial
    · split
      · simp
      · split
        · simp
        · exact mergeChanges_iff hkept hcurrent

theorem claimEntity_kept {birth : AliasClaim} {claimed : ℕ × Backfill} (hbirth : birthClaim db claims = some birth)
    (h : claimEntity db clock component claims birth state = .ok claimed)
    (hafter : ∀ change ∈ componentChanges db clock component claims state, change.after.MapCurrent) :
    claimed.2.Kept db.ontology ∧ claimed.2.MapCurrent := by
  obtain ⟨-, minted, hminted, rfl⟩ | ⟨hexisting, hkinds, losers, horder, hmerges⟩ := claimEntity_eq_ok h
  · exact minted_mapCurrent hkept hcurrent hminted
  · refine merges_kept hkept hcurrent hmerges ?_
    have hkind : ¬ ∃ row ∈ state.store.entities, row.entityId ∈ existingEntities db.ontology state claims ∧
        row.kind ≠ component.1 := fun ⟨row, hrow, hmem, hne⟩ => hne (hkinds row hrow hmem)
    rw [componentChanges, hbirth] at hafter
    dsimp only at hafter
    rw [if_neg hexisting, if_neg hkind, horder] at hafter
    exact hafter

theorem runComponent_kept
    (hafter : ∀ change ∈ componentChanges db clock component (claimsOf claims component) state, change.after.MapCurrent) :
    (runComponent db clock claims state component).Kept db.ontology ∧
      (runComponent db clock claims state component).MapCurrent := by
  rw [runComponent]
  split
  · next written hwritten =>
    obtain ⟨-, rfl⟩ | ⟨birth, claimed, last, hbirth, hclaimed, hlast, rfl⟩ := writeComponent_eq_ok hwritten
    · exact ⟨hkept, hcurrent⟩
    · obtain ⟨hkept', hcurrent'⟩ := claimEntity_kept hkept hcurrent hbirth hclaimed hafter
      obtain ⟨hkept'', hcurrent''⟩ : last.Kept db.ontology ∧ last.MapCurrent :=
        foldlM_inv (fun _ state => state.Kept db.ontology ∧ state.MapCurrent) hlast ⟨hkept', hcurrent'⟩
          fun _ _ _ _ _ _ hstate hstep => writeClaim_kept hstate.1 hstate.2 hstep
      exact ⟨⟨hkept''.reachable, hkept''.keys⟩, hcurrent''⟩
  · exact ⟨⟨hkept.reachable, hkept.keys⟩, hcurrent⟩

theorem loopChanges_iff {components : List (String × String)} :
    (∀ change ∈ loopChanges db clock claims components state, change.after.MapCurrent) ↔
      ∀ change ∈ loopChanges db clock claims components state, change.Fits := by
  induction components generalizing state with
  | nil => simp [loopChanges]
  | cons component components ih =>
    rw [loopChanges, List.forall_mem_append, List.forall_mem_append]
    have hcomponent := @componentChanges_iff db state clock component (claimsOf claims component) hkept hcurrent
    rw [hcomponent]
    refine and_congr_right fun hfits => ?_
    obtain ⟨hkept', hcurrent'⟩ := runComponent_kept hkept hcurrent (hcomponent.mpr hfits)
    exact ih hkept' hcurrent'

end

end

/-! ## The views -/

theorem retractedTo_eq (store : EntityStore) (row : AliasRow) : retractedTo store row = store.entityAliasValidTo row ⊤ := by
  simp only [retractedTo, EntityStore.entityAliasValidTo, le_top, and_true]

theorem latestByScheme_setBased (h : store.Reachable ontology) :
    latestByScheme (setBasedRules store) store = latestByScheme (helperRules store) store := by
  funext survivorId scheme
  rw [latestByScheme, latestByScheme]
  congr 1
  refine List.filter_congr fun row hrow => ?_
  have hlookup := EntityStore.lookup_survivorMap (h.consistent.aliasEntity row hrow)
  simp only [setBasedRules, helperRules, retractedTo_eq, hlookup]

theorem identity_setBased_eq (lower : String → String) (kg : List KgEntity) (h : store.Reachable db.ontology) :
    entityIdentitySetBased db lower kg store = entityIdentityByHelpers db lower kg store := by
  have hlatest := latestByScheme_setBased h
  have hticker : directTicker db (setBasedRules store) store = directTicker db (helperRules store) store := by
    funext survivorId
    rw [directTicker, directTicker, hlatest]
  have hlisting : directListing lower (setBasedRules store) store = directListing lower (helperRules store) store := by
    funext survivorId
    rw [directListing, directListing, hlatest]
  have hinstrument : instrumentTicker db (setBasedRules store) store = instrumentTicker db (helperRules store) store := by
    funext instrument
    rw [instrumentTicker, instrumentTicker, hticker]
  rw [entityIdentitySetBased, entityIdentityByHelpers, identityRows, identityRows]
  refine List.flatMap_congr fun row hrow => ?_
  have hlookup : (setBasedRules store).survivor row.entityId = (helperRules store).survivor row.entityId :=
    EntityStore.lookup_survivorMap (List.mem_map_of_mem hrow)
  rw [hlookup]
  refine List.flatMap_congr fun survivorId _ => ?_
  rw [identityRowsOf, identityRowsOf, hlatest, hticker, hlisting, hinstrument]
  rfl

/-- The view, the helper and the map give every entity one survivor; the views give the same active aliases and rows. -/
structure SurvivorMapsAgree (db : Database) (lower : String → String) (kg : List KgEntity) (clock : PgTime) (plan : Plan)
    (store : EntityStore) : Prop where
  view : ∀ entityId ∈ store.ids, (declaredRules db store).survivor entityId = some (store.entitySurvivor entityId ⊤)
  start : (Backfill.start store).MapCurrent
  loop : ∀ change ∈ backfillChanges db clock plan store, change.after.MapCurrent
  active : ∀ row ∈ store.aliases, (declaredRules db store).active row ↔
    store.entityAliasValidTo row ⊤ = none ∨ ∃ validTo ∈ store.entityAliasValidTo row ⊤, row.validFrom < validTo
  rows : entityIdentitySetBased db lower kg store = entityIdentityByHelpers db lower kg store

theorem active_iff (db : Database) (store : EntityStore) (row : AliasRow) : (declaredRules db store).active row ↔
    store.entityAliasValidTo row ⊤ = none ∨ ∃ validTo ∈ store.entityAliasValidTo row ⊤, row.validFrom < validTo := by
  have hactive : (declaredRules db store).active row ↔ ∀ validTo ∈ store.entityAliasValidTo row ⊤, row.validFrom < validTo := by
    rw [← retractedTo_eq]
    exact decide_eq_true_iff
  rw [hactive]
  rcases store.entityAliasValidTo row ⊤ with _ | validTo <;> simp

/-- The three computations agree, also through a backfill, exactly where each of its merges fits the map. -/
theorem survivor_maps_agree_iff (db : Database) (lower : String → String) (kg : List KgEntity) (clock : PgTime)
    (plan : Plan) (store : EntityStore) (h : store.Reachable db.ontology) :
    SurvivorMapsAgree db lower kg clock plan store ↔ ∀ change ∈ backfillChanges db clock plan store, change.Fits := by
  have hloop : (∀ change ∈ backfillChanges db clock plan store, change.after.MapCurrent) ↔ _ :=
    loopChanges_iff (kept_start h) (mapCurrent_start store)
  constructor
  · intro hagree
    exact hloop.mp hagree.loop
  · intro hfits
    exact ⟨fun _ => EntityStore.lookup_survivorMap, mapCurrent_start store, hloop.mpr hfits,
      fun row _ => active_iff db store row, identity_setBased_eq lower kg h⟩

/-! ### A merge behind a long chain -/

def generationName (generation : ℕ) : String := entityBirthName "legacy-id" "issuer:custom:chain" generation

def generationUuid (name : String) : ℕ :=
  match (List.range 34).find? fun k => name = generationName (k + 1) with
  | some k => k + 1
  | none => 35 + textCode name.toList

theorem generationUuid_name {k : ℕ} (hk : k < 34) : generationUuid (generationName (k + 1)) = k + 1 := by
  have hsuffix : ∀ i < 34, ∀ j < 34, (if 1 < i + 1 then "#" ++ toString (i + 1) else "") =
      (if 1 < j + 1 then "#" ++ toString (j + 1) else "") → i = j := by decide +kernel
  rw [generationUuid]
  split
  · next i hfind =>
    have hi := List.mem_range.mp (List.mem_of_find?_eq_some hfind)
    have hname : generationName (k + 1) = generationName (i + 1) := by simpa using List.find?_some hfind
    rw [generationName, generationName, entityBirthName, entityBirthName, String.append_right_inj] at hname
    rw [hsuffix k hk i hi hname]
  · next hnone =>
    have hk' := List.find?_eq_none.mp hnone k (List.mem_range.mpr hk)
    simp at hk'

def generationDatabase : Database :=
  { sampleDatabase fun row => 2 * row.fromEntityId + if row.relationType = "same_as" then 0 else 1 with
    entityUuid := fun _ => generationUuid }

def generations : List EntityRow := (List.range 34).map fun k => ⟨k + 1, "issuer", "legacy-id", "issuer:custom:chain", k + 1⟩

theorem reachable_entities {rows : List EntityRow} (hnodup : (rows.map (·.entityId)).Nodup)
    (h : ∀ row ∈ rows, EntityStore.validateEntity ontology row = .ok ()) :
    EntityStore.Reachable ontology ⟨rows, [], [], []⟩ := by
  induction rows using List.reverseRecOn with
  | nil => exact EntityStore.reachable_empty ontology
  | append_singleton rows row ih =>
    rw [List.map_append, List.nodup_append] at hnodup
    have hreachable := ih hnodup.1 fun row' hrow' => h row' (List.mem_append_left _ hrow')
    have hfresh : row.entityId ∉ rows.map (·.entityId) := fun hmem => hnodup.2.2 _ hmem _ (by simp) rfl
    have hadmits : EntityStore.admits ontology ⟨rows, [], [], []⟩ (.entity row) = .ok () :=
      EntityStore.seq_eq_ok_iff.mpr ⟨h row (by simp), EntityStore.refuseIf_eq_ok_iff.mpr hfresh⟩
    exact hreachable.append hadmits

theorem generations_reachable : EntityStore.Reachable generationDatabase.ontology ⟨generations, [], [], []⟩ := by
  have hcanonical : generationDatabase.ontology.entityAliasNormalize "legacy-id" "issuer:custom:chain" =
      "issuer:custom:chain" := by decide +kernel
  refine reachable_entities ?_ fun row hrow => ?_
  · decide
  · obtain ⟨k, hk, rfl⟩ := List.mem_map.mp hrow
    have hid : k + 1 = generationDatabase.ontology.entityUuid "issuer"
        (entityBirthName "legacy-id" "issuer:custom:chain" (k + 1)) := (generationUuid_name (List.mem_range.mp hk)).symm
    rw [EntityStore.validateEntity]
    dsimp only
    rw [hcanonical, if_neg (not_not.mpr rfl), if_neg (not_not.mpr hid)]
    rfl

def longChain : List Insert :=
  ((List.range 32).map fun k => .relation ⟨2 * (k + 2) + 1, "superseded_by", k + 2, k + 3, ⊥, none, midnight 1, "curation",
    "merge"⟩ (midnight 9)) ++ [issuerAlias 1 "cik" "0000320193" 1, issuerAlias 34 "lei" "HWUPKR0MPOU8FGXBT394" 1]

def crosswalkClaim (scheme value : String) : AliasClaim :=
  ⟨"issuer", "issuer:cik:320193", scheme, value, ⊥, midnight 2, "curation", "crosswalk", 1, "planned"⟩

def crosswalkPlan : Plan := ⟨[crosswalkClaim "cik" "0000320193", crosswalkClaim "lei" "HWUPKR0MPOU8FGXBT394"], []⟩

/-- The map follows a merge behind 32 others, and the helper does not. -/
theorem merge_behind_long_chain :
    ¬ ∀ (db : Database) (lower : String → String) (kg : List KgEntity) (clock : PgTime) (plan : Plan) (store : EntityStore),
      store.Reachable db.ontology → SurvivorMapsAgree db lower kg clock plan store := by
  intro hall
  have hrun : (longChain.foldlM (EntityStore.insert generationDatabase.ontology) ⟨generations, [], [], []⟩).toOption.any
      fun store => (backfillChanges generationDatabase (midnight 9) crosswalkPlan store).any fun change =>
        2 ∈ change.after.store.ids ∧ change.after.survivors.lookup 2 = some 1 ∧
          change.after.store.entitySurvivor 2 ⊤ = 34 := by decide +kernel
  obtain ⟨store, hstore, hchange⟩ := exists_ok_of_any hrun
  obtain ⟨rows, hrows⟩ := generations_reachable
  obtain ⟨change, hmem, hdiffers⟩ := List.any_eq_true.mp hchange
  obtain ⟨hids, hmap, hsurvivor⟩ := of_decide_eq_true hdiffers
  have hagree := hall generationDatabase id [] (midnight 9) crosswalkPlan store
    ⟨rows ++ longChain, foldlM_append_eq_ok.mpr ⟨_, hrows, hstore⟩⟩
  have hcurrent := hagree.loop change hmem 2 hids
  rw [hmap, hsurvivor] at hcurrent
  exact absurd hcurrent (by decide)

theorem fits_of_no_relations {change : MapChange} (h : change.before.store.relations = []) : change.Fits := by
  cases change with
  | mint before after => trivial
  | merge before after loser survivor =>
    have hnone : ∀ x y, ¬ before.store.SupersededBy ⊤ x y := by
      rintro x y ⟨relation, hmem, -⟩
      rw [show before.store.relations = [] from h] at hmem
      exact List.not_mem_nil hmem
    refine ⟨hnone survivor, fun x hhops => ?_⟩
    cases hhops with
    | head hstep _ => exact hnone _ _ hstep

/-- A first merge fits, and the three computations agree after it. -/
theorem first_merge_maps_agree : ∃ store, EntityStore.Reachable generationDatabase.ontology store ∧
      (backfillChanges generationDatabase (midnight 9) crosswalkPlan store).length = 1 ∧
      SurvivorMapsAgree generationDatabase id [] (midnight 9) crosswalkPlan store := by
  have hrun : ([issuerAlias 1 "cik" "0000320193" 1, issuerAlias 34 "lei" "HWUPKR0MPOU8FGXBT394" 1].foldlM
      (EntityStore.insert generationDatabase.ontology) ⟨generations, [], [], []⟩).toOption.any fun store =>
        (backfillChanges generationDatabase (midnight 9) crosswalkPlan store).length = 1 ∧
          ∀ change ∈ backfillChanges generationDatabase (midnight 9) crosswalkPlan store,
            change.before.store.relations = [] := by decide +kernel
  obtain ⟨store, hstore, hchanges⟩ := exists_ok_of_any hrun
  obtain ⟨hlength, hnone⟩ := of_decide_eq_true hchanges
  obtain ⟨rows, hrows⟩ := generations_reachable
  have hreachable : EntityStore.Reachable generationDatabase.ontology store := ⟨_, foldlM_append_eq_ok.mpr ⟨_, hrows, hstore⟩⟩
  refine ⟨store, hreachable, hlength, ?_⟩
  refine (survivor_maps_agree_iff generationDatabase id [] (midnight 9) crosswalkPlan store hreachable).mpr ?_
  exact fun change hchange => fits_of_no_relations (hnone change hchange)

end TrueAlpha.Datahub
