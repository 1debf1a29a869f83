import TrueAlpha.Datahub.PrimaryListing

/-!
# Reachable stores

A store is reachable when a run of accepted inserts writes it.  `Consistent`: ids are written once, what a row names is stored,
one merge in force at most, and none comes back within 33 merges.
-/

namespace TrueAlpha.Datahub

variable {ontology : Ontology} {store store' : EntityStore} {x y z : ℕ} {entityId : ℕ} {relation : RelationRow}

namespace EntityStore

def Reachable (ontology : Ontology) (store : EntityStore) : Prop :=
  ∃ rows : List Insert, rows.foldlM (EntityStore.insert ontology) .empty = .ok store

theorem reachable_empty (ontology : Ontology) : EntityStore.empty.Reachable ontology := ⟨[], rfl⟩

theorem Reachable.insert {row : Insert} (h : store.Reachable ontology) (hinsert : store.insert ontology row = .ok store') :
    store'.Reachable ontology := by
  obtain ⟨rows, hrows⟩ := h
  refine ⟨rows ++ [row], foldlM_append_eq_ok.mpr ⟨store, hrows, ?_⟩⟩
  exact foldlM_cons_eq_ok.mpr ⟨store', hinsert, rfl⟩

theorem Reachable.append {row : Insert} (h : store.Reachable ontology) (hadmits : store.admits ontology row = .ok ()) :
    (store.append row).Reachable ontology :=
  h.insert (map_eq_ok_iff.mpr ⟨(), hadmits, rfl⟩)

def ids (store : EntityStore) : List ℕ := store.entities.map (·.entityId)

structure Consistent (store : EntityStore) : Prop where
  entities : store.ids.Nodup
  relations : (store.relations.map (·.relationId)).Nodup
  aliasEntity : ∀ row ∈ store.aliases, row.entityId ∈ store.ids
  ends : ∀ row ∈ store.relations, row.fromEntityId ∈ store.ids ∧ row.toEntityId ∈ store.ids
  referenced : store.Referenced
  single : ∀ x y z, store.SupersededBy ⊤ x y → store.SupersededBy ⊤ x z → y = z
  noCycle : NoCycleWithin (store.successor ⊤) 33

theorem kindOf_isSome_iff : (store.kindOf entityId).isSome ↔ entityId ∈ store.ids := by
  rw [kindOf, Option.isSome_map, List.find?_isSome, ids, List.mem_map]
  simp only [decide_eq_true_eq]

theorem checkEntity_eq_ok_iff : store.checkEntity entityId = .ok () ↔ entityId ∈ store.ids := by
  rw [checkEntity, refuseIf_eq_ok_iff, ← kindOf_isSome_iff, Option.isNone_iff_eq_none, Option.isSome_iff_ne_none]

theorem seq_eq_ok_iff {first second : Except StoreError Unit} :
    (first >>= fun _ => second) = .ok () ↔ first = .ok () ∧ second = .ok () := by
  rw [bind_eq_ok_iff]
  exact ⟨fun ⟨_, hfirst, hsecond⟩ => ⟨hfirst, hsecond⟩, fun ⟨hfirst, hsecond⟩ => ⟨(), hfirst, hsecond⟩⟩

theorem admits_entity {row : EntityRow} (h : store.admits ontology (.entity row) = .ok ()) : row.entityId ∉ store.ids := by
  obtain ⟨_, _, h⟩ := bind_eq_ok_iff.mp h
  exact refuseIf_eq_ok_iff.mp h

variable {recordedAt : PgTime} {row : RelationRow}

theorem admits_alias_iff {row : AliasRow} : store.admits ontology (.aliasClaim row recordedAt) = .ok () ↔
      store.validateEntityAlias ontology (store.identified row) = .ok () ∧
      (∀ last ∈ row.validTo, row.validFrom < last) ∧ row.transactionTime ≤ recordedAt ∧
      (0 ≤ row.confidence ∧ row.confidence ≤ 1) ∧ vintage row ∉ store.aliases.map vintage ∧
      row.entityId ∈ store.ids := by
  rw [admits, seq_eq_ok_iff, seq_eq_ok_iff, seq_eq_ok_iff, seq_eq_ok_iff, checkClaim, seq_eq_ok_iff, refuseIf_eq_ok_iff,
    refuseIf_eq_ok_iff, refuseIf_eq_ok_iff, checkVintage, refuseIf_eq_ok_iff, checkEntity_eq_ok_iff]
  simp only [not_not, not_lt, and_assoc]

theorem admits_relation_iff : store.admits ontology (.relation row recordedAt) = .ok () ↔
      store.validateEntityRelation ontology row = .ok () ∧ row.fromEntityId ≠ row.toEntityId ∧
      (∀ last ∈ row.validTo, row.validFrom < last) ∧ row.transactionTime ≤ recordedAt ∧
      row.relationId ∉ store.relations.map (·.relationId) ∧
      row.fromEntityId ∈ store.ids ∧ row.toEntityId ∈ store.ids := by
  rw [admits, seq_eq_ok_iff, seq_eq_ok_iff, seq_eq_ok_iff, seq_eq_ok_iff, seq_eq_ok_iff, checkClaim, seq_eq_ok_iff,
    refuseIf_eq_ok_iff, refuseIf_eq_ok_iff, refuseIf_eq_ok_iff, refuseIf_eq_ok_iff, checkEntity_eq_ok_iff,
    checkEntity_eq_ok_iff]
  simp only [not_not, not_lt, and_assoc, ne_eq]

theorem validateMerge_eq_ok_iff : store.validateMerge row = .ok () ↔ store.entitySurvivor row.fromEntityId ⊤ = row.fromEntityId ∧
      store.entitySurvivor row.toEntityId ⊤ ≠ row.fromEntityId := by
  rw [validateMerge]
  split
  · next h => simp [h]
  · next h =>
    rw [not_not] at h
    split
    · next h' => simp [h']
    · next h' => simp [h, h']

theorem validateMerge_of_relation (h : store.validateEntityRelation ontology row = .ok ())
    (htype : row.relationType = "superseded_by") : store.validateMerge row = .ok () := by
  rw [validateEntityRelation] at h
  split at h
  · cases h
  · split at h
    · cases h
    · split at h
      · cases h
      · split at h
        · cases h
        · split at h
          · cases h
          · exact h

theorem withdrawn_top_iff : store.Withdrawn relation ⊤ ↔ store.Retracted relation := by
  simp only [Withdrawn, Retracted, le_top, and_true]

theorem supersedes_top_iff : store.Supersedes ⊤ x relation ↔
    relation.relationType = "superseded_by" ∧ relation.fromEntityId = x ∧ ¬ store.Retracted relation := by
  simp only [Supersedes, le_top, true_and, withdrawn_top_iff]

section

variable (h : store.Consistent)

include h

theorem Consistent.successor_iff : store.successor ⊤ x = some y ↔ store.SupersededBy ⊤ x y := successor_eq_some_iff (h.single x)

theorem Consistent.successor_eq_none (hself : store.entitySurvivor x ⊤ = x) : store.successor ⊤ x = none :=
  h.noCycle.next_eq_none (by omega) (by omega) hself

theorem Consistent.mem_ids_of_successor (hnext : store.successor ⊤ x = some y) : x ∈ store.ids ∧ y ∈ store.ids := by
  obtain ⟨relation, hmem, ⟨-, rfl, -⟩, rfl⟩ := supersededBy_of_successor hnext
  exact h.ends relation hmem

theorem Consistent.not_retracted (hnew : row.relationId ∉ store.relations.map (·.relationId)) : ¬ store.Retracted row := by
  rintro ⟨retraction, hmem, htarget⟩
  exact hnew (h.referenced retraction hmem _ htarget)

theorem Consistent.successor_merge
    (hadmits : store.admits ontology (.relation row recordedAt) = .ok ()) (htype : row.relationType = "superseded_by") :
    store.successor ⊤ row.fromEntityId = none ∧
      (store.append (.relation row recordedAt)).successor ⊤ row.fromEntityId = some row.toEntityId ∧
      (∀ e ≠ row.fromEntityId, (store.append (.relation row recordedAt)).successor ⊤ e = store.successor ⊤ e) ∧
      store.entitySurvivor row.toEntityId ⊤ ≠ row.fromEntityId := by
  obtain ⟨hguard, -, -, -, hnew, -⟩ := admits_relation_iff.mp hadmits
  obtain ⟨hself, hback⟩ := validateMerge_eq_ok_iff.mp (validateMerge_of_relation hguard htype)
  have hnone := h.successor_eq_none hself
  have hsup : store.Supersedes ⊤ row.fromEntityId row := supersedes_top_iff.mpr ⟨htype, rfl, h.not_retracted hnew⟩
  refine ⟨hnone, ?_, fun e he => successor_relation_of_not fun hsup' => he hsup'.2.1.symm, hback⟩
  refine (successor_eq_some_iff fun y z hy hz => ?_).mpr ((supersededBy_relation_of_supersedes hsup).mpr (.inr ⟨rfl, rfl⟩))
  have hnone' := successor_eq_none_iff_supersededBy.mp hnone
  obtain hy | ⟨-, rfl⟩ := (supersededBy_relation_of_supersedes hsup).mp hy
  · exact absurd hy (hnone' y)
  · obtain hz | ⟨-, rfl⟩ := (supersededBy_relation_of_supersedes hsup).mp hz
    · exact absurd hz (hnone' z)
    · rfl

end

theorem consistent_empty : EntityStore.empty.Consistent where
  entities := List.nodup_nil
  relations := List.nodup_nil
  aliasEntity := fun _ hmem => absurd hmem List.not_mem_nil
  ends := fun _ hmem => absurd hmem List.not_mem_nil
  referenced := referenced_empty
  single := fun _ _ _ ⟨_, hmem, _⟩ => absurd hmem List.not_mem_nil
  noCycle := by
    intro x n hpos _ hhops
    cases hhops with
    | refl => omega
    | head hstep _ => cases hstep

theorem successor_append_of_not_merge (htype : row.relationType ≠ "superseded_by") :
    (store.append (.relation row recordedAt)).successor ⊤ = store.successor ⊤ :=
  funext fun _ => successor_relation_of_not fun hsup => htype hsup.1

theorem nodup_map_concat {α : Type} {l : List α} {key : α → ℕ} {a : α} (h : (l.map key).Nodup) (ha : key a ∉ l.map key) :
    ((l ++ [a]).map key).Nodup := by
  rw [List.map_append, List.map_singleton]
  exact List.nodup_append_comm.mp (List.nodup_cons.mpr ⟨ha, h⟩)

theorem mem_ids_append {row : Insert} (h : x ∈ store.ids) : x ∈ (store.append row).ids := by
  cases row with
  | entity row =>
    rw [ids, append, List.map_append]
    exact List.mem_append_left _ h
  | aliasClaim row recordedAt => exact h
  | relation row recordedAt => exact h
  | retraction row recordedAt => exact h

theorem Consistent.append_relation (h : store.Consistent) (hadmits : store.admits ontology (.relation row recordedAt) = .ok ()) :
    (∀ x y z, (store.append (.relation row recordedAt)).SupersededBy ⊤ x y →
      (store.append (.relation row recordedAt)).SupersededBy ⊤ x z → y = z) ∧
    NoCycleWithin ((store.append (.relation row recordedAt)).successor ⊤) 33 := by
  by_cases htype : row.relationType = "superseded_by"
  · obtain ⟨hnone, hlink, hrest, hback⟩ := h.successor_merge hadmits htype
    have hsup : store.Supersedes ⊤ row.fromEntityId row :=
      supersedes_top_iff.mpr ⟨htype, rfl, h.not_retracted (fresh_of_admits hadmits)⟩
    have hnone' := successor_eq_none_iff_supersededBy.mp hnone
    refine ⟨fun x y z hy hz => ?_, h.noCycle.link hnone hlink hrest hback⟩
    rw [supersededBy_relation_of_supersedes hsup] at hy hz
    obtain hy | ⟨rfl, rfl⟩ := hy
    · obtain hz | ⟨rfl, -⟩ := hz
      · exact h.single x y z hy hz
      · exact absurd hy (hnone' y)
    · obtain hz | ⟨-, rfl⟩ := hz
      · exact absurd hz (hnone' z)
      · rfl
  · rw [successor_append_of_not_merge htype]
    refine ⟨fun x y z hy hz => ?_, h.noCycle⟩
    have hsup : ¬ store.Supersedes ⊤ row.fromEntityId row := fun hsup => htype hsup.1
    rw [supersededBy_relation_of_not hsup] at hy hz
    exact h.single x y z hy hz

theorem Consistent.append_retraction (h : store.Consistent) (row : RetractionRow) (recordedAt : PgTime) :
    (∀ x y z, (store.append (.retraction row recordedAt)).SupersededBy ⊤ x y →
      (store.append (.retraction row recordedAt)).SupersededBy ⊤ x z → y = z) ∧
    NoCycleWithin ((store.append (.retraction row recordedAt)).successor ⊤) 33 := by
  have hsub : ∀ x y, (store.append (.retraction row recordedAt)).SupersededBy ⊤ x y → store.SupersededBy ⊤ x y :=
    fun x y ⟨relation, hmem, hsup, hto⟩ => ⟨relation, hmem, (supersedes_retraction_iff.mp hsup).1, hto⟩
  refine ⟨fun x y z hy hz => h.single x y z (hsub x y hy) (hsub x z hz), h.noCycle.restrict fun x y hnext => ?_⟩
  exact h.successor_iff.mpr (hsub x y (supersededBy_of_successor hnext))

theorem Consistent.append (h : store.Consistent) {row : Insert} (hadmits : store.admits ontology row = .ok ()) :
    (store.append row).Consistent := by
  have hreferenced := h.referenced.insert (map_eq_ok_iff.mpr ⟨(), hadmits, rfl⟩)
  have haliases : ∀ a ∈ store.aliases, a.entityId ∈ (store.append row).ids := fun a ha => mem_ids_append (h.aliasEntity a ha)
  have hends : ∀ r ∈ store.relations, r.fromEntityId ∈ (store.append row).ids ∧ r.toEntityId ∈ (store.append row).ids :=
    fun r hr => ⟨mem_ids_append (h.ends r hr).1, mem_ids_append (h.ends r hr).2⟩
  cases row with
  | entity row =>
    exact ⟨nodup_map_concat h.entities (admits_entity hadmits), h.relations, haliases, hends, hreferenced, h.single, h.noCycle⟩
  | aliasClaim row recordedAt =>
    refine ⟨h.entities, h.relations, fun a ha => ?_, hends, hreferenced, h.single, h.noCycle⟩
    obtain ha | ha := List.mem_append.mp ha
    · exact haliases a ha
    · rw [List.mem_singleton.mp ha]
      exact (admits_alias_iff.mp hadmits).2.2.2.2.2
  | relation row recordedAt =>
    obtain ⟨-, -, -, -, hnew, hstored⟩ := admits_relation_iff.mp hadmits
    obtain ⟨hsingle, hcycle⟩ := h.append_relation hadmits
    refine ⟨h.entities, nodup_map_concat h.relations hnew, haliases, fun r hr => ?_, hreferenced, hsingle, hcycle⟩
    obtain hr | hr := List.mem_append.mp hr
    · exact hends r hr
    · rw [List.mem_singleton.mp hr]
      exact hstored
  | retraction row recordedAt =>
    obtain ⟨hsingle, hcycle⟩ := h.append_retraction row recordedAt
    exact ⟨h.entities, h.relations, haliases, hends, hreferenced, hsingle, hcycle⟩

theorem Reachable.consistent (h : store.Reachable ontology) : store.Consistent := by
  obtain ⟨rows, hrows⟩ := h
  refine foldlM_inv (fun _ last => last.Consistent) hrows consistent_empty fun _ row _ last next _ hlast hinsert => ?_
  obtain ⟨_, hadmits, rfl⟩ := map_eq_ok_iff.mp hinsert
  exact hlast.append hadmits

structure Typed (ontology : Ontology) (store : EntityStore) : Prop where
  aliases : ∀ row ∈ store.aliases, ∃ scheme, ontology.aliasScheme row.scheme = some scheme ∧
    ontology.entityKindIsA (store.kindOf row.entityId) scheme.appliesToKind
  relations : ∀ row ∈ store.relations, ∃ type, ontology.relationType row.relationType = some type ∧
    (type.sameKind → store.kindOf row.fromEntityId = store.kindOf row.toEntityId)

theorem kindOf_append {row : Insert} (h : entityId ∈ store.ids) : (store.append row).kindOf entityId = store.kindOf entityId := by
  cases row with
  | entity row =>
    obtain ⟨stored, hstored⟩ := Option.isSome_iff_exists.mp (kindOf_isSome_iff.mpr h)
    obtain ⟨found, hfound, -⟩ := Option.map_eq_some_iff.mp hstored
    rw [kindOf, kindOf, append, List.find?_append, hfound]
    rfl
  | aliasClaim row recordedAt => rfl
  | relation row recordedAt => rfl
  | retraction row recordedAt => rfl

theorem typed_of_validateAlias {row : AliasRow} (h : store.validateEntityAlias ontology row = .ok ()) :
    ∃ scheme, ontology.aliasScheme row.scheme = some scheme ∧
      ontology.entityKindIsA (store.kindOf row.entityId) scheme.appliesToKind := by
  rw [validateEntityAlias] at h
  split at h
  · cases h
  · split at h
    · cases h
    · next scheme hscheme =>
      split at h
      · cases h
      · split at h
        · cases h
        · next hkind => exact ⟨scheme, hscheme, by simpa using hkind⟩

theorem typed_of_validateRelation (h : store.validateEntityRelation ontology row = .ok ()) :
    ∃ type, ontology.relationType row.relationType = some type ∧
      (type.sameKind → store.kindOf row.fromEntityId = store.kindOf row.toEntityId) := by
  rw [validateEntityRelation] at h
  split at h
  · cases h
  · next type htype =>
    refine ⟨type, htype, fun hsame => ?_⟩
    split at h
    · cases h
    · split at h
      · cases h
      · split at h
        · cases h
        · next hkinds => simpa [hsame] using hkinds

theorem Typed.append (h : store.Typed ontology) (hconsistent : store.Consistent) {row : Insert}
    (hadmits : store.admits ontology row = .ok ()) : (store.append row).Typed ontology := by
  have haliases : ∀ a ∈ store.aliases, ∃ scheme, ontology.aliasScheme a.scheme = some scheme ∧
      ontology.entityKindIsA ((store.append row).kindOf a.entityId) scheme.appliesToKind := by
    intro a ha
    rw [kindOf_append (hconsistent.aliasEntity a ha)]
    exact h.aliases a ha
  have hrelations : ∀ r ∈ store.relations, ∃ type, ontology.relationType r.relationType = some type ∧
      (type.sameKind → (store.append row).kindOf r.fromEntityId = (store.append row).kindOf r.toEntityId) := by
    intro r hr
    obtain ⟨hfrom, hto⟩ := hconsistent.ends r hr
    rw [kindOf_append hfrom, kindOf_append hto]
    exact h.relations r hr
  cases row with
  | entity row => exact ⟨haliases, hrelations⟩
  | aliasClaim row recordedAt =>
    refine ⟨fun a ha => ?_, hrelations⟩
    obtain ha | ha := List.mem_append.mp ha
    · exact haliases a ha
    · rw [List.mem_singleton.mp ha]
      have htyped := typed_of_validateAlias (admits_alias_iff.mp hadmits).1
      exact htyped
  | relation row recordedAt =>
    refine ⟨haliases, fun r hr => ?_⟩
    obtain hr | hr := List.mem_append.mp hr
    · exact hrelations r hr
    · rw [List.mem_singleton.mp hr]
      have htyped := typed_of_validateRelation (admits_relation_iff.mp hadmits).1
      exact htyped
  | retraction row recordedAt => exact ⟨haliases, hrelations⟩

theorem Reachable.typed (h : store.Reachable ontology) : store.Typed ontology := by
  obtain ⟨rows, hrows⟩ := h
  have hempty : EntityStore.empty.Typed ontology :=
    ⟨fun _ hmem => absurd hmem List.not_mem_nil, fun _ hmem => absurd hmem List.not_mem_nil⟩
  refine (foldlM_inv (fun _ last => last.Consistent ∧ last.Typed ontology) hrows ⟨consistent_empty, hempty⟩ ?_).2
  intro _ row _ last next _ ⟨hconsistent, htyped⟩ hinsert
  obtain ⟨_, hadmits, rfl⟩ := map_eq_ok_iff.mp hinsert
  exact ⟨hconsistent.append hadmits, htyped.append hconsistent hadmits⟩

theorem Typed.kindOf_survivor (h : store.Typed ontology) {type : RelationType}
    (htype : ontology.relationType "superseded_by" = some type) (hsame : type.sameKind) (entityId : ℕ) :
    store.kindOf (store.entitySurvivor entityId ⊤) = store.kindOf entityId := by
  refine terminus_invariant (fun x y hnext => ?_) 32 entityId
  obtain ⟨relation, hmem, hsup, rfl⟩ := supersededBy_of_successor hnext
  obtain ⟨type', htype', hkinds⟩ := h.relations relation hmem
  rw [hsup.1] at htype'
  cases htype.symm.trans htype'
  rw [← hsup.2.1]
  exact (hkinds hsame).symm

end EntityStore

end TrueAlpha.Datahub
