import TrueAlpha.Datahub.EntityStore

/-!
# An identifier names one entity

The guard of the aliases compares two claims at one instant and lets merged entities share a value; `Insert.Prudent` names what
it leaves open.  In a prudent run the aliases of one value survive as one entity (`Sound`).
-/

namespace TrueAlpha.Datahub

variable {ontology : Ontology} {store : EntityStore} {knownAt knownAt' : PgTime} {validAt : PgDate}
  {entityId : ℕ} {a b : AliasRow} {relation relation' : RelationRow}

def Ontology.SameValue (ontology : Ontology) (a b : AliasRow) : Prop :=
  ontology.Unique a.scheme ∧ a.scheme = b.scheme ∧ a.value = b.value

def EntityStore.Overlap (store : EntityStore) (a b : AliasRow) (knownAt : PgTime) : Prop :=
  a.transactionTime ≤ knownAt ∧ b.transactionTime ≤ knownAt ∧
    ∃ validAt, store.ValidOn a validAt knownAt ∧ store.ValidOn b validAt knownAt

/-- A retraction of a `superseded_by` edge. -/
def EntityStore.WithdrawsMerge (store : EntityStore) (retraction : RetractionRow) (relation : RelationRow) : Prop :=
  relation ∈ store.relations ∧ relation.relationType = "superseded_by" ∧ retraction.target = .relation relation.relationId

def Insert.Prudent (ontology : Ontology) (store : EntityStore) : Insert → Prop
  | .entity _ => True
  | .aliasClaim row _ =>
    ontology.Unique row.scheme → row.validFrom ≠ ⊤ ∧
      ∀ retraction ∈ store.retractions, ∀ relation, store.WithdrawsMerge retraction relation →
        retraction.transactionTime ≤ row.transactionTime
  | .relation row _ =>
    row.relationType = "superseded_by" → ∀ knownAt, row.transactionTime ≤ knownAt →
      store.entitySurvivor row.fromEntityId knownAt = row.fromEntityId ∧
      store.entitySurvivor row.toEntityId knownAt ≠ row.fromEntityId ∧
      ∀ entityId, store.entitySurvivor entityId knownAt = row.fromEntityId →
        (store.supersessionChain entityId knownAt).length + (store.supersessionChain row.toEntityId knownAt).length ≤ 33
  | .retraction row _ =>
    ∀ relation, store.WithdrawsMerge row relation →
      ∀ knownAt, row.transactionTime ≤ knownAt → store.Supersedes knownAt relation.fromEntityId relation →
        ∀ a ∈ store.aliases, ∀ b ∈ store.aliases, ontology.SameValue a b → store.Overlap a b knownAt →
          (relation.fromEntityId ∈ store.supersessionChain a.entityId knownAt ↔
            relation.fromEntityId ∈ store.supersessionChain b.entityId knownAt)

/-- Merges are forests at every instant, and overlapping aliases of one value survive as one entity. -/
structure EntityStore.Sound (ontology : Ontology) (store : EntityStore) : Prop where
  keyed : ∀ r ∈ store.relations, ∀ r' ∈ store.relations, r.relationId = r'.relationId → r = r'
  single : ∀ knownAt entityId, ∀ r ∈ store.relations, ∀ r' ∈ store.relations,
    store.Supersedes knownAt entityId r → store.Supersedes knownAt entityId r' → r = r'
  forest : ∀ knownAt, StopsWithin (store.successor knownAt) 32
  starts : ∀ a ∈ store.aliases, ontology.Unique a.scheme → a.validFrom ≠ ⊤
  named : ∀ a ∈ store.aliases, ∀ b ∈ store.aliases, ontology.SameValue a b → ∀ knownAt,
    store.Overlap a b knownAt → store.entitySurvivor a.entityId knownAt = store.entitySurvivor b.entityId knownAt

theorem Ontology.SameValue.symm (h : ontology.SameValue a b) : ontology.SameValue b a := ⟨h.2.1 ▸ h.1, h.2.1.symm, h.2.2.symm⟩

namespace EntityStore

theorem Overlap.symm (h : store.Overlap a b knownAt) : store.Overlap b a knownAt := by
  obtain ⟨ha, hb, validAt, hva, hvb⟩ := h
  exact ⟨hb, ha, validAt, hvb, hva⟩

theorem lt_least_iff {β : Type} [LinearOrder β] {d : β} {x y : Option β} :
    (∀ t ∈ least x y, d < t) ↔ (∀ t ∈ x, d < t) ∧ ∀ t ∈ y, d < t := by
  cases x <;> cases y <;> simp [least]

theorem lt_earliest_iff {β : Type} [LinearOrder β] {d : β} {l : List β} : (∀ t ∈ earliest l, d < t) ↔ ∀ t ∈ l, d < t := by
  have : Std.LawfulOrderMin β :=
    { le_min_iff := fun _ _ _ => le_min_iff
      min_eq_or := min_choice }
  constructor
  · intro h t ht
    have hne : l ≠ [] := List.ne_nil_of_mem ht
    obtain ⟨m, hm⟩ := Option.ne_none_iff_exists'.mp fun hnone => hne (List.min?_eq_none_iff.mp hnone)
    exact (h m hm).trans_le ((List.min?_eq_some_iff.mp hm).2 t ht)
  · intro h t ht
    exact h t (List.min?_eq_some_iff.mp ht).1

theorem lt_validTo_iff : (∀ t ∈ store.entityAliasValidTo a knownAt, validAt < t) ↔
    (∀ t ∈ a.validTo, validAt < t) ∧ ∀ r ∈ store.retractions, r.target = .aliasClaim a.aliasId →
      r.transactionTime ≤ knownAt → validAt < r.validTo := by
  rw [entityAliasValidTo, lt_least_iff, lt_earliest_iff]
  refine and_congr_right fun _ => ?_
  simp only [List.mem_map, List.mem_filter, decide_eq_true_eq]
  constructor
  · exact fun h r hr htarget htime => h _ ⟨r, ⟨hr, htarget, htime⟩, rfl⟩
  · rintro h t ⟨r, ⟨hr, htarget, htime⟩, rfl⟩
    exact h r hr htarget htime

theorem ValidOn.earlier (h : store.ValidOn a validAt knownAt') (hle : knownAt ≤ knownAt') : store.ValidOn a validAt knownAt := by
  obtain ⟨hopen, hretracted⟩ := lt_validTo_iff.mp h.2
  exact ⟨h.1, lt_validTo_iff.mpr ⟨hopen, fun r hr htarget htime => hretracted r hr htarget (htime.trans hle)⟩⟩

theorem ValidOn.of_retraction {row : RetractionRow} {recordedAt : PgTime}
    (h : (store.append (.retraction row recordedAt)).ValidOn a validAt knownAt) : store.ValidOn a validAt knownAt := by
  obtain ⟨hopen, hretracted⟩ := lt_validTo_iff.mp h.2
  exact ⟨h.1, lt_validTo_iff.mpr ⟨hopen, fun r hr => hretracted r (List.mem_append_left _ hr)⟩⟩

theorem Overlap.of_retraction {row : RetractionRow} {recordedAt : PgTime}
    (h : (store.append (.retraction row recordedAt)).Overlap a b knownAt) : store.Overlap a b knownAt := by
  obtain ⟨ha, hb, validAt, hva, hvb⟩ := h
  exact ⟨ha, hb, validAt, hva.of_retraction, hvb.of_retraction⟩

theorem successor_eq_none_iff :
    store.successor knownAt entityId = none ↔ ∀ r ∈ store.relations, ¬ store.Supersedes knownAt entityId r := by
  rw [successor, Option.map_eq_none_iff, latestBy_eq_none_iff, List.filter_eq_nil_iff]
  simp only [decide_eq_true_eq]

theorem exists_of_successor {next : ℕ} (h : store.successor knownAt entityId = some next) :
    ∃ r ∈ store.relations, store.Supersedes knownAt entityId r ∧ r.toEntityId = next := by
  obtain ⟨r, hr, hnext⟩ := Option.map_eq_some_iff.mp h
  obtain ⟨hmem, hsup⟩ := List.mem_filter.mp (latestBy_eq_some _ hr).1
  exact ⟨r, hmem, of_decide_eq_true hsup, hnext⟩

theorem successor_of_single
    (hsingle : ∀ r ∈ store.relations, store.Supersedes knownAt entityId r → r = relation)
    (hmem : relation ∈ store.relations) (hsup : store.Supersedes knownAt entityId relation) :
    store.successor knownAt entityId = some relation.toEntityId := by
  rcases hnext : store.successor knownAt entityId with _ | next
  · exact absurd hsup (successor_eq_none_iff.mp hnext relation hmem)
  · obtain ⟨r, hr, hr', rfl⟩ := exists_of_successor hnext
    rw [hsingle r hr hr']

theorem successor_congr {store' : EntityStore} (hrelations : store'.relations = store.relations)
    (h : ∀ r ∈ store.relations, store'.Supersedes knownAt entityId r ↔ store.Supersedes knownAt entityId r) :
    store'.successor knownAt entityId = store.successor knownAt entityId := by
  rw [successor, successor, hrelations, List.filter_congr fun r hr => decide_eq_decide.mpr (h r hr)]

/-! ## A merge -/

section Merge

variable {row : RelationRow} {recordedAt : PgTime}

theorem successor_relation_of_not (h : ¬ store.Supersedes knownAt entityId row) :
    (store.append (.relation row recordedAt)).successor knownAt entityId = store.successor knownAt entityId := by
  change Option.map _ (latestBy _ ((store.relations ++ [row]).filter fun relation =>
    store.Supersedes knownAt entityId relation)) = _
  rw [List.filter_append, List.filter_cons_of_neg (by simpa using h), List.filter_nil, List.append_nil]
  rfl

theorem successor_relation (hnone : store.successor knownAt entityId = none) (h : store.Supersedes knownAt entityId row) :
    (store.append (.relation row recordedAt)).successor knownAt entityId = some row.toEntityId := by
  have hempty : store.relations.filter (fun relation => store.Supersedes knownAt entityId relation) = [] := by
    rw [List.filter_eq_nil_iff]
    simpa using successor_eq_none_iff.mp hnone
  change Option.map _ (latestBy _ ((store.relations ++ [row]).filter fun relation =>
    store.Supersedes knownAt entityId relation)) = _
  rw [List.filter_append, hempty, List.filter_cons_of_pos (by simpa using h)]
  rfl

theorem survivor_relation (hsound : store.Sound ontology)
    (hprudent : Insert.Prudent ontology store (.relation row recordedAt)) (knownAt : PgTime) :
    StopsWithin ((store.append (.relation row recordedAt)).successor knownAt) 32 ∧
      ∀ e e', store.entitySurvivor e knownAt = store.entitySurvivor e' knownAt →
        (store.append (.relation row recordedAt)).entitySurvivor e knownAt =
          (store.append (.relation row recordedAt)).entitySurvivor e' knownAt := by
  have hforest := hsound.forest knownAt
  by_cases hsup : store.Supersedes knownAt row.fromEntityId row
  · obtain ⟨hfrom, hto, hdepth⟩ := hprudent hsup.1 knownAt hsup.2.2.1
    have hnone : store.successor knownAt row.fromEntityId = none := hforest.terminus_eq_self_iff.mp hfrom
    have hlink : (store.append (.relation row recordedAt)).successor knownAt row.fromEntityId = some row.toEntityId :=
      successor_relation hnone hsup
    have hrest : ∀ e, e ≠ row.fromEntityId →
        (store.append (.relation row recordedAt)).successor knownAt e = store.successor knownAt e :=
      fun e he => successor_relation_of_not fun h => he h.2.1.symm
    have hforest' := hforest.link hnone hlink hrest hto hdepth
    refine ⟨hforest', fun e e' heq => ?_⟩
    rw [entitySurvivor, entitySurvivor] at heq ⊢
    rw [terminus_link hnone hlink hrest hforest hforest' hto, terminus_link hnone hlink hrest hforest hforest' hto, heq]
  · have hsame : (store.append (.relation row recordedAt)).successor knownAt = store.successor knownAt := by
      funext e
      exact successor_relation_of_not fun h => hsup ⟨h.1, rfl, h.2.2⟩
    refine ⟨hsame ▸ hforest, fun e e' heq => ?_⟩
    rw [entitySurvivor, entitySurvivor, hsame]
    exact heq

theorem not_supersedes_of_prudent (hsound : store.Sound ontology)
    (hprudent : Insert.Prudent ontology store (.relation row recordedAt))
    (hsup : store.Supersedes knownAt entityId row) (hmem : relation ∈ store.relations) :
    ¬ store.Supersedes knownAt entityId relation := by
  obtain ⟨hfrom, _, _⟩ := hprudent hsup.1 knownAt hsup.2.2.1
  rw [hsup.2.1] at hfrom
  exact successor_eq_none_iff.mp ((hsound.forest knownAt).terminus_eq_self_iff.mp hfrom) relation hmem

theorem Sound.append_relation (hsound : store.Sound ontology)
    (hprudent : Insert.Prudent ontology store (.relation row recordedAt))
    (hfresh : row.relationId ∉ store.relations.map (·.relationId)) :
    (store.append (.relation row recordedAt)).Sound ontology where
  keyed := by
    intro r hr r' hr' hid
    have hne : ∀ r ∈ store.relations, r.relationId ≠ row.relationId := fun r hr heq => hfresh (List.mem_map.mpr ⟨r, hr, heq⟩)
    obtain hr | hr := List.mem_append.mp hr <;> obtain hr' | hr' := List.mem_append.mp hr'
    · exact hsound.keyed r hr r' hr' hid
    · cases List.mem_singleton.mp hr'
      exact absurd hid (hne r hr)
    · cases List.mem_singleton.mp hr
      exact absurd hid.symm (hne r' hr')
    · exact (List.mem_singleton.mp hr).trans (List.mem_singleton.mp hr').symm
  single := by
    intro knownAt entityId r hr r' hr' hsup hsup'
    change store.Supersedes knownAt entityId r at hsup
    change store.Supersedes knownAt entityId r' at hsup'
    obtain hr | hr := List.mem_append.mp hr <;> obtain hr' | hr' := List.mem_append.mp hr'
    · exact hsound.single knownAt entityId r hr r' hr' hsup hsup'
    · cases List.mem_singleton.mp hr'
      exact absurd hsup (not_supersedes_of_prudent hsound hprudent hsup' hr)
    · cases List.mem_singleton.mp hr
      exact absurd hsup' (not_supersedes_of_prudent hsound hprudent hsup hr')
    · exact (List.mem_singleton.mp hr).trans (List.mem_singleton.mp hr').symm
  forest knownAt := (survivor_relation hsound hprudent knownAt).1
  starts := hsound.starts
  named a ha b hb hsame knownAt hoverlap :=
    (survivor_relation hsound hprudent knownAt).2 a.entityId b.entityId (hsound.named a ha b hb hsame knownAt hoverlap)

end Merge

section Retract

variable {row : RetractionRow} {recordedAt : PgTime}

theorem supersedes_retraction_iff : (store.append (.retraction row recordedAt)).Supersedes knownAt entityId relation ↔
      store.Supersedes knownAt entityId relation ∧
        ¬ (row.target = .relation relation.relationId ∧ row.transactionTime ≤ knownAt) := by
  have hwithdrawn : (store.append (.retraction row recordedAt)).Withdrawn relation knownAt ↔
      store.Withdrawn relation knownAt ∨ (row.target = .relation relation.relationId ∧ row.transactionTime ≤ knownAt) := by
    simp only [Withdrawn, append, List.mem_append, List.mem_singleton, or_and_right, exists_or, exists_eq_left]
  rw [Supersedes, Supersedes, hwithdrawn, not_or]
  tauto

theorem successor_retraction (hsound : store.Sound ontology) (row : RetractionRow) (recordedAt knownAt : PgTime) :
    (store.append (.retraction row recordedAt)).successor knownAt = store.successor knownAt ∨
      ∃ relation, store.WithdrawsMerge row relation ∧ row.transactionTime ≤ knownAt ∧
        store.Supersedes knownAt relation.fromEntityId relation ∧
        (store.append (.retraction row recordedAt)).successor knownAt relation.fromEntityId = none ∧
        ∀ e, e ≠ relation.fromEntityId →
          (store.append (.retraction row recordedAt)).successor knownAt e = store.successor knownAt e := by
  by_cases hcut : ∃ relation ∈ store.relations, store.Supersedes knownAt relation.fromEntityId relation ∧
      row.target = .relation relation.relationId ∧ row.transactionTime ≤ knownAt
  · obtain ⟨relation, hmem, hsup, htarget, htime⟩ := hcut
    refine .inr ⟨relation, ⟨hmem, hsup.1, htarget⟩, htime, hsup, successor_eq_none_iff.mpr ?_, fun e he => ?_⟩
    · intro r hr hsup'
      obtain ⟨hsup', hkept⟩ := supersedes_retraction_iff.mp hsup'
      cases hsound.single knownAt _ r hr relation hmem hsup' hsup
      exact hkept ⟨htarget, htime⟩
    · refine successor_congr rfl fun r hr => ?_
      rw [supersedes_retraction_iff]
      refine and_iff_left_of_imp fun hsup' hwithdrawn => ?_
      -- the retraction names one relation, and that one starts elsewhere
      have hid : r.relationId = relation.relationId := RetractionTarget.relation.inj (hwithdrawn.1.symm.trans htarget)
      cases hsound.keyed r hr relation hmem hid
      exact he hsup'.2.1.symm
  · refine .inl (funext fun e => successor_congr rfl fun r hr => ?_)
    rw [supersedes_retraction_iff]
    refine and_iff_left_of_imp fun hsup' hwithdrawn => hcut ⟨r, hr, ⟨hsup'.1, rfl, hsup'.2.2⟩, hwithdrawn⟩

theorem Sound.append_retraction (hsound : store.Sound ontology)
    (hprudent : Insert.Prudent ontology store (.retraction row recordedAt)) :
    (store.append (.retraction row recordedAt)).Sound ontology where
  keyed := hsound.keyed
  single knownAt entityId r hr r' hr' hsup hsup' :=
    hsound.single knownAt entityId r hr r' hr' (supersedes_retraction_iff.mp hsup).1 (supersedes_retraction_iff.mp hsup').1
  forest knownAt := by
    obtain hsame | ⟨relation, _, _, _, hcut, hrest⟩ := successor_retraction hsound row recordedAt knownAt
    · rw [hsame]
      exact hsound.forest knownAt
    · exact (hsound.forest knownAt).cut hcut hrest
  starts := hsound.starts
  named a ha b hb hsame knownAt hoverlap := by
    have hbefore := hsound.named a ha b hb hsame knownAt hoverlap.of_retraction
    rw [entitySurvivor, entitySurvivor] at hbefore ⊢
    obtain hsucc | ⟨relation, hmerge, htime, hsup, hcut, hrest⟩ := successor_retraction hsound row recordedAt knownAt
    · rw [hsucc]
      exact hbefore
    · have hiff := hprudent relation hmerge knownAt htime hsup a ha b hb hsame hoverlap.of_retraction
      rw [supersessionChain, supersessionChain] at hiff
      rw [terminus_cut hcut hrest (hsound.forest knownAt), terminus_cut hcut hrest (hsound.forest knownAt), hbefore]
      simp only [hiff]

end Retract

/-! ## An alias -/

section Claim

variable {row : AliasRow} {recordedAt : PgTime}

theorem entitySurvivor_mono (hsound : store.Sound ontology) (hle : knownAt ≤ knownAt')
    (hkept : ∀ retraction ∈ store.retractions, ∀ relation, store.WithdrawsMerge retraction relation →
      retraction.transactionTime ≤ knownAt) {e e' : ℕ}
    (h : store.entitySurvivor e knownAt = store.entitySurvivor e' knownAt) :
    store.entitySurvivor e knownAt' = store.entitySurvivor e' knownAt' := by
  have hext : ∀ x y, store.successor knownAt x = some y → store.successor knownAt' x = some y := by
    intro x y hnext
    obtain ⟨relation, hmem, hsup, rfl⟩ := exists_of_successor hnext
    have hsup' : store.Supersedes knownAt' x relation := by
      refine ⟨hsup.1, hsup.2.1, hsup.2.2.1.trans hle, ?_⟩
      rintro ⟨retraction, hr, htarget, -⟩
      exact hsup.2.2.2 ⟨retraction, hr, htarget, hkept retraction hr relation ⟨hmem, hsup.1, htarget⟩⟩
    exact successor_of_single (fun r hr hr' => hsound.single knownAt' x r hr relation hmem hr' hsup') hmem hsup'
  rw [entitySurvivor, entitySurvivor] at h ⊢
  rw [terminus_extend hext (hsound.forest knownAt) (hsound.forest knownAt') e,
    terminus_extend hext (hsound.forest knownAt) (hsound.forest knownAt') e', h]

theorem compareAlias_eq_ok (h : store.compareAlias row b = .ok ()) :
    store.entitySurvivor b.entityId (max b.transactionTime row.transactionTime) =
        store.entitySurvivor row.entityId (max b.transactionTime row.transactionTime) ∨
      ¬ (b.validFrom < row.validTo.getD ⊤ ∧
        row.validFrom < (store.entityAliasValidTo b (max b.transactionTime row.transactionTime)).getD ⊤ ∧
        b.validFrom < (store.entityAliasValidTo b (max b.transactionTime row.transactionTime)).getD ⊤) := by
  rw [compareAlias] at h
  dsimp only at h
  split at h
  · next heq => exact .inl heq
  · split at h
    · cases h
    · next hno => exact .inr hno

theorem lt_getD_top {d start : PgDate} {last : Option PgDate} (hstart : start ≤ d) (hfinite : start ≠ ⊤)
    (h : ∀ t ∈ last, d < t) : start < last.getD ⊤ := by
  cases last with
  | none => exact lt_top_iff_ne_top.mpr hfinite
  | some t => exact hstart.trans_lt (h t rfl)

theorem survivor_of_compareAlias (h : store.compareAlias row b = .ok ()) (hrow : row.validFrom ≠ ⊤)
    (hb : b.validFrom ≠ ⊤) (hoverlap : store.Overlap b row knownAt) :
    store.entitySurvivor b.entityId (max b.transactionTime row.transactionTime) =
      store.entitySurvivor row.entityId (max b.transactionTime row.transactionTime) := by
  obtain ⟨hbknown, hrowknown, validAt, hbvalid, hrowvalid⟩ := hoverlap
  have hbvalid := hbvalid.earlier (max_le hbknown hrowknown)
  have hopen := (lt_validTo_iff.mp hrowvalid.2).1
  refine (compareAlias_eq_ok h).resolve_right fun hno => hno ⟨?_, ?_, ?_⟩
  · exact lt_getD_top hbvalid.1 hb hopen
  · exact lt_getD_top hrowvalid.1 hrow hbvalid.2
  · exact lt_getD_top hbvalid.1 hb hbvalid.2

theorem compareAlias_of_validate (h : store.validateEntityAlias ontology row = .ok ())
    (hunique : ontology.Unique row.scheme) (hb : b ∈ store.rivals row) : store.compareAlias row b = .ok () := by
  obtain ⟨scheme, hscheme, hisUnique⟩ := hunique
  rw [validateEntityAlias] at h
  split at h
  · cases h
  · rw [hscheme] at h
    dsimp only at h
    split at h
    · cases h
    · split at h
      · cases h
      · rw [hisUnique] at h
        exact forM_eq_ok_iff.mp h b hb

theorem survivor_of_validate (hsound : store.Sound ontology)
    (hprudent : Insert.Prudent ontology store (.aliasClaim row recordedAt))
    (h : store.validateEntityAlias ontology (store.identified row) = .ok ()) (hb : b ∈ store.aliases)
    (hsame : ontology.SameValue b (store.identified row)) (hoverlap : store.Overlap b (store.identified row) knownAt) :
    store.entitySurvivor b.entityId knownAt = store.entitySurvivor row.entityId knownAt := by
  by_cases heq : b.entityId = row.entityId
  · rw [heq]
  · have hunique : ontology.Unique (store.identified row).scheme := hsame.2.1 ▸ hsame.1
    obtain ⟨hfinite, hkept⟩ := hprudent hunique
    have hrival : b ∈ store.rivals (store.identified row) := List.mem_filter.mpr ⟨hb, decide_eq_true ⟨hsame.2.1, hsame.2.2, heq⟩⟩
    have hthen := survivor_of_compareAlias (compareAlias_of_validate h hunique hrival) hfinite
      (hsound.starts b hb hsame.1) hoverlap
    refine entitySurvivor_mono hsound (max_le hoverlap.1 hoverlap.2.1) (fun r hr relation hr' => ?_) hthen
    exact (hkept r hr relation hr').trans (le_max_right _ _)

theorem Sound.append_aliasClaim (hsound : store.Sound ontology)
    (hprudent : Insert.Prudent ontology store (.aliasClaim row recordedAt))
    (h : store.validateEntityAlias ontology (store.identified row) = .ok ()) :
    (store.append (.aliasClaim row recordedAt)).Sound ontology where
  keyed := hsound.keyed
  single := hsound.single
  forest := hsound.forest
  starts := by
    intro a ha hunique
    obtain ha | ha := List.mem_append.mp ha
    · exact hsound.starts a ha hunique
    · cases List.mem_singleton.mp ha
      exact (hprudent hunique).1
  named := by
    intro a ha b hb hsame knownAt hoverlap
    obtain ha | ha := List.mem_append.mp ha <;> obtain hb | hb := List.mem_append.mp hb
    · exact hsound.named a ha b hb hsame knownAt hoverlap
    · cases List.mem_singleton.mp hb
      have hone := survivor_of_validate hsound hprudent h ha hsame hoverlap
      exact hone
    · cases List.mem_singleton.mp ha
      have hone := survivor_of_validate hsound hprudent h hb hsame.symm (Overlap.symm hoverlap)
      exact hone.symm
    · cases List.mem_singleton.mp ha
      cases List.mem_singleton.mp hb
      rfl

end Claim

theorem sound_empty : EntityStore.empty.Sound ontology where
  keyed _ h := (List.not_mem_nil h).elim
  single _ _ _ h := (List.not_mem_nil h).elim
  forest _ x := ⟨0, Nat.zero_le _, x, .stop rfl⟩
  starts _ h := (List.not_mem_nil h).elim
  named _ h := (List.not_mem_nil h).elim

theorem Sound.insert {store' : EntityStore} {row : Insert} (hsound : store.Sound ontology)
    (hprudent : row.Prudent ontology store) (h : store.insert ontology row = .ok store') : store'.Sound ontology := by
  obtain ⟨_, hadmits, rfl⟩ := map_eq_ok_iff.mp h
  cases row with
  | entity row => exact ⟨hsound.keyed, hsound.single, hsound.forest, hsound.starts, hsound.named⟩
  | aliasClaim row recordedAt =>
    obtain ⟨_, hvalid, _⟩ := bind_eq_ok_iff.mp hadmits
    exact hsound.append_aliasClaim hprudent hvalid
  | relation row recordedAt =>
    obtain ⟨_, _, hadmits⟩ := bind_eq_ok_iff.mp hadmits
    obtain ⟨_, _, hadmits⟩ := bind_eq_ok_iff.mp hadmits
    obtain ⟨_, _, hadmits⟩ := bind_eq_ok_iff.mp hadmits
    obtain ⟨_, hfresh, _⟩ := bind_eq_ok_iff.mp hadmits
    refine hsound.append_relation hprudent fun hmem => ?_
    rw [refuseIf, if_pos hmem] at hfresh
    cases hfresh
  | retraction row recordedAt => exact hsound.append_retraction hprudent

theorem Sound.run {rows : List Insert} {first last : EntityStore} (hsound : first.Sound ontology)
    (hprudent : AtEach (EntityStore.insert ontology) rows first fun store row => row.Prudent ontology store)
    (h : rows.foldlM (EntityStore.insert ontology) first = .ok last) : last.Sound ontology := by
  induction rows generalizing first with
  | nil =>
    obtain rfl := foldlM_nil_eq_ok.mp h
    exact hsound
  | cons row rows ih =>
    obtain ⟨next, hnext, hrest⟩ := foldlM_cons_eq_ok.mp h
    exact ih (hsound.insert hprudent.head hnext) (hprudent.tail hnext) hrest

end EntityStore

/-! ## One value, one entity -/

/-- The matching aliases of a unique value survive as one at every date and instant, and the resolver never raises. -/
def EntityStore.NamesOne (ontology : Ontology) (store : EntityStore) : Prop :=
  ∀ scheme value validAt knownAt, ontology.Unique scheme →
    (∀ a ∈ store.matchingAliases scheme value validAt knownAt, ∀ b ∈ store.matchingAliases scheme value validAt knownAt,
      store.entitySurvivor a.entityId knownAt = store.entitySurvivor b.entityId knownAt) ∧
    ∀ named count, store.entityResolve ontology scheme value (some validAt) (some knownAt) ≠
      .error (.namesMany scheme named count validAt knownAt)

namespace EntityStore

theorem mem_matchingAliases {scheme value : String} : a ∈ store.matchingAliases scheme value validAt knownAt ↔
    a ∈ store.aliases ∧ a.scheme = scheme ∧ a.value = value ∧ a.transactionTime ≤ knownAt ∧ store.ValidOn a validAt knownAt := by
  rw [matchingAliases, List.mem_filter, decide_eq_true_eq]

theorem Sound.survivor_eq (hsound : store.Sound ontology) {scheme value : String} (hunique : ontology.Unique scheme)
    (ha : a ∈ store.matchingAliases scheme value validAt knownAt)
    (hb : b ∈ store.matchingAliases scheme value validAt knownAt) :
    store.entitySurvivor a.entityId knownAt = store.entitySurvivor b.entityId knownAt := by
  obtain ⟨hastored, hascheme, havalue, haknown, havalid⟩ := mem_matchingAliases.mp ha
  obtain ⟨hbstored, hbscheme, hbvalue, hbknown, hbvalid⟩ := mem_matchingAliases.mp hb
  have hsame : ontology.SameValue a b := ⟨hascheme ▸ hunique, hascheme.trans hbscheme.symm, havalue.trans hbvalue.symm⟩
  exact hsound.named a hastored b hbstored hsame knownAt ⟨haknown, hbknown, validAt, havalid, hbvalid⟩

theorem length_dedup_le_one {l : List ℕ} (h : ∀ x ∈ l, ∀ y ∈ l, x = y) : l.dedup.length ≤ 1 := by
  rcases hd : l.dedup with _ | ⟨x, _ | ⟨y, rest⟩⟩
  · simp
  · simp
  · have hnodup : (x :: y :: rest).Nodup := hd ▸ l.nodup_dedup
    have hx : x ∈ l := List.mem_dedup.mp (hd ▸ List.mem_cons_self)
    have hy : y ∈ l := List.mem_dedup.mp (hd ▸ List.mem_cons_of_mem _ List.mem_cons_self)
    rw [h x hx y hy] at hnodup
    simp at hnodup

theorem Sound.namesOne (hsound : store.Sound ontology) : store.NamesOne ontology := by
  intro scheme value validAt knownAt hunique
  refine ⟨fun a ha b hb => hsound.survivor_eq hunique ha hb, fun named count h => ?_⟩
  have hone : (((store.matchingAliases scheme (ontology.entityAliasNormalize scheme value) validAt knownAt).map
      fun claim => store.entitySurvivor claim.entityId knownAt).dedup).length ≤ 1 := by
    refine length_dedup_le_one fun x hx y hy => ?_
    obtain ⟨a, ha, rfl⟩ := List.mem_map.mp hx
    obtain ⟨b, hb, rfl⟩ := List.mem_map.mp hy
    exact hsound.survivor_eq hunique ha hb
  obtain ⟨row, hrow, hisUnique⟩ := hunique
  rw [entityResolve, hrow] at h
  dsimp only at h
  rw [hisUnique, if_neg (by decide), if_neg (by omega)] at h
  cases h

end EntityStore

/-- In a run whose inserts are all prudent, an identifier never names two entities. -/
theorem prudent_run_names_one (ontology : Ontology) {rows : List Insert} {store : EntityStore}
    (hprudent : AtEach (EntityStore.insert ontology) rows .empty fun store row => row.Prudent ontology store)
    (h : rows.foldlM (EntityStore.insert ontology) .empty = .ok store) : store.NamesOne ontology :=
  (EntityStore.sound_empty.run hprudent h).namesOne

/-! ### A merge, and its withdrawal -/

def issuerOntology : Ontology where
  entityKind kind :=
    if kind = "issuer" then some ⟨some "organization", false⟩
    else if kind = "organization" then some ⟨some "agent", true⟩
    else if kind = "agent" then some ⟨some "entity", true⟩
    else if kind = "entity" then some ⟨none, true⟩
    else none
  aliasScheme scheme :=
    if scheme = "cik" then
      some ⟨"organization", true, false, fun value => value.toList.length = 10 && value.toList.all Char.isDigit⟩
    else if scheme = "lei" then
      some ⟨"organization", true, false, fun value => value.toList.length = 20 &&
        value.toList.all (fun c => c.isDigit || c.isUpper) && (value.toList.drop 18).all Char.isDigit⟩
    else none
  relationType type := if type = "superseded_by" then some ⟨"entity", "entity", true⟩ else none
  upper value := String.ofList (value.toList.map Char.toUpper)
  entityUuid _ name :=
    if name = "cik:0000320193" then 8417135755752470473953982831955622217
    else if name = "lei:HWUPKR0MPOU8FGXBT394" then 307864505220992462126770348887463942624
    else 0
  relationUuid _ := 168796648012146741720556305969757732018

def midnight (day : ℤ) : PgTime := (((739617 + day) * microsPerDay : ℤ) : WithTop ℤ)

def cikIssuer : ℕ := 8417135755752470473953982831955622217

def leiIssuer : ℕ := 307864505220992462126770348887463942624

def issuerAlias (entityId : ℕ) (scheme value : String) (day : ℤ) : Insert :=
  .aliasClaim ⟨0, entityId, scheme, value, ⊥, none, midnight day, "sec", "asserted", 1⟩ (midnight 9)

def issuerMerge : RelationRow :=
  ⟨168796648012146741720556305969757732018, "superseded_by", leiIssuer, cikIssuer, ⊥, none, midnight 1, "curation", "merge"⟩

def mergedIssuers : List Insert :=
  [.entity ⟨cikIssuer, "issuer", "cik", "0000320193", 1⟩, issuerAlias cikIssuer "cik" "0000320193" 0,
    .entity ⟨leiIssuer, "issuer", "lei", "HWUPKR0MPOU8FGXBT394", 1⟩,
    issuerAlias leiIssuer "lei" "HWUPKR0MPOU8FGXBT394" 0, .relation issuerMerge (midnight 9),
    issuerAlias leiIssuer "cik" "0000320193" 2]

def issuerUnmerge : Insert := .retraction ⟨.relation issuerMerge.relationId, ⊥, midnight 3⟩ (midnight 9)

/-- A merge that two aliases rest on is withdrawn, and the CIK then names both. -/
theorem withdrawn_merge_names_two : ¬ ∀ (rows : List Insert) (store : EntityStore),
      rows.foldlM (EntityStore.insert issuerOntology) .empty = .ok store → store.NamesOne issuerOntology := by
  intro hall
  have hrun : ((mergedIssuers ++ [issuerUnmerge]).foldlM (EntityStore.insert issuerOntology) .empty).toOption.any
      fun store => store.entityResolve issuerOntology "cik" "0000320193" (some ⊥) (some (midnight 3)) =
        .error (.namesMany "cik" "0000320193" 2 ⊥ (midnight 3)) := by decide +kernel
  obtain ⟨store, hstore, hraise⟩ := exists_ok_of_any hrun
  have hunique : issuerOntology.Unique "cik" := ⟨_, rfl, rfl⟩
  exact (hall _ store hstore "cik" "0000320193" ⊥ (midnight 3) hunique).2 "0000320193" 2 (of_decide_eq_true hraise)

theorem issuerMerge_prudent {store : EntityStore} (h : store.relations = []) :
    Insert.Prudent issuerOntology store (.relation issuerMerge (midnight 9)) := by
  intro _ knownAt _
  have hnone : ∀ e, store.successor knownAt e = none :=
    fun e => EntityStore.successor_eq_none_iff.mpr fun r hr => by rw [h] at hr; cases hr
  have hself : ∀ e, store.entitySurvivor e knownAt = e := fun e => (Ends.stop (hnone e)).terminus_eq (Nat.zero_le _)
  have hlength : ∀ e, (store.supersessionChain e knownAt).length = 1 :=
    fun e => (Ends.stop (hnone e)).length_chain (Nat.zero_le _)
  refine ⟨hself _, ?_, fun e _ => ?_⟩
  · rw [hself]
    decide
  · rw [hlength, hlength]
    decide

theorem issuerAlias_prudent {store : EntityStore} (h : store.retractions = []) (entityId : ℕ) (scheme value : String)
    (day : ℤ) : Insert.Prudent issuerOntology store (issuerAlias entityId scheme value day) := by
  intro _
  refine ⟨bot_ne_top, fun retraction hr => ?_⟩
  rw [h] at hr
  cases hr

theorem atEach_insert_cons {row : Insert} {rows : List Insert} (h : row.Prudent ontology store)
    (hrest : AtEach (EntityStore.insert ontology) rows (store.append row) fun store row => row.Prudent ontology store) :
    AtEach (EntityStore.insert ontology) (row :: rows) store fun store row => row.Prudent ontology store := by
  refine atEach_cons_iff.mpr ⟨h, fun store' hstore' => ?_⟩
  obtain ⟨_, _, rfl⟩ := map_eq_ok_iff.mp hstore'
  exact hrest

theorem mergedIssuers_prudent : AtEach (EntityStore.insert issuerOntology) mergedIssuers .empty
    fun store row => row.Prudent issuerOntology store := by
  refine atEach_insert_cons trivial ?_
  refine atEach_insert_cons (issuerAlias_prudent rfl _ _ _ _) ?_
  refine atEach_insert_cons trivial ?_
  refine atEach_insert_cons (issuerAlias_prudent rfl _ _ _ _) ?_
  refine atEach_insert_cons (issuerMerge_prudent rfl) ?_
  refine atEach_insert_cons (issuerAlias_prudent rfl _ _ _ _) ?_
  exact atEach_nil

theorem merged_issuers_names_one :
    ∃ store : EntityStore, mergedIssuers.foldlM (EntityStore.insert issuerOntology) .empty = .ok store ∧
      store.entityResolve issuerOntology "cik" "320193" (some ⊥) (some (midnight 2)) = .ok (some cikIssuer) ∧
      store.NamesOne issuerOntology := by
  have hrun : (mergedIssuers.foldlM (EntityStore.insert issuerOntology) .empty).toOption.any fun store =>
      store.entityResolve issuerOntology "cik" "320193" (some ⊥) (some (midnight 2)) = .ok (some cikIssuer) := by
    decide +kernel
  obtain ⟨store, hstore, hresolve⟩ := exists_ok_of_any hrun
  exact ⟨store, hstore, of_decide_eq_true hresolve, prudent_run_names_one issuerOntology mergedIssuers_prudent hstore⟩

end TrueAlpha.Datahub
