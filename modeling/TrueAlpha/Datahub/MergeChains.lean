import TrueAlpha.Datahub.EntityStoreSpec

/-!
# Merge chains

`MergesEnd` is the law of merges: one successor at most, no chain comes back, the survivor is an end.  The guard looks at
`infinity` only and along 32 edges; `Insert.FitsMerges` is what it would have to check.
-/

namespace TrueAlpha.Datahub

variable {ontology : Ontology} {store : EntityStore} {knownAt : PgTime} {x y z : ℕ}

namespace EntityStore

def SupersededBy (store : EntityStore) (knownAt : PgTime) (x y : ℕ) : Prop :=
  ∃ relation ∈ store.relations, store.Supersedes knownAt x relation ∧ relation.toEntityId = y

instance (store : EntityStore) (knownAt : PgTime) (x y : ℕ) : Decidable (store.SupersededBy knownAt x y) :=
  inferInstanceAs (Decidable (∃ relation ∈ _, _))

/-- At every instant an entity has one successor at most, no chain returns, and a survivor has none. -/
structure MergesEnd (store : EntityStore) : Prop where
  single : ∀ knownAt x y z, store.SupersededBy knownAt x y → store.SupersededBy knownAt x z → y = z
  acyclic : ∀ knownAt x, ¬ Relation.TransGen (store.SupersededBy knownAt) x x
  ends : ∀ knownAt x y, ¬ store.SupersededBy knownAt (store.entitySurvivor x knownAt) y
  settled : ∀ knownAt x, store.entitySurvivor (store.entitySurvivor x knownAt) knownAt = store.entitySurvivor x knownAt

def Referenced (store : EntityStore) : Prop :=
  ∀ retraction ∈ store.retractions, ∀ relationId, retraction.target = .relation relationId →
    relationId ∈ store.relations.map (·.relationId)

end EntityStore

/-- At every later instant the entity has no other successor, the target does not lead back, and no chain through the merge is too
long. -/
def Insert.FitsMerges (store : EntityStore) : Insert → Prop
  | .relation row _ =>
    row.relationType = "superseded_by" → ∀ knownAt, row.transactionTime ≤ knownAt →
      (∀ y, store.SupersededBy knownAt row.fromEntityId y → y = row.toEntityId) ∧
      ¬ Relation.ReflTransGen (store.SupersededBy knownAt) row.toEntityId row.fromEntityId ∧
      ∀ x y n m, Hops (store.SupersededBy knownAt) n x row.fromEntityId →
        Hops (store.SupersededBy knownAt) m row.toEntityId y → n + 1 + m ≤ 32
  | _ => True

variable {store' : EntityStore}

namespace EntityStore

theorem supersededBy_of_successor (h : store.successor knownAt x = some y) : store.SupersededBy knownAt x y :=
  exists_of_successor h

theorem successor_eq_some_iff
    (hsingle : ∀ y z, store.SupersededBy knownAt x y → store.SupersededBy knownAt x z → y = z) :
    store.successor knownAt x = some y ↔ store.SupersededBy knownAt x y := by
  constructor
  · exact supersededBy_of_successor
  · intro h
    rcases hnext : store.successor knownAt x with _ | z
    · obtain ⟨relation, hmem, hsup, _⟩ := h
      exact absurd hsup (successor_eq_none_iff.mp hnext relation hmem)
    · rw [hsingle z y (supersededBy_of_successor hnext) h]

theorem successor_eq_none_iff_supersededBy : store.successor knownAt x = none ↔ ∀ y, ¬ store.SupersededBy knownAt x y := by
  rw [successor_eq_none_iff]
  constructor
  · intro h y ⟨relation, hmem, hsup, _⟩
    exact h relation hmem hsup
  · intro h relation hmem hsup
    exact h relation.toEntityId ⟨relation, hmem, hsup, rfl⟩

theorem supersededBy_eq
    (hsingle : ∀ x y z, store.SupersededBy knownAt x y → store.SupersededBy knownAt x z → y = z) :
    store.SupersededBy knownAt = fun x y => store.successor knownAt x = some y := by
  funext x y
  rw [successor_eq_some_iff (hsingle x)]

theorem mergesEnd_iff : store.MergesEnd ↔
    (∀ knownAt x y z, store.SupersededBy knownAt x y → store.SupersededBy knownAt x z → y = z) ∧
      ∀ knownAt, StopsWithin (store.successor knownAt) 32 := by
  constructor
  · intro h
    refine ⟨h.single, fun knownAt => stopsWithin_iff.mpr fun x => ?_⟩
    exact successor_eq_none_iff_supersededBy.mpr (h.ends knownAt x)
  · rintro ⟨hsingle, hstops⟩
    refine ⟨hsingle, fun knownAt x => ?_, fun knownAt x => ?_, fun knownAt x => ?_⟩
    · rw [supersededBy_eq (hsingle knownAt)]
      exact (hstops knownAt).acyclic x
    · exact successor_eq_none_iff_supersededBy.mp ((hstops knownAt).next_terminus x)
    · exact (hstops knownAt).terminus_eq_self_iff.mpr ((hstops knownAt).next_terminus x)

theorem MergesEnd.stopsWithin (h : store.MergesEnd) (knownAt : PgTime) : StopsWithin (store.successor knownAt) 32 :=
  (mergesEnd_iff.mp h).2 knownAt

theorem MergesEnd.restrict (h : store.MergesEnd)
    (hsub : ∀ knownAt x y, store'.SupersededBy knownAt x y → store.SupersededBy knownAt x y) : store'.MergesEnd := by
  refine mergesEnd_iff.mpr ⟨fun knownAt x y z hy hz => ?_, fun knownAt => ?_⟩
  · exact h.single knownAt x y z (hsub knownAt x y hy) (hsub knownAt x z hz)
  · refine (h.stopsWithin knownAt).restrict fun x y hnext => ?_
    rw [successor_eq_some_iff (h.single knownAt x)]
    exact hsub knownAt x y (supersededBy_of_successor hnext)

section Merge

variable {row : RelationRow} {recordedAt : PgTime}

theorem supersededBy_relation_iff : (store.append (.relation row recordedAt)).SupersededBy knownAt x y ↔
      store.SupersededBy knownAt x y ∨ (store.Supersedes knownAt x row ∧ row.toEntityId = y) := by
  constructor
  · rintro ⟨relation, hmem, hsup, hto⟩
    obtain hmem | hmem := List.mem_append.mp hmem
    · exact .inl ⟨relation, hmem, hsup, hto⟩
    · cases List.mem_singleton.mp hmem
      exact .inr ⟨hsup, hto⟩
  · rintro (⟨relation, hmem, hsup, hto⟩ | ⟨hsup, hto⟩)
    · exact ⟨relation, List.mem_append_left _ hmem, hsup, hto⟩
    · exact ⟨row, List.mem_append_right _ (List.mem_singleton.mpr rfl), hsup, hto⟩

theorem supersededBy_relation_of_supersedes (hsup : store.Supersedes knownAt row.fromEntityId row) :
    (store.append (.relation row recordedAt)).SupersededBy knownAt x y ↔
      store.SupersededBy knownAt x y ∨ (x = row.fromEntityId ∧ y = row.toEntityId) := by
  rw [supersededBy_relation_iff]
  refine or_congr_right ⟨fun ⟨h, hto⟩ => ⟨h.2.1.symm, hto.symm⟩, ?_⟩
  rintro ⟨rfl, rfl⟩
  exact ⟨hsup, rfl⟩

theorem supersededBy_relation_of_not (hsup : ¬ store.Supersedes knownAt row.fromEntityId row) :
    (store.append (.relation row recordedAt)).SupersededBy knownAt x y ↔ store.SupersededBy knownAt x y := by
  rw [supersededBy_relation_iff, or_iff_left]
  rintro ⟨h, _⟩
  exact hsup ⟨h.1, rfl, h.2.2⟩

theorem stopsWithin_relation (hends : store.MergesEnd) (hsup : store.Supersedes knownAt row.fromEntityId row)
    (honly : ∀ y, store.SupersededBy knownAt row.fromEntityId y → y = row.toEntityId)
    (hback : ¬ Relation.ReflTransGen (store.SupersededBy knownAt) row.toEntityId row.fromEntityId)
    (hlong : ∀ x y n m, Hops (store.SupersededBy knownAt) n x row.fromEntityId →
      Hops (store.SupersededBy knownAt) m row.toEntityId y → n + 1 + m ≤ 32)
    (hsingle : ∀ x y z, (store.append (.relation row recordedAt)).SupersededBy knownAt x y →
      (store.append (.relation row recordedAt)).SupersededBy knownAt x z → y = z) :
    StopsWithin ((store.append (.relation row recordedAt)).successor knownAt) 32 := by
  have hstops := hends.stopsWithin knownAt
  have hsteps := supersededBy_eq (hends.single knownAt)
  by_cases hold : store.SupersededBy knownAt row.fromEntityId row.toEntityId
  · -- the same edge is stored already
    refine hstops.restrict fun x y hnext => ?_
    rw [successor_eq_some_iff (hends.single knownAt x)]
    obtain h | ⟨rfl, rfl⟩ := (supersededBy_relation_of_supersedes hsup).mp (supersededBy_of_successor hnext)
    · exact h
    · exact hold
  · have hnone : store.successor knownAt row.fromEntityId = none := by
      refine successor_eq_none_iff_supersededBy.mpr fun y hy => hold ?_
      rw [← honly y hy]
      exact hy
    have hlink : (store.append (.relation row recordedAt)).successor knownAt row.fromEntityId = some row.toEntityId :=
      (successor_eq_some_iff (hsingle _)).mpr ((supersededBy_relation_of_supersedes hsup).mpr (.inr ⟨rfl, rfl⟩))
    have hrest : ∀ e, e ≠ row.fromEntityId →
        (store.append (.relation row recordedAt)).successor knownAt e = store.successor knownAt e :=
      fun e he => successor_relation_of_not fun h => he h.2.1.symm
    have hreach : ∀ e, ∃ n, Hops (store.SupersededBy knownAt) n e (store.entitySurvivor e knownAt) ∧
        (chain (store.successor knownAt) 32 e).length = n + 1 := by
      intro e
      obtain ⟨n, _, hends, hlength⟩ := hstops.ends e
      refine ⟨n, ?_, hlength⟩
      rw [hsteps]
      exact hends.hops
    refine hstops.link hnone hlink hrest (fun heq => hback ?_) fun e heq => ?_
    · obtain ⟨n, hhops, _⟩ := hreach row.toEntityId
      rw [entitySurvivor, heq] at hhops
      exact hhops.reflTransGen
    · obtain ⟨n, hn, hlength⟩ := hreach e
      obtain ⟨m, hm, hlength'⟩ := hreach row.toEntityId
      rw [entitySurvivor, heq] at hn
      have := hlong _ _ n m hn hm
      omega

theorem MergesEnd.append_relation (hends : store.MergesEnd) (hfits : Insert.FitsMerges store (.relation row recordedAt)) :
    (store.append (.relation row recordedAt)).MergesEnd := by
  have hsingle : ∀ knownAt x y z, (store.append (.relation row recordedAt)).SupersededBy knownAt x y →
      (store.append (.relation row recordedAt)).SupersededBy knownAt x z → y = z := by
    intro knownAt x y z hy hz
    by_cases hsup : store.Supersedes knownAt row.fromEntityId row
    · obtain ⟨honly, _, _⟩ := hfits hsup.1 knownAt hsup.2.2.1
      rw [supersededBy_relation_of_supersedes hsup] at hy hz
      obtain hy | ⟨hx, hy⟩ := hy <;> obtain hz | ⟨hx', hz⟩ := hz
      · exact hends.single knownAt x y z hy hz
      · rw [hx'] at hy
        rw [honly y hy, hz]
      · rw [hx] at hz
        rw [honly z hz, hy]
      · rw [hy, hz]
    · rw [supersededBy_relation_of_not hsup] at hy hz
      exact hends.single knownAt x y z hy hz
  refine mergesEnd_iff.mpr ⟨hsingle, fun knownAt => ?_⟩
  by_cases hsup : store.Supersedes knownAt row.fromEntityId row
  · obtain ⟨honly, hback, hlong⟩ := hfits hsup.1 knownAt hsup.2.2.1
    exact stopsWithin_relation hends hsup honly hback hlong (hsingle knownAt)
  · refine (hends.stopsWithin knownAt).restrict fun x y hnext => ?_
    rw [successor_eq_some_iff (hends.single knownAt x)]
    exact (supersededBy_relation_of_not hsup).mp (supersededBy_of_successor hnext)

theorem MergesEnd.fitsMerges (hends : (store.append (.relation row recordedAt)).MergesEnd)
    (hreferenced : store.Referenced) (hfresh : row.relationId ∉ store.relations.map (·.relationId)) :
    Insert.FitsMerges store (.relation row recordedAt) := by
  intro htype knownAt htime
  have hsup : store.Supersedes knownAt row.fromEntityId row := by
    refine ⟨htype, rfl, htime, ?_⟩
    rintro ⟨retraction, hmem, htarget, -⟩
    exact hfresh (hreferenced retraction hmem row.relationId htarget)
  have hsub : ∀ x y, store.SupersededBy knownAt x y → (store.append (.relation row recordedAt)).SupersededBy knownAt x y :=
    fun x y h => (supersededBy_relation_of_supersedes hsup).mpr (.inl h)
  have hedge : (store.append (.relation row recordedAt)).SupersededBy knownAt row.fromEntityId row.toEntityId :=
    (supersededBy_relation_of_supersedes hsup).mpr (.inr ⟨rfl, rfl⟩)
  refine ⟨fun y hy => ?_, fun hback => ?_, fun x y n m hn hm => ?_⟩
  · exact hends.single knownAt _ _ _ (hsub _ _ hy) hedge
  · have hback' := Relation.ReflTransGen.mono hsub _ _ hback
    exact hends.acyclic knownAt row.fromEntityId (Relation.TransGen.head' hedge hback')
  · have hhops := (hn.mono hsub).trans (.head hedge (hm.mono hsub))
    rw [supersededBy_eq (hends.single knownAt)] at hhops
    have := (hends.stopsWithin knownAt).hops_le hhops
    omega

end Merge

/-! ## Runs -/

theorem MergesEnd.congr (h : store.MergesEnd) (hrelations : store'.relations = store.relations)
    (hretractions : store'.retractions = store.retractions) : store'.MergesEnd := by
  refine h.restrict ?_
  rintro knownAt x y ⟨relation, hmem, ⟨htype, hfrom, htime, hkept⟩, hto⟩
  refine ⟨relation, hrelations ▸ hmem, ⟨htype, hfrom, htime, ?_⟩, hto⟩
  rintro ⟨retraction, hr, htarget⟩
  exact hkept ⟨retraction, hretractions ▸ hr, htarget⟩

theorem MergesEnd.append_retraction {row : RetractionRow} {recordedAt : PgTime} (h : store.MergesEnd) :
    (store.append (.retraction row recordedAt)).MergesEnd := by
  refine h.restrict ?_
  rintro knownAt x y ⟨relation, hmem, hsup, hto⟩
  exact ⟨relation, hmem, (supersedes_retraction_iff.mp hsup).1, hto⟩

theorem mergesEnd_empty : EntityStore.empty.MergesEnd := by
  refine mergesEnd_iff.mpr ⟨fun knownAt x y z hy => ?_, fun knownAt x => ⟨0, Nat.zero_le _, x, .stop rfl⟩⟩
  obtain ⟨_, hmem, _⟩ := hy
  cases hmem

theorem referenced_empty : EntityStore.empty.Referenced := by
  intro retraction hmem
  cases hmem

theorem refuseIf_eq_ok_iff {condition : Prop} [Decidable condition] {error : StoreError} :
    refuseIf condition error = .ok () ↔ ¬ condition := by
  rw [refuseIf]
  split
  · next h => simp [h]
  · next h => simp [h]

theorem fresh_of_admits {row : RelationRow} {recordedAt : PgTime}
    (h : store.admits ontology (.relation row recordedAt) = .ok ()) :
    row.relationId ∉ store.relations.map (·.relationId) := by
  obtain ⟨_, _, h⟩ := bind_eq_ok_iff.mp h
  obtain ⟨_, _, h⟩ := bind_eq_ok_iff.mp h
  obtain ⟨_, _, h⟩ := bind_eq_ok_iff.mp h
  obtain ⟨_, hfresh, _⟩ := bind_eq_ok_iff.mp h
  exact refuseIf_eq_ok_iff.mp hfresh

theorem Referenced.insert {row : Insert} (hreferenced : store.Referenced)
    (h : store.insert ontology row = .ok store') : store'.Referenced := by
  obtain ⟨_, hadmits, rfl⟩ := map_eq_ok_iff.mp h
  intro retraction hmem relationId htarget
  cases row with
  | entity row => exact hreferenced retraction hmem relationId htarget
  | aliasClaim row recordedAt => exact hreferenced retraction hmem relationId htarget
  | relation row recordedAt =>
    have hstored := hreferenced retraction hmem relationId htarget
    obtain ⟨relation, hr, hid⟩ := List.mem_map.mp hstored
    exact List.mem_map.mpr ⟨relation, List.mem_append_left _ hr, hid⟩
  | retraction row recordedAt =>
    obtain hmem | hmem := List.mem_append.mp hmem
    · exact hreferenced retraction hmem relationId htarget
    · cases List.mem_singleton.mp hmem
      obtain ⟨_, _, htargets⟩ := bind_eq_ok_iff.mp hadmits
      rw [htarget] at htargets
      exact not_not.mp (refuseIf_eq_ok_iff.mp htargets)

theorem MergesEnd.insert_iff {row : Insert} (hends : store.MergesEnd)
    (hreferenced : store.Referenced) (h : store.insert ontology row = .ok store') :
    store'.MergesEnd ↔ row.FitsMerges store := by
  obtain ⟨_, hadmits, rfl⟩ := map_eq_ok_iff.mp h
  cases row with
  | entity row => exact ⟨fun _ => trivial, fun _ => hends.congr rfl rfl⟩
  | aliasClaim row recordedAt => exact ⟨fun _ => trivial, fun _ => hends.congr rfl rfl⟩
  | relation row recordedAt =>
    exact ⟨fun hends' => hends'.fitsMerges hreferenced (fresh_of_admits hadmits), hends.append_relation⟩
  | retraction row recordedAt => exact ⟨fun _ => trivial, fun _ => hends.append_retraction⟩

theorem MergesEnd.run_iff {rows : List Insert} {first last : EntityStore} (hends : first.MergesEnd)
    (hreferenced : first.Referenced) (h : rows.foldlM (EntityStore.insert ontology) first = .ok last) :
    (∀ n store, (rows.take n).foldlM (EntityStore.insert ontology) first = .ok store → store.MergesEnd) ↔
      AtEach (EntityStore.insert ontology) rows first fun store row => row.FitsMerges store := by
  induction rows generalizing first with
  | nil =>
    refine ⟨fun _ => atEach_nil, fun _ n store hstore => ?_⟩
    rw [List.take_nil] at hstore
    obtain rfl := foldlM_nil_eq_ok.mp hstore
    exact hends
  | cons row rows ih =>
    obtain ⟨next, hnext, hrest⟩ := foldlM_cons_eq_ok.mp h
    have hstep := hends.insert_iff hreferenced hnext
    constructor
    · intro hall
      have hends' : next.MergesEnd := hall 1 next (foldlM_cons_eq_ok.mpr ⟨next, hnext, rfl⟩)
      refine atEach_cons_iff.mpr ⟨hstep.mp hends', fun next' hnext' => ?_⟩
      cases hnext.symm.trans hnext'
      refine (ih hends' (hreferenced.insert hnext) hrest).mp fun n store hstore => ?_
      exact hall (n + 1) store (foldlM_cons_eq_ok.mpr ⟨next, hnext, hstore⟩)
    · intro hfits n store hstore
      cases n with
      | zero =>
        obtain rfl := foldlM_nil_eq_ok.mp hstore
        exact hends
      | succ n =>
        obtain ⟨next', hnext', hstore⟩ := foldlM_cons_eq_ok.mp hstore
        cases hnext.symm.trans hnext'
        have hends' := hstep.mpr hfits.head
        exact (ih hends' (hreferenced.insert hnext) hrest).mpr (hfits.tail hnext) n store hstore

end EntityStore

/-- The states of a run keep the law of merges exactly when its merges fit. -/
theorem merges_end_iff_fit (ontology : Ontology) {rows : List Insert} {last : EntityStore}
    (h : rows.foldlM (EntityStore.insert ontology) .empty = .ok last) :
    (∀ n store, (rows.take n).foldlM (EntityStore.insert ontology) .empty = .ok store → store.MergesEnd) ↔
      AtEach (EntityStore.insert ontology) rows .empty fun store row => row.FitsMerges store :=
  EntityStore.mergesEnd_empty.run_iff EntityStore.referenced_empty h

/-! ### A merge behind a withdrawal -/

def secondCikIssuer : ℕ := 100013984836509742087045173467363321004

def mergeOntology : Ontology where
  entityKind := issuerOntology.entityKind
  aliasScheme := issuerOntology.aliasScheme
  relationType := issuerOntology.relationType
  upper := issuerOntology.upper
  entityUuid kind name :=
    if name = "cik:0001652044" then 100013984836509742087045173467363321004 else issuerOntology.entityUuid kind name
  relationUuid row :=
    if row.toEntityId = leiIssuer then 240812081493606880512968535074118263523
    else 43656473844217828545307964724252447805

def mergeInto (relationId toEntityId : ℕ) (day : ℤ) : Insert :=
  .relation ⟨relationId, "superseded_by", cikIssuer, toEntityId, ⊥, none, midnight day, "curation", "merge"⟩ (midnight 9)

def firstMerge : List Insert := [.entity ⟨cikIssuer, "issuer", "cik", "0000320193", 1⟩,
    .entity ⟨leiIssuer, "issuer", "lei", "HWUPKR0MPOU8FGXBT394", 1⟩,
    .entity ⟨secondCikIssuer, "issuer", "cik", "0001652044", 1⟩,
    mergeInto 240812081493606880512968535074118263523 leiIssuer 1]

def secondMerge : List Insert := [.retraction ⟨.relation 240812081493606880512968535074118263523, ⊥, midnight 5⟩ (midnight 9),
    mergeInto 43656473844217828545307964724252447805 secondCikIssuer 2]

/-- A merge behind the withdrawal of another is accepted, and between them the entity has two successors. -/
theorem merge_behind_withdrawal_forks : ¬ ∀ (rows : List Insert) (store : EntityStore),
      rows.foldlM (EntityStore.insert mergeOntology) .empty = .ok store → store.MergesEnd := by
  intro hall
  have hrun : ((firstMerge ++ secondMerge).foldlM (EntityStore.insert mergeOntology) .empty).toOption.any
      fun store => store.SupersededBy (midnight 3) cikIssuer leiIssuer ∧
        store.SupersededBy (midnight 3) cikIssuer secondCikIssuer := by decide +kernel
  obtain ⟨store, hstore, hforks⟩ := exists_ok_of_any hrun
  obtain ⟨hfirst, hsecond⟩ := of_decide_eq_true hforks
  have hsame := (hall _ store hstore).single (midnight 3) _ _ _ hfirst hsecond
  exact absurd hsame (by decide)

theorem mergeInto_fits {store : EntityStore} {relationId toEntityId : ℕ} (day : ℤ) (h : store.relations = [])
    (hne : toEntityId ≠ cikIssuer) : (mergeInto relationId toEntityId day).FitsMerges store := by
  intro _ knownAt _
  have hnone : ∀ x y, ¬ store.SupersededBy knownAt x y := by
    intro x y ⟨relation, hmem, _⟩
    rw [h] at hmem
    cases hmem
  refine ⟨fun y hy => absurd hy (hnone _ y), fun hback => ?_, fun x y n m hn hm => ?_⟩
  · obtain heq | ⟨z, hz, _⟩ := hback.cases_head
    · exact hne heq
    · exact hnone _ z hz
  · cases hn with
    | refl =>
      cases hm with
      | refl => omega
      | head hz _ => exact absurd hz (hnone _ _)
    | head hz _ => exact absurd hz (hnone _ _)

theorem firstMerge_keeps_the_law : ∃ last, firstMerge.foldlM (EntityStore.insert mergeOntology) .empty = .ok last ∧
      ∀ n store, (firstMerge.take n).foldlM (EntityStore.insert mergeOntology) .empty = .ok store → store.MergesEnd := by
  have hrun : (firstMerge.foldlM (EntityStore.insert mergeOntology) .empty).toOption.any fun _ => true := by
    decide +kernel
  obtain ⟨last, hlast, _⟩ := exists_ok_of_any hrun
  refine ⟨last, hlast, (merges_end_iff_fit mergeOntology hlast).mpr ?_⟩
  have hentity : ∀ (row : EntityRow) (store : EntityStore), (Insert.entity row).FitsMerges store := fun _ _ => trivial
  refine atEach_cons_iff.mpr ⟨hentity _ _, fun store₁ h₁ => ?_⟩
  obtain ⟨_, _, rfl⟩ := map_eq_ok_iff.mp h₁
  refine atEach_cons_iff.mpr ⟨hentity _ _, fun store₂ h₂ => ?_⟩
  obtain ⟨_, _, rfl⟩ := map_eq_ok_iff.mp h₂
  refine atEach_cons_iff.mpr ⟨hentity _ _, fun store₃ h₃ => ?_⟩
  obtain ⟨_, _, rfl⟩ := map_eq_ok_iff.mp h₃
  refine atEach_cons_iff.mpr ⟨mergeInto_fits 1 rfl (by decide), fun store₄ h₄ => ?_⟩
  exact atEach_nil

end TrueAlpha.Datahub
