import Std.Data.String.ToNat
import TrueAlpha.Contracts.DateText
import TrueAlpha.Datahub.BackfillSteps
import TrueAlpha.Datahub.ReachableStore

/-!
# The names that entity ids are derived from

Two schemes admit values that end in the suffix of a generation, and only there do two births share a name (`name_eq_iff`). A
mint goes on to the first generation whose id is free.
-/

namespace TrueAlpha.Datahub

structure Birth where
  scheme : String
  value : String
  generation : ℕ

namespace Birth

def name (birth : Birth) : String := entityBirthName birth.scheme birth.value birth.generation

structure Valid (db : Database) (birth : Birth) : Prop where
  pattern : ∃ row, db.ontology.aliasScheme birth.scheme = some row ∧ row.valuePattern birth.value = true
  canonical : db.ontology.entityAliasNormalize birth.scheme birth.value = birth.value
  generation_pos : 1 ≤ birth.generation

structure Spells (birth other : Birth) : Prop where
  scheme_eq : birth.scheme = other.scheme
  open_pattern : birth.scheme = "legacy-id" ∨ birth.scheme = "name"
  first : birth.generation = 1
  later : 1 < other.generation
  value_eq : birth.value = other.value ++ ("#" ++ toString other.generation)

end Birth

theorem mark_not_mem_toString (n : ℕ) : '#' ∉ (toString n).toList := by
  intro hmem
  rw [Nat.toString_eq_repr, Nat.toList_repr] at hmem
  exact absurd (Nat.isDigit_of_mem_toDigits (by omega) le_rfl hmem) (by decide)

theorem marked_eq {value value' : String} {n n' : ℕ}
    (h : value ++ ("#" ++ toString n) = value' ++ ("#" ++ toString n')) : value = value' ∧ n = n' := by
  have htext := congrArg (fun text => text.toList.reverse) h
  simp only [String.toList_append, show "#".toList = ['#'] from rfl, List.singleton_append, List.reverse_append,
    List.reverse_cons, List.append_assoc] at htext
  obtain ⟨hnumber, hvalue⟩ := eq_of_append_mark (by simpa using mark_not_mem_toString n) (by simpa using mark_not_mem_toString n') htext
  exact ⟨String.toList_inj.mp (List.reverse_injective hvalue), Nat.repr_injective (String.toList_inj.mp (List.reverse_injective hnumber))⟩

theorem suffixed_eq {value value' : String} {generation generation' : ℕ} (hpos : 1 ≤ generation) (hpos' : 1 ≤ generation')
    (h : value ++ (if 1 < generation then "#" ++ toString generation else "") =
      value' ++ if 1 < generation' then "#" ++ toString generation' else "") :
    (value = value' ∧ generation = generation') ∨
    (generation = 1 ∧ 1 < generation' ∧ value = value' ++ ("#" ++ toString generation')) ∨
    (generation' = 1 ∧ 1 < generation ∧ value' = value ++ ("#" ++ toString generation)) := by
  split_ifs at h with hlater hlater' hlater'
  · exact .inl (marked_eq h)
  · exact .inr (.inr ⟨by omega, hlater, by simpa using h.symm⟩)
  · exact .inr (.inl ⟨by omega, hlater', by simpa using h⟩)
  · exact .inl ⟨by simpa using h, by omega⟩

theorem mem_seededSchemes {db : Database} {scheme : String} {row : AliasScheme} (h : db.ontology.aliasScheme scheme = some row) :
    (scheme, row) ∈ seededSchemes db.isSpace := by
  obtain ⟨before, after, heq, -⟩ := List.lookup_eq_some_iff.mp h
  rw [heq]
  simp

variable {isSpace : Char → Bool}

theorem colon_not_mem_scheme : ∀ entry ∈ seededSchemes isSpace, ':' ∉ entry.1.toList := by
  simp [seededSchemes]

theorem mark_not_mem_of_parts {value : List Char} {n : ℕ} {start mark rest : Char → Bool} (hstart : (value.take n).all start)
    (hmark : (value.drop n).head?.any mark) (hrest : (value.drop (n + 1)).all rest) (h : start '#' = false)
    (h' : mark '#' = false) (h'' : rest '#' = false) : '#' ∉ value := by
  intro hmem
  rw [← List.take_append_drop n value, List.mem_append] at hmem
  rcases hmem with hmem | hmem
  · exact absurd (List.all_eq_true.mp hstart _ hmem) (by simp [h])
  · rw [← List.tail_drop] at hrest
    cases hdrop : value.drop n with
    | nil => simp [hdrop] at hmem
    | cons c l =>
      rw [hdrop] at hmem hmark hrest
      rcases List.mem_cons.mp hmem with rfl | hmem
      · simp [h'] at hmark
      · exact absurd (List.all_eq_true.mp hrest _ hmem) (by simp [h''])

theorem open_of_suffixed {scheme value : String} {row : AliasScheme} {n : ℕ}
    (hrow : (scheme, row) ∈ seededSchemes isSpace) (h : row.valuePattern value = true)
    (hmarked : row.valuePattern (value ++ ("#" ++ toString n)) = true) : scheme = "legacy-id" ∨ scheme = "name" := by
  have hlength : (value ++ ("#" ++ toString n)).toList.length ≠ value.toList.length := by simp
  have hmem : '#' ∈ (value ++ ("#" ++ toString n)).toList := by simp
  simp only [seededSchemes, List.mem_cons, Prod.mk.injEq, List.not_mem_nil, or_false] at hrow
  rcases hrow with ⟨rfl, rfl⟩ | ⟨rfl, rfl⟩ | ⟨rfl, rfl⟩ | ⟨rfl, rfl⟩ | ⟨rfl, rfl⟩ | ⟨rfl, rfl⟩ | ⟨rfl, rfl⟩ | ⟨rfl, rfl⟩ |
    ⟨rfl, rfl⟩ | ⟨rfl, rfl⟩
  · exact .inl rfl
  · simp only [leiPattern, Bool.and_eq_true, beq_iff_eq] at h hmarked
    exact absurd (hmarked.1.1.trans h.1.1.symm) hlength
  · simp only [cikPattern, Bool.and_eq_true, beq_iff_eq] at h hmarked
    exact absurd (hmarked.1.trans h.1.symm) hlength
  · simp only [cusipPattern, Bool.and_eq_true, beq_iff_eq] at h hmarked
    exact absurd (hmarked.1.1.trans h.1.1.symm) hlength
  · simp only [isinPattern, Bool.and_eq_true, beq_iff_eq] at h hmarked
    exact absurd (hmarked.1.1.1.trans h.1.1.1.symm) hlength
  · simp only [figiPattern, Bool.and_eq_true, beq_iff_eq] at h hmarked
    exact absurd (hmarked.1.1.1.1.trans h.1.1.1.1.symm) hlength
  · simp only [micTickerPattern, Bool.and_eq_true] at hmarked
    obtain ⟨⟨⟨⟨-, hstart⟩, hmark⟩, -⟩, hrest⟩ := hmarked
    exact absurd hmem (mark_not_mem_of_parts hstart hmark hrest rfl rfl rfl)
  · simp only [secSeriesPattern, Bool.and_eq_true, beq_iff_eq] at h hmarked
    exact absurd (hmarked.1.1.trans h.1.1.symm) hlength
  · simp only [moomooCodePattern, Bool.and_eq_true] at hmarked
    obtain ⟨⟨⟨⟨-, hstart⟩, hmark⟩, -⟩, hrest⟩ := hmarked
    exact absurd hmem (mark_not_mem_of_parts hstart hmark hrest rfl rfl rfl)
  · exact .inr rfl

namespace Birth

variable {db : Database} {birth other : Birth}

theorem spells_of_value (h : birth.Valid db) (h' : other.Valid db) (hscheme : birth.scheme = other.scheme)
    (hfirst : birth.generation = 1) (hlater : 1 < other.generation)
    (hvalue : birth.value = other.value ++ ("#" ++ toString other.generation)) : birth.Spells other := by
  obtain ⟨row, hrow, hpattern⟩ := h.pattern
  obtain ⟨row', hrow', hpattern'⟩ := h'.pattern
  rw [hscheme, hrow'] at hrow
  cases hrow
  rw [hvalue] at hpattern
  exact ⟨hscheme, hscheme ▸ open_of_suffixed (mem_seededSchemes hrow') hpattern' hpattern, hfirst, hlater, hvalue⟩

theorem name_eq_iff (h : birth.Valid db) (h' : other.Valid db) :
    birth.name = other.name ↔ birth = other ∨ birth.Spells other ∨ other.Spells birth := by
  constructor
  · intro hname
    obtain ⟨row, hrow, -⟩ := h.pattern
    obtain ⟨row', hrow', -⟩ := h'.pattern
    have htext := congrArg String.toList hname
    simp only [name, entityBirthName, String.append_assoc, String.toList_append, show ":".toList = [':'] from rfl,
      List.singleton_append] at htext
    obtain ⟨hscheme, hrest⟩ := eq_of_append_mark (colon_not_mem_scheme _ (mem_seededSchemes hrow))
      (colon_not_mem_scheme _ (mem_seededSchemes hrow')) htext
    have hscheme := String.toList_inj.mp hscheme
    rw [← String.toList_append, ← String.toList_append] at hrest
    rcases suffixed_eq h.generation_pos h'.generation_pos (String.toList_inj.mp hrest) with
      ⟨hvalue, hgeneration⟩ | ⟨hfirst, hlater, hvalue⟩ | ⟨hfirst, hlater, hvalue⟩
    · cases birth
      cases other
      exact .inl (by simp_all)
    · exact .inr (.inl (spells_of_value h h' hscheme hfirst hlater hvalue))
    · exact .inr (.inr (spells_of_value h' h hscheme.symm hfirst hlater hvalue))
  · have hspells : ∀ {a b : Birth}, a.Spells b → a.name = b.name := by
      intro a b hab
      rw [name, name, entityBirthName, entityBirthName, hab.first, if_neg (by decide), if_pos hab.later, hab.value_eq,
        hab.scheme_eq]
      simp [String.append_assoc]
    rintro (rfl | hab | hba)
    · rfl
    · exact hspells hab
    · exact (hspells hba).symm

end Birth

namespace EntityStore

variable {db : Database} {store : EntityStore} {kind scheme value : String}

theorem exists_mintGeneration (store : EntityStore) (scheme value : String)
    (hhash : Function.Injective (db.ontology.entityUuid kind)) :
    ∃ generation, store.mintGeneration db.ontology kind scheme value = some generation ∧ 1 ≤ generation ∧
      generation ≤ store.entities.length + 1 ∧
      db.ontology.entityUuid kind (entityBirthName scheme value generation) ∉ store.ids := by
  set first := (List.range (store.entities.length + 1)).map (· + 1) with hfirst
  rcases hfind : store.mintGeneration db.ontology kind scheme value with _ | generation
  · -- otherwise the store holds more distinct ids than it has entities
    have htaken : ∀ generation ∈ first, db.ontology.entityUuid kind (entityBirthName scheme value generation) ∈ store.ids := by
      intro generation hmem
      simpa [ids] using List.find?_eq_none.mp hfind generation hmem
    have hnodup : (first.map fun generation => db.ontology.entityUuid kind (entityBirthName scheme value generation)).Nodup := by
      refine (List.nodup_range.map (fun _ _ h => Nat.succ.inj h)).map_on fun a ha b hb hab => ?_
      obtain ⟨k, -, rfl⟩ := List.mem_map.mp ha
      obtain ⟨k', -, rfl⟩ := List.mem_map.mp hb
      have hname := hhash hab
      rw [entityBirthName, entityBirthName, String.append_right_inj] at hname
      rcases suffixed_eq (Nat.succ_pos k) (Nat.succ_pos k') (congrArg (value ++ ·) hname) with
        ⟨-, heq⟩ | ⟨-, -, heq⟩ | ⟨-, -, heq⟩
      · exact heq
      · exact absurd (congrArg String.length heq) (by simp)
      · exact absurd (congrArg String.length heq) (by simp)
    have hsub := (hnodup.subperm fun id hid => by
      obtain ⟨generation, hmem, rfl⟩ := List.mem_map.mp hid
      exact htaken generation hmem).length_le
    simp [hfirst, ids] at hsub
  · have hmem := List.mem_of_find?_eq_some hfind
    obtain ⟨k, hk, rfl⟩ := List.mem_map.mp hmem
    refine ⟨k + 1, rfl, Nat.succ_pos k, List.mem_range.mp hk, ?_⟩
    simpa [ids] using List.find?_some hfind

theorem entityMint_fresh (hhash : Function.Injective (db.ontology.entityUuid kind)) {minted : ℕ × EntityStore}
    (h : store.entityMint db.ontology kind scheme value = .ok minted) :
    minted.1 ∉ store.ids ∧ minted.2.ids = store.ids ++ [minted.1] := by
  obtain ⟨generation, hgeneration, hid, -, hstore⟩ := entityMint_eq_ok h
  obtain ⟨generation', hgeneration', -, -, hfree⟩ := store.exists_mintGeneration scheme _ hhash
  rw [hgeneration] at hgeneration'
  cases hgeneration'
  rw [hid, hstore]
  exact ⟨hfree, by simp [ids, append]⟩

theorem exists_entityMint (hhash : Function.Injective (db.ontology.entityUuid kind)) {row : EntityKind}
    (hkind : db.ontology.entityKind kind = some row) (hconcrete : row.isAbstract = false) {birth : Birth} (hbirth : birth.Valid db) :
    ∃ minted, store.entityMint db.ontology kind birth.scheme birth.value = .ok minted := by
  obtain ⟨generation, hgeneration, -, -, hfree⟩ := store.exists_mintGeneration birth.scheme birth.value hhash
  obtain ⟨aliasRow, halias, -⟩ := hbirth.pattern
  set id := db.ontology.entityUuid kind (entityBirthName birth.scheme birth.value generation) with hid
  have hadmits : store.admits db.ontology (.entity ⟨id, kind, birth.scheme, birth.value, generation⟩) = .ok () := by
    simp only [admits, validateEntity, hkind, hconcrete, hbirth.canonical, halias, ← hid, Bool.false_eq_true, if_false, ne_eq,
      not_true_eq_false, Option.isNone_some]
    exact if_neg hfree
  simp only [entityMint, hkind, hconcrete, hbirth.canonical, hgeneration, ← hid, Bool.false_eq_true, if_false,
    insert_eq_ok_iff.mpr ⟨hadmits, rfl⟩, ok_bind]
  exact ⟨_, rfl⟩

end EntityStore

/-- Two births share a name only where one value spells the suffix of the other; a mint ends within one generation more than there
are entities, with a new id. -/
theorem birth_names_and_mints (db : Database) (hhash : ∀ kind, Function.Injective (db.ontology.entityUuid kind)) :
    (∀ birth other : Birth, birth.Valid db → other.Valid db →
      (birth.name = other.name ↔ birth = other ∨ birth.Spells other ∨ other.Spells birth)) ∧
    ∀ (store : EntityStore) (kind scheme value : String),
      (∃ generation, store.mintGeneration db.ontology kind scheme (db.ontology.entityAliasNormalize scheme value) =
        some generation ∧ 1 ≤ generation ∧ generation ≤ store.entities.length + 1) ∧
      (∀ minted, store.entityMint db.ontology kind scheme value = .ok minted →
        minted.1 ∉ store.ids ∧ minted.2.ids = store.ids ++ [minted.1]) ∧
      ∀ row, db.ontology.entityKind kind = some row → row.isAbstract = false → ∀ birth : Birth, birth.Valid db →
          ∃ minted, store.entityMint db.ontology kind birth.scheme birth.value = .ok minted := by
  refine ⟨fun birth other h h' => Birth.name_eq_iff h h', fun store kind scheme value => ⟨?_, fun minted h => ?_, ?_⟩⟩
  · obtain ⟨generation, hgeneration, hpos, hle, -⟩ :=
      store.exists_mintGeneration scheme (db.ontology.entityAliasNormalize scheme value) (hhash kind)
    exact ⟨generation, hgeneration, hpos, hle⟩
  · exact EntityStore.entityMint_fresh (hhash kind) h
  · exact fun row hkind hconcrete birth hbirth => EntityStore.exists_entityMint (hhash kind) hkind hconcrete hbirth

theorem birth_names_and_mints_sample :
    ∃ generation, EntityStore.empty.mintGeneration (sampleDatabase fun _ => 0).ontology "custom" "legacy-id"
      ((sampleDatabase fun _ => 0).ontology.entityAliasNormalize "legacy-id" "custom:a:b") = some generation ∧
      1 ≤ generation ∧ generation ≤ EntityStore.empty.entities.length + 1 :=
  ((birth_names_and_mints (sampleDatabase fun _ => 0) fun _ => sampleUuid_injective).2 .empty "custom" "legacy-id" "custom:a:b").1

/-- The second generation of one id and the first one of an id that ends in its suffix. -/
theorem legacy_names_collide :
    ¬ ∀ birth other : Birth, birth.Valid (sampleDatabase fun _ => 0) → other.Valid (sampleDatabase fun _ => 0) →
      birth.name = other.name → birth = other := by
  intro h
  have hmarked : Birth.Valid (sampleDatabase fun _ => 0) ⟨"legacy-id", "custom:a:b#2", 1⟩ :=
    ⟨⟨_, rfl, by decide⟩, by decide, le_rfl⟩
  have hplain : Birth.Valid (sampleDatabase fun _ => 0) ⟨"legacy-id", "custom:a:b", 2⟩ :=
    ⟨⟨_, rfl, by decide⟩, by decide, one_le_two⟩
  exact absurd (congrArg Birth.generation (h _ _ hmarked hplain (by decide))) (by decide)

end TrueAlpha.Datahub
