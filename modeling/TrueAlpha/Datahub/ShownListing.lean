import Mathlib.Data.Nat.Pairing
import TrueAlpha.Datahub.SurvivorMaps

/-!
# The listing that the view shows

The engines ask `choose_primary_listings` for a listing, the consumers of the mart read `mart.entity_identity`, and only the
first follows merges.  Under `PlainRows` and `Spelled` the two show one listing.
-/

namespace TrueAlpha.Datahub

variable {choice : RowChoice} {db : Database} {lower : String → String} {store : EntityStore} {known : PgTime}
  {issuer listing : ℕ}

namespace EntityStore

def KnownBy (store : EntityStore) (known : PgTime) : Prop :=
  (∀ row ∈ store.aliases, row.transactionTime ≤ known) ∧ (∀ row ∈ store.relations, row.transactionTime ≤ known) ∧
    ∀ row ∈ store.retractions, row.transactionTime ≤ known

/-- The ends of an issuer's `issues` and `listed_as` edges, followed to their survivors. -/
def relatedListings (store : EntityStore) (known : PgTime) (issuer : ℕ) : List ℕ := (store.relations.filter fun issues =>
    issues.relationType = "issues" ∧ store.entitySurvivor issues.fromEntityId known = issuer).flatMap fun issues =>
      (store.relations.filter fun listed => listed.relationType = "listed_as" ∧
        store.entitySurvivor listed.fromEntityId known = store.entitySurvivor issues.toEntityId known).map fun listed =>
          store.entitySurvivor listed.toEntityId known

/-- `choose_primary_listings` on all listings of an issuer names one that its newest `primary_listing` row names. -/
def NamesPrimary (choice : RowChoice) (ontology : Ontology) (lower : String → String) (store : EntityStore)
    (knownAt : Instant) (issuer listing : ℕ) : Prop :=
  ∃ issuerText listings answer,
    store.lookupEntity choice ontology issuerText "issuer" (pgDate (utcDate knownAt)) (pgTime knownAt) = .ok (some issuer) ∧
    (∀ entity, entity ∈ store.relatedListings (pgTime knownAt) issuer ↔ ∃ text ∈ listings,
      store.listingEntity choice ontology text (pgDate (utcDate knownAt)) (pgTime knownAt) = .ok (some entity)) ∧
    store.choosePrimaryListing choice ontology lower knownAt issuerText listings = .ok (some answer) ∧
    store.listingEntity choice ontology answer (pgDate (utcDate knownAt)) (pgTime knownAt) = .ok (some listing) ∧
    store.declared (pgTime knownAt) issuer = some listing

def Unmerged (store : EntityStore) (entityId : ℕ) : Prop := ∀ x, ¬ store.SupersededBy ⊤ entityId x

/-- The `issues` and `primary_listing` rows of an issuer, and its instruments' `listed_as` rows, name no merged entity. -/
structure PlainRows (store : EntityStore) (issuer : ℕ) : Prop where
  own : ∀ row ∈ store.relations, row.relationType ∈ ["issues", "primary_listing"] →
    store.entitySurvivor row.fromEntityId ⊤ = issuer → store.Unmerged row.fromEntityId ∧ store.Unmerged row.toEntityId
  listed : ∀ issues ∈ store.relations, issues.relationType = "issues" →
    store.entitySurvivor issues.fromEntityId ⊤ = issuer → ∀ row ∈ store.relations, row.relationType = "listed_as" →
      store.entitySurvivor row.fromEntityId ⊤ = store.entitySurvivor issues.toEntityId ⊤ →
        store.Unmerged row.fromEntityId ∧ store.Unmerged row.toEntityId

end EntityStore

def leadingAlias (db : Database) (store : EntityStore) (entityId : ℕ) (scheme : String) : Option AliasRow :=
  latestByScheme (declaredRules db store) store entityId scheme

/-- A listing's leading text id is a listing id, or it has none and a venue ticker; the issuer's is no listing id. -/
structure Spelled (db : Database) (store : EntityStore) (issuer listing : ℕ) : Prop where
  ofListing : (∃ row ∈ leadingAlias db store listing "legacy-id", isListingId row.value) ∨
    leadingAlias db store listing "legacy-id" = none ∧ (leadingAlias db store listing "mic-ticker").isSome
  ofIssuer : ∀ row ∈ leadingAlias db store issuer "legacy-id", ¬ isListingId row.value

def ShowsListing (view : List IdentityRow) (issuer listing : ℕ) : Prop :=
  (∃ row ∈ view, row.entityId = issuer) ∧ ∃ shown ∈ view, shown.entityId = listing ∧ shown.listingId.isSome ∧
    ∀ row ∈ view, row.entityId = issuer → row.listingId = shown.listingId ∧ row.currentTicker = shown.currentTicker

namespace EntityStore

theorem KnownBy.successor_eq (h : store.KnownBy known) : store.successor known = store.successor ⊤ := by
  funext entityId
  rw [successor, successor]
  congr 2
  refine List.filter_congr fun relation hrelation => decide_eq_decide.mpr ?_
  rw [supersedes_top_iff, Supersedes]
  refine and_congr_right fun _ => and_congr_right fun _ => ?_
  rw [and_iff_right (h.2.1 relation hrelation)]
  refine not_congr ⟨?_, ?_⟩
  · rintro ⟨retraction, hmem, htarget, -⟩
    exact ⟨retraction, hmem, htarget⟩
  · rintro ⟨retraction, hmem, htarget⟩
    exact ⟨retraction, hmem, htarget, h.2.2 retraction hmem⟩

theorem KnownBy.entitySurvivor_eq (h : store.KnownBy known) (entityId : ℕ) :
    store.entitySurvivor entityId known = store.entitySurvivor entityId ⊤ := by
  rw [entitySurvivor, entitySurvivor, h.successor_eq]

theorem Unmerged.entitySurvivor_eq {entityId : ℕ} (h : store.Unmerged entityId) : store.entitySurvivor entityId ⊤ = entityId :=
  (Ends.stop (successor_eq_none_iff_supersededBy.mpr h)).terminus_eq (Nat.zero_le _)

/-! ## The declared listing -/

theorem lookup_map_pair {α β : Type} {f : α → ℕ} {g : α → β} {l : List α} {x : ℕ} :
    (l.map fun a => (f a, g a)).lookup x = (l.find? fun a => f a = x).map g := by
  induction l with
  | nil => rfl
  | cons a l ih =>
    rw [List.map_cons, List.lookup_cons, List.find?_cons, ih]
    by_cases heq : f a = x
    · subst heq
      simp
    · rw [beq_false_of_ne (Ne.symm heq), decide_eq_false heq]

theorem declared_eq (h : store.Consistent) (hknown : store.KnownBy known) (issuer : ℕ) : store.declared known issuer =
      (latestBy (fun relation : RelationRow => toLex (relation.transactionTime, relation.relationId))
        (store.relations.filter fun relation => relation.relationType = "primary_listing" ∧
          store.entitySurvivor relation.fromEntityId ⊤ = issuer ∧ ¬ store.Retracted relation)).map
        fun relation => store.entitySurvivor relation.toEntityId ⊤ := by
  rw [declared, declaredClaims, lookup_map_pair, ← List.head?_filter, filter_sortedBy, List.filter_filter]
  simp only [hknown.entitySurvivor_eq]
  rw [head?_sortedBy_eq_latestBy]
  · congr 2
    refine List.filter_congr fun relation hrelation => ?_
    rw [← Bool.decide_and]
    refine decide_eq_decide.mpr ?_
    have htime := hknown.2.1 relation hrelation
    tauto
  · intro a ha b hb hkey
    have hid : a.relationId = b.relationId := congrArg (fun key => (ofLex key).2) hkey
    exact List.inj_on_of_nodup_map h.relations (List.mem_filter.mp ha).1 (List.mem_filter.mp hb).1 hid

theorem PlainRows.primaryListing_eq (hplain : store.PlainRows issuer) (h : store.Consistent)
    (hknown : store.KnownBy known) (hunmerged : store.Unmerged issuer) (hdeclared : store.declared known issuer = some listing) :
    primaryListing store issuer = some listing ∧ store.Unmerged listing := by
  have hfilter : (store.relations.filter fun relation => relation.relationType = "primary_listing" ∧
      store.entitySurvivor relation.fromEntityId ⊤ = issuer ∧ ¬ store.Retracted relation) =
      store.relations.filter fun relation => relation.relationType = "primary_listing" ∧
        relation.fromEntityId = issuer ∧ ¬ store.Retracted relation := by
    refine List.filter_congr fun relation hrelation => decide_eq_decide.mpr ?_
    refine and_congr_right fun htype => and_congr_left fun _ => ⟨fun hsurvivor => ?_, fun hfrom => ?_⟩
    · rw [← (hplain.own relation hrelation (by simp [htype]) hsurvivor).1.entitySurvivor_eq, hsurvivor]
    · rw [hfrom, hunmerged.entitySurvivor_eq]
  rw [declared_eq h hknown, hfilter, Option.map_eq_some_iff] at hdeclared
  obtain ⟨relation, hlatest, rfl⟩ := hdeclared
  obtain ⟨hmem, hsel⟩ := List.mem_filter.mp (latestBy_eq_some _ hlatest).1
  obtain ⟨htype, hfrom, -⟩ := of_decide_eq_true hsel
  have hto := (hplain.own relation hmem (by simp [htype]) (by rw [hfrom, hunmerged.entitySurvivor_eq])).2
  rw [hto.entitySurvivor_eq]
  refine ⟨?_, hto⟩
  rw [primaryListing, hlatest]
  rfl

theorem PlainRows.exists_rows (hplain : store.PlainRows issuer) (hknown : store.KnownBy known)
    (hmem : listing ∈ store.relatedListings known issuer) :
    ∃ issues ∈ store.relations, issues.relationType = "issues" ∧ issues.fromEntityId = issuer ∧
      ∃ listed ∈ store.relations, listed.relationType = "listed_as" ∧ listed.fromEntityId = issues.toEntityId ∧
        listed.toEntityId = listing := by
  obtain ⟨issues, hissues, hmem⟩ := List.mem_flatMap.mp hmem
  obtain ⟨listed, hlisted, rfl⟩ := List.mem_map.mp hmem
  obtain ⟨hissues, hsel⟩ := List.mem_filter.mp hissues
  obtain ⟨htype, hfrom⟩ := of_decide_eq_true hsel
  obtain ⟨hlisted, hsel'⟩ := List.mem_filter.mp hlisted
  obtain ⟨htype', hfrom'⟩ := of_decide_eq_true hsel'
  rw [hknown.entitySurvivor_eq] at hfrom
  rw [hknown.entitySurvivor_eq, hknown.entitySurvivor_eq] at hfrom'
  obtain ⟨hunmerged, hunmerged'⟩ := hplain.own issues hissues (by simp [htype]) hfrom
  obtain ⟨hown, hown'⟩ := hplain.listed issues hissues htype hfrom listed hlisted htype' hfrom'
  refine ⟨issues, hissues, htype, ?_, listed, hlisted, htype', ?_, ?_⟩
  · rw [← hfrom, hunmerged.entitySurvivor_eq]
  · rw [← hown.entitySurvivor_eq, hfrom', hunmerged'.entitySurvivor_eq]
  · rw [hknown.entitySurvivor_eq, hown'.entitySurvivor_eq]

end EntityStore

variable {text : ℕ → Option String}

theorem mem_listingsOf {candidate : RelationRow × ℕ × String} :
    candidate ∈ listingsOf store text issuer ↔ ∃ issues ∈ store.relations, issues.relationType = "issues" ∧
      issues.fromEntityId = issuer ∧ ∃ listed ∈ store.relations, listed.relationType = "listed_as" ∧
        listed.fromEntityId = issues.toEntityId ∧ ∃ shown, text listed.toEntityId = some shown ∧
          (issues, listed.toEntityId, shown) = candidate := by
  simp only [listingsOf, List.mem_flatMap, List.mem_filter, List.mem_filterMap, decide_eq_true_eq,
    Option.map_eq_some_iff, and_assoc]

variable {shown : String}

theorem issuerText_eq {rank : ℕ → ℕ → String → ℕ} {issues : RelationRow}
    (hmem : (issues, listing, shown) ∈ listingsOf store text issuer) (hfirst : rank issuer listing shown = 0)
    (honly : ∀ other otherShown, rank issuer other otherShown = 0 → other = listing) (htext : text listing = some shown) :
    issuerText db store rank text issuer = some shown := by
  rw [issuerText]
  generalize hkey : (fun candidate : RelationRow × ℕ × String =>
    toLex (rank issuer candidate.2.1 candidate.2.2, toLex (OrderDual.toDual candidate.1.transactionTime,
      toLex (db.collation candidate.2.2, OrderDual.toDual candidate.1.relationId)))) = key
  rcases hhead : (sortedBy key (listingsOf store text issuer)).head? with _ | candidate
  · rw [List.head?_eq_none_iff, ← List.length_eq_zero_iff, (perm_sortedBy _ _).length_eq, List.length_eq_zero_iff] at hhead
    rw [hhead] at hmem
    exact absurd hmem List.not_mem_nil
  · obtain ⟨hcandidate, hmin⟩ := head?_sortedBy_eq_some key hhead
    have hle := Prod.Lex.monotone_fst _ _ (hmin _ hmem)
    rw [← hkey] at hle
    have hrank : rank issuer candidate.2.1 candidate.2.2 = 0 := Nat.le_zero.mp (hfirst ▸ hle)
    have hlisting := honly _ _ hrank
    obtain ⟨_, _, _, _, listed, _, _, _, shown', hshown', rfl⟩ := mem_listingsOf.mp hcandidate
    rw [show listed.toEntityId = listing from hlisting, htext] at hshown'
    rw [Option.map_some, Option.some.inj hshown']

theorem declaredRank_eq_zero_iff {other : ℕ} :
    declaredRank store issuer other shown = 0 ↔ primaryListing store issuer = some other := by
  rw [declaredRank]
  split <;> simp_all

theorem issuerText_declared (hprimary : primaryListing store issuer = some listing)
    (hrows : ∃ issues ∈ store.relations, issues.relationType = "issues" ∧ issues.fromEntityId = issuer ∧
      ∃ listed ∈ store.relations, listed.relationType = "listed_as" ∧ listed.fromEntityId = issues.toEntityId ∧
        listed.toEntityId = listing) (htext : text listing = some shown) :
    issuerText db store (declaredRank store) text issuer = some shown := by
  obtain ⟨issues, hissues, htype, hfrom, listed, hlisted, htype', hfrom', rfl⟩ := hrows
  refine issuerText_eq (mem_listingsOf.mpr ⟨issues, hissues, htype, hfrom, listed, hlisted, htype', hfrom', shown, htext,
    rfl⟩) (declaredRank_eq_zero_iff.mpr hprimary) (fun other otherShown hrank => ?_) htext
  exact Option.some.inj ((declaredRank_eq_zero_iff.mp hrank).symm.trans hprimary)

theorem not_listing_and_issuer (db : Database) {kind : Option String} (hlisting : db.ontology.entityKindIsA kind "listing") :
    ¬ db.ontology.entityKindIsA kind "issuer" := by
  have hseeded : ∀ entry ∈ seededKinds, db.ontology.entityKindIsA (some entry.1) "listing" →
      ¬ db.ontology.entityKindIsA (some entry.1) "issuer" := by
    intro entry hentry
    simp only [seededKinds, List.mem_cons, List.not_mem_nil, or_false] at hentry
    obtain rfl | rfl | rfl | rfl | rfl | rfl | rfl | rfl | rfl | rfl | rfl := hentry
    all_goals first
      | exact fun hlisting => absurd hlisting Bool.false_ne_true
      | exact fun _ hissuer => absurd hissuer Bool.false_ne_true
  cases kind with
  | none => cases hlisting
  | some kind =>
    rcases hlookup : seededKinds.lookup kind with _ | row
    · -- a kind that is not seeded has no parent
      have hparent : db.ontology.entityKind kind = none := hlookup
      rw [Ontology.entityKindIsA, Ontology.climbsTo, hparent] at hlisting
      have hkind : kind = "listing" := by simpa [Ontology.climbsTo] using hlisting
      rw [hkind] at hlookup
      cases hlookup
    · obtain ⟨front, back, heq, -⟩ := List.lookup_eq_some_iff.mp hlookup
      exact hseeded (kind, row) (by rw [heq]; simp) hlisting

theorem mem_of_leadingAlias {entityId : ℕ} {scheme : String} {row : AliasRow}
    (h : leadingAlias db store entityId scheme = some row) :
    row ∈ store.aliases ∧ (declaredRules db store).survivor row.entityId = some entityId ∧ row.scheme = scheme := by
  obtain ⟨hmem, hsel⟩ := List.mem_filter.mp (latestBy_eq_some _ h).1
  simp only [Bool.and_eq_true, beq_iff_eq] at hsel
  exact ⟨hmem, hsel.1.2, hsel.2⟩

theorem leadingAlias_micTicker (h : store.Reachable db.ontology)
    (hissuer : db.ontology.entityKindIsA (store.kindOf issuer) "issuer") :
    leadingAlias db store issuer "mic-ticker" = none := by
  rcases hleading : leadingAlias db store issuer "mic-ticker" with _ | row
  · rfl
  · obtain ⟨hmem, hsurvivor, hscheme⟩ := mem_of_leadingAlias hleading
    obtain ⟨scheme, hregistered, hkind⟩ := h.typed.aliases row hmem
    rw [hscheme] at hregistered
    cases hregistered
    have hsurvivor' : store.entitySurvivor row.entityId ⊤ = issuer := by
      have hlookup := EntityStore.lookup_survivorMap (h.consistent.aliasEntity row hmem)
      exact Option.some.inj (hlookup.symm.trans hsurvivor)
    have hsame := h.typed.kindOf_survivor rfl rfl row.entityId
    rw [hsurvivor'] at hsame
    rw [← hsame] at hkind
    exact absurd hissuer (not_listing_and_issuer db hkind)

/-! ## The issuer and the listing -/

theorem Spelled.direct (hspelled : Spelled db store issuer listing) :
    (∃ shown, directListing lower (declaredRules db store) store listing = some shown) ∧
      ∃ shown, directTicker db (declaredRules db store) store listing = some shown := by
  obtain ⟨row, hrow, hid⟩ | ⟨hnone, hticker⟩ := hspelled.ofListing
  · have hleading : latestByScheme (declaredRules db store) store listing "legacy-id" = some row := hrow
    refine ⟨⟨row.value, ?_⟩, ?_⟩
    · rw [directListing, hleading]
      exact if_pos hid
    · rw [directTicker, hleading]
      split
      · exact ⟨_, rfl⟩
      · exact ⟨db.upper (splitPart row.value 3), by simp [hid]⟩
  · obtain ⟨row, hrow⟩ := Option.isSome_iff_exists.mp hticker
    have hleading : latestByScheme (declaredRules db store) store listing "legacy-id" = none := hnone
    have hvenue : latestByScheme (declaredRules db store) store listing "mic-ticker" = some row := hrow
    refine ⟨?_, splitPart row.value 2, ?_⟩
    · rw [directListing, hleading, hvenue]
      exact ⟨_, rfl⟩
    · rw [directTicker, hvenue]

theorem Spelled.issuer_none (hspelled : Spelled db store issuer listing)
    (hvenue : leadingAlias db store issuer "mic-ticker" = none) :
    directListing lower (declaredRules db store) store issuer = none ∧
      directTicker db (declaredRules db store) store issuer = none := by
  have hticker : latestByScheme (declaredRules db store) store issuer "mic-ticker" = none := hvenue
  rcases hlegacy : latestByScheme (declaredRules db store) store issuer "legacy-id" with _ | row
  · rw [directListing, directTicker, hticker, hlegacy]
    exact ⟨rfl, rfl⟩
  · have hid := hspelled.ofIssuer row hlegacy
    rw [directListing, directTicker, hticker, hlegacy]
    exact ⟨if_neg hid, by simp [hid]⟩

theorem mem_entityIdentity {kg : List KgEntity} {row : IdentityRow} {entityId : ℕ}
    (hunmerged : store.Unmerged entityId) (hrow : row ∈ entityIdentity db lower kg store) (hid : row.entityId = entityId) :
    row.listingId = (directListing lower (declaredRules db store) store entityId).or
        (issuerText db store (declaredRank store) (directListing lower (declaredRules db store) store) entityId) ∧
      row.currentTicker = (directTicker db (declaredRules db store) store entityId).or
        ((issuerText db store (declaredRank store) (directTicker db (declaredRules db store) store) entityId).or
          (instrumentTicker db (declaredRules db store) store entityId)) := by
  obtain ⟨entity, hentity, hrow⟩ := List.mem_flatMap.mp hrow
  obtain ⟨survivorId, hsurvivor, hrow⟩ := List.mem_flatMap.mp hrow
  obtain ⟨displayName, -, rfl⟩ := List.mem_map.mp hrow
  have hlookup := EntityStore.lookup_survivorMap (List.mem_map_of_mem hentity : entity.entityId ∈ store.ids)
  rw [Option.mem_toList] at hsurvivor
  have heq := Option.some.inj (hsurvivor.symm.trans hlookup)
  rw [show entity.entityId = entityId from hid, hunmerged.entitySurvivor_eq] at heq
  subst heq
  exact ⟨rfl, rfl⟩

theorem exists_mem_entityIdentity (kg : List KgEntity) {entityId : ℕ} (hid : entityId ∈ store.ids) :
    ∃ row ∈ entityIdentity db lower kg store, row.entityId = entityId := by
  obtain ⟨entity, hentity, rfl⟩ := List.mem_map.mp hid
  have hlookup := EntityStore.lookup_survivorMap hid
  have hne : identityRowsOf db lower (declaredRules db store) store kg entity (store.entitySurvivor entity.entityId ⊤) ≠ [] := by
    rw [identityRowsOf, ne_eq, List.map_eq_nil_iff]
    split <;> simp_all
  obtain ⟨row, hrow⟩ := List.exists_mem_of_ne_nil _ hne
  refine ⟨row, ?_, ?_⟩
  · refine List.mem_flatMap.mpr ⟨entity, hentity, List.mem_flatMap.mpr ⟨_, ?_, hrow⟩⟩
    exact Option.mem_toList.mpr hlookup
  · obtain ⟨displayName, -, rfl⟩ := List.mem_map.mp hrow
    rfl

instance (store : EntityStore) (known : PgTime) : Decidable (store.KnownBy known) :=
  inferInstanceAs (Decidable ((∀ row ∈ store.aliases, _) ∧ (∀ row ∈ store.relations, _) ∧ ∀ row ∈ store.retractions, _))

def listedDatabase : Database := sampleDatabase fun row =>
  if row.relationType = "primary_listing" then 28343309241454664086941399372829195978
  else Nat.pair row.fromEntityId row.toEntityId

def googInstrument : ℕ := sampleUuid "cusip:02079K107"

def capturedRelation (relationType : String) (fromEntity toEntity : ℕ) : Insert :=
  .relation ⟨Nat.pair fromEntity toEntity, relationType, fromEntity, toEntity, ⊥, none, midnight 1, "datahub.capture",
    "asserted"⟩ (midnight 9)

def googlListed : List Insert := googlDeclared ++ bornWith googInstrument "instrument" "cusip" "02079K107" ++
    [capturedRelation "issues" secondCikIssuer googInstrument, capturedRelation "listed_as" googInstrument googListing,
      capturedRelation "listed_as" googInstrument googlListing]

def googlMerged : List Insert := googlListed ++ bornWith cikIssuer "issuer" "cik" "0000320193" ++
    [capturedRelation "superseded_by" secondCikIssuer cikIssuer]

def googlTexts : List (String × ℕ) :=
  [("4b7e9abc-4c05-5b50-88f7-c31e8be0a2b6", googListing), ("94c36c50-7427-582f-9072-30284eb79647", googlListing)]

/-- What has to be evaluated for `NamesPrimary` of the second listing. -/
def NamesGoogl (store : EntityStore) (issuerText : String) (issuer : ℕ) : Prop :=
  store.lookupEntity .stored listedDatabase.ontology issuerText "issuer" (pgDate (utcDate thirdDay)) (pgTime thirdDay) =
      .ok (some issuer) ∧
    (∀ entry ∈ googlTexts, store.listingEntity .stored listedDatabase.ontology entry.1 (pgDate (utcDate thirdDay))
      (pgTime thirdDay) = .ok (some entry.2)) ∧
    store.relatedListings (pgTime thirdDay) issuer = googlTexts.map (·.2) ∧
    store.choosePrimaryListing .stored listedDatabase.ontology String.toLower thirdDay issuerText (googlTexts.map (·.1)) =
      .ok (some "94c36c50-7427-582f-9072-30284eb79647") ∧
    store.declared (pgTime thirdDay) issuer = some googlListing

instance (store : EntityStore) (issuerText : String) (issuer : ℕ) : Decidable (NamesGoogl store issuerText issuer) :=
  inferInstanceAs (Decidable (_ ∧ _ ∧ _ ∧ _ ∧ _))

theorem NamesGoogl.namesPrimary {issuerText : String} (h : NamesGoogl store issuerText issuer) :
    store.NamesPrimary .stored listedDatabase.ontology String.toLower thirdDay issuer googlListing := by
  obtain ⟨hissuer, htexts, hrelated, hchosen, hdeclared⟩ := h
  have hanswer := htexts ("94c36c50-7427-582f-9072-30284eb79647", googlListing) (by simp [googlTexts])
  dsimp only at hanswer
  refine ⟨issuerText, googlTexts.map (·.1), "94c36c50-7427-582f-9072-30284eb79647", ?_, ?_, ?_, ?_, ?_⟩
  · exact hissuer
  · intro entity
    rw [hrelated, List.mem_map]
    constructor
    · rintro ⟨entry, hentry, rfl⟩
      exact ⟨entry.1, List.mem_map.mpr ⟨entry, hentry, rfl⟩, htexts entry hentry⟩
    · rintro ⟨text, htext, hentity⟩
      obtain ⟨entry, hentry, rfl⟩ := List.mem_map.mp htext
      exact ⟨entry, hentry, Option.some.inj (Except.ok.inj ((htexts entry hentry).symm.trans hentity))⟩
  · exact hchosen
  · exact hanswer
  · exact hdeclared

theorem plainRows_of_no_merges (h : ∀ row ∈ store.relations, row.relationType ≠ "superseded_by") (issuer : ℕ) :
    store.PlainRows issuer := by
  have hunmerged : ∀ entityId, store.Unmerged entityId := fun entityId x ⟨row, hrow, hsup, _⟩ => h row hrow hsup.1
  exact ⟨fun _ _ _ _ => ⟨hunmerged _, hunmerged _⟩, fun _ _ _ _ _ _ _ _ => ⟨hunmerged _, hunmerged _⟩⟩

end TrueAlpha.Datahub
