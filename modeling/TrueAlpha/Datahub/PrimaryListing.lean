import TrueAlpha.Datahub.LookupSpec

/-!
# The primary listing of an issuer

The embedding of `choose_primary_listings`.  A retraction removes a row whenever it became known; under `DeclaredSettled` the
answers depend only on what was known.  `NamedBy` says that a candidate names a listing.
-/

namespace TrueAlpha.Datahub

/-- An instant as a `timestamptz`. -/
def pgTime (instant : Instant) : PgTime := ((instant : WithTop Instant) : WithBot (WithTop Instant))

def pgDate (day : Date) : PgDate := ((day : WithTop Date) : WithBot (WithTop Date))

variable {candidate : String × Option ℕ}

namespace EntityStore

section Model

variable (choice : RowChoice) (ontology : Ontology) (lower : String → String) (store : EntityStore)

def Retracted (relation : RelationRow) : Prop :=
  ∃ retraction ∈ store.retractions, retraction.target = .relation relation.relationId

instance (relation : RelationRow) : Decidable (store.Retracted relation) :=
  inferInstanceAs (Decidable (∃ retraction ∈ _, _))

def declaredClaims (knownAt : PgTime) : List RelationRow :=
  sortedBy (fun relation : RelationRow => OrderDual.toDual (toLex (relation.transactionTime, relation.relationId)))
    (store.relations.filter fun relation =>
      relation.relationType = "primary_listing" ∧ relation.transactionTime ≤ knownAt ∧ ¬ store.Retracted relation)

def declared (knownAt : PgTime) (issuer : ℕ) : Option ℕ := ((store.declaredClaims knownAt).map fun relation =>
    (store.entitySurvivor relation.fromEntityId knownAt, store.entitySurvivor relation.toEntityId knownAt)).lookup issuer

def listingEntity (listing : String) (asOf : PgDate) (knownAt : PgTime) : Except StoreError (Option ℕ) :=
  if isUuid listing || "listing:".toList.isPrefixOf listing.toList then
    store.lookupEntity choice ontology listing "listing" asOf knownAt
  else .ok none

def listingNames (listing : ℕ) (knownAt : Instant) : List String :=
  let validAt := pgDate (utcDate knownAt)
  let legacy := store.aliasOf choice listing "legacy-id" validAt (pgTime knownAt)
  let micTicker := store.aliasOf choice listing "mic-ticker" validAt (pgTime knownAt)
  let spelled := match micTicker with
    | none => []
    | some name =>
      if name.toList.contains ':' then
        let mic := String.ofList (name.toList.takeWhile (· != ':'))
        let ticker := String.ofList ((name.toList.dropWhile (· != ':')).drop 1)
        [name, ticker, "listing:" ++ mic ++ ":" ++ ticker]
      else []
  ((uuidText listing :: (legacy.filter (· ≠ "")).toList) ++ spelled).map lower

def candidateKey (candidate : String × Option ℕ) : String :=
  match candidate.2 with
  | some entity => uuidText entity
  | none => lower (strip candidate.1)

def Matches (knownAt : Instant) (declaredEntity : Option ℕ) (candidate : String × Option ℕ) : Prop :=
  ∃ listing ∈ declaredEntity, candidate.2 = some listing ∨
    lower (strip candidate.1) ∈ store.listingNames choice lower listing knownAt

instance (knownAt : Instant) (declaredEntity : Option ℕ) (candidate : String × Option ℕ) :
    Decidable (store.Matches choice lower knownAt declaredEntity candidate) :=
  inferInstanceAs (Decidable (∃ listing ∈ declaredEntity, _))

/-- The loop body of `choose_primary_listings`, for an issuer with several candidates. -/
def chooseContested (knownAt : Instant) (issuer : String) (listings : List String) : Except StoreError (Option String) := do
  let asOf := pgDate (utcDate knownAt)
  let entities ← listings.mapM fun listing =>
    (store.listingEntity choice ontology listing asOf (pgTime knownAt)).map fun entity => (listing, entity)
  if (entities.map (candidateKey lower)).dedup.length = 1 then return listings.head?
  else
    let issuerEntity ← store.lookupEntity choice ontology issuer "issuer" asOf (pgTime knownAt)
    let declaredEntity := issuerEntity.bind (store.declared (pgTime knownAt))
    return (entities.find? fun candidate => store.Matches choice lower knownAt declaredEntity candidate).map (·.1)

def choosePrimaryListing (knownAt : Instant) (issuer : String) (listings : List String) : Except StoreError (Option String) :=
  let candidates := distinct listings
  if 1 < candidates.length then store.chooseContested choice ontology lower knownAt issuer candidates
  else .ok candidates.head?

/-- `choose_primary_listings`, its answers in the order of the candidates. -/
def choosePrimaryListings (candidates : Dict String (List String)) (knownAt : Instant) :
    Except StoreError (Dict String (Option String)) :=
  candidates.mapValM (store.choosePrimaryListing choice ontology lower knownAt)

end Model

variable {choice : RowChoice} {ontology : Ontology} {lower : String → String} {store store' : EntityStore}
  {knownAt : Instant} {issuer : String} {listings listings' : List String}

def DeclaredSettled (store : EntityStore) (knownAt : PgTime) : Prop :=
  ∀ relation ∈ store.relations, relation.relationType = "primary_listing" → relation.transactionTime ≤ knownAt →
    store.Retracted relation → store.Withdrawn relation knownAt

variable {known : PgTime}

theorem SameUpTo.withdrawn_iff (h : SameUpTo known store store') {relation : RelationRow} :
    store'.Withdrawn relation known ↔ store.Withdrawn relation known := by
  constructor
  · rintro ⟨retraction, hmem, htarget, htime⟩
    exact ⟨retraction, (h.mem_retractions_iff htime).mp hmem, htarget, htime⟩
  · rintro ⟨retraction, hmem, htarget, htime⟩
    exact ⟨retraction, (h.mem_retractions_iff htime).mpr hmem, htarget, htime⟩

theorem DeclaredSettled.declaredClaims_eq (hsettled : store.DeclaredSettled known) : store.declaredClaims known =
      sortedBy (fun relation : RelationRow => OrderDual.toDual (toLex (relation.transactionTime, relation.relationId)))
        (store.relations.filter fun relation => relation.relationType = "primary_listing" ∧
          relation.transactionTime ≤ known ∧ ¬ store.Withdrawn relation known) := by
  rw [declaredClaims]
  congr 1
  refine List.filter_congr fun relation hmem => decide_eq_decide.mpr ?_
  refine and_congr_right fun htype => and_congr_right fun htime => not_congr ?_
  constructor
  · exact hsettled relation hmem htype htime
  · rintro ⟨retraction, hr, htarget, _⟩
    exact ⟨retraction, hr, htarget⟩

theorem SameUpTo.declared_eq (h : SameUpTo known store store') (hsettled : store.DeclaredSettled known)
    (hsettled' : store'.DeclaredSettled known) : store'.declared known = store.declared known := by
  funext issuer
  have hsame : store'.declaredClaims known = store.declaredClaims known := by
    rw [hsettled.declaredClaims_eq, hsettled'.declaredClaims_eq]
    simp only [h.withdrawn_iff]
    congr 1
    exact filter_eq_of_known h.relations fun relation hsel => decide_eq_true (of_decide_eq_true hsel : _ ∧ _ ∧ _).2.1
  simp only [declared, hsame, h.entitySurvivor_eq]

section

variable (h : SameUpTo (pgTime knownAt) store store')

include h

theorem SameUpTo.listingNames_eq (listing : ℕ) :
    store'.listingNames choice lower listing knownAt = store.listingNames choice lower listing knownAt := by
  simp only [listingNames, h.aliasOf_eq]

theorem SameUpTo.matches_iff {declaredEntity : Option ℕ} : store'.Matches choice lower knownAt declaredEntity candidate ↔
      store.Matches choice lower knownAt declaredEntity candidate := by
  simp only [Matches, h.listingNames_eq]

theorem SameUpTo.choosePrimaryListing_eq
    (hsettled : store.DeclaredSettled (pgTime knownAt)) (hsettled' : store'.DeclaredSettled (pgTime knownAt)) :
    store'.choosePrimaryListing choice ontology lower knownAt issuer listings =
      store.choosePrimaryListing choice ontology lower knownAt issuer listings := by
  simp only [choosePrimaryListing, chooseContested, listingEntity, h.lookupEntity_eq, h.declared_eq hsettled hsettled',
    h.matches_iff]

end

/-! ## The candidates -/

theorem mem_of_choosePrimaryListing {chosen : String}
    (h : store.choosePrimaryListing choice ontology lower knownAt issuer listings = .ok (some chosen)) :
    chosen ∈ listings := by
  rw [choosePrimaryListing] at h
  split at h
  · obtain ⟨entities, hentities, h⟩ := bind_eq_ok_iff.mp h
    split at h
    · exact mem_distinct.mp (List.mem_of_head? (Except.ok.inj h))
    · obtain ⟨issuerEntity, _, h⟩ := bind_eq_ok_iff.mp h
      obtain ⟨candidate, hfind, rfl⟩ := Option.map_eq_some_iff.mp (Except.ok.inj h)
      obtain ⟨listing, hmem, hlisting⟩ := exists_of_mem_mapM hentities (List.mem_of_find?_eq_some hfind)
      obtain ⟨entity, _, rfl⟩ := map_eq_ok_iff.mp hlisting
      exact mem_distinct.mp hmem
  · exact mem_distinct.mp (List.mem_of_head? (Except.ok.inj h))

def NamedBy (choice : RowChoice) (ontology : Ontology) (lower : String → String) (store : EntityStore)
    (knownAt : Instant) (listing : ℕ) (candidate : String) : Prop :=
  store.listingEntity choice ontology candidate (pgDate (utcDate knownAt)) (pgTime knownAt) = .ok (some listing) ∨
    lower (strip candidate) ∈ store.listingNames choice lower listing knownAt

def DistinctListings (choice : RowChoice) (ontology : Ontology) (lower : String → String) (store : EntityStore)
    (knownAt : Instant) (listings : List String) : Prop :=
  ∀ a ∈ listings, ∀ b ∈ listings, a ≠ b → (∀ entity entity',
      store.listingEntity choice ontology a (pgDate (utcDate knownAt)) (pgTime knownAt) = .ok entity →
      store.listingEntity choice ontology b (pgDate (utcDate knownAt)) (pgTime knownAt) = .ok entity' →
      candidateKey lower (a, entity) ≠ candidateKey lower (b, entity')) ∧
    ∀ listing, store.NamedBy choice ontology lower knownAt listing a → ¬ store.NamedBy choice ontology lower knownAt listing b

variable {entities : List (String × Option ℕ)}

theorem mem_entities_iff {asOf : PgDate} (h : listings.mapM (fun listing =>
      (store.listingEntity choice ontology listing asOf known).map fun entity => (listing, entity)) = .ok entities) (hmem : candidate ∈ entities) :
    candidate.1 ∈ listings ∧ store.listingEntity choice ontology candidate.1 asOf known = .ok candidate.2 := by
  obtain ⟨listing, hlisting, hrun⟩ := exists_of_mem_mapM h hmem
  obtain ⟨entity, hentity, rfl⟩ := map_eq_ok_iff.mp hrun
  exact ⟨hlisting, hentity⟩

theorem length_keys_ne_one {a b : String × Option ℕ} (ha : a ∈ entities) (hb : b ∈ entities)
    (hne : candidateKey lower a ≠ candidateKey lower b) :
    (entities.map (candidateKey lower)).dedup.length ≠ 1 := by
  intro hone
  obtain ⟨key, hkey⟩ := List.length_eq_one_iff.mp hone
  have hall : ∀ candidate ∈ entities, candidateKey lower candidate = key := by
    intro candidate hmem
    have : candidateKey lower candidate ∈ (entities.map (candidateKey lower)).dedup :=
      List.mem_dedup.mpr (List.mem_map_of_mem hmem)
    rw [hkey] at this
    exact List.mem_singleton.mp this
  exact hne ((hall a ha).trans (hall b hb).symm)

theorem choosePrimaryListing_perm (hperm : listings.Perm listings')
    (hdistinct : store.DistinctListings choice ontology lower knownAt listings) {answer : Option String}
    (h : store.choosePrimaryListing choice ontology lower knownAt issuer listings = .ok answer) :
    store.choosePrimaryListing choice ontology lower knownAt issuer listings' = .ok answer := by
  have hcandidates : (distinct listings).Perm (distinct listings') := by
    refine (List.perm_ext_iff_of_nodup (nodup_distinct _) (nodup_distinct _)).mpr fun a => ?_
    rw [mem_distinct, mem_distinct, hperm.mem_iff]
  rw [choosePrimaryListing] at h ⊢
  rw [← hcandidates.length_eq]
  split at h
  · next hmany =>
    rw [if_pos hmany]
    obtain ⟨entities, hentities, h⟩ := bind_eq_ok_iff.mp h
    obtain ⟨entities', hentities', hpermuted⟩ := mapM_perm hcandidates hentities
    -- two candidates have two keys, so neither order is one listing
    have hkeys : (entities.map (candidateKey lower)).dedup.length ≠ 1 := by
      match hfirst : distinct listings, hmany, hentities with
      | a :: b :: rest, _, hentities =>
        have hnodup := hfirst ▸ nodup_distinct listings
        obtain ⟨ca, hca, hruna⟩ := mem_of_mapM hentities (a := a) List.mem_cons_self
        obtain ⟨cb, hcb, hrunb⟩ := mem_of_mapM hentities (a := b) (List.mem_cons_of_mem _ List.mem_cons_self)
        obtain ⟨entity, hentity, rfl⟩ := map_eq_ok_iff.mp hruna
        obtain ⟨entity', hentity', rfl⟩ := map_eq_ok_iff.mp hrunb
        have hmem : ∀ x ∈ a :: b :: rest, x ∈ listings := fun x hx => mem_distinct.mp (hfirst ▸ hx)
        have hne : a ≠ b := fun heq => (List.nodup_cons.mp hnodup).1 (heq ▸ List.mem_cons_self)
        refine length_keys_ne_one hca hcb ?_
        exact (hdistinct a (hmem a List.mem_cons_self) b (hmem b (List.mem_cons_of_mem _ List.mem_cons_self)) hne).1
          entity entity' hentity hentity'
    have hkeys' : (entities'.map (candidateKey lower)).dedup.length ≠ 1 := by
      rw [← (List.Perm.dedup (hpermuted.map _)).length_eq]
      exact hkeys
    rw [if_neg hkeys] at h
    obtain ⟨issuerEntity, hissuer, h⟩ := bind_eq_ok_iff.mp h
    rw [chooseContested, hentities', ok_bind, if_neg hkeys', hissuer, ok_bind]
    have hunique : ∀ a ∈ entities, ∀ b ∈ entities,
        decide (store.Matches choice lower knownAt (issuerEntity.bind (store.declared (pgTime knownAt))) a) →
        decide (store.Matches choice lower knownAt (issuerEntity.bind (store.declared (pgTime knownAt))) b) → a = b := by
      intro a ha b hb hmatch hmatch'
      obtain ⟨listing, hlisting, hnamed⟩ := of_decide_eq_true hmatch
      obtain ⟨listing', hlisting', hnamed'⟩ := of_decide_eq_true hmatch'
      cases (Option.mem_def.mp hlisting).symm.trans (Option.mem_def.mp hlisting')
      obtain ⟨hmem, hentity⟩ := mem_entities_iff hentities ha
      obtain ⟨hmem', hentity'⟩ := mem_entities_iff hentities hb
      by_contra hne
      have hne' : a.1 ≠ b.1 := by
        intro heq
        rw [heq] at hentity
        exact hne (Prod.ext heq (Except.ok.inj (hentity.symm.trans hentity')))
      refine (hdistinct a.1 (mem_distinct.mp hmem) b.1 (mem_distinct.mp hmem') hne').2 listing ?_ ?_
      · exact hnamed.imp (fun h => by rw [hentity, h]) id
      · exact hnamed'.imp (fun h => by rw [hentity', h]) id
    dsimp only
    rw [← find?_perm hpermuted hunique]
    exact h
  · next hfew =>
    rw [if_neg hfew]
    have hsame : distinct listings' = distinct listings := by
      match hfirst : distinct listings with
      | [] => exact List.nil_perm.mp (hfirst ▸ hcandidates)
      | [a] => exact (List.singleton_perm.mp (hfirst ▸ hcandidates)).symm
      | _ :: _ :: _ =>
        rw [hfirst] at hfew
        simp at hfew
    rw [hsame]
    exact h

end EntityStore

/-- Two stores with the same rows known at an instant, where no declaration in force is retracted later, give the same answers; an
answer is a candidate; the order of candidates with distinct listings does not matter. -/
theorem primary_listings_point_in_time (choice : RowChoice) (ontology : Ontology) (lower : String → String)
    (knownAt : Instant) (store store' : EntityStore) :
    (EntityStore.SameUpTo (pgTime knownAt) store store' → store.DeclaredSettled (pgTime knownAt) →
      store'.DeclaredSettled (pgTime knownAt) → ∀ candidates,
        store'.choosePrimaryListings choice ontology lower candidates knownAt =
          store.choosePrimaryListings choice ontology lower candidates knownAt) ∧
    (∀ candidates answers, store.choosePrimaryListings choice ontology lower candidates knownAt = .ok answers →
      ∀ issuer chosen, answers.get? issuer = some (some chosen) →
        ∃ listings, candidates.get? issuer = some listings ∧ chosen ∈ listings) ∧
    ∀ issuer listings listings' answer, listings.Perm listings' → store.DistinctListings choice ontology lower knownAt listings →
      store.choosePrimaryListing choice ontology lower knownAt issuer listings = .ok answer →
      store.choosePrimaryListing choice ontology lower knownAt issuer listings' = .ok answer := by
  refine ⟨fun hsame hsettled hsettled' candidates => ?_, fun candidates answers h issuer chosen hget => ?_, ?_⟩
  · have heach : store'.choosePrimaryListing choice ontology lower knownAt =
        store.choosePrimaryListing choice ontology lower knownAt := by
      funext issuer listings
      exact hsame.choosePrimaryListing_eq hsettled hsettled'
    rw [EntityStore.choosePrimaryListings, EntityStore.choosePrimaryListings, heach]
  · obtain ⟨listings, hlistings, hchosen⟩ := (Dict.get?_mapValM h).mp hget
    exact ⟨listings, hlistings, EntityStore.mem_of_choosePrimaryListing hchosen⟩
  · exact fun issuer listings listings' answer hperm hdistinct h =>
      EntityStore.choosePrimaryListing_perm hperm hdistinct h

/-! ### A later retraction -/

theorem EntityStore.sameUpTo_append_retraction (store : EntityStore) {row : RetractionRow} {known recordedAt : PgTime}
    (h : known < row.transactionTime) :
    EntityStore.SameUpTo known store (store.append (.retraction row recordedAt)) := by
  refine ⟨rfl, rfl, rfl, ?_⟩
  show (store.retractions ++ [row]).filter _ = _
  rw [List.filter_append, List.filter_cons_of_neg (by simpa using h), List.filter_nil, List.append_nil]

def googlDeclaration : RelationRow :=
  ⟨28343309241454664086941399372829195978, "primary_listing", secondCikIssuer, googlListing, ⊥, none, midnight 1,
    "datahub.capture", "asserted"⟩

def googlDatabase : Database := sampleDatabase fun _ => 28343309241454664086941399372829195978

def bornWith (entityId : ℕ) (kind scheme value : String) : List Insert :=
  [.entity ⟨entityId, kind, scheme, value, 1⟩, EntityStore.captureAlias entityId scheme value (midnight 0) (midnight 9)]

def googlDeclared : List Insert :=
  bornWith secondCikIssuer "issuer" "cik" "0001652044" ++ bornWith googListing "listing" "mic-ticker" "XNAS:GOOG" ++
    bornWith googlListing "listing" "mic-ticker" "XNAS:GOOGL" ++ [.relation googlDeclaration (midnight 9)]

def googlRetraction : RetractionRow := ⟨.relation googlDeclaration.relationId, ⊥, midnight 6⟩

def googlCandidates : Dict String (List String) := Dict.ofList [("4b3dfe29-ce65-5992-8a6a-b91f5f32a4ac",
    ["4b7e9abc-4c05-5b50-88f7-c31e8be0a2b6", "94c36c50-7427-582f-9072-30284eb79647"])]

def thirdDay : Instant := 739619 * microsPerDay

/-- A retraction that becomes known later changes the answer at an earlier instant. -/
theorem later_retraction_changes_listing :
    ¬ ∀ (choice : RowChoice) (db : Database) (lower : String → String) (rows rows' : List Insert)
      (store store' : EntityStore), rows.foldlM (EntityStore.insert db.ontology) .empty = .ok store →
      rows'.foldlM (EntityStore.insert db.ontology) .empty = .ok store' → ∀ knownAt : Instant,
        EntityStore.SameUpTo (pgTime knownAt) store store' → ∀ candidates,
          store'.choosePrimaryListings choice db.ontology lower candidates knownAt =
            store.choosePrimaryListings choice db.ontology lower candidates knownAt := by
  intro hall
  have hrun : (googlDeclared.foldlM (EntityStore.insert googlDatabase.ontology) .empty).toOption.any fun store =>
      ((store.choosePrimaryListings .stored googlDatabase.ontology String.toLower googlCandidates
          thirdDay).toOption.bind (·.get? "4b3dfe29-ce65-5992-8a6a-b91f5f32a4ac")) =
          some (some "94c36c50-7427-582f-9072-30284eb79647") ∧
        (store.admits googlDatabase.ontology (.retraction googlRetraction (midnight 9))).toOption.isSome ∧
        (((store.append (.retraction googlRetraction (midnight 9))).choosePrimaryListings .stored googlDatabase.ontology
          String.toLower googlCandidates thirdDay).toOption.bind (·.get? "4b3dfe29-ce65-5992-8a6a-b91f5f32a4ac")) =
          some none := by decide +kernel
  obtain ⟨store, hstore, hanswers⟩ := exists_ok_of_any hrun
  obtain ⟨hbefore, hadmits, hafter⟩ := of_decide_eq_true hanswers
  have hadmits' : store.admits googlDatabase.ontology (.retraction googlRetraction (midnight 9)) = .ok () := by
    rcases h : store.admits googlDatabase.ontology (.retraction googlRetraction (midnight 9)) with _ | _
    · rw [h] at hadmits
      cases hadmits
    · rfl
  have hstore' : (googlDeclared ++ [Insert.retraction googlRetraction (midnight 9)]).foldlM
      (EntityStore.insert googlDatabase.ontology) .empty =
      .ok (store.append (.retraction googlRetraction (midnight 9))) := by
    refine foldlM_append_eq_ok.mpr ⟨store, hstore, foldlM_cons_eq_ok.mpr ⟨_, ?_, rfl⟩⟩
    rw [EntityStore.insert, hadmits']
    rfl
  have hsame := hall .stored googlDatabase String.toLower _ _ _ _ hstore hstore' thirdDay
    (store.sameUpTo_append_retraction (by decide)) googlCandidates
  rw [hsame, hbefore] at hafter
  cases hafter

theorem EntityStore.declaredSettled_of_nil {store : EntityStore} {known : PgTime} (h : store.retractions = []) :
    store.DeclaredSettled known := by
  intro relation _ _ _ ⟨retraction, hmem, _⟩
  rw [h] at hmem
  cases hmem

def declaredStore : EntityStore := ⟨[], [], [googlDeclaration], []⟩

def redeclaredStore : EntityStore :=
  ⟨[], [], [googlDeclaration, { googlDeclaration with relationId := 1, transactionTime := midnight 6 }], []⟩

theorem redeclared_sameUpTo : EntityStore.SameUpTo (pgTime thirdDay) declaredStore redeclaredStore where
  entities := rfl
  aliases := rfl
  relations := by decide +kernel
  retractions := rfl

theorem redeclared_answers_agree :
    redeclaredStore.choosePrimaryListings .stored googlDatabase.ontology String.toLower googlCandidates thirdDay =
      declaredStore.choosePrimaryListings .stored googlDatabase.ontology String.toLower googlCandidates thirdDay := by
  obtain ⟨hsame, _⟩ := primary_listings_point_in_time .stored googlDatabase.ontology String.toLower thirdDay
    declaredStore redeclaredStore
  apply hsame redeclared_sameUpTo
  · exact EntityStore.declaredSettled_of_nil rfl
  · exact EntityStore.declaredSettled_of_nil rfl

end TrueAlpha.Datahub
