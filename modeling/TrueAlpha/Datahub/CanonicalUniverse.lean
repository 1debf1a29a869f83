import TrueAlpha.Datahub.IdentityView

/-!
# The canonical universe

`canonicalize_universe` maps each member to the issuer of its wide row, or to the reason why it has none.  An issuer is
represented by the member at its declared primary listing, or by its first (`representative`).
-/

namespace TrueAlpha.Datahub

def noCanonicalIssuerId : String := "no_canonical_issuer_id"

def notInWideRow : String := "not_in_wide_row"

def headMemberNotInUniverse : String := "head_member_not_in_universe"

def duplicateCorpusId : String := "duplicate_corpus_id"

def memberResolvesElsewhere : String := "member_resolves_elsewhere"

def isListingText (text : String) : Bool := isUuid text || "listing:".toList.isPrefixOf text.toList

structure Member where
  legacyId : String
  ticker : String
  isTicker : isListingText ticker = false

structure CanonicalIssuer where
  issuerId : String
  legacyId : String
  ticker : String
  deriving DecidableEq

structure UnmappedIssuer where
  legacyId : String
  ticker : String
  reason : String
  detail : String
  deriving DecidableEq

structure UnvisitedIssuer where
  issuerId : String
  legacyId : String
  ticker : String
  reason : String
  deriving DecidableEq

structure CanonicalUniverse where
  issuers : List CanonicalIssuer
  unmapped : List UnmappedIssuer
  unvisited : List UnvisitedIssuer
  wideRowIssuers : ℕ
  deriving DecidableEq

structure UniverseReading where
  choice : RowChoice
  ontology : Ontology
  lower : String → String
  store : EntityStore
  cutoff : Instant
  resolve : String → Except StoreError (Option ℕ)
  wideRowIds : List String

namespace UniverseReading

variable (reading : UniverseReading)

/-- The listing of an issuer that `choose_primary_listings` chooses among candidates. -/
def choosePrimary (issuerId : String) (listings : List String) : Except StoreError (Option String) :=
  reading.store.choosePrimaryListing reading.choice reading.ontology reading.lower reading.cutoff issuerId listings

def lookupIssuer (issuerId : String) (asOf : PgDate) : Except StoreError (Option ℕ) :=
  reading.store.lookupEntity reading.choice reading.ontology issuerId "issuer" asOf (pgTime reading.cutoff)

/-- The body of the loop of `canonicalize_universe`. -/
def canonicalizeMember (state : Dict String CanonicalIssuer × List UnmappedIssuer) (member : Member) :
    Except StoreError (Dict String CanonicalIssuer × List UnmappedIssuer) := do
  match ← reading.resolve member.legacyId with
  | none => return (state.1, state.2 ++ [⟨member.legacyId, member.ticker, noCanonicalIssuerId, ""⟩])
  | some entity =>
    if uuidText entity ∉ reading.wideRowIds then
      return (state.1, state.2 ++ [⟨member.legacyId, member.ticker, notInWideRow, ""⟩])
    else
      match state.1.get? (uuidText entity) with
      | none => return (state.1.set (uuidText entity) ⟨uuidText entity, member.legacyId, member.ticker⟩, state.2)
      | some current =>
        let primary ← reading.choosePrimary (uuidText entity) [current.ticker, member.ticker]
        if primary = some member.ticker ∧ member.ticker ≠ current.ticker then
          return (state.1.set (uuidText entity) ⟨uuidText entity, member.legacyId, member.ticker⟩, state.2 ++
            [⟨current.legacyId, current.ticker, duplicateCorpusId, "same issuer as " ++ member.legacyId⟩])
        else
          return (state.1, state.2 ++
            [⟨member.legacyId, member.ticker, duplicateCorpusId, "same issuer as " ++ current.legacyId⟩])

def canonicalizeUniverse (members : List Member) : Except StoreError CanonicalUniverse := do
  let (issuers, unmapped) ← members.foldlM reading.canonicalizeMember (.empty, [])
  return ⟨issuers.values, unmapped, [], 0⟩

/-! ### The members of an issuer -/

def issuerOf (member : Member) : Option String :=
  match reading.resolve member.legacyId with
  | .ok (some entity) => if uuidText entity ∈ reading.wideRowIds then some (uuidText entity) else none
  | _ => none

def primaryOf (issuerId : String) : Option ℕ :=
  match reading.lookupIssuer issuerId (pgDate (utcDate reading.cutoff)) with
  | .ok (some issuer) => reading.store.declared (pgTime reading.cutoff) issuer
  | _ => none

def CarriesPrimary (issuerId ticker : String) : Prop :=
  reading.store.Matches reading.choice reading.lower reading.cutoff (reading.primaryOf issuerId) (ticker, none)

instance (issuerId ticker : String) : Decidable (reading.CarriesPrimary issuerId ticker) :=
  inferInstanceAs (Decidable (EntityStore.Matches ..))

def membersOf (issuerId : String) (members : List Member) : List Member :=
  members.filter fun member => reading.issuerOf member = some issuerId

def representative (issuerId : String) (members : List Member) : Option Member :=
  ((reading.membersOf issuerId members).find? fun member => reading.CarriesPrimary issuerId member.ticker).or
    (reading.membersOf issuerId members).head?

end UniverseReading

/-! ### The issuers that no member joined -/

structure ClaimRow where
  scheme : String
  value : String
  entity : String
  survivor : Option String

def claimReasons (members : List UnmappedIssuer) : List ((String × String) × String) := members.flatMap fun member =>
    [(parseAlias (strip member.legacyId) "issuer", member.reason), (("legacy-id", strip member.legacyId), member.reason)]

def namedEntities (lower : String → String) (members : List UnmappedIssuer) (answer : List ClaimRow) : List (String × String) :=
  (members.filterMap fun member =>
    if isUuid (strip member.legacyId) then some (lower (strip member.legacyId), member.reason) else none) ++
  answer.flatMap fun row =>
    match (claimReasons members).lookup (row.scheme, row.value) with
    | some reason => (row.entity :: row.survivor.toList).map fun id => (id, reason)
    | none => []

def fillReason : Option String → String
  | none => headMemberNotInUniverse
  | some reason => if reason = notInWideRow then memberResolvesElsewhere else reason

def textOr (value : Option String) (default : String) : String :=
  match value with
  | some text => if text = "" then default else text
  | none => default

def CanonicalUniverse.accountForHeadMembers (joined : CanonicalUniverse) (lower : String → String)
    (wideRowIds : List String) (answer : List ClaimRow) (view : List IdentityRow) : CanonicalUniverse :=
  let missing := sortedSet (wideRowIds.filter fun id => id ∉ joined.issuers.map (·.issuerId))
  if missing = [] then { joined with wideRowIssuers := wideRowIds.length }
  else
    let named := namedEntities lower joined.unmapped answer
    let labels := Dict.ofList (view.map fun row => (uuidText row.entityId, (row.currentTicker, row.legacyId)))
    { joined with
      unvisited := missing.map fun id =>
        { issuerId := id
          legacyId := textOr ((labels.get? id).bind Prod.snd) id
          ticker := textOr ((labels.get? id).bind Prod.fst) (String.ofList (id.toList.take 8))
          reason := fillReason (named.lookup id) }
      wideRowIssuers := wideRowIds.length }

def CanonicalUniverse.ids (joined : CanonicalUniverse) : List String :=
  joined.issuers.map (·.issuerId) ++ joined.unvisited.map (·.issuerId)


variable {reading : UniverseReading} {members : List Member} {issuerId : String}

def CanonicalIssuer.named (issuer : CanonicalIssuer) : String × String := (issuer.legacyId, issuer.ticker)

def UnmappedIssuer.named (issuer : UnmappedIssuer) : String × String := (issuer.legacyId, issuer.ticker)

def Member.named (member : Member) : String × String := (member.legacyId, member.ticker)

def Member.issuer (issuerId : String) (member : Member) : CanonicalIssuer := ⟨issuerId, member.legacyId, member.ticker⟩

theorem carriesPrimary_congr {a b : String} (h : reading.lower (strip a) = reading.lower (strip b)) :
    reading.CarriesPrimary issuerId a ↔ reading.CarriesPrimary issuerId b := by
  unfold UniverseReading.CarriesPrimary EntityStore.Matches
  simp only [h]

theorem listingEntity_of_ticker {ticker : String} (h : isListingText ticker = false) (asOf : PgDate) (known : PgTime) :
    reading.store.listingEntity reading.choice reading.ontology ticker asOf known = .ok none := by
  unfold isListingText at h
  rw [EntityStore.listingEntity, h]
  rfl

theorem choosePrimary_pair {current ticker : String} (hcurrent : isListingText current = false)
    (hticker : isListingText ticker = false) {primary : Option String}
    (h : reading.choosePrimary issuerId [current, ticker] = .ok primary) :
    (primary = some ticker ∧ ticker ≠ current) ↔
      ¬reading.CarriesPrimary issuerId current ∧ reading.CarriesPrimary issuerId ticker := by
  by_cases hsame : ticker = current
  · subst hsame
    refine iff_of_false (fun h => h.2 rfl) fun h => h.1 h.2
  · have hdistinct : distinct [current, ticker] = [current, ticker] := by
      simp [distinct, hsame]
    rw [UniverseReading.choosePrimary, EntityStore.choosePrimaryListing, hdistinct, if_pos (by simp),
      EntityStore.chooseContested] at h
    simp only [List.mapM_cons, List.mapM_nil, listingEntity_of_ticker hcurrent, listingEntity_of_ticker hticker,
      Except.map, ok_bind, pure_bind, List.map_cons, List.map_nil, EntityStore.candidateKey] at h
    split at h
    · next hone =>
      -- two spellings of one ticker: the representative stays
      have hkeys : reading.lower (strip current) = reading.lower (strip ticker) := by
        by_contra hne
        rw [List.Nodup.dedup (by simpa using hne)] at hone
        cases hone
      obtain rfl := pure_eq_ok_iff.mp h
      refine iff_of_false (fun h => hsame (Option.some.inj h.1).symm) fun h => h.1 ((carriesPrimary_congr hkeys).mpr h.2)
    · obtain ⟨issuerEntity, hissuer, h⟩ := bind_eq_ok_iff.mp h
      have hprimary : reading.primaryOf issuerId = issuerEntity.bind (reading.store.declared (pgTime reading.cutoff)) := by
        rw [UniverseReading.primaryOf, UniverseReading.lookupIssuer, hissuer]
        cases issuerEntity <;> rfl
      have hmatches : ∀ text, decide (reading.store.Matches reading.choice reading.lower reading.cutoff
          (reading.primaryOf issuerId) (text, none)) = decide (reading.CarriesPrimary issuerId text) := fun _ => rfl
      obtain rfl := pure_eq_ok_iff.mp h
      rw [← hprimary, List.find?_cons, List.find?_cons, List.find?_nil, hmatches, hmatches]
      by_cases hcarries : reading.CarriesPrimary issuerId current
      · rw [decide_eq_true hcarries]
        exact iff_of_false (fun h => hsame (Option.some.inj h.1).symm) fun h => h.1 hcarries
      · rw [decide_eq_false hcarries]
        by_cases hnew : reading.CarriesPrimary issuerId ticker
        · rw [decide_eq_true hnew]
          exact iff_of_true ⟨rfl, hsame⟩ ⟨hcarries, hnew⟩
        · rw [decide_eq_false hnew]
          exact iff_of_false (fun h => by cases h.1) fun h => hnew h.2

theorem find?_or_head?_concat {α : Type*} (p : α → Bool) (l : List α) (a : α) : ((l ++ [a]).find? p).or (l ++ [a]).head? =
      match (l.find? p).or l.head? with
      | none => some a
      | some current => if ¬p current ∧ p a then some a else some current := by
  cases l with
  | nil => cases h : p a <;> simp [h]
  | cons b l =>
    rw [List.find?_append, List.cons_append, List.head?_cons, List.head?_cons]
    cases hfound : (b :: l).find? p with
    | some current =>
      have hcurrent := List.find?_some hfound
      simp [hcurrent]
    | none =>
      have hb : p b = false := by simpa using List.find?_eq_none.mp hfound b (List.mem_cons_self ..)
      cases ha : p a <;> simp [hb, ha]

variable {member : Member}

theorem representative_concat_of_ne (h : reading.issuerOf member ≠ some issuerId) :
    reading.representative issuerId (members ++ [member]) = reading.representative issuerId members := by
  unfold UniverseReading.representative UniverseReading.membersOf
  rw [List.filter_append, List.filter_cons_of_neg (by simpa using h), List.filter_nil, List.append_nil]

theorem representative_concat (h : reading.issuerOf member = some issuerId) :
    reading.representative issuerId (members ++ [member]) =
      match reading.representative issuerId members with
      | none => some member
      | some current =>
        if ¬reading.CarriesPrimary issuerId current.ticker ∧ reading.CarriesPrimary issuerId member.ticker then
          some member
        else some current := by
  unfold UniverseReading.representative UniverseReading.membersOf
  rw [List.filter_append, List.filter_cons_of_pos (by simpa using h), List.filter_nil, find?_or_head?_concat]
  generalize ((members.filter _).find? _).or _ = chosen
  cases chosen with
  | none => rfl
  | some current => exact if_congr (by simp only [decide_eq_true_eq]) rfl rfl

/-! ## The loop -/

structure Accounted (reading : UniverseReading) (members : List Member)
    (state : Dict String CanonicalIssuer × List UnmappedIssuer) : Prop where
  issuers_eq : ∀ issuerId, state.1.get? issuerId = (reading.representative issuerId members).map (Member.issuer issuerId)
  perm : (state.1.values.map CanonicalIssuer.named ++ state.2.map UnmappedIssuer.named).Perm (members.map Member.named)

theorem accounted_nil : Accounted reading [] (.empty, []) := ⟨fun _ => rfl, List.Perm.nil⟩

variable {issuer : CanonicalIssuer}

section

variable {state state' : Dict String CanonicalIssuer × List UnmappedIssuer} {member : Member} {current : CanonicalIssuer}
  {unmapped : UnmappedIssuer}

theorem representative_concat_of_issuerOf {other : String} (hissuer : reading.issuerOf member = some issuerId)
    (hne : issuerId ≠ other) :
    reading.representative other (members ++ [member]) = reading.representative other members :=
  representative_concat_of_ne fun h => hne (Option.some.inj (hissuer.symm.trans h))

section

variable (hstate : Accounted reading members state)

include hstate

theorem Accounted.dropped (hnamed : unmapped.named = member.named) (hsame : ∀ issuerId,
      reading.representative issuerId (members ++ [member]) = reading.representative issuerId members) :
    Accounted reading (members ++ [member]) (state.1, state.2 ++ [unmapped]) := by
  refine ⟨fun issuerId => ?_, ?_⟩
  · rw [hsame]
    exact hstate.issuers_eq issuerId
  · rw [List.map_append, List.map_append, ← List.append_assoc, List.map_singleton, List.map_singleton, hnamed]
    exact hstate.perm.append_right _

theorem Accounted.representative_eq
    (hcurrent : state.1.get? issuerId = some current) (hissuer : reading.issuerOf member = some issuerId) :
    ∃ before : Member, current = before.issuer issuerId ∧ reading.representative issuerId members = some before ∧
      reading.representative issuerId (members ++ [member]) =
        if ¬reading.CarriesPrimary issuerId current.ticker ∧ reading.CarriesPrimary issuerId member.ticker then
          some member
        else some before := by
  rw [hstate.issuers_eq] at hcurrent
  obtain ⟨before, hbefore, rfl⟩ := Option.map_eq_some_iff.mp hcurrent
  refine ⟨before, rfl, hbefore, ?_⟩
  rw [representative_concat hissuer, hbefore]
  rfl

section

variable (hissuer : reading.issuerOf member = some issuerId)

include hissuer

theorem Accounted.joined
    (hnew : state.1.get? issuerId = none) :
    Accounted reading (members ++ [member]) (state.1.set issuerId (member.issuer issuerId), state.2) := by
  have hnone : reading.representative issuerId members = none := by
    rw [hstate.issuers_eq] at hnew
    exact Option.map_eq_none_iff.mp hnew
  refine ⟨fun other => ?_, ?_⟩
  · rw [Dict.get?_set]
    split_ifs with heq
    · subst heq
      rw [representative_concat hissuer, hnone]
      rfl
    · rw [representative_concat_of_issuerOf hissuer heq]
      exact hstate.issuers_eq other
  · have hvalues : (state.1.set issuerId (member.issuer issuerId)).values = state.1.values ++ [member.issuer issuerId] := by
      unfold Dict.values
      rw [Dict.items_set_of_not_mem _ ((Dict.get?_eq_none_iff ..).mp hnew), List.map_append]
      rfl
    rw [hvalues, List.map_append, List.map_append, List.append_assoc]
    exact (List.perm_append_comm.append_left _).trans ((List.append_assoc .. ▸ hstate.perm.append_right _ : _))

theorem Accounted.replaced (hcurrent : state.1.get? issuerId = some current)
    (hcarries : ¬reading.CarriesPrimary issuerId current.ticker ∧ reading.CarriesPrimary issuerId member.ticker)
    (hnamed : unmapped.named = current.named) :
    Accounted reading (members ++ [member]) (state.1.set issuerId (member.issuer issuerId), state.2 ++ [unmapped]) := by
  obtain ⟨before, -, -, hnext⟩ := hstate.representative_eq hcurrent hissuer
  rw [if_pos hcarries] at hnext
  refine ⟨fun other => ?_, ?_⟩
  · rw [Dict.get?_set]
    split_ifs with heq
    · subst heq
      rw [hnext]
      rfl
    · rw [representative_concat_of_issuerOf hissuer heq]
      exact hstate.issuers_eq other
  · have hvalues := (Dict.perm_values_set hcurrent (member.issuer issuerId)).map CanonicalIssuer.named
    rw [List.map_append, List.map_append, List.map_singleton, List.map_singleton, hnamed]
    have hset : ((state.1.set issuerId (member.issuer issuerId)).values.map CanonicalIssuer.named ++
        (state.2.map UnmappedIssuer.named ++ [current.named])).Perm
        (current.named :: (state.1.set issuerId (member.issuer issuerId)).values.map CanonicalIssuer.named ++
          state.2.map UnmappedIssuer.named) := by
      rw [← List.append_assoc]
      exact List.perm_append_singleton ..
    exact hset.trans ((hvalues.append_right _).trans ((hstate.perm.cons _).trans (List.perm_append_singleton ..).symm))

theorem Accounted.kept
    (hcurrent : state.1.get? issuerId = some current)
    (hcarries : ¬(¬reading.CarriesPrimary issuerId current.ticker ∧ reading.CarriesPrimary issuerId member.ticker))
    (hnamed : unmapped.named = member.named) :
    Accounted reading (members ++ [member]) (state.1, state.2 ++ [unmapped]) := by
  refine hstate.dropped hnamed fun other => ?_
  by_cases heq : issuerId = other
  · subst heq
    obtain ⟨before, -, hbefore, hnext⟩ := hstate.representative_eq hcurrent hissuer
    rw [if_neg hcarries] at hnext
    rw [hnext, hbefore]
  · exact representative_concat_of_issuerOf hissuer heq

end

theorem Accounted.step
    (h : reading.canonicalizeMember state member = .ok state') : Accounted reading (members ++ [member]) state' := by
  obtain ⟨resolved, hresolved, h⟩ := bind_eq_ok_iff.mp h
  cases resolved with
  | none =>
    obtain rfl := pure_eq_ok_iff.mp h
    have hnone : reading.issuerOf member = none := by rw [UniverseReading.issuerOf, hresolved]
    exact hstate.dropped rfl fun issuerId => representative_concat_of_ne (by simp [hnone])
  | some entity =>
    dsimp only at h
    split at h
    · next hout =>
      obtain rfl := pure_eq_ok_iff.mp h
      have hnone : reading.issuerOf member = none := by
        rw [UniverseReading.issuerOf, hresolved]
        exact if_neg hout
      exact hstate.dropped rfl fun issuerId => representative_concat_of_ne (by simp [hnone])
    · next hin =>
      have hissuer : reading.issuerOf member = some (uuidText entity) := by
        rw [UniverseReading.issuerOf, hresolved]
        exact if_pos (not_not.mp hin)
      split at h
      · next hnew =>
        obtain rfl := pure_eq_ok_iff.mp h
        exact hstate.joined hissuer hnew
      · next current hcurrent =>
        obtain ⟨before, hbefore, -, -⟩ := hstate.representative_eq hcurrent hissuer
        obtain ⟨primary, hprimary, h⟩ := bind_eq_ok_iff.mp h
        have hchoice := choosePrimary_pair (hbefore ▸ before.isTicker) member.isTicker hprimary
        split at h
        · next hnext =>
          obtain rfl := pure_eq_ok_iff.mp h
          exact hstate.replaced hissuer hcurrent (hchoice.mp hnext) rfl
        · next hstay =>
          obtain rfl := pure_eq_ok_iff.mp h
          exact hstate.kept hissuer hcurrent (fun hcarries => hstay (hchoice.mpr hcarries)) rfl

end

theorem accounted_of_canonicalizeUniverse {joined : CanonicalUniverse} (h : reading.canonicalizeUniverse members = .ok joined) :
    ∃ state, Accounted reading members state ∧ joined = ⟨state.1.values, state.2, [], 0⟩ := by
  obtain ⟨state, hstate, h⟩ := bind_eq_ok_iff.mp h
  refine ⟨state, ?_, (pure_eq_ok_iff.mp h).symm⟩
  exact foldlM_inv (Accounted reading) hstate accounted_nil fun _ _ _ _ _ _ hdone hstep => Accounted.step hdone hstep

theorem Accounted.mem_values_iff (hstate : Accounted reading members state) :
    issuer ∈ state.1.values ↔ ∃ issuerId member, issuer = member.issuer issuerId ∧
      reading.representative issuerId members = some member := by
  constructor
  · intro hmem
    obtain ⟨issuerId, hget⟩ := Dict.exists_get?_of_mem_values hmem
    rw [hstate.issuers_eq] at hget
    obtain ⟨member, hmember, rfl⟩ := Option.map_eq_some_iff.mp hget
    exact ⟨issuerId, member, rfl, hmember⟩
  · rintro ⟨issuerId, member, rfl, hmember⟩
    have hget : state.1.get? issuerId = some (member.issuer issuerId) := by
      rw [hstate.issuers_eq, hmember]
      rfl
    exact Dict.mem_values_of_get? hget

theorem Accounted.map_issuerId (hstate : Accounted reading members state) : state.1.values.map (·.issuerId) = state.1.keys := by
  unfold Dict.values Dict.keys
  rw [List.map_map]
  refine List.map_congr_left fun item hitem => ?_
  have hget := (Dict.get?_eq_some_iff state.1 item.1 item.2).mpr hitem
  rw [hstate.issuers_eq] at hget
  obtain ⟨member, -, hmember⟩ := Option.map_eq_some_iff.mp hget
  exact (congrArg CanonicalIssuer.issuerId hmember).symm

end

theorem mem_membersOf_iff :
    member ∈ reading.membersOf issuerId members ↔ member ∈ members ∧ reading.issuerOf member = some issuerId := by
  rw [UniverseReading.membersOf, List.mem_filter, decide_eq_true_eq]

theorem mem_of_representative (h : reading.representative issuerId members = some member) :
    member ∈ members ∧ reading.issuerOf member = some issuerId := by
  rw [← mem_membersOf_iff]
  rcases Option.or_eq_some_iff.mp h with hfound | ⟨-, hhead⟩
  · exact List.mem_of_find?_eq_some hfound
  · exact List.mem_of_mem_head? hhead

theorem exists_representative (hmember : member ∈ members) (hissuer : reading.issuerOf member = some issuerId) :
    ∃ first, reading.representative issuerId members = some first := by
  have hmem := mem_membersOf_iff.mpr ⟨hmember, hissuer⟩
  rw [← Option.isSome_iff_exists, UniverseReading.representative, Option.isSome_or, Bool.or_eq_true]
  exact Or.inr (List.isSome_head?.mpr fun hnil => by rw [hnil] at hmem; cases hmem)

/-- A member that carries the primary listing represents an issuer where one does, else its first. -/
structure RepresentedIn (reading : UniverseReading) (members : List Member) (issuer : CanonicalIssuer) : Prop where
  own : ∃ member ∈ members, reading.issuerOf member = some issuer.issuerId ∧ issuer.named = member.named
  primary : ∀ member ∈ members, reading.issuerOf member = some issuer.issuerId →
    reading.CarriesPrimary issuer.issuerId member.ticker → reading.CarriesPrimary issuer.issuerId issuer.ticker
  first : (∀ member ∈ members, reading.issuerOf member = some issuer.issuerId →
    ¬reading.CarriesPrimary issuer.issuerId member.ticker) →
    ∃ member, (reading.membersOf issuer.issuerId members).head? = some member ∧ issuer.named = member.named

theorem representedIn_of_representative {first : Member} (h : reading.representative issuerId members = some first) :
    RepresentedIn reading members (first.issuer issuerId) := by
  refine ⟨⟨first, (mem_of_representative h).1, (mem_of_representative h).2, rfl⟩,
    fun member hmember hissuer hcarries => ?_, fun hnone => ⟨first, ?_, rfl⟩⟩
  · rcases Option.or_eq_some_iff.mp h with hfound | ⟨hnone, -⟩
    · have hfirst := List.find?_some hfound
      exact of_decide_eq_true hfirst
    · have hnot := List.find?_eq_none.mp hnone member (mem_membersOf_iff.mpr ⟨hmember, hissuer⟩)
      exact absurd (decide_eq_true hcarries) hnot
  · rcases Option.or_eq_some_iff.mp h with hfound | ⟨-, hhead⟩
    · obtain ⟨hmem, hissuer⟩ := mem_membersOf_iff.mp (List.mem_of_find?_eq_some hfound)
      have hfirst := List.find?_some hfound
      exact absurd (of_decide_eq_true hfirst) (hnone first hmem hissuer)
    · exact hhead

def CarriedAs (reading : UniverseReading) (members : List Member) (issuerId ticker : String) : Prop :=
  (∃ member ∈ members, reading.issuerOf member = some issuerId ∧ reading.CarriesPrimary issuerId member.ticker) ∧
    ∀ member ∈ members, reading.issuerOf member = some issuerId → reading.CarriesPrimary issuerId member.ticker →
      member.ticker = ticker

theorem RepresentedIn.ticker_eq {ticker : String} (h : RepresentedIn reading members issuer)
    (hcarried : CarriedAs reading members issuer.issuerId ticker) : issuer.ticker = ticker := by
  obtain ⟨⟨member, hmember, hissuer, hcarries⟩, hall⟩ := hcarried
  obtain ⟨own, hown, hnames, hnamed⟩ := h.own
  have hticker : issuer.ticker = own.ticker := congrArg Prod.snd hnamed
  rw [hticker]
  exact hall own hown hnames (hticker ▸ h.primary member hmember hissuer hcarries)

/-! ## The account -/

theorem accountForHeadMembers_partition {joined : CanonicalUniverse} {wideRowIds : List String} (lower : String → String)
    (answer : List ClaimRow) (view : List IdentityRow) (hnodup : (joined.issuers.map (·.issuerId)).Nodup)
    (hin : ∀ issuer ∈ joined.issuers, issuer.issuerId ∈ wideRowIds) (hnone : joined.unvisited = []) :
    (joined.accountForHeadMembers lower wideRowIds answer view).ids.Nodup ∧
      ∀ id, id ∈ (joined.accountForHeadMembers lower wideRowIds answer view).ids ↔ id ∈ wideRowIds := by
  have hids : (joined.accountForHeadMembers lower wideRowIds answer view).ids = joined.issuers.map (·.issuerId) ++
      sortedSet (wideRowIds.filter fun id => id ∉ joined.issuers.map (·.issuerId)) := by
    unfold CanonicalUniverse.accountForHeadMembers CanonicalUniverse.ids
    dsimp only
    split_ifs with hmissing
    · rw [hmissing, hnone]
      rfl
    · rw [List.map_map]
      exact congrArg _ (List.map_id _)
  rw [hids]
  constructor
  · refine List.nodup_append'.mpr ⟨hnodup, (strictSorted_sortedSet _).imp ne_of_lt, fun id hid hmissing => ?_⟩
    rw [mem_sortedSet, List.mem_filter] at hmissing
    exact of_decide_eq_true hmissing.2 hid
  · intro id
    rw [List.mem_append, mem_sortedSet, List.mem_filter, decide_eq_true_eq]
    constructor
    · rintro (hid | hid)
      · obtain ⟨issuer, hissuer, rfl⟩ := List.mem_map.mp hid
        exact hin issuer hissuer
      · exact hid.1
    · intro hid
      by_cases hjoined : id ∈ joined.issuers.map (·.issuerId)
      · exact Or.inl hjoined
      · exact Or.inr ⟨hid, hjoined⟩

theorem mem_wideRowIds_of_issuerOf (h : reading.issuerOf member = some issuerId) : issuerId ∈ reading.wideRowIds := by
  unfold UniverseReading.issuerOf at h
  split at h
  · split_ifs at h with hin
    exact Option.some.inj h ▸ hin
  · cases h

theorem representedIn_of_mem {joined : CanonicalUniverse} (h : reading.canonicalizeUniverse members = .ok joined) (hissuer : issuer ∈ joined.issuers) :
    issuer.issuerId ∈ reading.wideRowIds ∧ RepresentedIn reading members issuer := by
  obtain ⟨state, hstate, rfl⟩ := accounted_of_canonicalizeUniverse h
  obtain ⟨issuerId, member, rfl, hmember⟩ := hstate.mem_values_iff.mp hissuer
  exact ⟨mem_wideRowIds_of_issuerOf (mem_of_representative hmember).2, representedIn_of_representative hmember⟩

/-- Every member goes to one of the lists.  There is one issuer for each id of the wide row that a member names; with the
unvisited ones these are all its ids.  A permutation of the members changes no ticker where the primary listing is spelled in one
way. -/
theorem canonicalizeUniverse_accounts (reading : UniverseReading) (members : List Member) (joined : CanonicalUniverse)
    (h : reading.canonicalizeUniverse members = .ok joined) :
    (joined.issuers.map CanonicalIssuer.named ++ joined.unmapped.map UnmappedIssuer.named).Perm
      (members.map Member.named) ∧
    (joined.issuers.map (·.issuerId)).Nodup ∧
    (∀ id, id ∈ joined.issuers.map (·.issuerId) ↔ ∃ member ∈ members, reading.issuerOf member = some id) ∧
    (∀ issuer ∈ joined.issuers, issuer.issuerId ∈ reading.wideRowIds ∧ RepresentedIn reading members issuer) ∧
    (∀ members' joined', members.Perm members' → reading.canonicalizeUniverse members' = .ok joined' →
      ∀ issuer ∈ joined.issuers, ∀ issuer' ∈ joined'.issuers, issuer.issuerId = issuer'.issuerId →
        ∀ ticker, CarriedAs reading members issuer.issuerId ticker → issuer.ticker = ticker ∧ issuer'.ticker = ticker) ∧
    ∀ lower answer view, (joined.accountForHeadMembers lower reading.wideRowIds answer view).ids.Nodup ∧
      ∀ id, id ∈ (joined.accountForHeadMembers lower reading.wideRowIds answer view).ids ↔ id ∈ reading.wideRowIds := by
  obtain ⟨state, hstate, hjoined⟩ := accounted_of_canonicalizeUniverse h
  have hnodup : (joined.issuers.map (·.issuerId)).Nodup := by
    rw [hjoined]
    exact hstate.map_issuerId ▸ state.1.nodup
  refine ⟨?_, hnodup, fun id => ?_, fun issuer hissuer => representedIn_of_mem h hissuer, ?_, fun lower answer view => ?_⟩
  · rw [hjoined]
    exact hstate.perm
  · rw [hjoined]
    constructor
    · intro hid
      obtain ⟨issuer, hissuer, rfl⟩ := List.mem_map.mp hid
      obtain ⟨issuerId, member, rfl, hmember⟩ := hstate.mem_values_iff.mp hissuer
      exact ⟨member, mem_of_representative hmember⟩
    · rintro ⟨member, hmember, hissuer⟩
      obtain ⟨first, hfirst⟩ := exists_representative hmember hissuer
      exact List.mem_map.mpr ⟨first.issuer id, hstate.mem_values_iff.mpr ⟨id, first, rfl, hfirst⟩, rfl⟩
  · intro members' joined' hperm hrun issuer hissuer issuer' hissuer' hid ticker hcarried
    refine ⟨(representedIn_of_mem h hissuer).2.ticker_eq hcarried, ?_⟩
    unfold CarriedAs at hcarried
    rw [hid] at hcarried
    simp only [hperm.mem_iff] at hcarried
    exact (representedIn_of_mem hrun hissuer').2.ticker_eq hcarried
  · refine accountForHeadMembers_partition lower answer view hnodup
      (fun issuer hissuer => (representedIn_of_mem h hissuer).1) ?_
    rw [hjoined]

/-! ### Spellings of a ticker -/

def googlReading : UniverseReading where
  choice := .stored
  ontology := googlDatabase.ontology
  lower := String.toLower
  store := ((googlDeclared.foldlM (EntityStore.insert googlDatabase.ontology) .empty).toOption).getD .empty
  cutoff := thirdDay
  resolve := fun _ => .ok (some secondCikIssuer)
  wideRowIds := [uuidText secondCikIssuer]

/-- The later member carries the declared listing, so it takes the place of the first. -/
theorem googlReading_accounts :
    ∃ joined, googlReading.canonicalizeUniverse [⟨"a", "GOOG", by decide⟩, ⟨"b", "GOOGL", by decide⟩] = .ok joined ∧
      joined.issuers.map (·.ticker) = ["GOOGL"] ∧
      (joined.issuers.map CanonicalIssuer.named ++ joined.unmapped.map UnmappedIssuer.named).Perm
        [("a", "GOOG"), ("b", "GOOGL")] := by
  have hrun : (googlReading.canonicalizeUniverse
      [⟨"a", "GOOG", by decide⟩, ⟨"b", "GOOGL", by decide⟩]).toOption.any fun joined =>
        joined.issuers.map (·.ticker) = ["GOOGL"] := by decide +kernel
  obtain ⟨joined, hjoined, hticker⟩ := exists_ok_of_any hrun
  exact ⟨joined, hjoined, of_decide_eq_true hticker, (canonicalizeUniverse_accounts googlReading _ joined hjoined).1⟩

/-- Two names of the declared listing: the order of their members decides which represents. -/
theorem representing_ticker_follows_order :
    ¬∀ (reading : UniverseReading) (members members' : List Member) (joined joined' : CanonicalUniverse),
      members.Perm members' → reading.canonicalizeUniverse members = .ok joined →
      reading.canonicalizeUniverse members' = .ok joined' →
      ∀ issuer ∈ joined.issuers, ∀ issuer' ∈ joined'.issuers, issuer.issuerId = issuer'.issuerId →
        (∃ member ∈ members, reading.issuerOf member = some issuer.issuerId ∧
          reading.CarriesPrimary issuer.issuerId member.ticker) →
        issuer.ticker = issuer'.ticker := by
  intro hall
  have hrun : (googlReading.canonicalizeUniverse
      [⟨"a", "GOOGL", by decide⟩, ⟨"b", "XNAS:GOOGL", by decide⟩]).toOption.any fun joined =>
        joined.issuers = [⟨uuidText secondCikIssuer, "a", "GOOGL"⟩] := by decide +kernel
  have hrun' : (googlReading.canonicalizeUniverse
      [⟨"b", "XNAS:GOOGL", by decide⟩, ⟨"a", "GOOGL", by decide⟩]).toOption.any fun joined =>
        joined.issuers = [⟨uuidText secondCikIssuer, "b", "XNAS:GOOGL"⟩] := by decide +kernel
  have hcarries : googlReading.CarriesPrimary (uuidText secondCikIssuer) "GOOGL" := by decide +kernel
  obtain ⟨joined, hjoined, hissuers⟩ := exists_ok_of_any hrun
  obtain ⟨joined', hjoined', hissuers'⟩ := exists_ok_of_any hrun'
  have hmember : ∃ member ∈ [⟨"a", "GOOGL", by decide⟩, (⟨"b", "XNAS:GOOGL", by decide⟩ : Member)],
      googlReading.issuerOf member = some (uuidText secondCikIssuer) ∧
        googlReading.CarriesPrimary (uuidText secondCikIssuer) member.ticker :=
    ⟨⟨"a", "GOOGL", by decide⟩, List.mem_cons_self .., by simp [UniverseReading.issuerOf, googlReading], hcarries⟩
  have hsame := hall googlReading _ _ joined joined' (List.Perm.swap ..) hjoined hjoined'
    ⟨uuidText secondCikIssuer, "a", "GOOGL"⟩ (of_decide_eq_true hissuers ▸ List.mem_singleton_self _)
    ⟨uuidText secondCikIssuer, "b", "XNAS:GOOGL"⟩ (of_decide_eq_true hissuers' ▸ List.mem_singleton_self _) rfl hmember
  exact absurd hsame (by decide)

end TrueAlpha.Datahub
