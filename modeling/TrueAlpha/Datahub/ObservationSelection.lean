import TrueAlpha.Datahub.ObservationReuse
import TrueAlpha.Topt.Core

/-!
# The observations that a freeze selects

`_load_observations` and `_validate_member_rows` of `materialization.py`.  What the payload models accept is a parameter: a
model keeps the identifiers of its payload.
-/

namespace TrueAlpha.Datahub

open Contracts
open Topt (MetricFreshness)

/-- `_ObservationRow`. -/
structure SelectedRow where
  obligationId : String
  listingId : String
  semanticType : SemanticType
  observation : NormalizedObservation
  freshness : MetricFreshness

namespace CaptureTables

variable (tables : CaptureTables) (ids : ContentIds) (cutoff : Instant)

/-- An observation selected for a terminal attempt; an anchor that it reuses is admitted beside its own vintages. -/
def IsSelected (obligation : CaptureObligation) (sourceRequestId : String) (attempt : FetchAttemptResult)
    (observation : NormalizedObservation) : Prop :=
  (observation.sourceVintageId.sourceRequestId = sourceRequestId ∨
      attempt.reusedSourceVintageId = some observation.sourceVintageId) ∧
    some observation.sourceVintageId = attemptVintage attempt ∧
    observation.subject = obligation.subject ∧ observation.semanticType = obligation.semanticType ∧
    ValidOn (utcDate cutoff) observation ∧ observation.knowableAt ≤ cutoff

instance (obligation : CaptureObligation) (sourceRequestId : String) (attempt : FetchAttemptResult)
    (observation : NormalizedObservation) :
    Decidable (IsSelected cutoff obligation sourceRequestId attempt observation) :=
  inferInstanceAs (Decidable (_ ∧ _))

def selected (cell : PlannedCell) : List NormalizedObservation :=
  (tables.results.filter fun terminal => terminal.1 = cell.obligation.obligationId ∧
    terminal.2.terminalState ∈ resolvedStates).flatMap fun terminal =>
  (tables.attemptResults.filter fun attempt => some attempt.attemptId = terminal.2.finalAttemptId).flatMap fun attempt =>
  (tables.boundTo cell.obligation.obligationId).filter
    (IsSelected cutoff cell.obligation cell.sourceRequestId attempt ·)

/-- `coalesce(nullif(policy.semantic_freshness_max_age->>semantic_type, '')::interval, policy.freshness_max_age)`. -/
def freshnessMaxAge (runId : String) (semanticType : SemanticType) : ℤ :=
  match tables.runPlans.find? fun row => row.runId = runId with
  | none => 0
  | some row => (row.freshnessWindows.lookup semanticType).getD row.freshnessMaxAge

def selectedRow (cell : PlannedCell) : Option SelectedRow :=
  (latestBy (fun observation => (toLex (observation.knowableAt, ids.observation observation) : ℤ ×ₗ String))
    (tables.selected cutoff cell)).map fun observation =>
    { obligationId := cell.obligation.obligationId
      listingId := cell.obligation.subject.id
      semanticType := cell.obligation.semanticType
      observation
      freshness :=
        if cutoff - observation.knowableAt ≤ tables.freshnessMaxAge cell.obligation.runId cell.obligation.semanticType then .fresh
        else .stale }

def loadObservations (cells : List PlannedCell) : Except String (List SelectedRow) :=
  let ordered := sortedBy (fun cell => (toLex (cell.obligation.subject.id, cell.obligation.semanticType.value) :
    String ×ₗ String)) cells
  let ambiguous := ordered.filter fun cell => 1 < (tables.selected cutoff cell).length
  if ambiguous = [] then .ok (ordered.filterMap (tables.selectedRow ids cutoff))
  else .error ("Production terminal source vintage does not resolve exactly one normalized observation for obligations: " ++
    ", ".intercalate (ambiguous.map fun cell => cell.obligation.obligationId))

end CaptureTables

structure PayloadIds where
  issuerId : String
  instrumentId : String
  listingId : String
  deriving DecidableEq, Repr

/-- `min_length=1` of the identifiers. -/
def PayloadIds.Named (payloadIds : PayloadIds) : Prop :=
  payloadIds.issuerId ≠ "" ∧ payloadIds.instrumentId ≠ "" ∧ payloadIds.listingId ≠ ""

def Coordinates.payloadIds (coordinates : Coordinates) : PayloadIds :=
  ⟨coordinates.issuerId, coordinates.instrumentId, coordinates.listingId⟩

/-- What the payload classes read from a payload that they accept.  Each model keeps the payload's texts, asks them to be named,
and accepts some payload of any named identifiers. -/
structure PayloadModels where
  identity : List (String × Json) → Option PayloadIds
  financial : List (String × Json) → Option PayloadIds
  price : List (String × Json) → Option PayloadIds
  identity_named : ∀ payload payloadIds, identity payload = some payloadIds → payloadIds.Named
  financial_text : ∀ payload payloadIds, financial payload = some payloadIds →
    payloadText payload "issuer_id" = some payloadIds.issuerId ∧
      payloadText payload "instrument_id" = some payloadIds.instrumentId ∧
      payloadText payload "listing_id" = some payloadIds.listingId
  price_text : ∀ payload payloadIds, price payload = some payloadIds →
    payloadText payload "listing_id" = some payloadIds.listingId
  identity_accepts : ∀ payloadIds : PayloadIds, payloadIds.Named → ∃ payload, identity payload = some payloadIds
  financial_accepts : ∀ payloadIds : PayloadIds, payloadIds.Named → ∃ payload, financial payload = some payloadIds
  price_accepts : ∀ payloadIds : PayloadIds, payloadIds.Named → ∃ payload, price payload = some payloadIds

def PayloadModels.read (models : PayloadModels) : SemanticType → List (String × Json) → Option PayloadIds
  | .listingIdentity => models.identity
  | .universeMembership => models.identity
  | .financialFact => models.financial
  | .marketPrice => models.price

abbrev MemberRows := SemanticType → Option SelectedRow

def validateMemberRows (models : PayloadModels) (listingId : String) (byType : MemberRows) :
    Except String (PayloadIds × PayloadIds × PayloadIds) :=
  match byType .listingIdentity, byType .universeMembership, byType .financialFact, byType .marketPrice with
  | some listingRow, some membershipRow, some financialRow, some priceRow =>
    match models.identity listingRow.observation.payload, models.identity membershipRow.observation.payload,
      models.financial financialRow.observation.payload, models.price priceRow.observation.payload with
    | some listing, some membership, some financial, some price =>
      if membership = listing ∧ financial = listing ∧ price.listingId = listing.listingId then
        .ok (listing, financial, price)
      else .error ("listing " ++ listingId ++ " normalized payload identities disagree")
    | _, _, _, _ => .error "validation error"
  | _, _, _, _ => .error ("listing " ++ listingId ++ " does not have the exact four TOPT semantic cells")

section Accepted

variable {models : PayloadModels} {coordinates : Coordinates} {semanticType : SemanticType}

def SelectedRow.Carries (models : PayloadModels) (coordinates : Coordinates) (semanticType : SemanticType)
    (row : SelectedRow) : Prop :=
  models.read semanticType row.observation.payload = some coordinates.payloadIds

/-- A vendor's payload is accepted, and a financial fact has the coordinates' issuer and instrument. -/
def Accepted (models : PayloadModels) (coordinates : Coordinates) (observation : NormalizedObservation) : Prop :=
  (models.read observation.semanticType observation.payload).isSome ∧ (observation.semanticType = .financialFact →
    payloadText observation.payload "issuer_id" = some coordinates.issuerId ∧
      payloadText observation.payload "instrument_id" = some coordinates.instrumentId)

theorem validateMemberRows_ok {listingId : String} {byType : MemberRows} {listing membership financial price : SelectedRow}
    {payloadIds priceIds : PayloadIds} (hlisting : byType .listingIdentity = some listing)
    (hmembership : byType .universeMembership = some membership) (hfinancial : byType .financialFact = some financial)
    (hprice : byType .marketPrice = some price) (hlistingIds : models.identity listing.observation.payload = some payloadIds)
    (hmembershipIds : models.identity membership.observation.payload = some payloadIds)
    (hfinancialIds : models.financial financial.observation.payload = some payloadIds)
    (hpriceIds : models.price price.observation.payload = some priceIds)
    (hpriceListing : priceIds.listingId = payloadIds.listingId) :
    validateMemberRows models listingId byType = .ok (payloadIds, payloadIds, priceIds) := by
  simp only [validateMemberRows, hlisting, hmembership, hfinancial, hprice, hlistingIds, hmembershipIds, hfinancialIds,
    hpriceIds, hpriceListing, and_self, if_true]

theorem of_validateMemberRows {listingId : String} {byType : MemberRows} {members : PayloadIds × PayloadIds × PayloadIds}
    (h : validateMemberRows models listingId byType = .ok members) {listing financial price : SelectedRow}
    (hlisting : byType .listingIdentity = some listing) (hfinancial : byType .financialFact = some financial)
    (hprice : byType .marketPrice = some price) {payloadIds : PayloadIds}
    (hlistingIds : models.identity listing.observation.payload = some payloadIds) :
    models.financial financial.observation.payload = some payloadIds ∧ (models.price price.observation.payload).isSome := by
  unfold validateMemberRows at h
  split at h
  · rename_i listingRow membershipRow financialRow priceRow hlisting' _ hfinancial' hprice'
    cases hlisting.symm.trans hlisting'
    cases hfinancial.symm.trans hfinancial'
    cases hprice.symm.trans hprice'
    split at h
    · rename_i listingModel membershipModel financialModel priceModel hlistingModel _ hfinancialModel hpriceModel
      split_ifs at h with hagree
      cases hlistingIds.symm.trans hlistingModel
      rw [hfinancialModel, hagree.2.1, hpriceModel]
      exact ⟨rfl, rfl⟩
    · cases h
  · cases h

def rowsAround (row : SelectedRow) (payload : SemanticType → List (String × Json)) (semanticType : SemanticType) :
    MemberRows := fun other =>
  if other = semanticType then some row
  else some { row with observation := { row.observation with payload := payload other } }

theorem validates_iff_accepted (models : PayloadModels) (listingId : String) (row : SelectedRow)
    (hvendor : row.observation.semanticType ∉ releaseSemantics)
    (hlisting : payloadText row.observation.payload "listing_id" = some coordinates.listingId) :
    (∀ byType : MemberRows, byType row.observation.semanticType = some row → (∀ other, other ≠ row.observation.semanticType →
          ∃ otherRow, byType other = some otherRow ∧ otherRow.Carries models coordinates other) →
        ∃ members, validateMemberRows models listingId byType = .ok members) ↔
      (coordinates.payloadIds.Named → Accepted models coordinates row.observation) := by
  constructor
  · intro hall hnamed
    obtain ⟨identity, hidentity⟩ := models.identity_accepts _ hnamed
    obtain ⟨financial, hfinancial⟩ := models.financial_accepts _ hnamed
    obtain ⟨price, hprice⟩ := models.price_accepts _ hnamed
    let payload : SemanticType → List (String × Json) := fun semanticType =>
      match semanticType with
      | .financialFact => financial
      | .marketPrice => price
      | .listingIdentity | .universeMembership => identity
    obtain ⟨members, hmembers⟩ := hall (rowsAround row payload row.observation.semanticType) (if_pos rfl) fun other hne =>
      ⟨_, if_neg hne, by cases other <;> assumption⟩
    cases htype : row.observation.semanticType with
    | listingIdentity | universeMembership => simp [htype, releaseSemantics] at hvendor
    | financialFact =>
      rw [htype] at hmembers
      obtain ⟨hids, -⟩ := of_validateMemberRows hmembers rfl rfl rfl hidentity
      refine ⟨?_, fun _ => ?_⟩
      · rw [htype]
        exact Option.isSome_of_eq_some hids
      · obtain ⟨hissuer, hinstrument, -⟩ := models.financial_text _ _ hids
        exact ⟨hissuer, hinstrument⟩
    | marketPrice =>
      rw [htype] at hmembers
      obtain ⟨-, hsome⟩ := of_validateMemberRows hmembers rfl rfl rfl hidentity
      refine ⟨?_, fun hfinancialType => ?_⟩
      · rw [htype]
        exact hsome
      · rw [htype] at hfinancialType
        cases hfinancialType
  · intro haccepted byType hrow hothers
    have hidentityType : ∀ semanticType ∈ releaseSemantics, semanticType ≠ row.observation.semanticType :=
      fun semanticType hmem heq => hvendor (heq ▸ hmem)
    obtain ⟨listing, hlistingRow, hlistingIds⟩ := hothers .listingIdentity (hidentityType _ (by decide))
    obtain ⟨membership, hmembershipRow, hmembershipIds⟩ := hothers .universeMembership (hidentityType _ (by decide))
    obtain ⟨hsome, htexts⟩ := haccepted (models.identity_named _ _ hlistingIds)
    obtain ⟨payloadIds, hids⟩ := Option.isSome_iff_exists.mp hsome
    cases htype : row.observation.semanticType with
    | listingIdentity | universeMembership => simp [htype, releaseSemantics] at hvendor
    | financialFact =>
      rw [htype] at hrow hids
      obtain ⟨price, hpriceRow, hpriceIds⟩ := hothers .marketPrice (by simp [htype])
      obtain ⟨hissuer, hinstrument⟩ := htexts htype
      obtain ⟨hissuer', hinstrument', hlisting'⟩ := models.financial_text _ _ hids
      have hagree : payloadIds = coordinates.payloadIds := by
        cases payloadIds
        simp_all [Coordinates.payloadIds]
      subst hagree
      exact ⟨_, validateMemberRows_ok hlistingRow hmembershipRow hrow hpriceRow hlistingIds hmembershipIds hids hpriceIds
        rfl⟩
    | marketPrice =>
      rw [htype] at hrow hids
      obtain ⟨financial, hfinancialRow, hfinancialIds⟩ := hothers .financialFact (by simp [htype])
      have hprice := (models.price_text _ _ hids).symm.trans hlisting
      exact ⟨_, validateMemberRows_ok hlistingRow hmembershipRow hfinancialRow hrow hlistingIds hmembershipIds
        hfinancialIds hids (Option.some_inj.mp hprice)⟩

end Accepted

end TrueAlpha.Datahub
