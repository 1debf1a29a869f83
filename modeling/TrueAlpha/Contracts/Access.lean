import Mathlib.Data.Finset.Basic
import Mathlib.Data.String.Basic
import TrueAlpha.Contracts.Common
import TrueAlpha.Time

/-!
# Governed access

`authorize_access` of `truealpha_contracts.access`.  What a validator refuses cannot be built, and `_decision` raises where its
decision is refused.  The digest of a decision is a parameter.
-/

namespace TrueAlpha.Contracts

def requireStableAndImmutable (value fieldName : String) (mutableTokens : List String) : Except String String :=
  if ¬ isStableId value then .error (fieldName ++ " must be a stable coordinate")
  else if (versionTokens value).any (· ∈ mutableTokens) then .error (fieldName ++ " must name an immutable version")
  else .ok value

def accessMutableTokens : List String := ["latest", "current", "default", "head"]

def stableCoordinate (value fieldName : String) : Except String String :=
  requireStableAndImmutable value fieldName accessMutableTokens

/-- A text that `_stable_coordinate` accepts. -/
def IsCoordinate (value : String) : Prop := isStableId value = true ∧ (versionTokens value).any (· ∈ accessMutableTokens) = false

instance (value : String) : Decidable (IsCoordinate value) := inferInstanceAs (Decidable (_ ∧ _))

theorem stableCoordinate_eq_ok_iff {value fieldName accepted : String} :
    stableCoordinate value fieldName = .ok accepted ↔ IsCoordinate value ∧ accepted = value := by
  unfold stableCoordinate requireStableAndImmutable IsCoordinate
  by_cases hstable : isStableId value = true
  · rw [if_neg (not_not.mpr hstable)]
    by_cases hmutable : (versionTokens value).any (· ∈ accessMutableTokens) = true
    · rw [if_pos hmutable]
      simp [hmutable]
    · rw [if_neg hmutable]
      simp [hstable, hmutable, eq_comm]
  · rw [if_pos hstable]
    simp [hstable]

/-! ## Kinds -/

inductive AuthenticationMethod where
  | browserSession
  | delegatedMcp
  | delegatedMcpOauth
  | serviceIdentity
  deriving DecidableEq, Repr

def AuthenticationMethod.delegated : AuthenticationMethod → Bool
  | .delegatedMcp | .delegatedMcpOauth => true
  | _ => false

inductive PrincipalKind where
  | member
  | administrator
  | service
  deriving DecidableEq, Repr

inductive AccessAction where
  | readContent
  | readMaterializedResult
  | readAuditMetadata
  | createConversation
  | createResearchGap
  | triageResearchGap
  | submitRegisteredReplay
  | manageEntitlement
  deriving DecidableEq, Repr

def AccessAction.value : AccessAction → String
  | .readContent => "read_content"
  | .readMaterializedResult => "read_materialized_result"
  | .readAuditMetadata => "read_audit_metadata"
  | .createConversation => "create_conversation"
  | .createResearchGap => "create_research_gap"
  | .triageResearchGap => "triage_research_gap"
  | .submitRegisteredReplay => "submit_registered_replay"
  | .manageEntitlement => "manage_entitlement"

inductive AccessResourceType where
  | privateConversation
  | privateDocument
  | materializedStrategyResult
  | materializedBacktestResult
  | accessAuditMetadata
  | registeredReplayDefinition
  deriving DecidableEq, Repr

def AccessResourceType.isPrivate : AccessResourceType → Bool
  | .privateConversation | .privateDocument => true
  | _ => false

def AccessResourceType.materialized : AccessResourceType → Bool
  | .materializedStrategyResult | .materializedBacktestResult => true
  | _ => false

inductive AccessDecisionKind where
  | allow
  | deny
  deriving DecidableEq, Repr

def AccessDecisionKind.value : AccessDecisionKind → String
  | .allow => "allow"
  | .deny => "deny"

inductive AccessAuditEventKind where
  | accessAllowed
  | accessDenied
  | authenticationDenied
  deriving DecidableEq, Repr

inductive AccessDenialReason where
  | authenticationMissing
  | authenticationInvalid
  | authenticationNotYetValid
  | authenticationExpired
  | delegationRevoked
  | clientAuthorityClaimRejected
  | tenantMismatch
  | ownerDelegationRequired
  | privateContentOwnerOnly
  | publicationClassNotPermitted
  | entitlementNotPermitted
  | actionNotPermitted
  deriving DecidableEq, Repr

def AccessDenialReason.value : AccessDenialReason → String
  | .authenticationMissing => "authentication_missing"
  | .authenticationInvalid => "authentication_invalid"
  | .authenticationNotYetValid => "authentication_not_yet_valid"
  | .authenticationExpired => "authentication_expired"
  | .delegationRevoked => "delegation_revoked"
  | .clientAuthorityClaimRejected => "client_authority_claim_rejected"
  | .tenantMismatch => "tenant_mismatch"
  | .ownerDelegationRequired => "owner_delegation_required"
  | .privateContentOwnerOnly => "private_content_owner_only"
  | .publicationClassNotPermitted => "publication_class_not_permitted"
  | .entitlementNotPermitted => "entitlement_not_permitted"
  | .actionNotPermitted => "action_not_permitted"

def authenticationFailures : List String := ["authentication_invalid", "delegation_revoked", "client_authority_claim_rejected"]

def truthy (text : Option String) : Bool := text.any (· ≠ "")

structure ActiveEntitlementGrant where
  grantId : String
  entitlementId : String
  publicationPolicySetId : String
  coordinates : ∀ value ∈ [grantId, entitlementId, publicationPolicySetId], IsCoordinate value
  deriving DecidableEq

structure AccessContext where
  principalId : String
  tenantId : String
  authenticationMethod : AuthenticationMethod
  principalKind : PrincipalKind
  issuedAt : Instant
  expiresAt : Instant
  activeEntitlementGrants : List ActiveEntitlementGrant
  delegatedByServicePrincipalId : Option String
  delegationId : Option String
  ids_nonempty : principalId ≠ "" ∧ tenantId ≠ ""
  grants_sorted : (activeEntitlementGrants.map ActiveEntitlementGrant.grantId).Pairwise (· < ·)
  issuedAt_lt_expiresAt : issuedAt < expiresAt
  delegated_iff : authenticationMethod.delegated = (truthy delegationId && truthy delegatedByServicePrincipalId)

structure AccessResource where
  resourceId : String
  resourceType : AccessResourceType
  tenantId : String
  ownerPrincipalId : Option String
  publicationClassId : Option String
  contentPrivate : Bool
  ids_nonempty : resourceId ≠ "" ∧ tenantId ≠ "" ∧ ownerPrincipalId ≠ some ""
  class_coordinate : ∀ value ∈ publicationClassId, IsCoordinate value
  private_iff : resourceType.isPrivate = contentPrivate ∧ resourceType.isPrivate = ownerPrincipalId.isSome
  materialized_iff : resourceType.materialized = publicationClassId.isSome

structure PublicationRule where
  publicationClassId : String
  eligibleEntitlementIds : List String
  class_coordinate : IsCoordinate publicationClassId
  entitlements_ne_nil : eligibleEntitlementIds ≠ []
  entitlements_nodup : eligibleEntitlementIds.Nodup
  entitlements_coordinates : ∀ value ∈ eligibleEntitlementIds, IsCoordinate value

structure PublicationPolicySet where
  publicationPolicySetId : String
  rules : List PublicationRule
  administratorActions : List AccessAction
  id_coordinate : IsCoordinate publicationPolicySetId
  rules_ne_nil : rules ≠ []
  classes_nodup : (rules.map PublicationRule.publicationClassId).Nodup
  actions_nodup : administratorActions.Nodup

/-- A time-zone-aware `datetime`, with the text that `isoformat` writes in its zone. -/
structure AwareDatetime where
  instant : Instant
  isoformat : String
  deriving DecidableEq, Repr

/-! ## Decisions -/

structure AuthorizationDecision where
  decisionId : String
  decision : AccessDecisionKind
  reason : Option AccessDenialReason
  queryPermitted : Bool
  auditEvent : AccessAuditEventKind
  principalId : Option String
  tenantId : Option String
  action : AccessAction
  resourceId : String
  publicationPolicySetId : String
  entitlementGrantIds : List String
  decidedAt : AwareDatetime
  deriving DecidableEq, Repr

namespace AuthorizationDecision

def checkDecision (decision : AuthorizationDecision) : Except String AuthorizationDecision :=
  let allowed := decide (decision.decision = .allow)
  if allowed ≠ decision.queryPermitted then .error "query_permitted must match the authorization decision"
  else if allowed ≠ decision.reason.isNone then
    .error "allowed decisions have no denial reason; denied decisions require one"
  else if allowed ≠ decide (decision.auditEvent = .accessAllowed) then
    .error "audit event must match the authorization decision"
  else if ¬ allowed ∧ decision.entitlementGrantIds ≠ [] then
    .error "denied decisions must not claim entitlement grants"
  else .ok decision

def validate (decision : AuthorizationDecision) : Except String AuthorizationDecision :=
  if ¬ isContentId "access-decision" decision.decisionId then
    .error "decision_id must be a content-addressed access decision"
  else if ¬ decision.entitlementGrantIds.Nodup then .error "entitlement_grant_ids must be unique"
  else do
    let grantIds ← decision.entitlementGrantIds.mapM fun item => stableCoordinate item "grant_id"
    checkDecision { decision with entitlementGrantIds := sortedBy id grantIds }

end AuthorizationDecision

section

variable (canonicalSha256 : Json → String)

def decisionCoordinates (context : Option AccessContext) (action : AccessAction) (resource : AccessResource)
    (policy : PublicationPolicySet) (observedAt : AwareDatetime) (reason : Option AccessDenialReason)
    (usedGrants : List String) : Json :=
  .dict [("principal_id", .optional .text (context.map AccessContext.principalId)),
    ("tenant_id", .optional .text (context.map AccessContext.tenantId)), ("action", .text action.value),
    ("resource_id", .text resource.resourceId), ("publication_policy_set_id", .text policy.publicationPolicySetId),
    ("entitlement_grant_ids", dumpTexts usedGrants), ("decided_at", .text observedAt.isoformat),
    ("decision", .text (if reason.isNone then AccessDecisionKind.allow else AccessDecisionKind.deny).value),
    ("reason", .optional .text (reason.map AccessDenialReason.value))]

def draftDecision (context : Option AccessContext) (action : AccessAction) (resource : AccessResource)
    (policy : PublicationPolicySet) (observedAt : AwareDatetime) (reason : Option AccessDenialReason)
    (entitlementGrantIds : List String) (authenticationDenial : Bool) : AuthorizationDecision :=
  let allowed := reason.isNone
  let usedGrants := if allowed then sortedBy id entitlementGrantIds else []
  { decisionId := "access-decision" ++ ":" ++
      canonicalSha256 (decisionCoordinates context action resource policy observedAt reason usedGrants)
    decision := if allowed then .allow else .deny
    reason
    queryPermitted := allowed
    auditEvent :=
      if allowed then .accessAllowed else if authenticationDenial then .authenticationDenied else .accessDenied
    principalId := context.map AccessContext.principalId
    tenantId := context.map AccessContext.tenantId
    action
    resourceId := resource.resourceId
    publicationPolicySetId := policy.publicationPolicySetId
    entitlementGrantIds := usedGrants
    decidedAt := observedAt }

def makeDecision (context : Option AccessContext) (action : AccessAction) (resource : AccessResource)
    (policy : PublicationPolicySet) (observedAt : AwareDatetime) (reason : Option AccessDenialReason)
    (entitlementGrantIds : List String) (authenticationDenial : Bool) : Except String AuthorizationDecision :=
  (draftDecision canonicalSha256 context action resource policy observedAt reason entitlementGrantIds
    authenticationDenial).validate

def privateReason (context : AccessContext) (action : AccessAction) (resource : AccessResource) : Option AccessDenialReason :=
  if action ≠ .readContent then some .actionNotPermitted
  else if context.principalKind = .administrator then some .privateContentOwnerOnly
  else if context.principalKind = .service then some .ownerDelegationRequired
  else if context.tenantId ≠ resource.tenantId then some .tenantMismatch
  else if some context.principalId ≠ resource.ownerPrincipalId then some .privateContentOwnerOnly
  else none

def auditReason (context : AccessContext) (action : AccessAction) (policy : PublicationPolicySet) : Option AccessDenialReason :=
  if action ≠ .readAuditMetadata ∨ context.principalKind ≠ .administrator ∨ action ∉ policy.administratorActions then
    some .actionNotPermitted
  else none

def replayReason (context : AccessContext) (action : AccessAction) (resource : AccessResource)
    (policy : PublicationPolicySet) : Option AccessDenialReason :=
  if context.tenantId ≠ resource.tenantId then some .tenantMismatch
  else if action ≠ .submitRegisteredReplay ∨ context.principalKind ≠ .administrator ∨ action ∉ policy.administratorActions then
    some .actionNotPermitted
  else none

def PublicationPolicySet.ruleFor (policy : PublicationPolicySet) (resource : AccessResource) : Option PublicationRule :=
  policy.rules.find? fun rule => some rule.publicationClassId = resource.publicationClassId

def ActiveEntitlementGrant.eligible (grant : ActiveEntitlementGrant) (policy : PublicationPolicySet)
    (rule : PublicationRule) : Bool :=
  grant.publicationPolicySetId = policy.publicationPolicySetId ∧ grant.entitlementId ∈ rule.eligibleEntitlementIds

def AccessContext.matchingGrants (context : AccessContext) (policy : PublicationPolicySet) (rule : PublicationRule) :
    List String :=
  (context.activeEntitlementGrants.filter fun grant => grant.eligible policy rule).map ActiveEntitlementGrant.grantId

def materializedReason (context : AccessContext) (resource : AccessResource) (policy : PublicationPolicySet) :
    Option AccessDenialReason × List String :=
  match policy.ruleFor resource with
  | none => (some .publicationClassNotPermitted, [])
  | some rule =>
    if context.principalKind ≠ .administrator then
      let grants := context.matchingGrants policy rule
      if grants = [] then (some .entitlementNotPermitted, []) else (none, sortedBy id grants)
    else (none, [])

def accessReason (context : AccessContext) (action : AccessAction) (resource : AccessResource)
    (policy : PublicationPolicySet) : Option AccessDenialReason × List String :=
  if resource.contentPrivate then (privateReason context action resource, [])
  else if resource.resourceType = .accessAuditMetadata then (auditReason context action policy, [])
  else if resource.resourceType = .registeredReplayDefinition then (replayReason context action resource policy, [])
  else if action ≠ .readMaterializedResult then (some .actionNotPermitted, [])
  else materializedReason context resource policy

def authorizeAccess (context : Option AccessContext) (action : AccessAction) (resource : AccessResource)
    (policy : PublicationPolicySet) (observedAt : AwareDatetime) (authenticationFailure : Option AccessDenialReason)
    (revokedDelegationIds : Finset String) : Except String AuthorizationDecision :=
  let decide := makeDecision canonicalSha256 context action resource policy observedAt
  match authenticationFailure with
  | some failure =>
    if context.isSome then .error "an authentication failure cannot include a verified context"
    else if failure.value ∉ authenticationFailures then
      .error "authentication_failure must be an authentication denial reason"
    else decide (some failure) [] true
  | none =>
    match context with
    | none => decide (some .authenticationMissing) [] true
    | some context =>
      if observedAt.instant < context.issuedAt then decide (some .authenticationNotYetValid) [] true
      else if context.expiresAt ≤ observedAt.instant then decide (some .authenticationExpired) [] true
      else if truthy context.delegationId ∧ context.delegationId.any (· ∈ revokedDelegationIds) then
        decide (some .delegationRevoked) [] true
      else
        let (reason, usedGrants) := accessReason context action resource policy
        decide reason usedGrants false

end

end TrueAlpha.Contracts
