import TrueAlpha.Contracts.Access
import TrueAlpha.Lib.Run

/-!
# What governed access allows

A verified context is allowed exactly where its times, its delegation and the rule of the resource say so
(`authorizeAccess_allows_iff`).  More grants never take an allowed decision back (`access_within_rule`).
-/

namespace TrueAlpha.Contracts

def AuthorizationDecision.Valid (decision : AuthorizationDecision) : Prop := decision.validate = .ok decision

instance (decision : AuthorizationDecision) : Decidable decision.Valid := inferInstanceAs (Decidable (_ = _))

theorem sortedBy_sortedBy {l : List String} (h : l.Nodup) : sortedBy id (sortedBy id l) = sortedBy id l :=
  sortedBy_eq_of_perm id (perm_sortedBy id l) (by rw [List.map_id]; exact (perm_sortedBy id l).nodup_iff.mpr h)

theorem mapM_stableCoordinate {values : List String} (h : ∀ value ∈ values, IsCoordinate value) :
    values.mapM (fun item => stableCoordinate item "grant_id") = .ok values := by
  rw [mapM_congr_mem fun value hvalue => stableCoordinate_eq_ok_iff.mpr ⟨h value hvalue, rfl⟩, mapM_ok]
  simp

theorem AuthorizationDecision.valid_of {decision : AuthorizationDecision}
    (hid : isContentId "access-decision" decision.decisionId = true) (hnodup : decision.entitlementGrantIds.Nodup)
    (hcoordinates : ∀ value ∈ decision.entitlementGrantIds, IsCoordinate value)
    (hsorted : sortedBy id decision.entitlementGrantIds = decision.entitlementGrantIds)
    (hconsistent : decision.checkDecision = .ok decision) : decision.Valid := by
  rw [Valid, validate, if_neg (not_not.mpr hid), if_neg (not_not.mpr hnodup), mapM_stableCoordinate hcoordinates,
    ok_bind, hsorted]
  exact hconsistent

section

variable {canonicalSha256 : Json → String} {context : Option AccessContext} {action : AccessAction}
  {resource : AccessResource} {policy : PublicationPolicySet} {observedAt : AwareDatetime}
  {reason : Option AccessDenialReason} {grants : List String} {authenticationDenial : Bool}

theorem draftDecision_valid (hdigest : ∀ content, isSha256 (canonicalSha256 content) = true) (hnodup : grants.Nodup)
    (hcoordinates : ∀ value ∈ grants, IsCoordinate value) :
    (draftDecision canonicalSha256 context action resource policy observedAt reason grants authenticationDenial).Valid := by
  cases reason with
  | none =>
    refine AuthorizationDecision.valid_of (isContentId_append (hdigest _)) ?_ ?_ ?_ rfl
    · exact (perm_sortedBy id grants).nodup_iff.mpr hnodup
    · exact fun value hvalue => hcoordinates value ((mem_sortedBy id).mp hvalue)
    · exact sortedBy_sortedBy hnodup
  | some reason =>
    refine AuthorizationDecision.valid_of (isContentId_append (hdigest _)) List.nodup_nil ?_ rfl ?_
    · intro value hvalue
      cases hvalue
    · cases authenticationDenial <;> rfl

end

section

variable {context : AccessContext} {action : AccessAction} {resource : AccessResource} {policy : PublicationPolicySet}
  {rule : PublicationRule}

theorem mem_matchingGrants_iff {grantId : String} : grantId ∈ context.matchingGrants policy rule ↔
    ∃ grant ∈ context.activeEntitlementGrants, grant.grantId = grantId ∧
      grant.publicationPolicySetId = policy.publicationPolicySetId ∧ grant.entitlementId ∈ rule.eligibleEntitlementIds := by
  simp only [AccessContext.matchingGrants, ActiveEntitlementGrant.eligible, List.mem_map, List.mem_filter, decide_eq_true_eq]
  constructor
  · rintro ⟨grant, ⟨hmem, helig⟩, rfl⟩
    exact ⟨grant, hmem, rfl, helig⟩
  · rintro ⟨grant, hmem, rfl, helig⟩
    exact ⟨grant, ⟨hmem, helig⟩, rfl⟩

theorem nodup_matchingGrants : (context.matchingGrants policy rule).Nodup := by
  have hsub : (context.matchingGrants policy rule).Sublist
      (context.activeEntitlementGrants.map ActiveEntitlementGrant.grantId) := List.filter_sublist.map _
  exact (context.grants_sorted.imp ne_of_lt).sublist hsub

theorem coordinate_of_mem_matchingGrants {value : String} (h : value ∈ context.matchingGrants policy rule) :
    IsCoordinate value := by
  obtain ⟨grant, -, rfl, -⟩ := mem_matchingGrants_iff.mp h
  exact grant.coordinates _ List.mem_cons_self

theorem accessReason_grants (context : AccessContext) (action : AccessAction) (resource : AccessResource)
    (policy : PublicationPolicySet) : (accessReason context action resource policy).2 = [] ∨
    ∃ rule, (accessReason context action resource policy).2 = sortedBy id (context.matchingGrants policy rule) := by
  unfold accessReason
  split_ifs
  · exact Or.inl rfl
  · exact Or.inl rfl
  · exact Or.inl rfl
  · exact Or.inl rfl
  · unfold materializedReason
    split
    · exact Or.inl rfl
    · next rule hrule =>
      dsimp only
      split_ifs
      · exact Or.inl rfl
      · exact Or.inr ⟨rule, rfl⟩
      · exact Or.inl rfl

theorem accessReason_valid : (accessReason context action resource policy).2.Nodup ∧
    (∀ value ∈ (accessReason context action resource policy).2, IsCoordinate value) ∧
    sortedBy id (accessReason context action resource policy).2 = (accessReason context action resource policy).2 := by
  rcases accessReason_grants context action resource policy with hnone | ⟨rule, hrule⟩
  · rw [hnone]
    exact ⟨List.nodup_nil, fun value hvalue => (List.not_mem_nil hvalue).elim, rfl⟩
  · rw [hrule]
    exact ⟨(perm_sortedBy id _).nodup_iff.mpr nodup_matchingGrants,
      fun value hvalue => coordinate_of_mem_matchingGrants ((mem_sortedBy id).mp hvalue),
      sortedBy_sortedBy nodup_matchingGrants⟩

end

/-! ## When access is allowed -/

section

variable {canonicalSha256 : Json → String} {context : Option AccessContext} {action : AccessAction}
  {resource : AccessResource} {policy : PublicationPolicySet} {observedAt : AwareDatetime}
  {authenticationFailure : Option AccessDenialReason} {revoked : Finset String} {decision : AuthorizationDecision}

structure AccessContext.Current (context : AccessContext) (observedAt : AwareDatetime) (revoked : Finset String) :
    Prop where
  issued : context.issuedAt ≤ observedAt.instant
  unexpired : observedAt.instant < context.expiresAt
  unrevoked : ∀ id ∈ context.delegationId, id ≠ "" → id ∉ revoked

instance (context : AccessContext) : Decidable (context.Current observedAt revoked) :=
  decidable_of_iff (context.issuedAt ≤ observedAt.instant ∧ observedAt.instant < context.expiresAt ∧
      ∀ id ∈ context.delegationId, id ≠ "" → id ∉ revoked)
    ⟨fun ⟨h, h', h''⟩ => ⟨h, h', h''⟩, fun h => ⟨h.issued, h.unexpired, h.unrevoked⟩⟩

theorem unrevoked_iff {delegationId : Option String} :
    ¬ (truthy delegationId ∧ delegationId.any (· ∈ revoked)) ↔ ∀ id ∈ delegationId, id ≠ "" → id ∉ revoked := by
  cases delegationId with
  | none => simp [truthy]
  | some id => simp [truthy]

def accessOutcome (context : Option AccessContext) (action : AccessAction) (resource : AccessResource)
    (policy : PublicationPolicySet) (observedAt : AwareDatetime) (authenticationFailure : Option AccessDenialReason)
    (revoked : Finset String) : Option AccessDenialReason × List String × Bool :=
  match authenticationFailure, context with
  | some failure, _ => (some failure, [], true)
  | none, none => (some .authenticationMissing, [], true)
  | none, some context =>
    if observedAt.instant < context.issuedAt then (some .authenticationNotYetValid, [], true)
    else if context.expiresAt ≤ observedAt.instant then (some .authenticationExpired, [], true)
    else if truthy context.delegationId ∧ context.delegationId.any (· ∈ revoked) then
      (some .delegationRevoked, [], true)
    else
      let (reason, usedGrants) := accessReason context action resource policy
      (reason, usedGrants, false)

def AcceptedCall (context : Option AccessContext) (authenticationFailure : Option AccessDenialReason) : Prop :=
  ∀ failure ∈ authenticationFailure, context = none ∧ failure.value ∈ authenticationFailures

theorem accessOutcome_grants : (accessOutcome context action resource policy observedAt authenticationFailure
      revoked).2.1.Nodup ∧
    ∀ value ∈ (accessOutcome context action resource policy observedAt authenticationFailure revoked).2.1,
      IsCoordinate value := by
  unfold accessOutcome
  split
  · simp
  · simp
  · next context =>
    split_ifs
    · simp
    · simp
    · simp
    · exact ⟨accessReason_valid.1, accessReason_valid.2.1⟩

def accessDecisionOf (canonicalSha256 : Json → String) (context : Option AccessContext) (action : AccessAction)
    (resource : AccessResource) (policy : PublicationPolicySet) (observedAt : AwareDatetime)
    (outcome : Option AccessDenialReason × List String × Bool) : AuthorizationDecision :=
  draftDecision canonicalSha256 context action resource policy observedAt outcome.1 outcome.2.1 outcome.2.2

theorem authorizeAccess_eq (hdigest : ∀ content, isSha256 (canonicalSha256 content) = true)
    (hcall : AcceptedCall context authenticationFailure) (action : AccessAction) (resource : AccessResource)
    (policy : PublicationPolicySet) (observedAt : AwareDatetime) (revoked : Finset String) :
    authorizeAccess canonicalSha256 context action resource policy observedAt authenticationFailure revoked =
      .ok (accessDecisionOf canonicalSha256 context action resource policy observedAt
        (accessOutcome context action resource policy observedAt authenticationFailure revoked)) := by
  have hvalid : ∀ (context : Option AccessContext) (reason : Option AccessDenialReason) (grants : List String)
      (denial : Bool), grants.Nodup → (∀ value ∈ grants, IsCoordinate value) →
        makeDecision canonicalSha256 context action resource policy observedAt reason grants denial =
          .ok (draftDecision canonicalSha256 context action resource policy observedAt reason grants denial) :=
    fun _ _ _ _ hnodup hcoordinates => draftDecision_valid hdigest hnodup hcoordinates
  have hempty : ∀ value ∈ ([] : List String), IsCoordinate value := fun value hvalue => (List.not_mem_nil hvalue).elim
  cases authenticationFailure with
  | some failure =>
    obtain ⟨rfl, hfailure⟩ := hcall failure rfl
    rw [authorizeAccess, if_neg (by simp), if_neg (not_not.mpr hfailure)]
    exact hvalid none (some failure) [] true List.nodup_nil hempty
  | none =>
    cases context with
    | none => exact hvalid none (some .authenticationMissing) [] true List.nodup_nil hempty
    | some context =>
      simp only [authorizeAccess, accessOutcome]
      split_ifs
      · exact hvalid (some context) (some .authenticationNotYetValid) [] true List.nodup_nil hempty
      · exact hvalid (some context) (some .authenticationExpired) [] true List.nodup_nil hempty
      · exact hvalid (some context) (some .delegationRevoked) [] true List.nodup_nil hempty
      · exact hvalid (some context) _ _ false accessReason_valid.1 accessReason_valid.2.1

theorem acceptedCall_of_eq_ok
    (h : authorizeAccess canonicalSha256 context action resource policy observedAt authenticationFailure revoked =
      .ok decision) : AcceptedCall context authenticationFailure := by
  rintro failure rfl
  unfold authorizeAccess at h
  dsimp only at h
  split_ifs at h with hcontext hfailure
  · exact ⟨by simpa using hcontext, hfailure⟩

theorem decision_accessDecisionOf (outcome : Option AccessDenialReason × List String × Bool) :
    (accessDecisionOf canonicalSha256 context action resource policy observedAt outcome).decision = .allow ↔
      outcome.1 = none := by
  obtain ⟨_ | reason, rest⟩ := outcome <;> simp [accessDecisionOf, draftDecision]

theorem accessOutcome_fst_eq_none_iff :
    (accessOutcome context action resource policy observedAt authenticationFailure revoked).1 = none ↔
      authenticationFailure = none ∧ ∃ verified, context = some verified ∧ verified.Current observedAt revoked ∧
        (accessReason verified action resource policy).1 = none := by
  cases authenticationFailure with
  | some failure => simp [accessOutcome]
  | none =>
    cases context with
    | none => simp [accessOutcome]
    | some verified =>
      simp only [accessOutcome, Option.some.injEq, exists_eq_left', true_and]
      split_ifs with hissued hexpired hrevoked
      · simp only [false_iff]
        exact fun h => absurd h.1.issued (not_le.mpr hissued)
      · simp only [false_iff]
        exact fun h => absurd h.1.unexpired (not_lt.mpr hexpired)
      · simp only [false_iff]
        exact fun h => unrevoked_iff.mpr h.1.unrevoked hrevoked
      · exact ⟨fun h => ⟨⟨not_lt.mp hissued, not_le.mp hexpired, unrevoked_iff.mp hrevoked⟩, h⟩, fun h => h.2⟩

section

variable (hdigest : ∀ content, isSha256 (canonicalSha256 content) = true)

include hdigest

theorem authorizeAccess_allows_iff
    (h : authorizeAccess canonicalSha256 context action resource policy observedAt authenticationFailure revoked = .ok decision) :
    decision.decision = .allow ↔ authenticationFailure = none ∧ ∃ verified, context = some verified ∧
      verified.Current observedAt revoked ∧ (accessReason verified action resource policy).1 = none := by
  rw [authorizeAccess_eq hdigest (acceptedCall_of_eq_ok h)] at h
  cases h
  exact (decision_accessDecisionOf _).trans accessOutcome_fst_eq_none_iff

theorem valid_of_eq_ok
    (h : authorizeAccess canonicalSha256 context action resource policy observedAt authenticationFailure revoked =
      .ok decision) : decision.Valid := by
  rw [authorizeAccess_eq hdigest (acceptedCall_of_eq_ok h)] at h
  cases h
  exact draftDecision_valid hdigest accessOutcome_grants.1 accessOutcome_grants.2

theorem grants_of_allow {verified : AccessContext}
    (h : authorizeAccess canonicalSha256 (some verified) action resource policy observedAt none revoked = .ok decision)
    (hcurrent : verified.Current observedAt revoked) (hreason : (accessReason verified action resource policy).1 = none) :
    decision.entitlementGrantIds = (accessReason verified action resource policy).2 := by
  rw [authorizeAccess_eq hdigest (acceptedCall_of_eq_ok h)] at h
  cases h
  have houtcome : accessOutcome (some verified) action resource policy observedAt none revoked =
      (none, (accessReason verified action resource policy).2, false) := by
    simp only [accessOutcome]
    rw [if_neg (not_lt.mpr hcurrent.issued), if_neg (not_le.mpr hcurrent.unexpired),
      if_neg (unrevoked_iff.mpr hcurrent.unrevoked), hreason]
  rw [houtcome]
  exact accessReason_valid.2.2

end

end

variable {rule : PublicationRule}

section

variable {context : AccessContext} {action : AccessAction} {resource : AccessResource} {policy : PublicationPolicySet}

theorem privateReason_eq_none_iff : privateReason context action resource = none ↔
    action = .readContent ∧ context.principalKind ≠ .administrator ∧ context.principalKind ≠ .service ∧
      context.tenantId = resource.tenantId ∧ resource.ownerPrincipalId = some context.principalId := by
  unfold privateReason
  split_ifs <;> simp_all [eq_comm]

theorem materializedReason_fst_eq_none_iff : (materializedReason context resource policy).1 = none ↔
    ∃ rule, policy.ruleFor resource = some rule ∧
      (context.principalKind = .administrator ∨ context.matchingGrants policy rule ≠ []) := by
  unfold materializedReason
  split
  · next hrule => simp [hrule]
  · next rule hrule =>
    dsimp only
    split_ifs with hkind hgrants
    · simp [hrule, hkind, hgrants]
    · simp [hrule, hgrants]
    · simp [hrule, not_not.mp hkind]

theorem materializedReason_snd (hrule : policy.ruleFor resource = some rule) : (materializedReason context resource policy).2 =
      if context.principalKind = .administrator then [] else sortedBy id (context.matchingGrants policy rule) := by
  unfold materializedReason
  rw [hrule]
  dsimp only
  by_cases hkind : context.principalKind = .administrator
  · rw [if_neg (not_not.mpr hkind), if_pos hkind]
  · rw [if_pos hkind, if_neg hkind]
    by_cases hgrants : context.matchingGrants policy rule = []
    · rw [if_pos hgrants, hgrants]
      rfl
    · rw [if_neg hgrants]

theorem ruleFor_eq_some (h : policy.ruleFor resource = some rule) :
    rule ∈ policy.rules ∧ resource.publicationClassId = some rule.publicationClassId :=
  ⟨List.mem_of_find?_eq_some h, (by simpa using List.find?_some h : some rule.publicationClassId = _).symm⟩

theorem accessReason_private (h : resource.contentPrivate = true) :
    accessReason context action resource policy = (privateReason context action resource, []) :=
  if_pos h

theorem not_private_of_materialized (h : resource.resourceType.materialized = true) :
    resource.contentPrivate = false ∧ resource.resourceType ≠ .accessAuditMetadata ∧
      resource.resourceType ≠ .registeredReplayDefinition := by
  have hprivate := resource.private_iff.1
  cases hkind : resource.resourceType <;> rw [hkind] at h hprivate <;>
    simp_all [AccessResourceType.materialized, AccessResourceType.isPrivate]

theorem accessReason_materialized (h : resource.resourceType.materialized = true)
    (hnone : (accessReason context action resource policy).1 = none) :
    accessReason context action resource policy = materializedReason context resource policy := by
  obtain ⟨hprivate, haudit, hreplay⟩ := not_private_of_materialized h
  unfold accessReason at hnone ⊢
  rw [if_neg (by simp [hprivate]), if_neg haudit, if_neg hreplay] at hnone ⊢
  split_ifs at hnone ⊢
  rfl

end

structure AccessContext.Widens (context wider : AccessContext) : Prop where
  principalId : wider.principalId = context.principalId
  tenantId : wider.tenantId = context.tenantId
  authenticationMethod : wider.authenticationMethod = context.authenticationMethod
  principalKind : wider.principalKind = context.principalKind
  issuedAt : wider.issuedAt = context.issuedAt
  expiresAt : wider.expiresAt = context.expiresAt
  delegatedBy : wider.delegatedByServicePrincipalId = context.delegatedByServicePrincipalId
  delegationId : wider.delegationId = context.delegationId
  grants : ∀ grant ∈ context.activeEntitlementGrants, grant ∈ wider.activeEntitlementGrants

section

variable {context wider : AccessContext} {action : AccessAction} {resource : AccessResource}
  {policy : PublicationPolicySet} {observedAt : AwareDatetime} {revoked : Finset String}

theorem AccessContext.Widens.current (h : context.Widens wider) (hcurrent : context.Current observedAt revoked) :
    wider.Current observedAt revoked where
  issued := h.issuedAt ▸ hcurrent.issued
  unexpired := h.expiresAt ▸ hcurrent.unexpired
  unrevoked := h.delegationId ▸ hcurrent.unrevoked

theorem AccessContext.Widens.matchingGrants_ne_nil (h : context.Widens wider)
    (hne : context.matchingGrants policy rule ≠ []) : wider.matchingGrants policy rule ≠ [] := by
  obtain ⟨grantId, hmem⟩ := List.exists_mem_of_ne_nil _ hne
  obtain ⟨grant, hgrant, hid, helig⟩ := mem_matchingGrants_iff.mp hmem
  exact List.ne_nil_of_mem (mem_matchingGrants_iff.mpr ⟨grant, h.grants grant hgrant, hid, helig⟩)

theorem AccessContext.Widens.accessReason (h : context.Widens wider)
    (hnone : (accessReason context action resource policy).1 = none) :
    (Contracts.accessReason wider action resource policy).1 = none := by
  have hprivate : privateReason wider action resource = privateReason context action resource := by
    simp only [privateReason, h.principalKind, h.tenantId, h.principalId]
  have haudit : auditReason wider action policy = auditReason context action policy := by
    simp only [auditReason, h.principalKind]
  have hreplay : replayReason wider action resource policy = replayReason context action resource policy := by
    simp only [replayReason, h.principalKind, h.tenantId]
  unfold Contracts.accessReason at hnone ⊢
  rw [hprivate, haudit, hreplay]
  split_ifs at hnone ⊢
  · exact hnone
  · exact hnone
  · exact hnone
  · obtain ⟨rule, hrule, hallowed⟩ := materializedReason_fst_eq_none_iff.mp hnone
    refine materializedReason_fst_eq_none_iff.mpr ⟨rule, hrule, ?_⟩
    rw [h.principalKind]
    exact hallowed.imp_right h.matchingGrants_ne_nil

end

/-! ## The rule of access -/

structure AllowedBy (context : AccessContext) (action : AccessAction) (resource : AccessResource)
    (policy : PublicationPolicySet) (observedAt : AwareDatetime) (revoked : Finset String)
    (decision : AuthorizationDecision) : Prop where
  issued : context.issuedAt ≤ observedAt.instant
  unexpired : observedAt.instant < context.expiresAt
  unrevoked : ∀ id ∈ context.delegationId, id ≠ "" → id ∉ revoked
  delegation : context.authenticationMethod.delegated = true → ∃ id ∈ context.delegationId, id ≠ "" ∧ id ∉ revoked
  private_owner : resource.contentPrivate = true → action = .readContent ∧
    resource.ownerPrincipalId = some context.principalId ∧ context.tenantId = resource.tenantId ∧
      context.principalKind ≠ .administrator ∧ context.principalKind ≠ .service
  materialized_rule : resource.resourceType.materialized = true → ∃ rule ∈ policy.rules,
    resource.publicationClassId = some rule.publicationClassId ∧
      (context.principalKind = .administrator ∧ decision.entitlementGrantIds = [] ∨
        context.principalKind ≠ .administrator ∧ decision.entitlementGrantIds ≠ [] ∧
          ∀ grantId, grantId ∈ decision.entitlementGrantIds ↔ ∃ grant ∈ context.activeEntitlementGrants, grant.grantId = grantId ∧
              grant.publicationPolicySetId = policy.publicationPolicySetId ∧ grant.entitlementId ∈ rule.eligibleEntitlementIds)

section

variable {canonicalSha256 : Json → String} {context : AccessContext} {action : AccessAction} {resource : AccessResource}
  {policy : PublicationPolicySet} {observedAt : AwareDatetime} {revoked : Finset String}
  {decision : AuthorizationDecision}

theorem AccessContext.Current.delegation (h : context.Current observedAt revoked)
    (hdelegated : context.authenticationMethod.delegated = true) :
    ∃ id ∈ context.delegationId, id ≠ "" ∧ id ∉ revoked := by
  have htruthy := context.delegated_iff
  rw [hdelegated, eq_comm, Bool.and_eq_true] at htruthy
  cases hid : context.delegationId with
  | none =>
    rw [hid] at htruthy
    cases htruthy.1
  | some id =>
    have hne : id ≠ "" := by simpa [hid, truthy] using htruthy.1
    exact ⟨id, rfl, hne, h.unrevoked id hid hne⟩

theorem allowedBy_of_reason (hcurrent : context.Current observedAt revoked)
    (hreason : (accessReason context action resource policy).1 = none)
    (hgrants : decision.entitlementGrantIds = (accessReason context action resource policy).2) :
    AllowedBy context action resource policy observedAt revoked decision where
  issued := hcurrent.issued
  unexpired := hcurrent.unexpired
  unrevoked := hcurrent.unrevoked
  delegation := hcurrent.delegation
  private_owner hprivate := by
    rw [accessReason_private hprivate] at hreason
    obtain ⟨haction, hadmin, hservice, htenant, howner⟩ := privateReason_eq_none_iff.mp hreason
    exact ⟨haction, howner, htenant, hadmin, hservice⟩
  materialized_rule hmaterialized := by
    have hsame := accessReason_materialized hmaterialized hreason
    rw [hsame] at hreason hgrants
    obtain ⟨rule, hrule, hallowed⟩ := materializedReason_fst_eq_none_iff.mp hreason
    obtain ⟨hmem, hclass⟩ := ruleFor_eq_some hrule
    refine ⟨rule, hmem, hclass, ?_⟩
    rw [materializedReason_snd hrule] at hgrants
    by_cases hkind : context.principalKind = .administrator
    · rw [if_pos hkind] at hgrants
      exact Or.inl ⟨hkind, hgrants⟩
    · rw [if_neg hkind] at hgrants
      obtain ⟨grantId, hgrant⟩ := List.exists_mem_of_ne_nil _ (hallowed.resolve_left hkind)
      refine Or.inr ⟨hkind, ?_, fun id => ?_⟩
      · rw [hgrants]
        exact List.ne_nil_of_mem ((mem_sortedBy id).mpr hgrant)
      · rw [hgrants, mem_sortedBy]
        exact mem_matchingGrants_iff

end

/-- A returned decision is valid.  Allowing rests on a current context and the resource's rule, and more grants still allow;
denying still denies when more delegations are revoked. -/
theorem access_within_rule (canonicalSha256 : Json → String)
    (hdigest : ∀ content, isSha256 (canonicalSha256 content) = true) (context : Option AccessContext)
    (action : AccessAction) (resource : AccessResource) (policy : PublicationPolicySet) (observedAt : AwareDatetime)
    (authenticationFailure : Option AccessDenialReason) (revoked : Finset String) (decision : AuthorizationDecision)
    (h : authorizeAccess canonicalSha256 context action resource policy observedAt authenticationFailure revoked = .ok decision) :
    decision.Valid ∧ (decision.decision = .allow → ∃ verified, context = some verified ∧
        AllowedBy verified action resource policy observedAt revoked decision ∧ ∀ wider, verified.Widens wider → ∃ decision',
            authorizeAccess canonicalSha256 (some wider) action resource policy observedAt authenticationFailure revoked =
              .ok decision' ∧ decision'.decision = .allow) ∧
      (decision.decision = .deny → ∀ revoked', revoked ⊆ revoked' → ∃ decision',
        authorizeAccess canonicalSha256 context action resource policy observedAt authenticationFailure revoked' =
          .ok decision' ∧ decision'.decision = .deny) := by
  have hcall := acceptedCall_of_eq_ok h
  refine ⟨valid_of_eq_ok hdigest h, fun hallow => ?_, fun hdeny revoked' hrevoked => ?_⟩
  · obtain ⟨rfl, verified, rfl, hcurrent, hreason⟩ := (authorizeAccess_allows_iff hdigest h).mp hallow
    refine ⟨verified, rfl, allowedBy_of_reason hcurrent hreason (grants_of_allow hdigest h hcurrent hreason),
      fun wider hwider => ?_⟩
    have hwide := authorizeAccess_eq hdigest (show AcceptedCall (some wider) none by simp [AcceptedCall]) action resource
      policy observedAt revoked
    exact ⟨_, hwide, (authorizeAccess_allows_iff hdigest hwide).mpr
      ⟨rfl, wider, rfl, hwider.current hcurrent, hwider.accessReason hreason⟩⟩
  · have hmore := authorizeAccess_eq hdigest hcall action resource policy observedAt revoked'
    refine ⟨_, hmore, ?_⟩
    by_contra hne
    have hallow : (accessDecisionOf canonicalSha256 context action resource policy observedAt
        (accessOutcome context action resource policy observedAt authenticationFailure revoked')).decision = .allow := by
      cases hkind : (accessDecisionOf canonicalSha256 context action resource policy observedAt
        (accessOutcome context action resource policy observedAt authenticationFailure revoked')).decision with
      | allow => rfl
      | deny => exact absurd hkind hne
    obtain ⟨hfailure, verified, hcontext, hcurrent, hreason⟩ := (authorizeAccess_allows_iff hdigest hmore).mp hallow
    have hbefore := (authorizeAccess_allows_iff hdigest h).mpr ⟨hfailure, verified, hcontext,
      ⟨hcurrent.issued, hcurrent.unexpired, fun id hid hne' hmem => hcurrent.unrevoked id hid hne' (hrevoked hmem)⟩,
      hreason⟩
    rw [hdeny] at hbefore
    cases hbefore

/-! ### A member and a strategy result -/

def memberGrant : ActiveEntitlementGrant := ⟨"grant:g1", "entitlement:pro", "publication:v1", by decide⟩

def memberContext : AccessContext where
  principalId := "user-1"
  tenantId := "tenant-1"
  authenticationMethod := .browserSession
  principalKind := .member
  issuedAt := 63928267100000000
  expiresAt := 63928267300000000
  activeEntitlementGrants := [memberGrant]
  delegatedByServicePrincipalId := none
  delegationId := none
  ids_nonempty := by decide
  grants_sorted := List.pairwise_singleton _ _
  issuedAt_lt_expiresAt := by decide
  delegated_iff := by decide

def strategyResult : AccessResource where
  resourceId := "result-1"
  resourceType := .materializedStrategyResult
  tenantId := "tenant-1"
  ownerPrincipalId := none
  publicationClassId := some "class:pro"
  contentPrivate := false
  ids_nonempty := by decide
  class_coordinate := by decide
  private_iff := by decide
  materialized_iff := by decide

def publicationRules : PublicationPolicySet where
  publicationPolicySetId := "publication:v1"
  rules := [⟨"class:pro", ["entitlement:pro"], by decide, by decide, by decide, by decide⟩]
  administratorActions := []
  id_coordinate := by decide
  rules_ne_nil := by decide
  classes_nodup := by decide
  actions_nodup := by decide

def noon : AwareDatetime := ⟨63928267200000000, "2026-10-21T12:00:00+00:00"⟩

def memberSha256 (_ : Json) : String := "4e1148d26f80ebebb3bf71b29ec33e9035df3b4f8dfb50800f9193a4c3abeb3c"

theorem access_within_rule_sample : ∃ decision,
    authorizeAccess memberSha256 (some memberContext) .readMaterializedResult strategyResult publicationRules noon none
      ∅ = .ok decision ∧ decision.decision = .allow ∧ decision.entitlementGrantIds = ["grant:g1"] ∧ decision.Valid ∧
      AllowedBy memberContext .readMaterializedResult strategyResult publicationRules noon ∅ decision := by
  have hdigest : ∀ content, isSha256 (memberSha256 content) = true := fun _ =>
    show isSha256 "4e1148d26f80ebebb3bf71b29ec33e9035df3b4f8dfb50800f9193a4c3abeb3c" = true by decide
  have h := authorizeAccess_eq hdigest (show AcceptedCall (some memberContext) none by simp [AcceptedCall])
    .readMaterializedResult strategyResult publicationRules noon ∅
  obtain ⟨hvalid, hallow, -⟩ := access_within_rule memberSha256 hdigest _ _ _ _ _ _ _ _ h
  have hkind : (accessDecisionOf memberSha256 (some memberContext) .readMaterializedResult strategyResult publicationRules noon
      (accessOutcome (some memberContext) .readMaterializedResult strategyResult publicationRules noon none ∅)).decision =
      .allow := by decide +kernel
  obtain ⟨verified, hverified, hallowed, -⟩ := hallow hkind
  cases hverified
  exact ⟨_, h, hkind, by decide +kernel, hvalid, hallowed⟩

end TrueAlpha.Contracts
