import TrueAlpha.Contracts.Reconciliation

/-!
# Reconciliation always produces a valid result

Every assertion is future, unregistered or eligible, and each rule splits the representatives into agreeing and conflicting ones
around an anchor (`SoundDecision`).  Every check of the result follows.
-/

namespace TrueAlpha.Contracts

variable {N : Type}

/-! ## Validation -/

theorem raiseFirst_eq_ok_iff {checks : List (Bool × String)} :
    raiseFirst checks = .ok () ↔ ∀ check ∈ checks, check.1 = false := by
  induction checks with
  | nil => simp [raiseFirst]
  | cons check checks ih =>
    obtain ⟨violated, message⟩ := check
    cases violated
    · simpa [raiseFirst] using ih
    · simp [raiseFirst]

@[simp] theorem toFinset_sortedBy_id (l : List String) : (sortedBy id l).toFinset = l.toFinset := by
  ext a
  simp

@[simp] theorem length_sortedBy {α β : Type} [LinearOrder β] (key : α → β) (l : List α) : (sortedBy key l).length = l.length :=
  (perm_sortedBy key l).length_eq

@[simp] theorem sortedBy_id_eq_nil_iff (l : List String) : sortedBy id l = [] ↔ l = [] := by
  rw [← List.length_eq_zero_iff, length_sortedBy, List.length_eq_zero_iff]

def ReconciliationResult.identified (str : N → String) (canonicalSha256 : Json → String)
    (result : ReconciliationResult N) : ReconciliationResult N :=
  { result with
    resultId := "reconciliation-result:" ++ canonicalSha256 result.identity
    contentSha256 := canonicalSha256 (result.content str) }

variable {result draft : ReconciliationResult N} {str : N → String} {canonicalSha256 : Json → String}

theorem frozen_of_unidentified (hid : result.resultId = "") (hhash : result.contentSha256 = "") :
    result.frozen str canonicalSha256 = .ok (result.identified str canonicalSha256) := by
  have hidFree : ¬ result.resultId ∉ ["", "reconciliation-result:" ++ canonicalSha256 result.identity] := by
    rw [hid]
    exact not_not.mpr List.mem_cons_self
  have hhashFree : ¬ result.contentSha256 ∉ ["", canonicalSha256 (result.content str)] := by
    rw [hhash]
    exact not_not.mpr List.mem_cons_self
  exact (if_neg hidFree).trans (if_neg hhashFree)

theorem validated_of_checks (hid : draft.resultId = "")
    (hhash : draft.contentSha256 = "") (hfields : ∀ check ∈ draft.fieldChecks, check.1 = false)
    (hidentify : ∀ check ∈ draft.normalized.identifyChecks, check.1 = false) :
    draft.validated str canonicalSha256 = .ok (draft.normalized.identified str canonicalSha256) := by
  have hfrozen : draft.normalized.frozen str canonicalSha256 =
      .ok (draft.normalized.identified str canonicalSha256) := frozen_of_unidentified hid hhash
  unfold ReconciliationResult.validated
  rw [raiseFirst_eq_ok_iff.mpr hfields, ok_bind, raiseFirst_eq_ok_iff.mpr hidentify, ok_bind]
  exact hfrozen

structure FieldsValid (draft : ReconciliationResult N) : Prop where
  cellId : isContentId "reconciliation-cell" draft.cellId = true
  policyId : isContentId "reconciliation-policy" draft.policyId = true
  minimum : 1 ≤ draft.minimumIndependentOriginGroups
  assertionIds : draft.assertionIds.Nodup
  eligible : draft.eligibleAssertionIds.Nodup
  future : draft.futureAssertionIds.Nodup
  unregistered : draft.unregisteredAssertionIds.Nodup
  representatives : draft.representativeAssertionIds.Nodup
  agreeing : draft.agreeingAssertionIds.Nodup
  conflicting : draft.conflictingAssertionIds.Nodup
  origins : draft.originGroupIds.Nodup
  anchor : draft.comparisonAnchorAssertionId.all (isContentId "source-assertion") = true
  selected : draft.selectedAssertionId.all (isContentId "source-assertion") = true
  value : draft.selectedValueSha256.all isSha256 = true
  reasons_ne : draft.reasonCodes ≠ []
  reasons_nodup : draft.reasonCodes.Nodup
  reasons_valid : draft.reasonCodes.all isReasonCode = true

theorem FieldsValid.checks (h : FieldsValid draft) : ∀ check ∈ draft.fieldChecks, check.1 = false := by
  have hminimum := h.minimum
  simp [ReconciliationResult.fieldChecks, h.cellId, h.policyId, h.assertionIds, h.eligible, h.future, h.unregistered,
    h.representatives, h.agreeing, h.conflicting, h.origins, h.anchor, h.selected, h.value, h.reasons_ne,
    h.reasons_nodup, h.reasons_valid]
  omega

def OutcomeCoherent (result : ReconciliationResult N) : Prop :=
  match result.outcome with
  | .agreed => result.selectedAssertionId.isSome ∧
      result.minimumIndependentOriginGroups ≤ result.originGroupIds.length ∧
      (result.conflictingAssertionIds.toFinset ≠ ∅ → pairQuorumGroups ≤ result.agreeingAssertionIds.toFinset.card)
  | .insufficientIndependentOrigins => result.selectedAssertionId.isSome ∧
      result.originGroupIds.length < result.minimumIndependentOriginGroups ∧
      result.conflictingAssertionIds.toFinset = ∅
  | .conflictAbstained => result.selectedAssertionId = none ∧ result.agreeingAssertionIds.toFinset ≠ ∅ ∧
      result.conflictingAssertionIds.toFinset ≠ ∅ ∧ 2 ≤ result.originGroupIds.length
  | .conflictPriorityServed => result.selectedAssertionId.isSome ∧ result.agreeingAssertionIds.toFinset.card = 1 ∧
      result.conflictingAssertionIds.toFinset ≠ ∅ ∧ 2 ≤ result.originGroupIds.length
  | .notYetKnowable => result.selectedAssertionId = none ∧ result.eligibleAssertionIds.toFinset = ∅ ∧
      result.representativeAssertionIds.toFinset = ∅ ∧ result.originGroupIds = [] ∧
      result.futureAssertionIds.toFinset ≠ ∅
  | .unavailable => result.selectedAssertionId = none ∧ result.eligibleAssertionIds.toFinset = ∅ ∧
      result.representativeAssertionIds.toFinset = ∅ ∧ result.originGroupIds = [] ∧
      result.futureAssertionIds.toFinset = ∅

structure Coherent (result : ReconciliationResult N) : Prop where
  present : result.selectedAssertionId.isSome = result.selectedValueSha256.isSome
  numeric : result.selectedNumericValue.isSome → result.selectedAssertionId.isSome
  disjoint : result.futureAssertionIds.toFinset ∩ result.eligibleAssertionIds.toFinset = ∅ ∧
    result.futureAssertionIds.toFinset ∩ result.unregisteredAssertionIds.toFinset = ∅ ∧
      result.eligibleAssertionIds.toFinset ∩ result.unregisteredAssertionIds.toFinset = ∅
  cover : result.futureAssertionIds.toFinset ∪ result.eligibleAssertionIds.toFinset ∪
    result.unregisteredAssertionIds.toFinset = result.assertionIds.toFinset
  eligible : result.representativeAssertionIds.toFinset ⊆ result.eligibleAssertionIds.toFinset
  split_disjoint : result.agreeingAssertionIds.toFinset ∩ result.conflictingAssertionIds.toFinset = ∅
  split_cover : result.agreeingAssertionIds.toFinset ∪ result.conflictingAssertionIds.toFinset =
    result.representativeAssertionIds.toFinset
  origins : result.originGroupIds.length = result.representativeAssertionIds.length
  anchored : result.comparisonAnchorAssertionId.isSome = true ↔ result.representativeAssertionIds.toFinset ≠ ∅
  anchor : ∀ anchor, result.comparisonAnchorAssertionId = some anchor → anchor ∈ result.agreeingAssertionIds.toFinset
  selected : result.selectedAssertionId.isSome → result.selectedAssertionId = result.comparisonAnchorAssertionId
  outcome : OutcomeCoherent result

theorem Coherent.normalized {draft : ReconciliationResult N} (h : Coherent draft) : Coherent draft.normalized := by
  obtain ⟨hpresent, hnumeric, hdisjoint, hcover, heligible, hsplit, hsplitCover, horigins, hanchored, hanchor, hselected,
    houtcome⟩ := h
  refine ⟨hpresent, hnumeric, ?_, ?_, ?_, ?_, ?_, ?_, ?_, ?_, hselected, ?_⟩
  all_goals simp only [ReconciliationResult.normalized, OutcomeCoherent, toFinset_sortedBy_id, length_sortedBy,
    sortedBy_id_eq_nil_iff]
  all_goals assumption

theorem Coherent.checks (h : Coherent result) : ∀ check ∈ result.identifyChecks, check.1 = false := by
  have hanchorIn : result.comparisonAnchorAssertionId.all (· ∈ result.agreeingAssertionIds.toFinset) = true := by
    rcases hanchor : result.comparisonAnchorAssertionId with _ | anchor
    · rfl
    · simpa using h.anchor anchor hanchor
  have hagreeing : result.agreeingAssertionIds.toFinset ⊆ result.representativeAssertionIds.toFinset :=
    h.split_cover ▸ Finset.subset_union_left
  have hselectedIn : ∀ ids : Finset String, result.agreeingAssertionIds.toFinset ⊆ ids →
      result.selectedAssertionId.all (· ∈ ids) = true := by
    intro ids hids
    rcases hselected : result.selectedAssertionId with _ | selected
    · rfl
    · have hsame := h.selected (by rw [hselected]; rfl)
      rw [hselected] at hsame
      simpa using hids (h.anchor selected hsame.symm)
  have hsame : (result.selectedAssertionId.isSome && !decide
      (result.selectedAssertionId = result.comparisonAnchorAssertionId)) = false := by
    rcases hselected : result.selectedAssertionId.isSome with _ | _
    · rfl
    · simp [h.selected hselected]
  have hnumeric : (result.selectedNumericValue.isSome && !result.selectedAssertionId.isSome) = false := by
    rcases hvalue : result.selectedNumericValue.isSome with _ | _
    · rfl
    · simp [h.numeric hvalue]
  have houtcome := h.outcome
  simp only [ReconciliationResult.identifyChecks, List.forall_mem_cons]
  refine ⟨?_, hnumeric, ?_, ?_, ?_, ?_, ?_, ?_, ?_, ?_, hsame, ?_⟩
  · rw [h.present, bne_self_eq_false]
  · simp [h.disjoint]
  · simp [h.cover]
  · simp [h.eligible]
  · simp [h.split_disjoint, h.split_cover]
  · simp [h.origins]
  · rw [decide_eq_true h.anchored, Bool.not_true]
  · rw [hanchorIn]
    simp
  · rw [hselectedIn _ hagreeing, hselectedIn _ subset_rfl]
    simp
  · rw [OutcomeCoherent] at houtcome
    cases hcase : result.outcome
    all_goals rw [hcase] at houtcome
    · obtain ⟨hsome, hminimum, hquorum⟩ := houtcome
      simpa [hsome, hminimum] using hquorum
    · obtain ⟨hsome, hminimum, hnone⟩ := houtcome
      simpa [hsome, hnone] using hminimum
    · obtain ⟨hnone, hagree, hconflict, htwo⟩ := houtcome
      simp [hnone, hagree, hconflict]
      omega
    · obtain ⟨hsome, hone, hconflict, htwo⟩ := houtcome
      have hagree : result.agreeingAssertionIds.toFinset ≠ ∅ := fun h => by rw [h] at hone; cases hone
      simp [hsome, hone, hagree, hconflict]
      omega
    · obtain ⟨hnone, heligible, hreps, horigins, hfuture⟩ := houtcome
      simpa [hnone, heligible, hreps, horigins] using hfuture
    · obtain ⟨hnone, heligible, hreps, horigins, hfuture⟩ := houtcome
      simp [hnone, heligible, hreps, horigins, hfuture]

def idsOf (items : List (SourceAssertion N)) : List String := items.map SourceAssertion.assertionId

variable {items : List (SourceAssertion N)}

theorem mem_toFinset_idsOf {assertionId : String} :
    assertionId ∈ (idsOf items).toFinset ↔ ∃ item ∈ items, item.assertionId = assertionId := by
  rw [List.mem_toFinset, idsOf, List.mem_map]

section Ids

variable {all items items' : List (SourceAssertion N)} (hall : (idsOf all).Nodup)
include hall

theorem eq_of_assertionId {a b : SourceAssertion N} (ha : a ∈ all) (hb : b ∈ all) (h : a.assertionId = b.assertionId) : a = b :=
  List.inj_on_of_nodup_map hall ha hb h

theorem nodup_idsOf (hsubset : items ⊆ all) (hnodup : items.Nodup) : (idsOf items).Nodup :=
  hnodup.map_on fun _ ha _ hb h => eq_of_assertionId hall (hsubset ha) (hsubset hb) h

theorem ids_inter_eq_empty (hitems : items ⊆ all) (hitems' : items' ⊆ all) (hdisjoint : ∀ a ∈ items, a ∉ items') :
    (idsOf items).toFinset ∩ (idsOf items').toFinset = ∅ := by
  rw [Finset.eq_empty_iff_forall_notMem]
  intro assertionId hmem
  rw [Finset.mem_inter, mem_toFinset_idsOf, mem_toFinset_idsOf] at hmem
  obtain ⟨⟨a, ha, rfl⟩, b, hb, hid⟩ := hmem
  rw [eq_of_assertionId hall (hitems' hb) (hitems ha) hid] at hb
  exact hdisjoint a ha hb

omit hall in
theorem ids_union_eq {whole : List (SourceAssertion N)} (hcover : ∀ a, a ∈ whole ↔ a ∈ items ∨ a ∈ items') :
    (idsOf items).toFinset ∪ (idsOf items').toFinset = (idsOf whole).toFinset := by
  ext assertionId
  simp only [Finset.mem_union, mem_toFinset_idsOf, hcover, or_and_right, exists_or]

omit hall in
theorem ids_eq_empty_iff : (idsOf items).toFinset = ∅ ↔ items = [] := by
  rw [List.toFinset_eq_empty_iff, idsOf, List.map_eq_nil_iff]

theorem card_ids (hsubset : items ⊆ all) (hnodup : items.Nodup) : (idsOf items).toFinset.card = items.length := by
  rw [List.toFinset_card_of_nodup (nodup_idsOf hall hsubset hnodup), idsOf, List.length_map]

end Ids

/-! ## Representatives -/

variable {item : SourceAssertion N}

theorem preferred_mem {policy : ReconciliationPolicy} (h : preferred policy items = .ok item) : item ∈ items := by
  unfold preferred at h
  split at h
  · cases h
  · split at h
    · cases h
    · cases h
      exact List.mem_of_mem_filter (List.argmax_mem ‹_›)

theorem preferred_total (policy : ReconciliationPolicy) (hne : items ≠ []) : ∃ item, preferred policy items = .ok item := by
  unfold preferred
  rcases hbest : (items.map fun item => policy.rank item.sourceId).min? with _ | best
  · exact absurd (List.map_eq_nil_iff.mp (List.min?_eq_none_iff.mp hbest)) hne
  · obtain ⟨first, hfirst, hrank⟩ := List.mem_map.mp (List.min?_mem hbest)
    rcases hlatest : (items.filter fun item => policy.rank item.sourceId = best).argmax
        (fun item => (toLex (item.knowableAt, item.assertionId) : Instant ×ₗ String)) with _ | item
    · have hmem : first ∈ items.filter fun item => policy.rank item.sourceId = best :=
        List.mem_filter.mpr ⟨hfirst, by simpa using hrank⟩
      rw [List.argmax_eq_none.mp hlatest] at hmem
      cases hmem
    · exact ⟨item, by simp only [hbest, hlatest]⟩

structure Represents (eligible representatives : List (SourceAssertion N)) : Prop where
  groups : representatives.map SourceAssertion.originGroupId = sortedSet (eligible.map SourceAssertion.originGroupId)
  subset : representatives ⊆ eligible

variable {eligible representatives : List (SourceAssertion N)}

theorem Represents.nodup_groups
    (h : Represents eligible representatives) : (representatives.map SourceAssertion.originGroupId).Nodup := by
  rw [h.groups]
  exact (strictSorted_sortedSet _).imp fun hlt => ne_of_lt hlt

theorem Represents.nodup
    (h : Represents eligible representatives) : representatives.Nodup :=
  List.Nodup.of_map _ h.nodup_groups

theorem representativesOf_total (policy : ReconciliationPolicy) (eligible : List (SourceAssertion N)) :
    ∃ representatives, representativesOf policy eligible = .ok representatives ∧ Represents eligible representatives := by
  have htotal : ∀ group ∈ sortedSet (eligible.map SourceAssertion.originGroupId), ∃ item,
      preferred policy (eligible.filter fun item => item.originGroupId = group) = .ok item := by
    intro group hgroup
    obtain ⟨own, hown, hsame⟩ := List.mem_map.mp (mem_sortedSet.mp hgroup)
    have hmem : own ∈ eligible.filter fun item => item.originGroupId = group :=
      List.mem_filter.mpr ⟨hown, by simpa using hsame⟩
    exact preferred_total policy (List.ne_nil_of_mem hmem)
  obtain ⟨representatives, hrun⟩ := exists_mapM_ok htotal
  have hmember : ∀ group item, preferred policy (eligible.filter fun item => item.originGroupId = group) = .ok item →
        item ∈ eligible ∧ item.originGroupId = group := by
    intro group item h
    simpa using preferred_mem h
  refine ⟨representatives, hrun, ?_, fun item hitem => ?_⟩
  · have hall : List.Forall₂ (fun group item => group = item.originGroupId)
        (sortedSet (eligible.map SourceAssertion.originGroupId)) representatives :=
      (mapM_eq_ok_iff.mp hrun).imp fun group item h => (hmember group item h).2.symm
    have heq := List.forall₂_map_right_iff.mpr hall
    rw [List.forall₂_eq_eq_eq] at heq
    exact heq.symm
  · obtain ⟨group, -, hpreferred⟩ := exists_of_mem_mapM hrun hitem
    exact (hmember group item hpreferred).1

structure Classification (sorted : Classified N) : Prop where
  nodup_ids : (idsOf sorted.ordered).Nodup
  cover : ∀ a, a ∈ sorted.ordered ↔ (a ∈ sorted.future ∨ a ∈ sorted.eligible) ∨ a ∈ sorted.unregistered
  future_eligible : ∀ a ∈ sorted.future, a ∉ sorted.eligible
  future_unregistered : ∀ a ∈ sorted.future, a ∉ sorted.unregistered
  eligible_unregistered : ∀ a ∈ sorted.eligible, a ∉ sorted.unregistered
  future_nodup : sorted.future.Nodup
  eligible_nodup : sorted.eligible.Nodup
  unregistered_nodup : sorted.unregistered.Nodup

theorem classification_classify (policy : ReconciliationPolicy) (cutoff : Instant)
    {assertions : List (SourceAssertion N)} (hdistinct : (idsOf assertions).Nodup) :
    Classification (classify policy cutoff assertions) := by
  have hperm := perm_sortedBy SourceAssertion.assertionId assertions
  have hordered : (sortedBy SourceAssertion.assertionId assertions).Nodup := hperm.nodup_iff.mpr (List.Nodup.of_map _ hdistinct)
  refine ⟨(hperm.map _).nodup_iff.mpr hdistinct, fun a => ?_, fun a ha => ?_, fun a ha => ?_, fun a ha => ?_,
    hordered.filter _, (hordered.filter _).filter _, (hordered.filter _).filter _⟩
  all_goals simp only [classify, List.mem_filter, decide_eq_true_eq] at *
  · rcases lt_or_ge cutoff a.knowableAt with hfuture | hknown
    · simp [hfuture, hfuture.not_ge]
    · by_cases hregistered : a.sourceId ∈ policy.sourcePriority <;> simp [hknown, hknown.not_gt, hregistered]
  · exact fun h => absurd ha.2 (not_lt.mpr h.1.2)
  · exact fun h => absurd ha.2 (not_lt.mpr h.1.2)
  · exact fun h => h.2 ha.2

section ClassificationSets

variable {sorted : Classified N} (h : Classification sorted)
include h

theorem Classification.future_subset : sorted.future ⊆ sorted.ordered := fun a ha => (h.cover a).mpr (.inl (.inl ha))

theorem Classification.eligible_subset : sorted.eligible ⊆ sorted.ordered := fun a ha => (h.cover a).mpr (.inl (.inr ha))

theorem Classification.unregistered_subset : sorted.unregistered ⊆ sorted.ordered := fun a ha => (h.cover a).mpr (.inr ha)

theorem Classification.disjoint_ids : (idsOf sorted.future).toFinset ∩ (idsOf sorted.eligible).toFinset = ∅ ∧
      (idsOf sorted.future).toFinset ∩ (idsOf sorted.unregistered).toFinset = ∅ ∧
        (idsOf sorted.eligible).toFinset ∩ (idsOf sorted.unregistered).toFinset = ∅ :=
  ⟨ids_inter_eq_empty h.nodup_ids h.future_subset h.eligible_subset h.future_eligible,
    ids_inter_eq_empty h.nodup_ids h.future_subset h.unregistered_subset h.future_unregistered,
    ids_inter_eq_empty h.nodup_ids h.eligible_subset h.unregistered_subset h.eligible_unregistered⟩

theorem Classification.cover_ids :
    (idsOf sorted.future).toFinset ∪ (idsOf sorted.eligible).toFinset ∪ (idsOf sorted.unregistered).toFinset =
      (idsOf sorted.ordered).toFinset := by
  ext assertionId
  simp only [Finset.mem_union, mem_toFinset_idsOf, h.cover, or_and_right, exists_or]

end ClassificationSets

def exclusionCodes : List String :=
  [futureReason, "reconciliation.unregistered_source_excluded", "reconciliation.same_origin_deduplicated"]

def decisionCodes : List String := ["reconciliation.cross_origin_conflict", "reconciliation.insufficient_independent_origins",
    "reconciliation.independent_origins_agree", "reconciliation.three_origins_agree",
    "reconciliation.two_origins_agree", "reconciliation.outlier_recorded"]

theorem singleton_sublist_decisionCodes {code : String} (h : code ∈ decisionCodes) : [code].Sublist decisionCodes :=
  List.singleton_sublist.mpr h

theorem quorumReasons_sublist (three outlier : Prop) [Decidable three] [Decidable outlier] :
    ((if three then "reconciliation.three_origins_agree" else "reconciliation.two_origins_agree") ::
      if outlier then ["reconciliation.outlier_recorded"] else []).Sublist decisionCodes := by
  split_ifs <;> decide

theorem reasonCodes_nodup : ("reconciliation.no_eligible_assertion" :: (exclusionCodes ++ decisionCodes)).Nodup := by
  decide

theorem reasonCodes_valid :
    ("reconciliation.no_eligible_assertion" :: (exclusionCodes ++ decisionCodes)).all isReasonCode = true := by
  decide

theorem sublist_singleton_ite (c : Prop) [Decidable c] (code : String) : (if c then [code] else []).Sublist [code] := by
  by_cases hc : c
  · rw [if_pos hc]
  · rw [if_neg hc]
    exact List.nil_sublist _

theorem exclusionReasons_sublist (sorted : Classified N) :
    (exclusionReasons sorted).Sublist [futureReason, "reconciliation.unregistered_source_excluded"] :=
  (sublist_singleton_ite _ futureReason).append (sublist_singleton_ite _ "reconciliation.unregistered_source_excluded")

theorem reasonCodes_ok {reasons : List String}
    (h : reasons.Sublist ("reconciliation.no_eligible_assertion" :: (exclusionCodes ++ decisionCodes))) :
    reasons.Nodup ∧ reasons.all isReasonCode = true := by
  refine ⟨reasonCodes_nodup.sublist h, List.all_eq_true.mpr fun code hcode => ?_⟩
  exact List.all_eq_true.mp reasonCodes_valid code (h.subset hcode)

/-! ## Valid drafts -/

def OutcomeHolds (policy : ReconciliationPolicy) (representatives : List (SourceAssertion N)) (decision : Decision N) : Prop :=
  match decision.outcome with
  | .agreed => decision.selected.isSome ∧ policy.minimumIndependentOriginGroups ≤ representatives.length ∧
      (decision.conflicting ≠ [] → pairQuorumGroups ≤ decision.agreeing.length)
  | .insufficientIndependentOrigins => decision.selected.isSome ∧
      representatives.length < policy.minimumIndependentOriginGroups ∧ decision.conflicting = []
  | .conflictAbstained => decision.selected = none ∧ decision.conflicting ≠ []
  | .conflictPriorityServed => decision.selected.isSome ∧ decision.conflicting ≠ [] ∧ decision.agreeing.length = 1
  | .notYetKnowable | .unavailable => False

structure SoundDecision (policy : ReconciliationPolicy) (representatives : List (SourceAssertion N))
    (decision : Decision N) : Prop where
  cover : ∀ a, a ∈ representatives ↔ a ∈ decision.agreeing ∨ a ∈ decision.conflicting
  disjoint : ∀ a ∈ decision.agreeing, a ∉ decision.conflicting
  agreeing_nodup : decision.agreeing.Nodup
  conflicting_nodup : decision.conflicting.Nodup
  anchor_agrees : decision.anchor ∈ decision.agreeing
  selected_valid : ∀ value ∈ decision.selected, isSha256 value.1
  reasons : decision.reasons.Sublist decisionCodes
  reasons_ne : decision.reasons ≠ []
  outcome : OutcomeHolds policy representatives decision

section Drafts

variable {cell : ReconciliationCell} {policy : ReconciliationPolicy} {cutoff : Instant} {sorted : Classified N}
  {representatives : List (SourceAssertion N)} {decision : Decision N}

theorem comparedDraft_fieldsValid (hclass : Classification sorted) (hrep : Represents sorted.eligible representatives)
    (hdecision : SoundDecision policy representatives decision) :
    FieldsValid (comparedDraft cell policy cutoff sorted representatives decision) := by
  have hagreeing : decision.agreeing ⊆ sorted.ordered := fun a ha =>
    hclass.eligible_subset (hrep.subset ((hdecision.cover a).mpr (.inl ha)))
  have hconflicting : decision.conflicting ⊆ sorted.ordered := fun a ha =>
    hclass.eligible_subset (hrep.subset ((hdecision.cover a).mpr (.inr ha)))
  have hids : ∀ {items : List (SourceAssertion N)}, items ⊆ sorted.ordered → items.Nodup → (idsOf items).Nodup :=
    nodup_idsOf hclass.nodup_ids
  have hreasons := reasonCodes_ok (((((exclusionReasons_sublist sorted).append (sublist_singleton_ite
    (representatives.length < sorted.eligible.length) "reconciliation.same_origin_deduplicated")).append
      hdecision.reasons)).cons "reconciliation.no_eligible_assertion")
  have hselected : (decision.selected.map Prod.fst).all isSha256 = true := by
    rcases hvalue : decision.selected with _ | value
    · rfl
    · exact hdecision.selected_valid value hvalue
  have hselectedId : (decision.selected.map fun _ => decision.anchor.assertionId).all
      (isContentId "source-assertion") = true := by
    rcases decision.selected with _ | value
    · rfl
    · exact decision.anchor.assertionId_valid
  exact
    { cellId := cell.cellId_valid
      policyId := policy.policyId_valid
      minimum := policy.one_le_minimum
      assertionIds := hclass.nodup_ids
      eligible := hids hclass.eligible_subset hclass.eligible_nodup
      future := hids hclass.future_subset hclass.future_nodup
      unregistered := hids hclass.unregistered_subset hclass.unregistered_nodup
      representatives := hids (fun a ha => hclass.eligible_subset (hrep.subset ha)) hrep.nodup
      agreeing := hids hagreeing hdecision.agreeing_nodup
      conflicting := hids hconflicting hdecision.conflicting_nodup
      origins := hrep.nodup_groups
      anchor := decision.anchor.assertionId_valid
      selected := hselectedId
      value := hselected
      reasons_ne := List.append_ne_nil_of_right_ne_nil _ hdecision.reasons_ne
      reasons_nodup := hreasons.1
      reasons_valid := hreasons.2 }

theorem two_le_representatives (hdecision : SoundDecision policy representatives decision) (hconflicting : decision.conflicting ≠ []) :
    2 ≤ representatives.length := by
  obtain ⟨other, hother⟩ := List.exists_mem_of_ne_nil _ hconflicting
  have hne : decision.anchor ≠ other := fun heq => hdecision.disjoint _ hdecision.anchor_agrees (heq ▸ hother)
  have hsub : [decision.anchor, other] ⊆ representatives := by
    intro a ha
    simp only [List.mem_cons, List.not_mem_nil, or_false] at ha
    rcases ha with rfl | rfl
    · exact (hdecision.cover _).mpr (.inl hdecision.anchor_agrees)
    · exact (hdecision.cover _).mpr (.inr hother)
  exact (List.subperm_of_subset (by simp [hne]) hsub).length_le

theorem comparedDraft_coherent (hclass : Classification sorted) (hrep : Represents sorted.eligible representatives)
    (hdecision : SoundDecision policy representatives decision) :
    Coherent (comparedDraft cell policy cutoff sorted representatives decision) := by
  have hreps : representatives ⊆ sorted.ordered := fun a ha => hclass.eligible_subset (hrep.subset ha)
  have hagreeing : decision.agreeing ⊆ sorted.ordered := fun a ha => hreps ((hdecision.cover a).mpr (.inl ha))
  have hconflicting : decision.conflicting ⊆ sorted.ordered := fun a ha => hreps ((hdecision.cover a).mpr (.inr ha))
  have hcard := card_ids hclass.nodup_ids hagreeing hdecision.agreeing_nodup
  have hanchor : decision.anchor.assertionId ∈ (idsOf decision.agreeing).toFinset :=
    mem_toFinset_idsOf.mpr ⟨_, hdecision.anchor_agrees, rfl⟩
  have hagreeingNe : (idsOf decision.agreeing).toFinset ≠ ∅ := Finset.ne_empty_of_mem hanchor
  have hconflictNe : decision.conflicting ≠ [] → (idsOf decision.conflicting).toFinset ≠ ∅ := mt ids_eq_empty_iff.mp
  have hlength : (representatives.map SourceAssertion.originGroupId).length = representatives.length := List.length_map _
  refine ⟨?_, ?_, hclass.disjoint_ids, hclass.cover_ids, ?_,
    ids_inter_eq_empty hclass.nodup_ids hagreeing hconflicting hdecision.disjoint, ids_union_eq hdecision.cover, ?_,
    ?_, ?_, ?_, ?_⟩
  · simp only [comparedDraft, Option.isSome_map]
  · simp only [comparedDraft, Option.isSome_map]
    rcases decision.selected with _ | value <;> simp
  · intro assertionId hmem
    obtain ⟨item, hitem, rfl⟩ := mem_toFinset_idsOf.mp hmem
    exact mem_toFinset_idsOf.mpr ⟨item, hrep.subset hitem, rfl⟩
  · simp only [comparedDraft, List.length_map]
  · have hne : (idsOf representatives).toFinset ≠ ∅ := by
      rw [← ids_union_eq hdecision.cover]
      exact Finset.ne_empty_of_mem (Finset.mem_union_left _ hanchor)
    exact ⟨fun _ => hne, fun _ => rfl⟩
  · rintro anchor ⟨⟩
    exact hanchor
  · intro hsome
    simp only [comparedDraft, Option.isSome_map] at hsome ⊢
    obtain ⟨value, hvalue⟩ := Option.isSome_iff_exists.mp hsome
    rw [hvalue, Option.map_some]
  · have houtcome := hdecision.outcome
    have hselected : decision.selected.isSome → (decision.selected.map fun _ => decision.anchor.assertionId).isSome = true := by
      rw [Option.isSome_map]
      exact id
    have htwo := two_le_representatives hdecision
    have hfield : (comparedDraft cell policy cutoff sorted representatives decision).outcome = decision.outcome := rfl
    unfold OutcomeHolds at houtcome
    unfold OutcomeCoherent
    rw [hfield]
    cases hcase : decision.outcome
    all_goals rw [hcase] at houtcome
    · obtain ⟨hsome, hminimum, hquorum⟩ := houtcome
      refine ⟨hselected hsome, hlength.symm ▸ hminimum, fun hne => ?_⟩
      rw [show (comparedDraft cell policy cutoff sorted representatives decision).agreeingAssertionIds.toFinset.card =
        decision.agreeing.length from hcard]
      exact hquorum fun hnil => hne (ids_eq_empty_iff.mpr hnil)
    · obtain ⟨hsome, hminimum, hnone⟩ := houtcome
      exact ⟨hselected hsome, hlength.symm ▸ hminimum, ids_eq_empty_iff.mpr hnone⟩
    · obtain ⟨hnone, hconflict⟩ := houtcome
      refine ⟨?_, hagreeingNe, hconflictNe hconflict, hlength.symm ▸ htwo hconflict⟩
      simp only [comparedDraft, hnone, Option.map_none]
    · obtain ⟨hsome, hconflict, hone⟩ := houtcome
      exact ⟨hselected hsome, hcard.trans hone, hconflictNe hconflict, hlength.symm ▸ htwo hconflict⟩
    · exact houtcome.elim
    · exact houtcome.elim

variable {canonicalSha256 : Json → String}

section

variable (hclass : Classification sorted)

include hclass

theorem comparedDraft_validated
    (hrep : Represents sorted.eligible representatives) (hdecision : SoundDecision policy representatives decision) :
    (comparedDraft cell policy cutoff sorted representatives decision).validated str canonicalSha256 =
      .ok ((comparedDraft cell policy cutoff sorted representatives decision).normalized.identified str
        canonicalSha256) :=
  validated_of_checks rfl rfl (comparedDraft_fieldsValid hclass hrep hdecision).checks
    (comparedDraft_coherent hclass hrep hdecision).normalized.checks

theorem unavailableDraft_fieldsValid : FieldsValid (unavailableDraft cell policy cutoff sorted) := by
  have hids : ∀ {items : List (SourceAssertion N)}, items ⊆ sorted.ordered → items.Nodup → (idsOf items).Nodup :=
    nodup_idsOf hclass.nodup_ids
  have hreasons := reasonCodes_ok (((exclusionReasons_sublist sorted).trans
    (List.sublist_append_left [futureReason, "reconciliation.unregistered_source_excluded"]
      ("reconciliation.same_origin_deduplicated" :: decisionCodes))).cons_cons "reconciliation.no_eligible_assertion")
  exact
    { cellId := cell.cellId_valid
      policyId := policy.policyId_valid
      minimum := policy.one_le_minimum
      assertionIds := hclass.nodup_ids
      eligible := List.nodup_nil
      future := hids hclass.future_subset hclass.future_nodup
      unregistered := hids hclass.unregistered_subset hclass.unregistered_nodup
      representatives := List.nodup_nil
      agreeing := List.nodup_nil
      conflicting := List.nodup_nil
      origins := List.nodup_nil
      anchor := rfl
      selected := rfl
      value := rfl
      reasons_ne := List.cons_ne_nil _ _
      reasons_nodup := hreasons.1
      reasons_valid := hreasons.2 }

theorem unavailableDraft_coherent (hnone : sorted.eligible = []) : Coherent (unavailableDraft cell policy cutoff sorted) := by
  have hdisjoint := hclass.disjoint_ids
  have hcover := hclass.cover_ids
  rw [hnone] at hdisjoint hcover
  refine ⟨rfl, (fun h => by cases h), hdisjoint, hcover, subset_rfl, rfl, rfl, rfl, ?_, ?_, (fun h => by cases h), ?_⟩
  · exact ⟨(fun h => by cases h), fun h => absurd rfl h⟩
  · rintro anchor ⟨⟩
  · have hfield : (unavailableDraft cell policy cutoff sorted).outcome =
        if sorted.future ≠ [] then .notYetKnowable else .unavailable := rfl
    unfold OutcomeCoherent
    rw [hfield]
    by_cases hfuture : sorted.future = []
    · rw [if_neg (not_not.mpr hfuture)]
      exact ⟨rfl, rfl, rfl, rfl, ids_eq_empty_iff.mpr hfuture⟩
    · rw [if_pos hfuture]
      exact ⟨rfl, rfl, rfl, rfl, mt ids_eq_empty_iff.mp hfuture⟩

theorem unavailableDraft_validated (hnone : sorted.eligible = []) :
    (unavailableDraft cell policy cutoff sorted).validated str canonicalSha256 =
      .ok ((unavailableDraft cell policy cutoff sorted).normalized.identified str canonicalSha256) :=
  validated_of_checks rfl rfl (unavailableDraft_fieldsValid hclass).checks
    (unavailableDraft_coherent hclass hnone).normalized.checks

end

end Drafts

/-! ## Sound decisions -/

section Decisions

variable {arithmetic : Arithmetic N} {policy : ReconciliationPolicy} {eligible representatives : List (SourceAssertion N)}

theorem assertionsAgree_self (policy : ReconciliationPolicy) (item : SourceAssertion N) :
    assertionsAgree arithmetic policy item item = true := by
  unfold assertionsAgree
  rcases item.numericValue with _ | value
  · exact beq_self_eq_true _
  · have hbound : 0 ≤ policy.absoluteTolerance + policy.relativeTolerance *
        max |arithmetic.value value| |arithmetic.value value| :=
      add_nonneg policy.absoluteTolerance_nonneg
        (mul_nonneg policy.relativeTolerance_nonneg (le_max_of_le_left (abs_nonneg _)))
    simpa using hbound

section

variable (hrep : Represents eligible representatives)

include hrep

theorem abstainingDecision_sound [DecidableEq N] (hne : representatives ≠ []) :
    ∃ decision, abstainingDecision arithmetic policy representatives = .ok decision ∧
      SoundDecision policy representatives decision := by
  obtain ⟨selected, hselected⟩ := preferred_total policy hne
  have hmem := preferred_mem hselected
  rw [abstainingDecision, hselected]
  refine ⟨anchoredDecision policy representatives _ _ selected, rfl, ?_⟩
  set agreeing := representatives.filter (assertionsAgree arithmetic policy selected) with hagreeing
  set conflicting := representatives.filter fun item => item ∉ agreeing with hconflicting
  have hcover : ∀ a, a ∈ representatives ↔ a ∈ agreeing ∨ a ∈ conflicting := by
    intro a
    simp only [hconflicting, List.mem_filter, decide_eq_true_eq]
    refine ⟨fun ha => ?_, ?_⟩
    · by_cases hin : a ∈ agreeing
      · exact .inl hin
      · exact .inr ⟨ha, hin⟩
    · rintro (ha | ⟨ha, -⟩)
      · exact List.mem_of_mem_filter ha
      · exact ha
  have hdisjoint : ∀ a ∈ agreeing, a ∉ conflicting := by
    intro a ha hconflict
    simpa [ha] using (List.mem_filter.mp hconflict).2
  have hanchor : selected ∈ agreeing := List.mem_filter.mpr ⟨hmem, assertionsAgree_self policy selected⟩
  have hvalue : ∀ value ∈ some (selected.normalizedValueSha256, selected.numericValue), isSha256 value.1 := by
    rintro value ⟨⟩
    exact selected.value_valid
  unfold anchoredDecision
  split_ifs with hconflict hfew
  · exact ⟨hcover, hdisjoint, hrep.nodup.filter _, hrep.nodup.filter _, hanchor, (fun _ h => by cases h),
      singleton_sublist_decisionCodes (by decide), List.cons_ne_nil _ _, rfl, hconflict⟩
  · exact ⟨hcover, hdisjoint, hrep.nodup.filter _, hrep.nodup.filter _, hanchor, hvalue,
      singleton_sublist_decisionCodes (by decide), List.cons_ne_nil _ _, rfl, hfew, not_not.mp hconflict⟩
  · exact ⟨hcover, hdisjoint, hrep.nodup.filter _, hrep.nodup.filter _, hanchor, hvalue,
      singleton_sublist_decisionCodes (by decide), List.cons_ne_nil _ _, rfl, not_lt.mp hfew,
      fun h => absurd h hconflict⟩

theorem groupMember_eq_ok_iff {group : String} :
    groupMember representatives group = .ok item ↔ item ∈ representatives ∧ item.originGroupId = group := by
  have hkeys : ((representatives.map fun item => (item.originGroupId, item)).map Prod.fst).Nodup := by
    rw [List.map_map]
    exact hrep.nodup_groups
  have hget : (Dict.ofList (representatives.map fun item => (item.originGroupId, item))).get? group = some item ↔
      item ∈ representatives ∧ item.originGroupId = group := by
    rw [Dict.get?_ofList_eq_some_iff hkeys, List.mem_map]
    constructor
    · rintro ⟨own, hown, heq⟩
      cases heq
      exact ⟨hown, rfl⟩
    · rintro ⟨hitem, rfl⟩
      exact ⟨item, hitem, rfl⟩
  rw [← hget, groupMember]
  split
  next hnone => simp [hnone]
  next found hfound => simp [hfound]

theorem groupMembers_total {groups : List String} (hsubset : groups ⊆ representatives.map SourceAssertion.originGroupId) :
    ∃ members, groups.mapM (groupMember representatives) = .ok members ∧ members ⊆ representatives ∧
      members.map SourceAssertion.originGroupId = groups := by
  obtain ⟨members, hrun⟩ := exists_mapM_ok (f := groupMember representatives) (l := groups) fun group hgroup => by
    obtain ⟨item, hitem, hsame⟩ := List.mem_map.mp (hsubset hgroup)
    exact ⟨item, (groupMember_eq_ok_iff hrep).mpr ⟨hitem, hsame⟩⟩
  refine ⟨members, hrun, fun item hitem => ?_, ?_⟩
  · obtain ⟨group, -, hmember⟩ := exists_of_mem_mapM hrun hitem
    exact ((groupMember_eq_ok_iff hrep).mp hmember).1
  · have hall : List.Forall₂ (fun group item => group = item.originGroupId) groups members :=
      (mapM_eq_ok_iff.mp hrun).imp fun group item h => ((groupMember_eq_ok_iff hrep).mp h).2.symm
    have heq := List.forall₂_map_right_iff.mpr hall
    rw [List.forall₂_eq_eq_eq] at heq
    exact heq.symm

end

variable {canonicalSha256 : Json → String} {str : N → String}

section

variable (hsha : ∀ content, isSha256 (canonicalSha256 content))

include hsha

theorem servedSha256_valid (selected : SourceAssertion N)
    {served : VoteValue N} (htext : ∀ text, served = .text text → isSha256 text) :
    isSha256 (servedSha256 arithmetic str canonicalSha256 selected served) := by
  rcases served with value | text
  · unfold servedSha256
    rcases selected.numericValue with _ | own
    · exact hsha _
    · simp only
      split_ifs
      · exact selected.value_valid
      · exact hsha _
  · exact htext text rfl

theorem gradedDecision_sound
    (hpolicy : policy.conflictBehavior = .medianConsensus) {agreeing conflicting : List (SourceAssertion N)}
    {selected : SourceAssertion N} {served : VoteValue N}
    (hcover : ∀ a, a ∈ representatives ↔ a ∈ agreeing ∨ a ∈ conflicting) (hdisjoint : ∀ a ∈ agreeing, a ∉ conflicting)
    (hnodup : representatives.Nodup) (hagreeing : agreeing.Nodup) (hconflicting : conflicting.Nodup)
    (hselected : selected ∈ agreeing) (htext : ∀ text, served = .text text → isSha256 text) :
    SoundDecision policy representatives
      (gradedDecision arithmetic str canonicalSha256 representatives agreeing conflicting selected served) := by
  have hminimum := policy.consensus_minimum hpolicy
  have hpos : 0 < agreeing.length := List.length_pos_of_mem hselected
  have hperm : representatives.Perm (agreeing ++ conflicting) := by
    refine (List.perm_ext_iff_of_nodup hnodup ?_).mpr fun a => by rw [hcover, List.mem_append]
    exact hagreeing.append hconflicting fun a ha hb => hdisjoint a ha hb
  have hlength : representatives.length = agreeing.length + conflicting.length := by
    rw [hperm.length_eq, List.length_append]
  have hvalue : ∀ value ∈ some (servedSha256 arithmetic str canonicalSha256 selected served, served.number?),
      isSha256 value.1 := by
    rintro value ⟨⟩
    exact servedSha256_valid hsha selected htext
  unfold gradedDecision
  simp only
  by_cases hpair : pairQuorumGroups ≤ agreeing.length
  · rw [if_pos hpair]
    refine ⟨hcover, hdisjoint, hagreeing, hconflicting, hselected, hvalue, ?_, List.cons_ne_nil _ _, rfl, ?_, fun _ => hpair⟩
    · exact quorumReasons_sublist _ _
    · rw [hminimum, hlength]
      exact Nat.le_add_right_of_le hpair
  · rw [if_neg hpair]
    have hone : agreeing.length = 1 := by
      rw [pairQuorumGroups] at hpair
      omega
    by_cases hsingle : representatives.length = 1
    · have hnil : conflicting.length = 0 := by omega
      rw [if_pos hsingle]
      refine ⟨hcover, hdisjoint, hagreeing, hconflicting, hselected, hvalue,
        singleton_sublist_decisionCodes (by decide), List.cons_ne_nil _ _, rfl, ?_, ?_⟩
      · rw [hminimum, hsingle]
        decide
      · exact List.length_eq_zero_iff.mp hnil
    · rw [if_neg hsingle]
      refine ⟨hcover, hdisjoint, hagreeing, hconflicting, hselected, hvalue,
        singleton_sublist_decisionCodes (by decide), List.cons_ne_nil _ _, rfl, ?_, hone⟩
      exact fun hnil : conflicting = [] => hsingle (by rw [hlength, hone, hnil]; rfl)

theorem consensusDecision_sound
    (hpolicy : policy.conflictBehavior = .medianConsensus) (hrep : Represents eligible representatives)
    (hne : representatives ≠ []) :
    ∃ decision, consensusDecision arithmetic str canonicalSha256 policy representatives = .ok decision ∧
      SoundDecision policy representatives decision := by
  have hgroups : (representatives.map (voteOf policy)).map ConsensusVote.groupId =
      representatives.map SourceAssertion.originGroupId := by
    rw [List.map_map]
    rfl
  obtain ⟨grade, served, servedGroupId, hgrade, hparts⟩ := gradeConsensus_parts arithmetic policy.relativeTolerance
    policy.absoluteTolerance (hgroups ▸ hrep.nodup_groups) (by simpa using hne)
  have hcoverGroups := hparts.cover
  rw [hgroups] at hcoverGroups
  obtain ⟨agreeing, hagreeing, hagreeingSub, hagreeingGroups⟩ := groupMembers_total hrep
    fun group hgroup => (hcoverGroups group).mpr (.inl hgroup)
  obtain ⟨conflicting, hconflicting, hconflictingSub, hconflictingGroups⟩ := groupMembers_total hrep
    fun group hgroup => (hcoverGroups group).mpr (.inr hgroup)
  -- a representative is agreeing exactly when its group is
  have hmem : ∀ {members : List (SourceAssertion N)} {a : SourceAssertion N}, members ⊆ representatives →
      a ∈ representatives → (a ∈ members ↔ a.originGroupId ∈ members.map SourceAssertion.originGroupId) := by
    intro members a hsub ha
    refine ⟨fun h => List.mem_map_of_mem h, fun h => ?_⟩
    obtain ⟨b, hb, hsame⟩ := List.mem_map.mp h
    rwa [← List.inj_on_of_nodup_map hrep.nodup_groups (hsub hb) ha hsame]
  have hcover : ∀ a, a ∈ representatives ↔ a ∈ agreeing ∨ a ∈ conflicting := by
    intro a
    refine ⟨fun ha => ?_, ?_⟩
    · rw [hmem hagreeingSub ha, hmem hconflictingSub ha, hagreeingGroups, hconflictingGroups]
      exact (hcoverGroups _).mp (List.mem_map_of_mem ha)
    · rintro (ha | ha)
      · exact hagreeingSub ha
      · exact hconflictingSub ha
  have hdisjoint : ∀ a ∈ agreeing, a ∉ conflicting := by
    intro a ha hb
    refine hparts.disjoint a.originGroupId ?_ ?_
    · exact hagreeingGroups ▸ List.mem_map_of_mem ha
    · exact hconflictingGroups ▸ List.mem_map_of_mem hb
  obtain ⟨selected, hselected, hselectedGroup⟩ := List.mem_map.mp (hagreeingGroups ▸ hparts.served_agrees)
  have htext : ∀ text, served = .text text → isSha256 text := by
    intro text htext
    obtain ⟨vote, hvote, hvalue⟩ := hparts.text_voted text htext
    obtain ⟨item, -, rfl⟩ := List.mem_map.mp hvote
    rw [voteOf] at hvalue
    simp only at hvalue
    rcases hnumeric : item.numericValue with _ | value
    · rw [hnumeric] at hvalue
      cases hvalue
      exact item.value_valid
    · rw [hnumeric] at hvalue
      cases hvalue
  refine ⟨gradedDecision arithmetic str canonicalSha256 representatives agreeing conflicting selected served, ?_,
    gradedDecision_sound hsha hpolicy hcover hdisjoint hrep.nodup ?_ ?_ hselected htext⟩
  · rw [consensusDecision, hgrade, ok_bind, hparts.servedGroup, hparts.servedValue]
    simp only
    rw [(groupMember_eq_ok_iff hrep).mpr ⟨hagreeingSub hselected, hselectedGroup⟩, ok_bind, hagreeing, ok_bind,
      hconflicting, ok_bind]
  · exact List.Nodup.of_map _ (hagreeingGroups ▸ hparts.agreeing_nodup)
  · exact List.Nodup.of_map _ (hconflictingGroups ▸ hparts.outliers_nodup)

end

theorem decisionOf_sound [DecidableEq N] (arithmetic : Arithmetic N) (str : N → String)
    (policy : ReconciliationPolicy) (hsha : ∀ content, isSha256 (canonicalSha256 content))
    (hrep : Represents eligible representatives) (hne : representatives ≠ []) :
    ∃ decision, decisionOf arithmetic str canonicalSha256 policy representatives = .ok decision ∧
      SoundDecision policy representatives decision := by
  unfold decisionOf
  rcases hpolicy : policy.conflictBehavior with _ | _
  · exact abstainingDecision_sound hrep hne
  · exact consensusDecision_sound hsha hpolicy hrep hne

end Decisions

section Reconcile

variable [DecidableEq N] {arithmetic : Arithmetic N} {str : N → String} {canonicalSha256 : Json → String}
  {cell : ReconciliationCell} {policy : ReconciliationPolicy} {cutoff : Instant} {assertions : List (SourceAssertion N)}

structure Admitted (cell : ReconciliationCell) (assertions : List (SourceAssertion N)) : Prop where
  ofCell : ∀ item ∈ assertions, item.cellId = cell.cellId
  distinct : (assertions.map SourceAssertion.assertionId).Nodup

theorem reconcile_eq (arithmetic : Arithmetic N) (str : N → String) (policy : ReconciliationPolicy) (cutoff : Instant)
    (hadmitted : Admitted cell assertions) (hsha : ∀ content, isSha256 (canonicalSha256 content)) :
    ((classify policy cutoff assertions).eligible = [] ∧
        reconcileSourceAssertions arithmetic str canonicalSha256 cell assertions policy cutoff =
          .ok ((unavailableDraft cell policy cutoff (classify policy cutoff assertions)).normalized.identified str
            canonicalSha256)) ∨
      (classify policy cutoff assertions).eligible ≠ [] ∧ ∃ representatives decision,
        representativesOf policy (classify policy cutoff assertions).eligible = .ok representatives ∧
        decisionOf arithmetic str canonicalSha256 policy representatives = .ok decision ∧
        reconcileSourceAssertions arithmetic str canonicalSha256 cell assertions policy cutoff =
          .ok ((comparedDraft cell policy cutoff (classify policy cutoff assertions) representatives
            decision).normalized.identified str canonicalSha256) := by
  have hcell : ¬ (assertions.any fun item => item.cellId ≠ cell.cellId) = true := by
    rw [List.any_eq_true]
    rintro ⟨item, hitem, hother⟩
    simp [hadmitted.ofCell item hitem] at hother
  have hclass := classification_classify policy cutoff hadmitted.distinct
  obtain ⟨representatives, hrun, hrep⟩ := representativesOf_total policy (classify policy cutoff assertions).eligible
  have hunfold : reconcileSourceAssertions arithmetic str canonicalSha256 cell assertions policy cutoff =
      if representatives = [] then
        (unavailableDraft cell policy cutoff (classify policy cutoff assertions)).validated str canonicalSha256
      else decisionOf arithmetic str canonicalSha256 policy representatives >>= fun decision =>
        (comparedDraft cell policy cutoff (classify policy cutoff assertions) representatives decision).validated str
          canonicalSha256 := by
    rw [reconcileSourceAssertions, if_neg hcell, if_neg (not_not.mpr hadmitted.distinct)]
    simp only [hrun, ok_bind]
  have hempty : representatives = [] ↔ (classify policy cutoff assertions).eligible = [] := by
    rw [← List.map_eq_nil_iff (f := SourceAssertion.originGroupId), hrep.groups, List.eq_nil_iff_forall_not_mem,
      ← List.map_eq_nil_iff (f := SourceAssertion.originGroupId) (l := (classify policy cutoff assertions).eligible),
      List.eq_nil_iff_forall_not_mem]
    simp only [mem_sortedSet]
  rw [hunfold]
  by_cases hnone : representatives = []
  · rw [if_pos hnone]
    exact .inl ⟨hempty.mp hnone, unavailableDraft_validated hclass (hempty.mp hnone)⟩
  · obtain ⟨decision, hdecision, hsound⟩ := decisionOf_sound arithmetic str policy hsha hrep hnone
    rw [if_neg hnone, hdecision, ok_bind]
    exact .inr ⟨mt hempty.mpr hnone, representatives, decision, hrun, hdecision, comparedDraft_validated hclass hrep hsound⟩

theorem reconcile_total (arithmetic : Arithmetic N) (str : N → String) (policy : ReconciliationPolicy) (cutoff : Instant)
    (hadmitted : Admitted cell assertions) (hsha : ∀ content, isSha256 (canonicalSha256 content)) :
    ∃ result, reconcileSourceAssertions arithmetic str canonicalSha256 cell assertions policy cutoff = .ok result := by
  rcases reconcile_eq arithmetic str policy cutoff hadmitted hsha with
    ⟨-, h⟩ | ⟨-, representatives, decision, -, -, h⟩
  · exact ⟨_, h⟩
  · exact ⟨_, h⟩

variable {other : List (SourceAssertion N)}

omit [DecidableEq N] in
theorem classify_perm (hp : other.Perm assertions) (hdistinct : (assertions.map SourceAssertion.assertionId).Nodup) :
    classify policy cutoff other = classify policy cutoff assertions := by
  have hdistinct' : (other.map SourceAssertion.assertionId).Nodup := (hp.map _).nodup_iff.mpr hdistinct
  have hordered : sortedBy SourceAssertion.assertionId other = sortedBy SourceAssertion.assertionId assertions := by
    refine eq_of_strictSorted_key SourceAssertion.assertionId (strictSorted_sortedBy _ hdistinct')
      (strictSorted_sortedBy _ hdistinct) fun a => ?_
    rw [mem_sortedBy, mem_sortedBy, hp.mem_iff]
  simp only [classify, hordered]

theorem reconcile_perm (hp : other.Perm assertions) (hadmitted : Admitted cell assertions) :
    reconcileSourceAssertions arithmetic str canonicalSha256 cell other policy cutoff =
      reconcileSourceAssertions arithmetic str canonicalSha256 cell assertions policy cutoff := by
  have hany : (other.any fun item => item.cellId ≠ cell.cellId) = assertions.any fun item => item.cellId ≠ cell.cellId := by
    rw [Bool.eq_iff_iff, List.any_eq_true, List.any_eq_true]
    simp only [hp.mem_iff]
  have hnodup : (other.map SourceAssertion.assertionId).Nodup ↔ (assertions.map SourceAssertion.assertionId).Nodup :=
    (hp.map _).nodup_iff
  simp only [reconcileSourceAssertions, hany, hnodup, classify_perm hp hadmitted.distinct]

end Reconcile

def sampleDigest (digit : Char) : String := String.ofList (List.replicate 64 digit)

def sampleCell : ReconciliationCell := ⟨"reconciliation-cell:" ++ sampleDigest 'c', isContentId_digestOf rfl rfl⟩

theorem two_groups_valid : 1 ≤ 2 := by decide

def samplePolicy : ReconciliationPolicy where
  policyId := "reconciliation-policy:" ++ sampleDigest 'b'
  sourcePriority := ["sec", "yahoo"]
  absoluteTolerance := 0
  relativeTolerance := 1 / 1000
  minimumIndependentOriginGroups := 2
  conflictBehavior := .medianConsensus
  policyId_valid := isContentId_digestOf rfl rfl
  sourcePriority_ne := by decide
  sourcePriority_nodup := by decide
  absoluteTolerance_nonneg := le_rfl
  relativeTolerance_nonneg := by norm_num
  one_le_minimum := two_groups_valid
  consensus_minimum := fun _ => rfl

def sampleSec : SourceAssertion ℚ where
  assertionId := "source-assertion:" ++ sampleDigest '1'
  cellId := sampleCell.cellId
  sourceId := "sec"
  originGroupId := "sec-edgar"
  knowableAt := 10
  normalizedValueSha256 := sampleDigest 'd'
  numericValue := some 1001
  lineageComplete := true
  assertionId_valid := isContentId_digestOf rfl rfl
  value_valid := isSha256_digestOf rfl

def sampleYahoo : SourceAssertion ℚ where
  assertionId := "source-assertion:" ++ sampleDigest '2'
  cellId := sampleCell.cellId
  sourceId := "yahoo"
  originGroupId := "yahoo-finance"
  knowableAt := 20
  normalizedValueSha256 := sampleDigest 'e'
  numericValue := some 1000
  lineageComplete := true
  assertionId_valid := isContentId_digestOf rfl rfl
  value_valid := isSha256_digestOf rfl

theorem sample_admitted : Admitted sampleCell [sampleYahoo, sampleSec] :=
  ⟨by decide, by decide +kernel⟩

def sampleSha256 (_ : Json) : String := sampleDigest 'f'

theorem sample_decided : (classify samplePolicy 30 [sampleYahoo, sampleSec]).eligible ≠ [] ∧
    (representativesOf samplePolicy (classify samplePolicy 30 [sampleYahoo, sampleSec]).eligible >>=
      decisionOf Arithmetic.exact (fun _ => "1000.5") sampleSha256 samplePolicy).toOption.any fun decision =>
        decision.outcome = .agreed ∧ decision.selected.bind Prod.snd = some (2001 / 2) := by
  decide +kernel

end TrueAlpha.Contracts
