import TrueAlpha.Contracts.ReconciliationSpec

/-!
# Reconciliation reads only what was knowable

Two runs over assertions that share what was knowable at the cutoff differ at most in what they name as future.  An unregistered
source never changes the selected value.
-/

namespace TrueAlpha.Contracts

variable {N : Type}

structure SameKnowledge (result result' : ReconciliationResult N) : Prop where
  cellId : result'.cellId = result.cellId
  policyId : result'.policyId = result.policyId
  minimum : result'.minimumIndependentOriginGroups = result.minimumIndependentOriginGroups
  cutoff : result'.cutoff = result.cutoff
  eligible : result'.eligibleAssertionIds = result.eligibleAssertionIds
  unregistered : result'.unregisteredAssertionIds = result.unregisteredAssertionIds
  representatives : result'.representativeAssertionIds = result.representativeAssertionIds
  agreeing : result'.agreeingAssertionIds = result.agreeingAssertionIds
  conflicting : result'.conflictingAssertionIds = result.conflictingAssertionIds
  origins : result'.originGroupIds = result.originGroupIds
  anchor : result'.comparisonAnchorAssertionId = result.comparisonAnchorAssertionId
  selected : result'.selectedAssertionId = result.selectedAssertionId
  value : result'.selectedValueSha256 = result.selectedValueSha256
  numeric : result'.selectedNumericValue = result.selectedNumericValue
  lineage : result'.lineageComplete = result.lineageComplete
  outcome : result'.outcome = result.outcome ∨ result.outcome = .unavailable ∧ result'.outcome = .notYetKnowable ∨
    result.outcome = .notYetKnowable ∧ result'.outcome = .unavailable
  reasons : result'.reasonCodes.filter (· ≠ futureReason) = result.reasonCodes.filter (· ≠ futureReason)

structure SameSelection (result result' : ReconciliationResult N) : Prop where
  selected : result'.selectedAssertionId = result.selectedAssertionId
  value : result'.selectedValueSha256 = result.selectedValueSha256
  numeric : result'.selectedNumericValue = result.selectedNumericValue

section Classify

variable (policy : ReconciliationPolicy) {cutoff : Instant} {cell : ReconciliationCell}
  {assertions assertions' : List (SourceAssertion N)}

theorem filter_ordered_eq (h : Admitted cell assertions) (h' : Admitted cell assertions')
    (p : SourceAssertion N → Bool) (hsame : ∀ a, p a = true → (a ∈ assertions' ↔ a ∈ assertions)) :
    (sortedBy SourceAssertion.assertionId assertions').filter p = (sortedBy SourceAssertion.assertionId assertions).filter p := by
  refine eq_of_strictSorted_key SourceAssertion.assertionId ((strictSorted_sortedBy _ h'.distinct).filter _)
    ((strictSorted_sortedBy _ h.distinct).filter _) fun a => ?_
  rw [List.mem_filter, List.mem_filter, mem_sortedBy, mem_sortedBy]
  exact and_congr_left (hsame a)

theorem eligible_eq (h : Admitted cell assertions) (h' : Admitted cell assertions')
    (hsame : ∀ a, a.knowableAt ≤ cutoff → a.sourceId ∈ policy.sourcePriority → (a ∈ assertions' ↔ a ∈ assertions)) :
    (classify policy cutoff assertions').eligible = (classify policy cutoff assertions).eligible := by
  simp only [classify, List.filter_filter]
  refine filter_ordered_eq h h' _ fun a ha => ?_
  simp only [Bool.and_eq_true, decide_eq_true_eq] at ha
  exact hsame a ha.2 ha.1

theorem unregistered_eq (h : Admitted cell assertions) (h' : Admitted cell assertions')
    (hsame : ∀ a, a.knowableAt ≤ cutoff → (a ∈ assertions' ↔ a ∈ assertions)) :
    (classify policy cutoff assertions').unregistered = (classify policy cutoff assertions).unregistered := by
  simp only [classify, List.filter_filter]
  refine filter_ordered_eq h h' _ fun a ha => ?_
  simp only [Bool.and_eq_true, decide_eq_true_eq] at ha
  exact hsame a ha.2

end Classify

theorem filter_exclusionReasons {sorted sorted' : Classified N} (h : sorted'.unregistered = sorted.unregistered) :
    (exclusionReasons sorted').filter (· ≠ futureReason) = (exclusionReasons sorted).filter (· ≠ futureReason) := by
  have hfuture : ∀ sorted : Classified N, (if sorted.future ≠ [] then [futureReason] else []).filter (· ≠ futureReason) = [] := by
    intro sorted
    split_ifs <;> simp
  simp only [exclusionReasons, List.filter_append, hfuture, h]

theorem filter_sorted_reasons {reasons reasons' : List String}
    (h : reasons'.filter (· ≠ futureReason) = reasons.filter (· ≠ futureReason)) :
    (sortedBy id reasons').filter (· ≠ futureReason) = (sortedBy id reasons).filter (· ≠ futureReason) := by
  rw [filter_sortedBy, filter_sortedBy, h]

section Drafts

variable (str : N → String) (canonicalSha256 : Json → String) (cell : ReconciliationCell) (policy : ReconciliationPolicy)
  (cutoff : Instant) {sorted sorted' : Classified N}

theorem unavailable_sameKnowledge (hunregistered : sorted'.unregistered = sorted.unregistered) :
    SameKnowledge ((unavailableDraft cell policy cutoff sorted).normalized.identified str canonicalSha256)
      ((unavailableDraft cell policy cutoff sorted').normalized.identified str canonicalSha256) := by
  have hreasons : ("reconciliation.no_eligible_assertion" :: exclusionReasons sorted').filter (· ≠ futureReason) =
      ("reconciliation.no_eligible_assertion" :: exclusionReasons sorted).filter (· ≠ futureReason) := by
    rw [List.filter_cons, List.filter_cons, filter_exclusionReasons hunregistered]
  have houtcome : ∀ sorted : Classified N, ((unavailableDraft cell policy cutoff sorted).normalized.identified str
      canonicalSha256).outcome = if sorted.future ≠ [] then .notYetKnowable else .unavailable := fun _ => rfl
  refine ⟨rfl, rfl, rfl, rfl, rfl, ?_, rfl, rfl, rfl, rfl, rfl, rfl, rfl, rfl, rfl, ?_, filter_sorted_reasons hreasons⟩
  · show sortedBy id (idsOf sorted'.unregistered) = sortedBy id (idsOf sorted.unregistered)
    rw [hunregistered]
  · rw [houtcome, houtcome]
    by_cases hfuture : sorted.future = [] <;> by_cases hfuture' : sorted'.future = [] <;> simp [hfuture, hfuture']

theorem compared_sameKnowledge (hunregistered : sorted'.unregistered = sorted.unregistered)
    (heligible : sorted'.eligible = sorted.eligible) (representatives : List (SourceAssertion N))
    (decision : Decision N) :
    SameKnowledge
      ((comparedDraft cell policy cutoff sorted representatives decision).normalized.identified str canonicalSha256)
      ((comparedDraft cell policy cutoff sorted' representatives decision).normalized.identified str
        canonicalSha256) := by
  have hreasons : (comparedDraft cell policy cutoff sorted' representatives decision).reasonCodes.filter
        (· ≠ futureReason) =
      (comparedDraft cell policy cutoff sorted representatives decision).reasonCodes.filter (· ≠ futureReason) := by
    simp only [comparedDraft, List.filter_append, filter_exclusionReasons hunregistered, heligible]
  refine ⟨rfl, rfl, rfl, rfl, ?_, ?_, rfl, rfl, rfl, rfl, rfl, rfl, rfl, rfl, rfl, .inl rfl, filter_sorted_reasons hreasons⟩
  · show sortedBy id (idsOf sorted'.eligible) = sortedBy id (idsOf sorted.eligible)
    rw [heligible]
  · show sortedBy id (idsOf sorted'.unregistered) = sortedBy id (idsOf sorted.unregistered)
    rw [hunregistered]

end Drafts

section Runs

variable [DecidableEq N] (arithmetic : Arithmetic N) (str : N → String) {canonicalSha256 : Json → String}
  {cell : ReconciliationCell} (policy : ReconciliationPolicy) (cutoff : Instant)
  {assertions assertions' : List (SourceAssertion N)}

theorem reconcile_pair (hsha : ∀ content, isSha256 (canonicalSha256 content)) (h : Admitted cell assertions)
    (h' : Admitted cell assertions')
    (heligible : (classify policy cutoff assertions').eligible = (classify policy cutoff assertions).eligible) :
    (reconcileSourceAssertions arithmetic str canonicalSha256 cell assertions policy cutoff =
          .ok ((unavailableDraft cell policy cutoff (classify policy cutoff assertions)).normalized.identified str
            canonicalSha256) ∧
        reconcileSourceAssertions arithmetic str canonicalSha256 cell assertions' policy cutoff =
          .ok ((unavailableDraft cell policy cutoff (classify policy cutoff assertions')).normalized.identified str
            canonicalSha256)) ∨
      ∃ representatives decision, reconcileSourceAssertions arithmetic str canonicalSha256 cell assertions policy cutoff =
            .ok ((comparedDraft cell policy cutoff (classify policy cutoff assertions) representatives
              decision).normalized.identified str canonicalSha256) ∧
          reconcileSourceAssertions arithmetic str canonicalSha256 cell assertions' policy cutoff =
            .ok ((comparedDraft cell policy cutoff (classify policy cutoff assertions') representatives
              decision).normalized.identified str canonicalSha256) := by
  rcases reconcile_eq arithmetic str policy cutoff h hsha with
    ⟨hnone, hrun⟩ | ⟨hsome, representatives, decision, hreps, hdecision, hrun⟩
  · rcases reconcile_eq arithmetic str policy cutoff h' hsha with ⟨-, hrun'⟩ | ⟨hsome', -⟩
    · exact .inl ⟨hrun, hrun'⟩
    · exact absurd (heligible.trans hnone) hsome'
  · rcases reconcile_eq arithmetic str policy cutoff h' hsha with
      ⟨hnone', -⟩ | ⟨-, representatives', decision', hreps', hdecision', hrun'⟩
    · exact absurd (heligible.symm.trans hnone') hsome
    · rw [heligible, hreps] at hreps'
      cases hreps'
      rw [hdecision] at hdecision'
      cases hdecision'
      exact .inr ⟨representatives, decision, hrun, hrun'⟩

end Runs

/-- Runs that share what was knowable at the cutoff agree on all but the future assertions; unregistered sources never change the
selected value. -/
theorem reconcile_point_in_time [DecidableEq N] (arithmetic : Arithmetic N) (str : N → String)
    (canonicalSha256 : Json → String) (hsha : ∀ content, isSha256 (canonicalSha256 content)) (cell : ReconciliationCell)
    (policy : ReconciliationPolicy) (cutoff : Instant) (assertions assertions' : List (SourceAssertion N))
    (h : Admitted cell assertions) (h' : Admitted cell assertions') :
    ∃ result result', reconcileSourceAssertions arithmetic str canonicalSha256 cell assertions policy cutoff = .ok result ∧
      reconcileSourceAssertions arithmetic str canonicalSha256 cell assertions' policy cutoff = .ok result' ∧
      ((∀ a, a.knowableAt ≤ cutoff → (a ∈ assertions' ↔ a ∈ assertions)) → SameKnowledge result result') ∧
      ((∀ a, a.knowableAt ≤ cutoff → a.sourceId ∈ policy.sourcePriority → (a ∈ assertions' ↔ a ∈ assertions)) →
        SameSelection result result') := by
  obtain ⟨result, hresult⟩ := reconcile_total arithmetic str policy cutoff h hsha
  obtain ⟨result', hresult'⟩ := reconcile_total arithmetic str policy cutoff h' hsha
  refine ⟨result, result', hresult, hresult', fun hsame => ?_, fun hsame => ?_⟩
  · have hunregistered := unregistered_eq policy h h' hsame
    have heligible := eligible_eq policy h h' fun a ha _ => hsame a ha
    rcases reconcile_pair arithmetic str policy cutoff hsha h h' heligible with
      ⟨hrun, hrun'⟩ | ⟨representatives, decision, hrun, hrun'⟩
    · cases hresult.symm.trans hrun
      cases hresult'.symm.trans hrun'
      exact unavailable_sameKnowledge str canonicalSha256 cell policy cutoff hunregistered
    · cases hresult.symm.trans hrun
      cases hresult'.symm.trans hrun'
      exact compared_sameKnowledge str canonicalSha256 cell policy cutoff hunregistered heligible representatives decision
  · rcases reconcile_pair arithmetic str policy cutoff hsha h h' (eligible_eq policy h h' hsame) with
      ⟨hrun, hrun'⟩ | ⟨representatives, decision, hrun, hrun'⟩
    · cases hresult.symm.trans hrun
      cases hresult'.symm.trans hrun'
      exact ⟨rfl, rfl, rfl⟩
    · cases hresult.symm.trans hrun
      cases hresult'.symm.trans hrun'
      exact ⟨rfl, rfl, rfl⟩

def sampleFuture : SourceAssertion ℚ :=
  { sampleYahoo with
    assertionId := "source-assertion:" ++ sampleDigest '3'
    originGroupId := "moomoo"
    knowableAt := 40
    numericValue := some 5
    assertionId_valid := by decide +kernel }

theorem reconcile_point_in_time_sample : Admitted sampleCell [sampleYahoo, sampleSec] ∧
    Admitted sampleCell [sampleFuture, sampleSec, sampleYahoo] ∧
    ∃ result result', reconcileSourceAssertions Arithmetic.exact (fun _ => "1000.5") sampleSha256 sampleCell
        [sampleYahoo, sampleSec] samplePolicy 30 = .ok result ∧
      reconcileSourceAssertions Arithmetic.exact (fun _ => "1000.5") sampleSha256 sampleCell
        [sampleFuture, sampleSec, sampleYahoo] samplePolicy 30 = .ok result' ∧
      SameKnowledge result result' ∧ SameSelection result result' := by
  have hdigest : isSha256 (sampleDigest 'f') := by decide +kernel
  have hadmitted : Admitted sampleCell [sampleFuture, sampleSec, sampleYahoo] := ⟨by decide, by decide +kernel⟩
  have hsame : ∀ a, a.knowableAt ≤ 30 → (a ∈ [sampleFuture, sampleSec, sampleYahoo] ↔ a ∈ [sampleYahoo, sampleSec]) := by
    intro a ha
    have hne : a ≠ sampleFuture := by
      rintro rfl
      exact absurd ha (by decide)
    simp only [List.mem_cons, List.not_mem_nil, or_false, hne, false_or]
    exact or_comm
  obtain ⟨result, result', hresult, hresult', hknowledge, hselection⟩ := reconcile_point_in_time Arithmetic.exact
    (fun _ => "1000.5") sampleSha256 (fun _ => hdigest) sampleCell samplePolicy 30 _ _ sample_admitted hadmitted
  exact ⟨sample_admitted, hadmitted, result, result', hresult, hresult', hknowledge hsame, hselection fun a ha _ => hsame a ha⟩

end TrueAlpha.Contracts
