import TrueAlpha.Factors.ConfidenceOrder

/-!
# More failures of a source

A further failure lowers the reliability of a source, except that the first one of a source without a prior takes the ceiling
for unobserved sources away (`reliability_le_iff`).
-/

namespace TrueAlpha.Confidence

open Contracts

structure FailuresRaised (source failing : SourceConfidenceEvidence) : Prop where
  group : failing.originGroupId = source.originGroupId
  weight : failing.independenceWeight = source.independenceWeight
  prior : failing.reliabilityPrior = source.reliabilityPrior
  success : failing.successfulOutcomeMass = source.successfulOutcomeMass
  failure : source.failedOutcomeMass ≤ failing.failedOutcomeMass
  freshness : failing.freshness = source.freshness
  conformance : failing.sampleConformance = source.sampleConformance
  integrity : failing.transportIntegrity = source.transportIntegrity

def KeepsCeiling (policy : ContinuousConfidencePolicy) (source failing : SourceConfidenceEvidence) : Prop :=
  observedMass source = 0 → source.reliabilityPrior = none → observedMass failing ≠ 0 →
    posterior policy failing ≤ policy.unobservedReliabilityCeiling

namespace FailuresRaised

variable {source failing : SourceConfidenceEvidence} (policy : ContinuousConfidencePolicy)

section

variable (h : FailuresRaised source failing)

include h

theorem priorSuccess_eq : priorSuccess policy failing = priorSuccess policy source := by
  rw [priorSuccess, priorSuccess, h.prior]

theorem observedMass_le : observedMass source ≤ observedMass failing := by
  rw [observedMass, observedMass, h.success]
  exact add_le_add_right h.failure _

theorem posterior_le : posterior policy failing ≤ posterior policy source := by
  have hnonneg : 0 ≤ source.successfulOutcomeMass + priorSuccess policy source :=
    add_nonneg source.success_nonneg (priorSuccess_nonneg policy source)
  rw [posterior, posterior, h.success, h.priorSuccess_eq policy]
  exact div_le_div_of_nonneg_left hnonneg (mass_pos policy source) (add_le_add_left h.observedMass_le _)

theorem reliability_le_iff : reliability policy failing ≤ reliability policy source ↔ KeepsCeiling policy source failing := by
  have hle := h.posterior_le policy
  unfold KeepsCeiling
  rw [reliability_eq, reliability_eq, h.prior]
  by_cases hprior : source.reliabilityPrior = none
  swap
  · simp [hprior, hle]
  by_cases hsource : observedMass source = 0
  swap
  · have hfailing : observedMass failing ≠ 0 :=
      (lt_of_lt_of_le (lt_of_le_of_ne (observedMass_nonneg source) (Ne.symm hsource)) h.observedMass_le).ne'
    simp [hsource, hfailing, hle]
  by_cases hfailing : observedMass failing = 0
  · simp [hprior, hsource, hfailing, hle]
  · simp [hprior, hsource, hfailing, hle]

theorem sourceQuality_le (hceiling : KeepsCeiling policy source failing) :
    sourceQuality policy failing ≤ sourceQuality policy source := by
  have hreliability := (h.reliability_le_iff policy).mpr hceiling
  rw [sourceQuality, sourceQuality, h.freshness, h.conformance, h.integrity]
  gcongr
  · exact source.integrity_unit.1
  · exact source.conformance_unit.1
  · exact source.freshness_unit.1

theorem support_le (hceiling : KeepsCeiling policy source failing) :
    (supportOf policy failing).2 ≤ (supportOf policy source).2 := by
  show failing.independenceWeight * _ ≤ source.independenceWeight * _
  rw [h.weight]
  exact mul_le_mul_of_nonneg_left (h.sourceQuality_le policy hceiling) source.weight_unit.1

end

end FailuresRaised

structure FailingInput (evidence : ContinuousConfidenceInput) (source failing : SourceConfidenceEvidence)
    (worse : ContinuousConfidenceInput) : Prop where
  failures : FailuresRaised source failing
  sources : ∃ others, evidence.sources.Perm (source :: others) ∧ worse.sources.Perm (failing :: others)
  agreement : worse.agreement = evidence.agreement
  semanticMapping : worse.semanticMappingQuality = evidence.semanticMappingQuality
  lineage : worse.lineageCompleteness = evidence.lineageCompleteness
  completeness : worse.requiredComponentCompleteness = evidence.requiredComponentCompleteness

theorem FailingInput.mass_le {evidence worse : ContinuousConfidenceInput} {source failing : SourceConfidenceEvidence}
    (h : FailingInput evidence source failing worse) (policy : ContinuousConfidencePolicy)
    (hceiling : KeepsCeiling policy source failing) :
    evidenceMass policy worse.sources ≤ evidenceMass policy evidence.sources := by
  obtain ⟨others, hbefore, hafter⟩ := h.sources
  refine evidenceMass_mono policy fun new hnew => ?_
  rcases List.mem_cons.mp (hafter.mem_iff.mp hnew) with rfl | hold
  · exact ⟨source, hbefore.mem_iff.mpr List.mem_cons_self, h.failures.group.symm, h.failures.support_le policy hceiling⟩
  · exact ⟨new, hbefore.mem_iff.mpr (List.mem_cons_of_mem source hold), rfl, le_rfl⟩

/-- More failures never raise the confidence, unless they take away the ceiling of a source without an outcome or a prior and
their ratio is above it. -/
theorem failures_never_raise (policy : ContinuousConfidencePolicy) {evidence worse : ContinuousConfidenceInput}
    {source failing : SourceConfidenceEvidence} (h : FailingInput evidence source failing worse) :
    (KeepsCeiling policy source failing → ∃ evaluation evaluation',
      evaluateContinuousConfidence policy evidence = .ok evaluation ∧
      evaluateContinuousConfidence policy worse = .ok evaluation' ∧ evaluation'.confidence ≤ evaluation.confidence) ∧
    (¬ KeepsCeiling policy source failing → reliability policy source < reliability policy failing) := by
  refine ⟨fun hceiling => ?_, fun hceiling => ?_⟩
  · obtain ⟨evaluation, hok, hconfidence⟩ := evaluate_spec policy evidence
    obtain ⟨evaluation', hok', hconfidence'⟩ := evaluate_spec policy worse
    refine ⟨evaluation, evaluation', hok, hok', ?_⟩
    rw [hconfidence, hconfidence']
    have hqualities : QualitiesLe worse evidence := ⟨h.agreement.le, h.semanticMapping.le, h.lineage.le, h.completeness.le⟩
    exact confidenceOf_le policy hqualities (h.mass_le policy hceiling)
  · exact lt_of_not_ge (mt (h.failures.reliability_le_iff policy).mp hceiling)

theorem failures_nonneg (failures : ℕ) : 0 ≤ (failures : ℚ) := Nat.cast_nonneg failures

theorem inUnit_one : InUnit 1 := by norm_num [InUnit]

theorem unhashed_identified : "confidence-input:" = "confidence-input:" ++ "" := by decide

def failedSource (failures : ℕ) : SourceConfidenceEvidence :=
  { sampleSource "a" 0 with failedOutcomeMass := failures, failure_nonneg := failures_nonneg failures }

def failedInput (failures : ℕ) : ContinuousConfidenceInput where
  inputId := "confidence-input:"
  contentSha256 := ""
  sources := [failedSource failures]
  agreement := 1
  semanticMappingQuality := 1
  lineageCompleteness := 1
  requiredComponentCompleteness := 1
  sources_nonempty := by simp
  sources_sorted := by simp
  weights_shared := by simp
  agreement_unit := inUnit_one
  semanticMapping_unit := inUnit_one
  lineage_unit := inUnit_one
  completeness_unit := inUnit_one
  identified := unhashed_identified

theorem failedInput_failing {failures failures' : ℕ} (h : failures ≤ failures') :
    FailingInput (failedInput failures) (failedSource failures) (failedSource failures') (failedInput failures') where
  failures := ⟨rfl, rfl, rfl, rfl, Nat.cast_le.mpr h, rfl, rfl, rfl⟩
  sources := ⟨[], List.Perm.refl _, List.Perm.refl _⟩
  agreement := rfl
  semanticMapping := rfl
  lineage := rfl
  completeness := rfl

/-- One more failure does not raise the confidence of a source with a failure. -/
theorem failures_never_raise_sample : ∃ evaluation evaluation',
    evaluateContinuousConfidence (defaultConfidencePolicy "") (failedInput 1) = .ok evaluation ∧
    evaluateContinuousConfidence (defaultConfidencePolicy "") (failedInput 2) = .ok evaluation' ∧
    evaluation'.confidence ≤ evaluation.confidence := by
  have hobserved : observedMass (failedSource 1) ≠ 0 := by decide +kernel
  exact (failures_never_raise (defaultConfidencePolicy "") (failedInput_failing one_le_two)).1
    fun hunobserved => absurd hunobserved hobserved

def lowCeilingPolicy : ContinuousConfidencePolicy :=
  { defaultConfidencePolicy "" with unobservedReliabilityCeiling := 1 / 5, ceiling_unit := by norm_num [InUnit] }

theorem confidenceOf_failedInput (policy : ContinuousConfidencePolicy) (failures : ℕ) :
    confidenceOf policy (failedInput failures) = quantize policy.outputDecimalPlaces
      (quantize policy.outputDecimalPlaces (sourceSupport (evidenceMass policy (failedInput failures).sources))) := by
  have hpower : ∀ exponent, power 1 exponent = 1 := by
    intro exponent
    simp [power]
  simp [confidenceOf, scaledSupport, failedInput, hpower]

theorem sourceSupport_le_mass (mass : ℚ) : sourceSupport mass ≤ mass := by
  have h := Real.add_one_le_exp (-(mass : ℝ))
  rw [sourceSupport]
  linarith

theorem div_le_sourceSupport {mass : ℚ} (hmass : 0 ≤ mass) : (mass : ℝ) / (mass + 1) ≤ sourceSupport mass := by
  have hreal : (0 : ℝ) ≤ mass := by exact_mod_cast hmass
  have hpos : (0 : ℝ) < mass + 1 := by linarith
  have hinv : (Real.exp mass)⁻¹ ≤ ((mass : ℝ) + 1)⁻¹ := inv_anti₀ hpos (Real.add_one_le_exp (mass : ℝ))
  have hdiv : (mass : ℝ) / (mass + 1) = 1 - ((mass : ℝ) + 1)⁻¹ := by
    field_simp
    ring
  rw [sourceSupport, Real.exp_neg, hdiv]
  exact sub_le_sub_left hinv 1

theorem quantize_fifths (n : ℕ) : quantize 6 ((n : ℝ) / 5) = n / 5 := by
  have hscaled : (n : ℝ) / 5 = ((200000 * n : ℤ) : ℝ) / 10 ^ 6 := by
    push_cast
    ring
  rw [hscaled]
  exact quantize_div_pow 6 (200000 * n : ℤ)

/-- The first failure takes the ceiling away and raises the confidence. -/
theorem failure_raises_confidence : ¬ ∀ (policy : ContinuousConfidencePolicy)
    (evidence worse : ContinuousConfidenceInput) (source failing : SourceConfidenceEvidence),
    FailingInput evidence source failing worse → ∃ evaluation evaluation',
      evaluateContinuousConfidence policy evidence = .ok evaluation ∧
      evaluateContinuousConfidence policy worse = .ok evaluation' ∧ evaluation'.confidence ≤ evaluation.confidence := by
  intro h
  obtain ⟨evaluation, evaluation', hok, hok', hle⟩ := h lowCeilingPolicy _ _ _ _ (failedInput_failing zero_le_one)
  have hmass : evidenceMass lowCeilingPolicy (failedInput 0).sources = 1 / 5 := by decide +kernel
  have hmass' : evidenceMass lowCeilingPolicy (failedInput 1).sources = 8 / 11 := by decide +kernel
  have hbefore : evaluation.confidence ≤ 1 / 5 := by
    obtain ⟨same, hsame, hconfidence⟩ := evaluate_spec lowCeilingPolicy (failedInput 0)
    rw [hsame] at hok
    cases hok
    have hfifth : quantize 6 ((1 : ℝ) / 5) = 1 / 5 := by simpa using quantize_fifths 1
    have hsupport : sourceSupport (1 / 5) ≤ 1 / 5 := by simpa using sourceSupport_le_mass (1 / 5)
    rw [hconfidence, confidenceOf_failedInput, hmass]
    calc quantize 6 (quantize 6 (sourceSupport (1 / 5))) ≤ quantize 6 (quantize 6 (1 / 5)) :=
          quantize_mono 6 (quantize_mono 6 hsupport)
      _ = 1 / 5 := by rw [hfifth, hfifth]
  have hafter : 2 / 5 ≤ evaluation'.confidence := by
    obtain ⟨same, hsame, hconfidence⟩ := evaluate_spec lowCeilingPolicy (failedInput 1)
    rw [hsame] at hok'
    cases hok'
    have hfifths : quantize 6 ((2 : ℝ) / 5) = 2 / 5 := by simpa using quantize_fifths 2
    have hsupport : 2 / 5 ≤ sourceSupport (8 / 11) := by
      have hlow := div_le_sourceSupport (show (0 : ℚ) ≤ 8 / 11 by norm_num)
      push_cast at hlow
      exact le_trans (by norm_num) hlow
    rw [hconfidence, confidenceOf_failedInput, hmass']
    calc (2 : ℝ) / 5 = quantize 6 (quantize 6 (2 / 5)) := by rw [hfifths, hfifths]
      _ ≤ quantize 6 (quantize 6 (sourceSupport (8 / 11))) := quantize_mono 6 (quantize_mono 6 hsupport)
  linarith

end TrueAlpha.Confidence
