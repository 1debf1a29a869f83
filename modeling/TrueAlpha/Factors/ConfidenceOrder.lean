import TrueAlpha.Factors.Confidence

/-!
# The order of the continuous confidence

The confidence is `confidenceOf`, a monotone function of the evidence mass and of four qualities.  The mass sums the best
supports of the groups, so a source that is not the best of its group changes nothing.
-/

namespace TrueAlpha.Confidence

open Contracts

theorem inUnit_mul {a b : ℚ} (ha : InUnit a) (hb : InUnit b) : InUnit (a * b) :=
  ⟨mul_nonneg ha.1 hb.1, mul_le_one₀ ha.2 hb.1 hb.2⟩

theorem inUnit_quantize (places : ℕ) {a : ℚ} (ha : InUnit a) : InUnit (quantize places a) :=
  ⟨quantize_nonneg places ha.1, quantize_le_one places ha.2⟩

section Sources

variable (policy : ContinuousConfidencePolicy) (source : SourceConfidenceEvidence)

theorem priorTotal_pos : 0 < priorTotal policy := policy.prior_pos

theorem observedMass_nonneg : 0 ≤ observedMass source := add_nonneg source.success_nonneg source.failure_nonneg

theorem mass_pos : 0 < observedMass source + priorTotal policy :=
  add_pos_of_nonneg_of_pos (observedMass_nonneg source) (priorTotal_pos policy)

theorem priorSuccess_nonneg : 0 ≤ priorSuccess policy source := by
  unfold priorSuccess
  cases hprior : source.reliabilityPrior with
  | none => exact policy.success_nonneg
  | some prior => exact mul_nonneg (source.prior_unit prior hprior).1 (priorTotal_pos policy).le

theorem priorSuccess_le : priorSuccess policy source ≤ priorTotal policy := by
  unfold priorSuccess
  cases hprior : source.reliabilityPrior with
  | none => exact le_add_of_nonneg_right policy.failure_nonneg
  | some prior => exact mul_le_of_le_one_left (priorTotal_pos policy).le (source.prior_unit prior hprior).2

def posterior : ℚ := (source.successfulOutcomeMass + priorSuccess policy source) / (observedMass source + priorTotal policy)

theorem posterior_unit : InUnit (posterior policy source) := by
  have hsuccess := priorSuccess_nonneg policy source
  have hle := priorSuccess_le policy source
  have hfailure := source.failure_nonneg
  refine ⟨div_nonneg (add_nonneg source.success_nonneg hsuccess) (mass_pos policy source).le, ?_⟩
  rw [posterior, div_le_one (mass_pos policy source), observedMass]
  linarith

theorem reliability_eq : reliability policy source =
    if observedMass source = 0 ∧ source.reliabilityPrior = none then
      min (posterior policy source) policy.unobservedReliabilityCeiling
    else posterior policy source := rfl

theorem reliability_unit : InUnit (reliability policy source) := by
  have hposterior := posterior_unit policy source
  rw [reliability_eq]
  split_ifs
  · exact ⟨le_min hposterior.1 policy.ceiling_unit.1, (min_le_left ..).trans hposterior.2⟩
  · exact hposterior

theorem reliability_le_posterior : reliability policy source ≤ posterior policy source := by
  rw [reliability_eq]
  split_ifs
  · exact min_le_left ..
  · exact le_rfl

theorem sourceQuality_unit : InUnit (sourceQuality policy source) :=
  inUnit_mul (inUnit_mul (inUnit_mul (reliability_unit policy source) source.freshness_unit) source.conformance_unit)
    source.integrity_unit

end Sources

structure SourceRaised (source raised : SourceConfidenceEvidence) : Prop where
  group : raised.originGroupId = source.originGroupId
  weight : source.independenceWeight ≤ raised.independenceWeight
  noPrior : source.reliabilityPrior = none → raised.reliabilityPrior = none
  prior : ∀ prior ∈ source.reliabilityPrior, ∃ prior' ∈ raised.reliabilityPrior, prior ≤ prior'
  success : source.successfulOutcomeMass ≤ raised.successfulOutcomeMass
  failure : raised.failedOutcomeMass = source.failedOutcomeMass
  freshness : source.freshness ≤ raised.freshness
  conformance : source.sampleConformance ≤ raised.sampleConformance
  integrity : source.transportIntegrity ≤ raised.transportIntegrity

namespace SourceRaised

variable {source raised : SourceConfidenceEvidence} (policy : ContinuousConfidencePolicy)

section

variable (h : SourceRaised source raised)

include h

theorem priorSuccess_le : priorSuccess policy source ≤ priorSuccess policy raised := by
  unfold priorSuccess
  cases hprior : source.reliabilityPrior with
  | none => rw [h.noPrior hprior]
  | some prior =>
    obtain ⟨prior', hprior', hle⟩ := h.prior prior hprior
    rw [Option.mem_def.mp hprior']
    exact mul_le_mul_of_nonneg_right hle (priorTotal_pos policy).le

theorem posterior_le : posterior policy source ≤ posterior policy raised := by
  have hprior := h.priorSuccess_le policy
  have hsuccess : source.successfulOutcomeMass + priorSuccess policy source ≤
      raised.successfulOutcomeMass + priorSuccess policy raised := add_le_add h.success hprior
  have hnonneg : 0 ≤ raised.successfulOutcomeMass + priorSuccess policy raised :=
    add_nonneg raised.success_nonneg (priorSuccess_nonneg policy raised)
  have hrest : 0 ≤ raised.failedOutcomeMass + (priorTotal policy - priorSuccess policy raised) :=
    add_nonneg raised.failure_nonneg (sub_nonneg.mpr (Confidence.priorSuccess_le policy raised))
  have hrest' : raised.failedOutcomeMass + (priorTotal policy - priorSuccess policy raised) ≤
      source.failedOutcomeMass + (priorTotal policy - priorSuccess policy source) := by
    rw [h.failure]
    exact add_le_add_right (sub_le_sub_left hprior _) _
  have hcross := mul_le_mul hsuccess hrest' hrest hnonneg
  rw [posterior, posterior, div_le_div_iff₀ (mass_pos policy source) (mass_pos policy raised), observedMass, observedMass]
  linarith

theorem mass_eq_zero (hmass : observedMass raised = 0) : observedMass source = 0 := by
  have hsuccess := h.success
  have hfailure := h.failure
  have hraised := raised.success_nonneg
  have hraised' := raised.failure_nonneg
  have hsource := source.success_nonneg
  rw [observedMass] at hmass ⊢
  linarith

theorem noPrior_of_raised (hprior : raised.reliabilityPrior = none) : source.reliabilityPrior = none := by
  cases hsource : source.reliabilityPrior with
  | none => rfl
  | some prior =>
    obtain ⟨prior', hprior', -⟩ := h.prior prior hsource
    rw [hprior] at hprior'
    cases hprior'

theorem reliability_le : reliability policy source ≤ reliability policy raised := by
  rw [reliability_eq policy raised]
  by_cases hcapped : observedMass raised = 0 ∧ raised.reliabilityPrior = none
  · have hsource : observedMass source = 0 ∧ source.reliabilityPrior = none :=
      ⟨h.mass_eq_zero hcapped.1, h.noPrior_of_raised hcapped.2⟩
    rw [if_pos hcapped, reliability_eq, if_pos hsource]
    exact min_le_min_right _ (h.posterior_le policy)
  · rw [if_neg hcapped]
    exact (reliability_le_posterior policy source).trans (h.posterior_le policy)

theorem sourceQuality_le : sourceQuality policy source ≤ sourceQuality policy raised := by
  have hreliability := reliability_unit policy raised
  have hfirst := mul_le_mul (h.reliability_le policy) h.freshness source.freshness_unit.1 hreliability.1
  have hsecond := mul_le_mul hfirst h.conformance source.conformance_unit.1
    (inUnit_mul hreliability raised.freshness_unit).1
  exact mul_le_mul hsecond h.integrity source.integrity_unit.1
    (inUnit_mul (inUnit_mul hreliability raised.freshness_unit) raised.conformance_unit).1

end

end SourceRaised

section Mass

variable (policy : ContinuousConfidencePolicy) {sources : List SourceConfidenceEvidence}

def supportOf (source : SourceConfidenceEvidence) : String × ℚ :=
  (source.originGroupId, source.independenceWeight * sourceQuality policy source)

theorem supportOf_unit (source : SourceConfidenceEvidence) : InUnit (supportOf policy source).2 :=
  inUnit_mul source.weight_unit (sourceQuality_unit policy source)

def evidenceMass (sources : List SourceConfidenceEvidence) : ℚ := sumOfBest (sources.map (supportOf policy))

theorem evidenceMass_mono {sources' : List SourceConfidenceEvidence}
    (h : ∀ source ∈ sources, ∃ other ∈ sources', other.originGroupId = source.originGroupId ∧
      (supportOf policy source).2 ≤ (supportOf policy other).2) :
    evidenceMass policy sources ≤ evidenceMass policy sources' := by
  refine sumOfBest_mono fun a ha => ?_
  obtain ⟨source, hsource, rfl⟩ := List.mem_map.mp ha
  obtain ⟨other, hother, hgroup, hle⟩ := h source hsource
  exact ⟨supportOf policy other, List.mem_map_of_mem hother, hgroup, hle⟩

theorem selectSource_spec {candidates : List (SourceConfidenceEvidence × ℚ)} (hne : candidates ≠ []) :
    ∃ selected ∈ candidates, selectSource candidates = .ok selected ∧ ∀ candidate ∈ candidates, candidate.2 ≤ selected.2 := by
  unfold selectSource
  cases hsorted : sortedBy candidateKey candidates with
  | nil =>
    have hperm := perm_sortedBy candidateKey candidates
    rw [hsorted] at hperm
    exact absurd hperm.symm.eq_nil hne
  | cons selected rest =>
    have hmem : ∀ candidate, candidate ∈ candidates ↔ candidate ∈ selected :: rest := by
      intro candidate
      rw [← hsorted, mem_sortedBy]
    have hfirst := pairwise_sortedBy candidateKey candidates
    rw [hsorted, List.pairwise_cons] at hfirst
    refine ⟨selected, (hmem selected).mpr List.mem_cons_self, rfl, fun candidate hcandidate => ?_⟩
    rcases List.mem_cons.mp ((hmem candidate).mp hcandidate) with rfl | hrest
    · exact le_rfl
    · rcases Prod.Lex.toLex_le_toLex.mp (hfirst.1 candidate hrest) with hlt | ⟨heq, -⟩
      · exact (neg_lt_neg_iff.mp hlt).le
      · exact (neg_injective heq).ge

theorem contribute_spec (hweights : ∀ a ∈ sources, ∀ b ∈ sources, a.originGroupId = b.originGroupId →
      a.independenceWeight = b.independenceWeight) {group : String × List (SourceConfidenceEvidence × ℚ)}
    (hgroup : group ∈ (groupSources policy sources).items) :
    ∃ contribution, contribute policy group = .ok (contribution, bestOf (sources.map (supportOf policy)) group.1) ∧
      contribution.originGroupId = group.1 ∧
      ∃ source ∈ sources, source.sourceEvidenceId = contribution.selectedSourceEvidenceId ∧ source.originGroupId = group.1 := by
  have hcandidates : ∀ candidate, candidate ∈ group.2 ↔ candidate.1 ∈ sources ∧
      candidate.2 = sourceQuality policy candidate.1 ∧ candidate.1.originGroupId = group.1 := by
    intro candidate
    rw [mem_items_groupBy hgroup, List.mem_filter, List.mem_map, decide_eq_true_eq]
    constructor
    · rintro ⟨⟨source, hsource, rfl⟩, hkey⟩
      exact ⟨hsource, rfl, hkey⟩
    · rintro ⟨hsource, hquality, hkey⟩
      exact ⟨⟨candidate.1, hsource, by rw [← hquality]⟩, hkey⟩
  obtain ⟨selected, hselected, hselect, hbest⟩ := selectSource_spec (groupBy_ne_nil hgroup)
  obtain ⟨hsource, hquality, hkey⟩ := (hcandidates selected).mp hselected
  have hsupport : bestOf (sources.map (supportOf policy)) group.1 = selected.1.independenceWeight * selected.2 := by
    have hmem : supportOf policy selected.1 ∈ sources.map (supportOf policy) := List.mem_map_of_mem hsource
    have hbest' : ∀ b ∈ sources.map (supportOf policy), b.1 = (supportOf policy selected.1).1 →
        b.2 ≤ (supportOf policy selected.1).2 := by
      intro b hb hsame
      obtain ⟨other, hother, rfl⟩ := List.mem_map.mp hb
      have hle := hbest (other, sourceQuality policy other) ((hcandidates _).mpr ⟨hother, rfl, hsame.trans hkey⟩)
      rw [hquality] at hle
      show other.independenceWeight * _ ≤ selected.1.independenceWeight * _
      rw [hweights other hother selected.1 hsource hsame]
      exact mul_le_mul_of_nonneg_left hle selected.1.weight_unit.1
    rw [← hkey, hquality]
    exact bestOf_eq hmem (supportOf_unit policy selected.1).1 hbest'
  have hunit : InUnit selected.2 := hquality ▸ sourceQuality_unit policy selected.1
  let contribution : OriginGroupContribution := {
    originGroupId := group.1
    independenceWeight := selected.1.independenceWeight
    selectedSourceEvidenceId := selected.1.sourceEvidenceId
    selectedSourceQuality := quantize policy.outputDecimalPlaces selected.2
    effectiveSupport := quantize policy.outputDecimalPlaces (selected.1.independenceWeight * selected.2) }
  have hbuild : contribution.build = .ok contribution :=
    OriginGroupContribution.build_eq_ok selected.1.weight_unit (inUnit_quantize _ hunit)
      (inUnit_quantize _ (inUnit_mul selected.1.weight_unit hunit))
  refine ⟨contribution, ?_, rfl, selected.1, hsource, rfl, hkey⟩
  rw [contribute, hselect, ok_bind, hsupport]
  dsimp only
  rw [hbuild, ok_bind]
  rfl

theorem contributions_spec (hweights : ∀ a ∈ sources, ∀ b ∈ sources, a.originGroupId = b.originGroupId →
      a.independenceWeight = b.independenceWeight) :
    ∃ contributions, (groupSources policy sources).items.mapM (contribute policy) = .ok contributions ∧
      (contributions.map Prod.snd).foldl (· + ·) 0 = evidenceMass policy sources ∧
      contributions.map (fun contribution => contribution.1.originGroupId) = (groupSources policy sources).keys ∧
      ∀ contribution ∈ contributions, ∃ source ∈ sources, source.sourceEvidenceId = contribution.1.selectedSourceEvidenceId ∧
        source.originGroupId = contribution.1.originGroupId := by
  have heach : ∀ group ∈ (groupSources policy sources).items, ∃ contribution, contribute policy group = .ok contribution ∧
      contribution.2 = bestOf (sources.map (supportOf policy)) group.1 ∧ contribution.1.originGroupId = group.1 ∧
      ∃ source ∈ sources, source.sourceEvidenceId = contribution.1.selectedSourceEvidenceId ∧
        source.originGroupId = contribution.1.originGroupId := by
    intro group hgroup
    obtain ⟨contribution, hok, hid, source, hsource, hselected, hkey⟩ := contribute_spec policy hweights hgroup
    exact ⟨_, hok, rfl, hid, source, hsource, hselected, hkey.trans hid.symm⟩
  obtain ⟨contributions, hok, hall⟩ := exists_mapM_of_forall heach
  have hkeys : (groupSources policy sources).keys.toFinset = ((sources.map (supportOf policy)).map Prod.fst).toFinset := by
    ext k
    rw [List.mem_toFinset, List.mem_toFinset, groupSources, mem_keys_groupBy, List.map_map, List.map_map]
    rfl
  refine ⟨contributions, hok, ?_, ?_, ?_⟩
  · rw [← List.sum_eq_foldl, map_eq_map_of_forall₂ (hall.imp fun _ _ h => h.1), evidenceMass, sumOfBest, ← hkeys,
      List.sum_toFinset _ (groupSources policy sources).nodup, Dict.keys, List.map_map]
    rfl
  · exact map_eq_map_of_forall₂ (hall.imp fun _ _ h => h.2.1)
  · intro contribution hcontribution
    obtain ⟨group, hgroup, hof⟩ := exists_of_mem_mapM hok hcontribution
    obtain ⟨_, hof', -, -, hsource⟩ := heach group hgroup
    rw [hof] at hof'
    cases hof'
    exact hsource

end Mass

def RealUnit (value : ℝ) : Prop := 0 ≤ value ∧ value ≤ 1

theorem realUnit_mul {a b : ℝ} (ha : RealUnit a) (hb : RealUnit b) : RealUnit (a * b) :=
  ⟨mul_nonneg ha.1 hb.1, mul_le_one₀ ha.2 hb.1 hb.2⟩

theorem realUnit_quantize (places : ℕ) {a : ℝ} (ha : RealUnit a) : RealUnit (quantize places a) :=
  ⟨quantize_nonneg places ha.1, quantize_le_one places ha.2⟩

theorem power_nonneg (value exponent : ℚ) : 0 ≤ power value exponent := by
  unfold power
  split_ifs
  · exact le_rfl
  · exact (Real.exp_pos _).le

theorem power_unit {value exponent : ℚ} (hvalue : InUnit value) (hexponent : 0 < exponent) : RealUnit (power value exponent) := by
  refine ⟨power_nonneg value exponent, ?_⟩
  unfold power
  split_ifs
  · exact zero_le_one
  · have hlow : (0 : ℝ) ≤ value := by exact_mod_cast hvalue.1
    have hhigh : (value : ℝ) ≤ 1 := by exact_mod_cast hvalue.2
    have hpos : (0 : ℝ) ≤ exponent := by exact_mod_cast hexponent.le
    exact Real.exp_le_one_iff.mpr (mul_nonpos_of_nonpos_of_nonneg (Real.log_nonpos hlow hhigh) hpos)

theorem power_le {value value' exponent : ℚ} (hvalue : 0 ≤ value) (hle : value ≤ value') (hexponent : 0 < exponent) :
    power value exponent ≤ power value' exponent := by
  by_cases hzero : value = 0
  · rw [power, if_pos hzero]
    exact power_nonneg value' exponent
  · have hpos : 0 < value := lt_of_le_of_ne hvalue (Ne.symm hzero)
    have hzero' : value' ≠ 0 := (hpos.trans_le hle).ne'
    have hreal : (0 : ℝ) < value := by exact_mod_cast hpos
    have hreal' : (value : ℝ) ≤ value' := by exact_mod_cast hle
    have hexponent' : (0 : ℝ) ≤ exponent := by exact_mod_cast hexponent.le
    rw [power, if_neg hzero, power, if_neg hzero']
    exact Real.exp_le_exp.mpr (mul_le_mul_of_nonneg_right (Real.log_le_log hreal hreal') hexponent')

/-- The support of a mass before it is quantized. -/
noncomputable def sourceSupport (mass : ℚ) : ℝ := 1 - Real.exp (-(mass : ℝ))

theorem sourceSupport_unit {mass : ℚ} (h : 0 ≤ mass) : RealUnit (sourceSupport mass) := by
  have hmass : -(mass : ℝ) ≤ 0 := neg_nonpos.mpr (by exact_mod_cast h)
  exact ⟨sub_nonneg.mpr (Real.exp_le_one_iff.mpr hmass), sub_le_self 1 (Real.exp_pos _).le⟩

theorem sourceSupport_le {mass mass' : ℚ} (h : mass ≤ mass') : sourceSupport mass ≤ sourceSupport mass' := by
  have hmass : -(mass' : ℝ) ≤ -(mass : ℝ) := neg_le_neg (by exact_mod_cast h)
  exact sub_le_sub_left (Real.exp_le_exp.mpr hmass) 1

section Formula

variable (policy : ContinuousConfidencePolicy)

noncomputable def confidenceOf (evidence : ContinuousConfidenceInput) : ℝ :=
  quantize policy.outputDecimalPlaces (scaledSupport policy evidence
    (quantize policy.outputDecimalPlaces (sourceSupport (evidenceMass policy evidence.sources))))

theorem scaledSupport_unit (evidence : ContinuousConfidenceInput) {support : ℝ} (hsupport : RealUnit support) :
    RealUnit (scaledSupport policy evidence support) := by
  obtain ⟨hagreement, hmapping, hlineage, hcompleteness⟩ := policy.exponents_pos
  exact realUnit_mul (realUnit_mul (realUnit_mul (realUnit_mul hsupport
    (power_unit evidence.agreement_unit hagreement)) (power_unit evidence.semanticMapping_unit hmapping))
    (power_unit evidence.lineage_unit hlineage)) (power_unit evidence.completeness_unit hcompleteness)

theorem confidenceOf_unit (evidence : ContinuousConfidenceInput) : RealUnit (confidenceOf policy evidence) := by
  have hmass : 0 ≤ evidenceMass policy evidence.sources := sumOfBest_nonneg _
  exact realUnit_quantize _ (scaledSupport_unit policy evidence (realUnit_quantize _ (sourceSupport_unit hmass)))

structure QualitiesLe (evidence better : ContinuousConfidenceInput) : Prop where
  agreement : evidence.agreement ≤ better.agreement
  semanticMapping : evidence.semanticMappingQuality ≤ better.semanticMappingQuality
  lineage : evidence.lineageCompleteness ≤ better.lineageCompleteness
  completeness : evidence.requiredComponentCompleteness ≤ better.requiredComponentCompleteness

variable {evidence better : ContinuousConfidenceInput}

theorem scaledSupport_le (h : QualitiesLe evidence better)
    {support support' : ℝ} (hsupport : 0 ≤ support) (hle : support ≤ support') :
    scaledSupport policy evidence support ≤ scaledSupport policy better support' := by
  obtain ⟨hagreement, hmapping, hlineage, hcompleteness⟩ := policy.exponents_pos
  have hfirst := mul_le_mul hle (power_le evidence.agreement_unit.1 h.agreement hagreement) (power_nonneg ..)
    (hsupport.trans hle)
  have hfirst' : 0 ≤ support' * power better.agreement policy.agreementExponent :=
    mul_nonneg (hsupport.trans hle) (power_nonneg ..)
  have hsecond := mul_le_mul hfirst (power_le evidence.semanticMapping_unit.1 h.semanticMapping hmapping)
    (power_nonneg ..) hfirst'
  have hsecond' := mul_nonneg hfirst' (power_nonneg better.semanticMappingQuality policy.semanticMappingExponent)
  have hthird := mul_le_mul hsecond (power_le evidence.lineage_unit.1 h.lineage hlineage) (power_nonneg ..) hsecond'
  have hthird' := mul_nonneg hsecond' (power_nonneg better.lineageCompleteness policy.lineageExponent)
  exact mul_le_mul hthird (power_le evidence.completeness_unit.1 h.completeness hcompleteness) (power_nonneg ..) hthird'

theorem confidenceOf_le (h : QualitiesLe evidence better)
    (hmass : evidenceMass policy evidence.sources ≤ evidenceMass policy better.sources) :
    confidenceOf policy evidence ≤ confidenceOf policy better := by
  have hnonneg : 0 ≤ evidenceMass policy evidence.sources := sumOfBest_nonneg _
  have hsupport := quantize_nonneg policy.outputDecimalPlaces (sourceSupport_unit hnonneg).1
  exact quantize_mono _ (scaledSupport_le policy h hsupport (quantize_mono _ (sourceSupport_le hmass)))

def scoreOf (source : SourceConfidenceEvidence) : SourceConfidenceScore where
  sourceEvidenceId := source.sourceEvidenceId
  providerId := source.providerId
  originGroupId := source.originGroupId
  reliability := quantize policy.outputDecimalPlaces (reliability policy source)
  sourceQuality := quantize policy.outputDecimalPlaces (sourceQuality policy source)

theorem scoreSource_eq_ok (source : SourceConfidenceEvidence) : scoreSource policy source = .ok (scoreOf policy source) :=
  SourceConfidenceScore.build_eq_ok (inUnit_quantize _ (reliability_unit policy source))
    (inUnit_quantize _ (sourceQuality_unit policy source))

theorem evaluate_spec (evidence : ContinuousConfidenceInput) :
    ∃ evaluation, evaluateContinuousConfidence policy evidence = .ok evaluation ∧
      evaluation.confidence = confidenceOf policy evidence := by
  have hscores : evidence.sources.mapM (scoreSource policy) = .ok (evidence.sources.map (scoreOf policy)) := by
    rw [mapM_congr_mem fun source _ => scoreSource_eq_ok policy source, mapM_ok]
  obtain ⟨contributions, hcontributions, hmass, hkeys, hselected⟩ := contributions_spec policy evidence.weights_shared
  have hnonneg : 0 ≤ evidenceMass policy evidence.sources := sumOfBest_nonneg _
  have hsupport := realUnit_quantize policy.outputDecimalPlaces (sourceSupport_unit hnonneg)
  have hconfidence := confidenceOf_unit policy evidence
  have hids : ((evidence.sources.map (scoreOf policy)).map SourceConfidenceScore.sourceEvidenceId).Nodup := by
    rw [List.map_map]
    exact (List.pairwise_map.mpr evidence.sources_sorted).imp ne_of_lt
  have hgroups : ((contributions.map Prod.fst).map OriginGroupContribution.originGroupId).Nodup := by
    rw [List.map_map]
    exact hkeys ▸ (groupSources policy evidence.sources).nodup
  have hnonempty : contributions.map Prod.fst ≠ [] := by
    intro hnil
    obtain ⟨source, hsource⟩ := List.exists_mem_of_ne_nil _ evidence.sources_nonempty
    have hkey : source.originGroupId ∈ (groupSources policy evidence.sources).keys := by
      rw [groupSources, mem_keys_groupBy, List.map_map]
      exact List.mem_map_of_mem hsource
    rw [← hkeys, List.map_eq_nil_iff.mp hnil] at hkey
    exact absurd hkey List.not_mem_nil
  have hselects : ∀ group ∈ contributions.map Prod.fst, group.SelectsFrom (evidence.sources.map (scoreOf policy)) := by
    intro group hgroup
    obtain ⟨contribution, hcontribution, rfl⟩ := List.mem_map.mp hgroup
    obtain ⟨source, hsource, hid, hkey⟩ := hselected contribution hcontribution
    exact ⟨scoreOf policy source, List.mem_map_of_mem hsource, hid, hkey⟩
  let unsorted : ContinuousConfidenceEvaluation := {
    policyId := policy.policyId
    policySha256 := policy.contentSha256
    inputId := evidence.inputId
    inputSha256 := evidence.contentSha256
    sourceScores := evidence.sources.map (scoreOf policy)
    originGroups := contributions.map Prod.fst
    evidenceMass := quantize policy.outputDecimalPlaces (evidenceMass policy evidence.sources)
    sourceSupport := quantize policy.outputDecimalPlaces (sourceSupport (evidenceMass policy evidence.sources))
    agreement := evidence.agreement
    semanticMappingQuality := evidence.semanticMappingQuality
    lineageCompleteness := evidence.lineageCompleteness
    requiredComponentCompleteness := evidence.requiredComponentCompleteness
    confidence := confidenceOf policy evidence
    reasonCodes := reasonCodes evidence (groupSources policy evidence.sources).keys.length }
  have hvalid : unsorted.Valid := {
    scores_nonempty := fun hnil => evidence.sources_nonempty (List.map_eq_nil_iff.mp hnil)
    groups_nonempty := hnonempty
    mass_nonneg := quantize_nonneg _ hnonneg
    support_unit := hsupport
    agreement_unit := evidence.agreement_unit
    semanticMapping_unit := evidence.semanticMapping_unit
    lineage_unit := evidence.lineage_unit
    completeness_unit := evidence.completeness_unit
    confidence_unit := hconfidence
    scores_unique := hids
    groups_unique := hgroups
    selects := hselects
    policy_identified := policy.identified
    input_identified := evidence.identified }
  rw [evaluateContinuousConfidence, hscores, ok_bind]
  dsimp only
  rw [hcontributions, ok_bind, hmass]
  exact ⟨_, ContinuousConfidenceEvaluation.build_eq_ok hvalid, rfl⟩

end Formula

structure BetterEvidence (evidence better : ContinuousConfidenceInput) : Prop where
  qualities : QualitiesLe evidence better
  sources : ∃ raised further, better.sources.Perm (raised ++ further) ∧ List.Forall₂ SourceRaised evidence.sources raised

theorem BetterEvidence.mass_le {evidence better : ContinuousConfidenceInput} (h : BetterEvidence evidence better)
    (policy : ContinuousConfidencePolicy) :
    evidenceMass policy evidence.sources ≤ evidenceMass policy better.sources := by
  obtain ⟨raised, further, hperm, hraised⟩ := h.sources
  refine evidenceMass_mono policy fun source hsource => ?_
  obtain ⟨other, hother, hof⟩ := exists_of_mem_forall₂ hraised hsource
  refine ⟨other, hperm.mem_iff.mpr (List.mem_append_left further hother), hof.group, ?_⟩
  exact mul_le_mul hof.weight (hof.sourceQuality_le policy) (sourceQuality_unit policy source).1 other.weight_unit.1

structure FurtherSource (evidence : ContinuousConfidenceInput) (source : SourceConfidenceEvidence)
    (more : ContinuousConfidenceInput) : Prop where
  sources : more.sources.Perm (source :: evidence.sources)
  agreement : more.agreement = evidence.agreement
  semanticMapping : more.semanticMappingQuality = evidence.semanticMappingQuality
  lineage : more.lineageCompleteness = evidence.lineageCompleteness
  completeness : more.requiredComponentCompleteness = evidence.requiredComponentCompleteness

theorem SourceRaised.refl (source : SourceConfidenceEvidence) : SourceRaised source source where
  group := rfl
  weight := le_rfl
  noPrior := id
  prior prior hprior := ⟨prior, hprior, le_rfl⟩
  success := le_rfl
  failure := rfl
  freshness := le_rfl
  conformance := le_rfl
  integrity := le_rfl

variable {evidence more : ContinuousConfidenceInput} {source : SourceConfidenceEvidence}

theorem FurtherSource.better
    (h : FurtherSource evidence source more) : BetterEvidence evidence more where
  qualities := ⟨h.agreement.ge, h.semanticMapping.ge, h.lineage.ge, h.completeness.ge⟩
  sources := by
    refine ⟨evidence.sources, [source], h.sources.trans (List.perm_append_singleton source evidence.sources).symm, ?_⟩
    exact List.forall₂_same.mpr fun source _ => SourceRaised.refl source

theorem FurtherSource.confidenceOf_eq
    (h : FurtherSource evidence source more) (policy : ContinuousConfidencePolicy) {other : SourceConfidenceEvidence}
    (hother : other ∈ evidence.sources) (hgroup : other.originGroupId = source.originGroupId)
    (hquality : sourceQuality policy source ≤ sourceQuality policy other) :
    confidenceOf policy more = confidenceOf policy evidence := by
  have hin : ∀ old ∈ evidence.sources, old ∈ more.sources := fun old hold =>
    h.sources.mem_iff.mpr (List.mem_cons_of_mem source hold)
  have hweight : source.independenceWeight = other.independenceWeight :=
    more.weights_shared source (h.sources.mem_iff.mpr List.mem_cons_self) other (hin other hother) hgroup.symm
  have hle : (supportOf policy source).2 ≤ (supportOf policy other).2 := by
    show source.independenceWeight * _ ≤ other.independenceWeight * _
    rw [hweight]
    exact mul_le_mul_of_nonneg_left hquality other.weight_unit.1
  have hup : evidenceMass policy evidence.sources ≤ evidenceMass policy more.sources :=
    evidenceMass_mono policy fun old hold => ⟨old, hin old hold, rfl, le_rfl⟩
  have hdown : evidenceMass policy more.sources ≤ evidenceMass policy evidence.sources := by
    refine evidenceMass_mono policy fun new hnew => ?_
    rcases List.mem_cons.mp (h.sources.mem_iff.mp hnew) with rfl | hold
    · exact ⟨other, hother, hgroup, hle⟩
    · exact ⟨new, hold, rfl, le_rfl⟩
  have hsame : scaledSupport policy more = scaledSupport policy evidence := by
    funext support
    rw [scaledSupport, scaledSupport, h.agreement, h.semanticMapping, h.lineage, h.completeness]
  rw [confidenceOf, confidenceOf, le_antisymm hdown hup, hsame]

/-- A confidence is from zero to one, better evidence never lowers it, and a further source of a group changes it only above the
best one. -/
theorem confidence_order (policy : ContinuousConfidencePolicy) (evidence : ContinuousConfidenceInput) :
    ∃ evaluation, evaluateContinuousConfidence policy evidence = .ok evaluation ∧
      0 ≤ evaluation.confidence ∧ evaluation.confidence ≤ 1 ∧
      (∀ better, BetterEvidence evidence better → ∃ evaluation',
        evaluateContinuousConfidence policy better = .ok evaluation' ∧ evaluation.confidence ≤ evaluation'.confidence) ∧
      ∀ more source, FurtherSource evidence source more →
        (∃ other ∈ evidence.sources, other.originGroupId = source.originGroupId) →
        ∃ evaluation', evaluateContinuousConfidence policy more = .ok evaluation' ∧
          (evaluation'.confidence ≠ evaluation.confidence → ∀ other ∈ evidence.sources,
            other.originGroupId = source.originGroupId → sourceQuality policy other < sourceQuality policy source) := by
  obtain ⟨evaluation, hok, hconfidence⟩ := evaluate_spec policy evidence
  have hunit := confidenceOf_unit policy evidence
  rw [← hconfidence] at hunit
  refine ⟨evaluation, hok, hunit.1, hunit.2, fun better hbetter => ?_, fun more source hfurther _ => ?_⟩
  · obtain ⟨evaluation', hok', hconfidence'⟩ := evaluate_spec policy better
    refine ⟨evaluation', hok', ?_⟩
    rw [hconfidence, hconfidence']
    exact confidenceOf_le policy hbetter.qualities (hbetter.mass_le policy)
  · obtain ⟨evaluation', hok', hconfidence'⟩ := evaluate_spec policy more
    refine ⟨evaluation', hok', fun hchanged other hother hgroup => ?_⟩
    by_contra hquality
    rw [hconfidence, hconfidence'] at hchanged
    exact hchanged (hfurther.confidenceOf_eq policy hother hgroup (not_lt.mp hquality))

def defaultConfidencePolicy (contentSha256 : String) : ContinuousConfidencePolicy where
  policyId := "confidence-policy:" ++ contentSha256
  contentSha256 := contentSha256
  reliabilityPriorSuccess := 8
  reliabilityPriorFailure := 2
  unobservedReliabilityCeiling := 8 / 10
  agreementExponent := 35 / 100
  semanticMappingExponent := 25 / 100
  lineageExponent := 20 / 100
  completenessExponent := 20 / 100
  calculationPrecision := 50
  outputDecimalPlaces := 6
  success_nonneg := by norm_num
  failure_nonneg := by norm_num
  ceiling_unit := by norm_num [InUnit]
  exponents_pos := by norm_num
  exponents_sum := by norm_num
  prior_pos := by norm_num
  precision_bounds := by decide
  places_bounds := by decide
  identified := rfl

def sampleSource (sourceEvidenceId : String) (successes : ℕ) : SourceConfidenceEvidence where
  sourceEvidenceId := sourceEvidenceId
  providerId := "sec-edgar"
  originGroupId := "filings"
  independenceWeight := 1
  reliabilityPrior := none
  successfulOutcomeMass := successes
  failedOutcomeMass := 1
  freshness := 1
  sampleConformance := 1
  transportIntegrity := 1
  weight_unit := by norm_num [InUnit]
  prior_unit := by simp
  success_nonneg := Nat.cast_nonneg successes
  failure_nonneg := by norm_num
  freshness_unit := by norm_num [InUnit]
  conformance_unit := by norm_num [InUnit]
  integrity_unit := by norm_num [InUnit]

def sampleInput (second : Bool) : ContinuousConfidenceInput where
  inputId := "confidence-input:"
  contentSha256 := ""
  sources := if second then [sampleSource "a" 9, sampleSource "b" 3] else [sampleSource "a" 9]
  agreement := 1
  semanticMappingQuality := 1
  lineageCompleteness := 1
  requiredComponentCompleteness := 9 / 10
  sources_nonempty := by cases second <;> simp
  sources_sorted := by cases second <;> decide
  weights_shared := by
    cases second <;> simp [sampleSource]
  agreement_unit := by norm_num [InUnit]
  semanticMapping_unit := by norm_num [InUnit]
  lineage_unit := by norm_num [InUnit]
  completeness_unit := by norm_num [InUnit]
  identified := by decide

/-- A second source with fewer successes is below the first, and changes nothing. -/
theorem confidence_order_sample : ∃ first second,
    evaluateContinuousConfidence (defaultConfidencePolicy "") (sampleInput false) = .ok first ∧
    evaluateContinuousConfidence (defaultConfidencePolicy "") (sampleInput true) = .ok second ∧
    first.confidence ≤ second.confidence ∧ second.confidence = first.confidence := by
  have hfurther : FurtherSource (sampleInput false) (sampleSource "b" 3) (sampleInput true) :=
    ⟨List.Perm.swap .., rfl, rfl, rfl, rfl⟩
  obtain ⟨first, hfirst, -, -, hbetter, hmore⟩ := confidence_order (defaultConfidencePolicy "") (sampleInput false)
  obtain ⟨second, hsecond, hle⟩ := hbetter (sampleInput true) hfurther.better
  have hmem : sampleSource "a" 9 ∈ (sampleInput false).sources := List.mem_singleton.mpr rfl
  obtain ⟨second', hsecond', hchanged⟩ := hmore (sampleInput true) (sampleSource "b" 3) hfurther ⟨sampleSource "a" 9, hmem, rfl⟩
  rw [hsecond] at hsecond'
  cases hsecond'
  refine ⟨first, second, hfirst, hsecond, hle, ?_⟩
  by_contra hne
  have hquality := hchanged hne (sampleSource "a" 9) hmem rfl
  revert hquality
  decide +kernel

end TrueAlpha.Confidence
