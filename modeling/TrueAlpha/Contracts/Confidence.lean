import Mathlib.Data.Real.Basic
import Mathlib.Data.String.Basic
import TrueAlpha.Contracts.Common
import TrueAlpha.Lib.HalfEven
import TrueAlpha.Lib.Run

/-!
# The contracts of the continuous confidence

The policy, the evidence of a source, the input of an evaluation and the evaluation itself.  A decimal field is its value;
the ids and hashes are those that the records carry.
-/

namespace TrueAlpha.Contracts

def InUnit (value : ℚ) : Prop := 0 ≤ value ∧ value ≤ 1

structure ContinuousConfidencePolicy where
  policyId : String
  contentSha256 : String
  reliabilityPriorSuccess : ℚ
  reliabilityPriorFailure : ℚ
  unobservedReliabilityCeiling : ℚ
  agreementExponent : ℚ
  semanticMappingExponent : ℚ
  lineageExponent : ℚ
  completenessExponent : ℚ
  calculationPrecision : ℕ
  outputDecimalPlaces : ℕ
  success_nonneg : 0 ≤ reliabilityPriorSuccess
  failure_nonneg : 0 ≤ reliabilityPriorFailure
  ceiling_unit : InUnit unobservedReliabilityCeiling
  exponents_pos : 0 < agreementExponent ∧ 0 < semanticMappingExponent ∧ 0 < lineageExponent ∧ 0 < completenessExponent
  exponents_sum : agreementExponent + semanticMappingExponent + lineageExponent + completenessExponent = 1
  prior_pos : 0 < reliabilityPriorSuccess + reliabilityPriorFailure
  precision_bounds : 28 ≤ calculationPrecision ∧ calculationPrecision ≤ 100
  places_bounds : 2 ≤ outputDecimalPlaces ∧ outputDecimalPlaces ≤ 12
  identified : policyId = "confidence-policy:" ++ contentSha256

structure SourceConfidenceEvidence where
  sourceEvidenceId : String
  providerId : String
  originGroupId : String
  independenceWeight : ℚ
  reliabilityPrior : Option ℚ
  successfulOutcomeMass : ℚ
  failedOutcomeMass : ℚ
  freshness : ℚ
  sampleConformance : ℚ
  transportIntegrity : ℚ
  weight_unit : InUnit independenceWeight
  prior_unit : ∀ prior ∈ reliabilityPrior, InUnit prior
  success_nonneg : 0 ≤ successfulOutcomeMass
  failure_nonneg : 0 ≤ failedOutcomeMass
  freshness_unit : InUnit freshness
  conformance_unit : InUnit sampleConformance
  integrity_unit : InUnit transportIntegrity

structure ContinuousConfidenceInput where
  inputId : String
  contentSha256 : String
  sources : List SourceConfidenceEvidence
  agreement : ℚ
  semanticMappingQuality : ℚ
  lineageCompleteness : ℚ
  requiredComponentCompleteness : ℚ
  sources_nonempty : sources ≠ []
  sources_sorted : sources.Pairwise fun a b => a.sourceEvidenceId < b.sourceEvidenceId
  weights_shared : ∀ a ∈ sources, ∀ b ∈ sources, a.originGroupId = b.originGroupId → a.independenceWeight = b.independenceWeight
  agreement_unit : InUnit agreement
  semanticMapping_unit : InUnit semanticMappingQuality
  lineage_unit : InUnit lineageCompleteness
  completeness_unit : InUnit requiredComponentCompleteness
  identified : inputId = "confidence-input:" ++ contentSha256

structure SourceConfidenceScore where
  sourceEvidenceId : String
  providerId : String
  originGroupId : String
  reliability : ℚ
  sourceQuality : ℚ

structure OriginGroupContribution where
  originGroupId : String
  independenceWeight : ℚ
  selectedSourceEvidenceId : String
  selectedSourceQuality : ℚ
  effectiveSupport : ℚ

/-- `ContinuousConfidenceEvaluation`, whose support and confidence are real. -/
structure ContinuousConfidenceEvaluation where
  policyId : String
  policySha256 : String
  inputId : String
  inputSha256 : String
  sourceScores : List SourceConfidenceScore
  originGroups : List OriginGroupContribution
  evidenceMass : ℚ
  sourceSupport : ℝ
  agreement : ℚ
  semanticMappingQuality : ℚ
  lineageCompleteness : ℚ
  requiredComponentCompleteness : ℚ
  confidence : ℝ
  reasonCodes : List String

/-- `Field(ge=0, le=1)`. -/
def checkUnit {K : Type} [Zero K] [One K] [LinearOrder K] (field : String) (value : K) : Except String Unit :=
  if value < 0 then .error (field ++ ": Input should be greater than or equal to 0")
  else if 1 < value then .error (field ++ ": Input should be less than or equal to 1")
  else .ok ()

theorem checkUnit_eq_ok {K : Type} [Zero K] [One K] [LinearOrder K] {field : String} {value : K} (hlow : 0 ≤ value)
    (hhigh : value ≤ 1) : checkUnit field value = .ok () := by
  rw [checkUnit, if_neg (not_lt.mpr hlow), if_neg (not_lt.mpr hhigh)]

def SourceConfidenceScore.build (score : SourceConfidenceScore) : Except String SourceConfidenceScore := do
  checkUnit "reliability" score.reliability
  checkUnit "source_quality" score.sourceQuality
  return score

theorem SourceConfidenceScore.build_eq_ok {score : SourceConfidenceScore} (hreliability : InUnit score.reliability)
    (hquality : InUnit score.sourceQuality) : score.build = .ok score := by
  rw [build, checkUnit_eq_ok hreliability.1 hreliability.2, ok_bind, checkUnit_eq_ok hquality.1 hquality.2, ok_bind]
  rfl

def OriginGroupContribution.build (group : OriginGroupContribution) : Except String OriginGroupContribution := do
  checkUnit "independence_weight" group.independenceWeight
  checkUnit "selected_source_quality" group.selectedSourceQuality
  checkUnit "effective_support" group.effectiveSupport
  return group

theorem OriginGroupContribution.build_eq_ok {group : OriginGroupContribution} (hweight : InUnit group.independenceWeight)
    (hquality : InUnit group.selectedSourceQuality) (hsupport : InUnit group.effectiveSupport) :
    group.build = .ok group := by
  rw [build, checkUnit_eq_ok hweight.1 hweight.2, ok_bind, checkUnit_eq_ok hquality.1 hquality.2, ok_bind,
    checkUnit_eq_ok hsupport.1 hsupport.2, ok_bind]
  rfl

def OriginGroupContribution.SelectsFrom (group : OriginGroupContribution) (scores : List SourceConfidenceScore) : Prop :=
  ∃ score ∈ scores, score.sourceEvidenceId = group.selectedSourceEvidenceId ∧ score.originGroupId = group.originGroupId

instance (group : OriginGroupContribution) (scores : List SourceConfidenceScore) : Decidable (group.SelectsFrom scores) :=
  inferInstanceAs (Decidable (∃ score ∈ scores, _ ∧ _))

/-- `freeze_and_identify` with the bounds of the fields. -/
noncomputable def ContinuousConfidenceEvaluation.build (evaluation : ContinuousConfidenceEvaluation) :
    Except String ContinuousConfidenceEvaluation := do
  require (evaluation.sourceScores ≠ []) "source_scores: Tuple should have at least 1 item"
  require (evaluation.originGroups ≠ []) "origin_groups: Tuple should have at least 1 item"
  require (0 ≤ evaluation.evidenceMass) "evidence_mass: Input should be greater than or equal to 0"
  checkUnit "source_support" evaluation.sourceSupport
  checkUnit "agreement" evaluation.agreement
  checkUnit "semantic_mapping_quality" evaluation.semanticMappingQuality
  checkUnit "lineage_completeness" evaluation.lineageCompleteness
  checkUnit "required_component_completeness" evaluation.requiredComponentCompleteness
  checkUnit "confidence" evaluation.confidence
  require (evaluation.sourceScores.map SourceConfidenceScore.sourceEvidenceId).Nodup
    "evaluation source scores must be unique"
  require (evaluation.originGroups.map OriginGroupContribution.originGroupId).Nodup
    "evaluation origin groups must be unique"
  require (∀ group ∈ evaluation.originGroups, group.SelectsFrom evaluation.sourceScores)
    "origin groups must select a scored source from the same group"
  require (evaluation.policyId = "confidence-policy:" ++ evaluation.policySha256) "policy identity and hash must agree"
  require (evaluation.inputId = "confidence-input:" ++ evaluation.inputSha256) "input identity and hash must agree"
  return { evaluation with
    sourceScores := sortedBy SourceConfidenceScore.sourceEvidenceId evaluation.sourceScores
    originGroups := sortedBy OriginGroupContribution.originGroupId evaluation.originGroups
    reasonCodes := sortedBy id evaluation.reasonCodes }

structure ContinuousConfidenceEvaluation.Valid (evaluation : ContinuousConfidenceEvaluation) : Prop where
  scores_nonempty : evaluation.sourceScores ≠ []
  groups_nonempty : evaluation.originGroups ≠ []
  mass_nonneg : 0 ≤ evaluation.evidenceMass
  support_unit : 0 ≤ evaluation.sourceSupport ∧ evaluation.sourceSupport ≤ 1
  agreement_unit : InUnit evaluation.agreement
  semanticMapping_unit : InUnit evaluation.semanticMappingQuality
  lineage_unit : InUnit evaluation.lineageCompleteness
  completeness_unit : InUnit evaluation.requiredComponentCompleteness
  confidence_unit : 0 ≤ evaluation.confidence ∧ evaluation.confidence ≤ 1
  scores_unique : (evaluation.sourceScores.map SourceConfidenceScore.sourceEvidenceId).Nodup
  groups_unique : (evaluation.originGroups.map OriginGroupContribution.originGroupId).Nodup
  selects : ∀ group ∈ evaluation.originGroups, group.SelectsFrom evaluation.sourceScores
  policy_identified : evaluation.policyId = "confidence-policy:" ++ evaluation.policySha256
  input_identified : evaluation.inputId = "confidence-input:" ++ evaluation.inputSha256

theorem ContinuousConfidenceEvaluation.build_eq_ok {evaluation : ContinuousConfidenceEvaluation}
    (h : evaluation.Valid) : evaluation.build = .ok { evaluation with
      sourceScores := sortedBy SourceConfidenceScore.sourceEvidenceId evaluation.sourceScores
      originGroups := sortedBy OriginGroupContribution.originGroupId evaluation.originGroups
      reasonCodes := sortedBy id evaluation.reasonCodes } := by
  rw [build, require_eq_ok_iff.mpr (decide_eq_true h.scores_nonempty), ok_bind,
    require_eq_ok_iff.mpr (decide_eq_true h.groups_nonempty), ok_bind,
    require_eq_ok_iff.mpr (decide_eq_true h.mass_nonneg), ok_bind,
    checkUnit_eq_ok h.support_unit.1 h.support_unit.2, ok_bind,
    checkUnit_eq_ok h.agreement_unit.1 h.agreement_unit.2, ok_bind,
    checkUnit_eq_ok h.semanticMapping_unit.1 h.semanticMapping_unit.2, ok_bind,
    checkUnit_eq_ok h.lineage_unit.1 h.lineage_unit.2, ok_bind,
    checkUnit_eq_ok h.completeness_unit.1 h.completeness_unit.2, ok_bind,
    checkUnit_eq_ok h.confidence_unit.1 h.confidence_unit.2, ok_bind,
    require_eq_ok_iff.mpr (decide_eq_true h.scores_unique), ok_bind,
    require_eq_ok_iff.mpr (decide_eq_true h.groups_unique), ok_bind,
    require_eq_ok_iff.mpr (decide_eq_true h.selects), ok_bind,
    require_eq_ok_iff.mpr (decide_eq_true h.policy_identified), ok_bind,
    require_eq_ok_iff.mpr (decide_eq_true h.input_identified), ok_bind]
  rfl

end TrueAlpha.Contracts
