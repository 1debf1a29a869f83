import Mathlib.Analysis.SpecialFunctions.Log.Basic
import TrueAlpha.Contracts.Confidence
import TrueAlpha.Lib.BestOfGroups

/-!
# The continuous confidence

`evaluate_continuous_confidence`: the best source of an origin group stands for the group, and the evidence mass saturates
exponentially.  From the exponential on the arithmetic is that of the reals; only `quantize` rounds.
-/

namespace TrueAlpha.Confidence

open Contracts

noncomputable def power (value exponent : ℚ) : ℝ := if value = 0 then 0 else Real.exp (Real.log value * exponent)

def observedMass (source : SourceConfidenceEvidence) : ℚ := source.successfulOutcomeMass + source.failedOutcomeMass

def priorTotal (policy : ContinuousConfidencePolicy) : ℚ := policy.reliabilityPriorSuccess + policy.reliabilityPriorFailure

def priorSuccess (policy : ContinuousConfidencePolicy) (source : SourceConfidenceEvidence) : ℚ :=
  match source.reliabilityPrior with
  | some prior => prior * priorTotal policy
  | none => policy.reliabilityPriorSuccess

def reliability (policy : ContinuousConfidencePolicy) (source : SourceConfidenceEvidence) : ℚ :=
  let reliability := (source.successfulOutcomeMass + priorSuccess policy source) / (observedMass source + priorTotal policy)
  if observedMass source = 0 ∧ source.reliabilityPrior = none then
    min reliability policy.unobservedReliabilityCeiling
  else reliability

def sourceQuality (policy : ContinuousConfidencePolicy) (source : SourceConfidenceEvidence) : ℚ :=
  reliability policy source * source.freshness * source.sampleConformance * source.transportIntegrity

def scoreSource (policy : ContinuousConfidencePolicy) (source : SourceConfidenceEvidence) : Except String SourceConfidenceScore :=
  SourceConfidenceScore.build {
    sourceEvidenceId := source.sourceEvidenceId
    providerId := source.providerId
    originGroupId := source.originGroupId
    reliability := quantize policy.outputDecimalPlaces (reliability policy source)
    sourceQuality := quantize policy.outputDecimalPlaces (sourceQuality policy source) }

def groupSources (policy : ContinuousConfidencePolicy) (sources : List SourceConfidenceEvidence) :
    Dict String (List (SourceConfidenceEvidence × ℚ)) :=
  groupBy (fun candidate => candidate.1.originGroupId) (sources.map fun source => (source, sourceQuality policy source))

def candidateKey (candidate : SourceConfidenceEvidence × ℚ) : ℚ ×ₗ String := toLex (-candidate.2, candidate.1.sourceEvidenceId)

/-- `sorted(candidates, key=...)[0]`. -/
def selectSource (candidates : List (SourceConfidenceEvidence × ℚ)) : Except String (SourceConfidenceEvidence × ℚ) :=
  match sortedBy candidateKey candidates with
  | [] => .error "IndexError: list index out of range"
  | selected :: _ => .ok selected

def contribute (policy : ContinuousConfidencePolicy) (group : String × List (SourceConfidenceEvidence × ℚ)) :
    Except String (OriginGroupContribution × ℚ) := do
  let selected ← selectSource group.2
  let effectiveSupport := selected.1.independenceWeight * selected.2
  let contribution ← OriginGroupContribution.build {
    originGroupId := group.1
    independenceWeight := selected.1.independenceWeight
    selectedSourceEvidenceId := selected.1.sourceEvidenceId
    selectedSourceQuality := quantize policy.outputDecimalPlaces selected.2
    effectiveSupport := quantize policy.outputDecimalPlaces effectiveSupport }
  return (contribution, effectiveSupport)

def reasonCodes (evidence : ContinuousConfidenceInput) (groups : ℕ) : List String :=
  [("confidence.evaluated", true), ("support.single-origin-ceiling", decide (groups = 1)),
    ("support.same-origin-deduplicated", decide (groups < evidence.sources.length)),
    ("reliability.provisional-unobserved-ceiling", evidence.sources.any fun source => observedMass source = 0),
    ("quality.source-disagreement", decide (evidence.agreement < 1)),
    ("quality.semantic-mapping-penalty", decide (evidence.semanticMappingQuality < 1)),
    ("quality.lineage-penalty", decide (evidence.lineageCompleteness < 1)),
    ("quality.required-component-penalty", decide (evidence.requiredComponentCompleteness < 1)),
    ("evidence.raw-transport-missing", evidence.sources.any fun source => source.transportIntegrity = 0)].filterMap
    fun code => if code.2 then some code.1 else none

/-- The product of the quantized support and the powers of the qualities. -/
noncomputable def scaledSupport (policy : ContinuousConfidencePolicy) (evidence : ContinuousConfidenceInput)
    (sourceSupport : ℝ) : ℝ :=
  sourceSupport * power evidence.agreement policy.agreementExponent *
    power evidence.semanticMappingQuality policy.semanticMappingExponent *
    power evidence.lineageCompleteness policy.lineageExponent *
    power evidence.requiredComponentCompleteness policy.completenessExponent

noncomputable def evaluateContinuousConfidence (policy : ContinuousConfidencePolicy)
    (evidence : ContinuousConfidenceInput) : Except String ContinuousConfidenceEvaluation := do
  let sourceScores ← evidence.sources.mapM (scoreSource policy)
  let grouped := groupSources policy evidence.sources
  let contributions ← grouped.items.mapM (contribute policy)
  let evidenceMass : ℚ := (contributions.map Prod.snd).foldl (· + ·) 0
  let sourceSupport := 1 - Real.exp (-(evidenceMass : ℝ))
  let quantizedSourceSupport := quantize policy.outputDecimalPlaces sourceSupport
  let confidence := quantize policy.outputDecimalPlaces (scaledSupport policy evidence quantizedSourceSupport)
  ContinuousConfidenceEvaluation.build {
    policyId := policy.policyId
    policySha256 := policy.contentSha256
    inputId := evidence.inputId
    inputSha256 := evidence.contentSha256
    sourceScores
    originGroups := contributions.map Prod.fst
    evidenceMass := quantize policy.outputDecimalPlaces evidenceMass
    sourceSupport := quantizedSourceSupport
    agreement := evidence.agreement
    semanticMappingQuality := evidence.semanticMappingQuality
    lineageCompleteness := evidence.lineageCompleteness
    requiredComponentCompleteness := evidence.requiredComponentCompleteness
    confidence
    reasonCodes := reasonCodes evidence grouped.keys.length }

end TrueAlpha.Confidence
