import Mathlib.Data.String.Basic
import TrueAlpha.Contracts.Common

/-!
# Demand cells

The six fields of a compiled demand, which planned cells, snapshot cells and usage events share.  The `planned_cell_id` that an
accepted model carries is a function of them.
-/

namespace TrueAlpha.Contracts

inductive SubjectKind where
  | issuer
  | security
  | listing
  | fund
  | analyst
  | universe
  | theme
  deriving DecidableEq, Repr

def SubjectKind.text : SubjectKind → String
  | .issuer => "issuer"
  | .security => "security"
  | .listing => "listing"
  | .fund => "fund"
  | .analyst => "analyst"
  | .universe => "universe"
  | .theme => "theme"

/-- `re.split(r"[^a-z0-9]+", value.lower())` without the empty tokens. -/
def referenceTokens (value : String) : List String :=
  (((value.toList.map Char.toLower).splitOnP fun c => !(('a' ≤ c && c ≤ 'z') || ('0' ≤ c && c ≤ '9'))).filter
    (· ≠ [])).map String.ofList

/-- `_require_stable_reference`: a stable identifier has no white space around it. -/
def isStableReference (value : String) : Bool :=
  isStableId value && (referenceTokens value).all (· ∉ ["current", "head", "latest"])

structure SubjectRef where
  kind : SubjectKind
  id : String
  id_valid : isStableReference id
  deriving DecidableEq

def SubjectRef.dump (subject : SubjectRef) : Json := .object [("id", .text subject.id), ("kind", .text subject.kind.text)]

def SubjectRef.key (subject : SubjectRef) : String ×ₗ String := toLex (subject.kind.text, subject.id)

structure UniverseRef where
  universeId : String
  universeVersion : String
  contentSha256 : String
  universeId_valid : isStableReference universeId
  universeVersion_valid : isStableReference universeVersion
  contentSha256_valid : isSha256 contentSha256
  deriving DecidableEq

def UniverseRef.dump (ref : UniverseRef) : Json :=
  .dict [("content_sha256", .text ref.contentSha256), ("universe_id", .text ref.universeId),
    ("universe_version", .text ref.universeVersion)]

structure RegistrySnapshot where
  registrySnapshotId : String
  contentSha256 : String
  sourceRegistrySnapshotId : String
  sourceRegistrySha256 : String
  semanticTypeRegistrySnapshotId : String
  semanticTypeRegistrySha256 : String
  semanticTypes : List (String × String)
  sources : List (String × String)
  dump : Json
  deriving DecidableEq

inductive DataDomain where
  | entityIdentity
  | instruments
  | financialFacts
  | forecasts
  | companyGuidance
  | filings
  | filingExtractions
  | marketPrices
  | corporateActions
  | universe
  | knowledgeGraph
  | analystRatings
  | fundHoldings
  | segments
  | factorOutputs
  deriving DecidableEq, Repr

def DataDomain.text : DataDomain → String
  | .entityIdentity => "entity_identity"
  | .instruments => "instruments"
  | .financialFacts => "financial_facts"
  | .forecasts => "forecasts"
  | .companyGuidance => "company_guidance"
  | .filings => "filings"
  | .filingExtractions => "filing_extractions"
  | .marketPrices => "market_prices"
  | .corporateActions => "corporate_actions"
  | .universe => "universe"
  | .knowledgeGraph => "knowledge_graph"
  | .analystRatings => "analyst_ratings"
  | .fundHoldings => "fund_holdings"
  | .segments => "segments"
  | .factorOutputs => "factor_outputs"

/-- `SemanticTypeId`: `^semantic\.[a-z0-9]+(?:[._-][a-z0-9]+)*$`. -/
def isSemanticTypeId (value : String) : Bool :=
  let head := "semantic.".toList
  value.toList.take head.length == head &&
    ((value.toList.drop head.length).splitOnP (· ∈ ['.', '_', '-'])).all fun token =>
      !token.isEmpty && token.all fun c => ('a' ≤ c && c ≤ 'z') || ('0' ≤ c && c ≤ '9')

inductive RequirementLevel where
  | required
  | optional
  deriving DecidableEq, Repr

def RequirementLevel.text : RequirementLevel → String
  | .required => "required"
  | .optional => "optional"

/-- The six fields that the identity derives from. -/
structure DemandCell where
  requirementId : String
  captureRequirementId : String
  semanticTypeId : String
  domain : DataDomain
  subject : SubjectRef
  partitionKey : String
  requirementId_valid : isContentId "data-requirement" requirementId
  captureRequirementId_valid : isContentId "capture-requirement" captureRequirementId
  semanticTypeId_valid : isSemanticTypeId semanticTypeId
  partitionKey_ne : partitionKey ≠ ""
  deriving DecidableEq

namespace DemandCell

def fields (cell : DemandCell) : List (String × Json) :=
  [("capture_requirement_id", .text cell.captureRequirementId), ("domain", .text cell.domain.text),
    ("partition_key", .text cell.partitionKey), ("requirement_id", .text cell.requirementId),
    ("semantic_type_id", .text cell.semanticTypeId), ("subject", cell.subject.dump)]

def plannedCellId (canonicalSha256 : Json → String) (cell : DemandCell) : String :=
  "planned-demand-cell:" ++ canonicalSha256 (.dict cell.fields)

def key (cell : DemandCell) : String ×ₗ String ×ₗ String ×ₗ String :=
  toLex (cell.requirementId, toLex (cell.subject.kind.text, toLex (cell.subject.id, cell.partitionKey)))

end DemandCell

def listingSubject : SubjectRef := ⟨.listing, "listing-1", by decide +kernel⟩

def priceDemand : DemandCell where
  requirementId := "data-requirement:" ++ digestOf '1'
  captureRequirementId := "capture-requirement:" ++ digestOf '2'
  semanticTypeId := "semantic.price"
  domain := .marketPrices
  subject := listingSubject
  partitionKey := "2026Q2"
  requirementId_valid := isContentId_digestOf rfl rfl
  captureRequirementId_valid := isContentId_digestOf rfl rfl
  semanticTypeId_valid := by decide +kernel
  partitionKey_ne := by decide

theorem isStableId_v1 : isStableId "v1" := by decide +kernel

end TrueAlpha.Contracts
