import TrueAlpha.Lib.Dict
import TrueAlpha.Time

/-!
# Company-facts documents and concept mappings

A document maps a taxonomy, a concept and a unit to the entries that filings asserted, as it writes them; a `Reader` reads a
date or a decimal from a text.  A ruleset declares the concepts of a field.
-/

namespace TrueAlpha.Datahub

/-- `date.fromisoformat` and `Decimal`; `none` where they raise. -/
structure Reader where
  date : String → Option Date
  decimal : String → Option ℚ

inductive Segment where
  | mapping (dump : String)
  | value (text : String)
  deriving DecidableEq, Repr

inductive FiscalYearField where
  | number (value : ℤ)
  | text (value : String)
  deriving DecidableEq, Repr

structure FactEntry where
  filed : Option String
  «end» : Option String
  start : Option String
  val : Option String
  form : Option String
  accn : Option String
  fy : Option FiscalYearField
  fp : Option String
  segment : Option Segment
  document : Option String
  deriving DecidableEq, Repr

abbrev CompanyFacts := Dict String (Dict String (Dict String (List FactEntry)))

def CompanyFacts.units (facts : CompanyFacts) (taxonomy concept : String) : Dict String (List FactEntry) :=
  (((facts.get? taxonomy).getD Dict.empty).get? concept).getD Dict.empty

def CompanyFacts.entries (facts : CompanyFacts) (taxonomy concept unit : String) : List FactEntry :=
  ((facts.units taxonomy concept).get? unit).getD []

inductive ResolutionKind where
  | synonym
  | fallback
  deriving DecidableEq, Repr

structure ConceptRef where
  taxonomy : String
  concept : String
  deriving DecidableEq, Repr

structure FieldMapping where
  field : String
  unit : String
  kind : ResolutionKind
  concepts : List ConceptRef
  deriving DecidableEq, Repr

structure ConceptMappingRuleset where
  mappings : List FieldMapping
  deriving DecidableEq, Repr

def ConceptMappingRuleset.mappingFor (ruleset : ConceptMappingRuleset) (field : String) : Option FieldMapping :=
  ruleset.mappings.find? fun mapping => mapping.field = field

end TrueAlpha.Datahub
