import TrueAlpha.Contracts.FiscalPeriod
import TrueAlpha.Datahub.Bundle
import TrueAlpha.Lib.AppendOnly

/-!
# The headcount plane

The headcount facts with the citation contract of `headcount.py`, the landed filings, the financial-fact observations, and their
writers `record_headcount`, `insert_fetch`, `extract_headcount` and the capture.
-/

namespace TrueAlpha.Datahub

def digitGroups (groups : List ℕ) (text : List Char) : Bool := (text.splitOnP (· = '-')).map List.length = groups ∧
    (text.splitOnP (· = '-')).all fun group => group.all fun c => (digitValue c).isSome

def citedValue (key : String) (shapes : List (List ℕ)) (text : String) : Option (List Char) :=
  (text.toList.splitOnP isSpace).findSome? fun word =>
    if word.take key.length = key.toList ∧ shapes.any fun groups => digitGroups groups (word.drop key.length) then
      some (word.drop key.length)
    else none

def strictAccession : String → Option (List Char) := citedValue "accession=" [[18], [10, 2, 6]]

def shortAccession : String → Option (List Char) := citedValue "accession=" [[18], [10, 2, 6], [4, 2, 6]]

def filedCitation : String → Option (List Char) := citedValue "filed=" [[4, 2, 2]]

def validateCitedHeadcountFact (knowableAt : Instant) (periodEnd : Option Date) (evidenceRef : String)
    (requirePeriodEnd allowShortCikAccession : Bool) : Except String Unit :=
  let accession := if allowShortCikAccession then shortAccession evidenceRef else strictAccession evidenceRef
  if accession = none then .error "headcount evidence_ref does not cite an 18-digit SEC accession"
  else match filedCitation evidenceRef with
    | none => .error "headcount evidence_ref does not cite a filing date (filed=YYYY-MM-DD)"
    | some cited =>
      match fromIsoFormat (String.ofList cited) with
      | none => .error "Invalid isoformat string"
      | some filed =>
        if utcDate knowableAt < filed then .error "headcount knowable_at precedes cited filing date"
        else if utcDate knowableAt ≠ filed then .error "headcount knowable_at does not match cited filing date"
        else match periodEnd with
          | none =>
            if requirePeriodEnd then .error "headcount period_end must be set to the fiscal period end of the cited filing"
            else .ok ()
          | some periodEnd =>
            if filed < periodEnd then .error "headcount period_end is after cited filing date" else .ok ()

def headcountPriority : List String := ["10k-extraction", "manual-review"]

def retiredSource : String := "curated-10k-2025"

/-- A row of `staging.issuer_headcount_facts`. -/
structure HeadcountFact where
  id : ℕ
  cik : ℕ
  headcount : ℚ
  knowableAt : Instant
  periodEnd : Option Date
  source : String
  evidenceRef : String
  confidence : ℚ
  deriving DecidableEq, Repr

def isEligibleHeadcountRow (fact : HeadcountFact) : Bool :=
  if fact.source = retiredSource then false
  else if fact.source ∈ headcountPriority then
    let accession := if fact.source = "10k-extraction" then shortAccession fact.evidenceRef
      else strictAccession fact.evidenceRef
    if accession = none ∨ filedCitation fact.evidenceRef = none then false
    else if fact.source = "manual-review" then
      (validateCitedHeadcountFact fact.knowableAt fact.periodEnd fact.evidenceRef true false).isOk
    else true
  else true

/-- A row of `raw.fetches` for a filing document, `filing-document:CIK<cik>:<accession>:<primary document>`. -/
structure FilingFetch where
  id : ℕ
  cik : ℕ
  accession : String
  primaryDocument : String
  payloadSha256 : String
  sourcePublishedAt : Option Instant
  form : Option String
  deriving DecidableEq, Repr

def FilingFetch.key (fetch : FilingFetch) : ℕ × String × String × String :=
  (fetch.cik, fetch.accession, fetch.primaryDocument, fetch.payloadSha256)

/-- It has the source record `companyfacts:CIK<cik>` and the vintages of its payload. -/
structure FinancialFactObservation where
  cik : ℕ
  knowableAt : Instant
  vintages : List (String × Vintage)
  deriving DecidableEq, Repr

def FinancialFactObservation.revenueForm (observation : FinancialFactObservation) : Option String :=
  (observation.vintages.lookup "revenue").bind Vintage.form

structure StandardsTables where
  facts : List HeadcountFact
  fetches : AppendOnly FilingFetch.key
  observations : List FinancialFactObservation

namespace StandardsTables

def empty : StandardsTables := ⟨[], ⟨[], List.nodup_nil⟩, []⟩

def recordHeadcount (tables : StandardsTables) (fact : HeadcountFact) : Except String StandardsTables :=
  if fact.source = retiredSource then
    .error "headcount source 'curated-10k-2025' is retired; cite an 18-digit SEC accession (#1264)"
  else do
    if fact.source ∈ headcountPriority then
      validateCitedHeadcountFact fact.knowableAt fact.periodEnd fact.evidenceRef (fact.source = "manual-review")
        (fact.source = "10k-extraction")
    return { tables with facts := tables.facts ++ [fact] }

/-- `FilingDocument`, with the hash of its body. -/
structure FilingDocument where
  cik : ℕ
  accession : String
  form : String
  filingDate : Date
  primaryDocument : String
  bodySha256 : String
  deriving DecidableEq, Repr

/-- The choice of `extract_headcount`, with the detail of a model run, the quoted span and the confidence. -/
structure ChosenHeadcount where
  value : ℚ
  asOf : Option Date
  extractor : String
  modelDetail : String
  span : String
  confidence : ℚ
  deriving DecidableEq, Repr

def alreadyRecorded (tables : StandardsTables) (cik : ℕ) (accession : String) : Bool :=
  tables.facts.any fun fact => fact.cik = cik ∧ fact.source = "10k-extraction" ∧
    ("accession=" ++ accession ++ " ").toList.isPrefixOf fact.evidenceRef.toList

/-- The row that `extract_headcount` lands a document as. -/
def fetchOf (document : FilingDocument) (id : ℕ) : FilingFetch where
  id
  cik := document.cik
  accession := document.accession
  primaryDocument := document.primaryDocument
  payloadSha256 := document.bodySha256
  sourcePublishedAt := some (accessionInstant document.filingDate)
  form := some document.form

def evidenceRef (document : FilingDocument) (recordCik rawId : ℕ) (chosen : ChosenHeadcount) : String :=
  "accession=" ++ document.accession ++ " form=" ++ document.form ++ " filed=" ++ isoFormat document.filingDate ++
    (if recordCik = document.cik then "" else " filing_cik=" ++ toString document.cik) ++
    " raw=raw.fetches:" ++ toString rawId ++ " extractor=" ++ chosen.extractor ++ chosen.modelDetail ++
    " span=" ++ chosen.span

/-- `extract_headcount` in write mode: a recorded accession is skipped, a refused fact rolls the landing back. -/
def extractHeadcount (tables : StandardsTables) (document : FilingDocument) (recordCik : ℕ) (chosen : ChosenHeadcount)
    (fetchId factId : ℕ) : Except String StandardsTables :=
  if tables.alreadyRecorded recordCik document.accession then .ok tables
  else
    let landed := tables.fetches.insert (fetchOf document fetchId)
    let rawId := ((landed.1.rows.find? fun row => row.key = (fetchOf document fetchId).key).map FilingFetch.id).getD fetchId
    recordHeadcount { tables with fetches := landed.1 }
      { id := factId
        cik := recordCik
        headcount := chosen.value
        knowableAt := accessionInstant document.filingDate
        periodEnd := chosen.asOf
        source := "10k-extraction"
        evidenceRef := evidenceRef document recordCik rawId chosen
        confidence := chosen.confidence }

/-- The observation of a captured bundle, at the later instant of the bundle and of the payload's headcount fact. -/
def observationOf (cik : ℕ) (bundle : FinancialFactsBundle) (cutoff : Date) (headcount : Option Instant) :
    FinancialFactObservation where
  cik
  knowableAt :=
    let knowable := bundle.knowableAt.getD (accessionInstant cutoff)
    match headcount with
    | some instant => if knowable < instant then instant else knowable
    | none => knowable
  vintages := bundle.vintages

def captureBundle (tables : StandardsTables) (cik : ℕ) (bundle : FinancialFactsBundle) (cutoff : Date)
    (headcount : Option Instant) : StandardsTables :=
  { tables with observations := tables.observations ++ [observationOf cik bundle cutoff headcount] }

end StandardsTables

end TrueAlpha.Datahub
