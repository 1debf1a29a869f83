import TrueAlpha.Datahub.CompanyFacts
import TrueAlpha.Strategy.Projector

/-!
# The financial bundle of a company-facts document

The embedding of `build_bundle`.  A figure is a `Datum`: the value of one entry, or a difference or a sum of such values, with
the filing that made it knowable.  A series is keyed by period end.  `Decimal` arithmetic is exact.
-/

namespace TrueAlpha.Datahub

open Strategy (OperatingBranch)

structure Datum where
  value : ℚ
  filed : Date
  periodEnd : Date
  periodStart : Option Date
  accession : Option String
  form : Option String
  fy : Option ℤ
  fp : Option String
  statementForm : Option Bool
  document : Option String
  deriving DecidableEq, Repr

/-- `0` for a statement figure, `1` for one from another form: lower wins. -/
def Datum.rank (datum : Datum) : ℤ := if datum.statementForm = some false then 1 else 0

abbrev Series := Dict Date Datum

def annualStatementForms : List String := ["10-K", "10-K/A", "10-KT", "10-KT/A", "20-F", "20-F/A", "40-F", "40-F/A"]

def interimStatementForms : List String := ["10-Q", "10-Q/A", "10-QT", "10-QT/A"]

def statementForms : List String := annualStatementForms ++ interimStatementForms

def annualMinimumDays : ℤ := 350

/-- The white space that `str.strip` removes. -/
def isSpace (c : Char) : Bool :=
  let n := c.toNat
  (0x9 ≤ n && n ≤ 0xd) || (0x1c ≤ n && n ≤ 0x20) || n == 0x85 || n == 0xa0 || n == 0x1680 ||
    (0x2000 ≤ n && n ≤ 0x200a) || n == 0x2028 || n == 0x2029 || n == 0x202f || n == 0x205f || n == 0x3000

def strip (text : String) : String := String.ofList ((text.toList.dropWhile isSpace).reverse.dropWhile isSpace).reverse

def textOrNone (value : Option String) : Option String := (value.map strip).filter (· ≠ "")

def isDigit (c : Char) : Bool := '0' ≤ c && c ≤ '9'

def fiscalYear : Option FiscalYearField → Option ℤ
  | none => none
  | some (.number value) => some value
  | some (.text value) =>
    if value ≠ "" ∧ value.toList.all isDigit then
      some (value.toList.foldl (fun n c => 10 * n + (c.toNat - '0'.toNat : ℕ)) 0)
    else none

def statementFormOf (form : Option String) : Option Bool := form.map fun name => decide (name ∈ statementForms)

def combinedStatementForm (datums : List Datum) : Option Bool :=
  let flags := datums.map Datum.statementForm
  if some false ∈ flags then some false else if none ∈ flags then none else some true

def combinedDocument (datums : List Datum) : Option String :=
  let documents := sortedSet (datums.filterMap Datum.document)
  if documents = [] then none else some ("+".intercalate documents)

def segmentKey (entry : FactEntry) (unit : String) : Option String :=
  if unit ≠ "shares" then none
  else
    match entry.segment with
    | none => none
    | some (.mapping dump) => some dump
    | some (.value text) => textOrNone (some text)

variable (reader : Reader)

def entryDatum (entry : FactEntry) (value : ℚ) (filed periodEnd : Date) (periodStart : Option Date) : Datum :=
  { value, filed, periodEnd, periodStart
    accession := textOrNone entry.accn
    form := textOrNone entry.form
    fy := fiscalYear entry.fy
    fp := textOrNone entry.fp
    statementForm := statementFormOf (textOrNone entry.form)
    document := textOrNone entry.document }

def readStart (start : Option String) : Option (Option Date) :=
  match start with
  | none => some none
  | some text => (reader.date text).map some

def shortSpan (form : Option String) (start : Option Date) (periodEnd : Date) : Bool :=
  match start with
  | none => false
  | some start => form.any (· ∈ interimStatementForms) || periodEnd - start < annualMinimumDays

def annualDatum (entry : FactEntry) (unit : String) : Option Datum :=
  if (segmentKey entry unit).isSome then none
  else do
    let filedRaw ← entry.filed
    let endRaw ← entry.end
    let val ← entry.val
    let filed ← reader.date filedRaw
    let periodEnd ← reader.date endRaw
    let start ← readStart reader entry.start
    if shortSpan (textOrNone entry.form) start periodEnd then none
    else (reader.decimal val).map fun value => entryDatum entry value filed periodEnd start

def segmentedDatum (entry : FactEntry) (unit : String) : Option Datum :=
  if (segmentKey entry unit).isNone then none
  else do
    let filedRaw ← entry.filed
    let endRaw ← entry.end
    let val ← entry.val
    if entry.start.isSome then none
    else
      let filed ← reader.date filedRaw
      let periodEnd ← reader.date endRaw
      (reader.decimal val).map fun value => entryDatum entry value filed periodEnd none

def recordBetterDatum (values : Series) (datum : Datum) : Series :=
  match values.get? datum.periodEnd with
  | none => values.set datum.periodEnd datum
  | some existing =>
    if (toLex (datum.rank, -datum.filed) : ℤ ×ₗ ℤ) < toLex (existing.rank, -existing.filed) then
      values.set datum.periodEnd datum
    else values

def collectDatum (read : FactEntry → Option Datum) (cutoff : Date) (values : Series) (entry : FactEntry) : Series :=
  match read entry with
  | none => values
  | some datum => if cutoff < datum.filed then values else recordBetterDatum values datum

def annualValuesByPeriodEnd (facts : CompanyFacts) (taxonomy concept unit : String) (cutoff : Date) : Series :=
  (facts.entries taxonomy concept unit).foldl (collectDatum (fun entry => annualDatum reader entry unit) cutoff)
    Dict.empty

def latest (values : Series) : Option Datum := values.keys.max?.bind values.get?

def mergeDatum (merged : Series) (item : Date × Datum) : Series :=
  match merged.get? item.1 with
  | none => merged.set item.1 item.2
  | some existing => if item.2.rank < existing.rank then merged.set item.1 item.2 else merged

def mergeVariants (facts : CompanyFacts) (concepts : List ConceptRef) (unit : String) (cutoff : Date) : Series :=
  concepts.foldl (fun merged concept =>
    (annualValuesByPeriodEnd reader facts concept.taxonomy concept.concept unit cutoff).items.foldl mergeDatum merged)
    Dict.empty

def preferredVariant (facts : CompanyFacts) (concepts : List ConceptRef) (unit : String) (cutoff : Date) : Series :=
  let series := concepts.map fun concept =>
    annualValuesByPeriodEnd reader facts concept.taxonomy concept.concept unit cutoff
  match series.find? fun values => values.values.any fun datum => datum.rank = 0 with
  | some values => values
  | none => (series.find? fun values => values.keys ≠ []).getD Dict.empty

def resolveField (facts : CompanyFacts) (ruleset : ConceptMappingRuleset) (field : String) (cutoff : Date) : Series :=
  match ruleset.mappingFor field with
  | none => Dict.empty
  | some mapping =>
    match mapping.kind with
    | .fallback => preferredVariant reader facts mapping.concepts mapping.unit cutoff
    | .synonym => mergeVariants reader facts mapping.concepts mapping.unit cutoff

def differenceOf (periodEnd : Date) (base subtracted : Datum) : Datum :=
  let later := if subtracted.filed ≤ base.filed then base else subtracted
  { value := base.value - subtracted.value
    filed := later.filed
    periodEnd
    periodStart := base.periodStart.or subtracted.periodStart
    accession := later.accession
    form := later.form
    fy := later.fy
    fp := later.fp
    statementForm := combinedStatementForm [base, subtracted]
    document := combinedDocument [base, subtracted] }

def sharedEnds (base subtracted : Series) : List Date := base.keys.filter (· ∈ subtracted.keys)

def differenceAtSharedPeriod (base subtracted : Series) : Option Datum := do
  let periodEnd ← (sharedEnds base subtracted).max?
  let left ← base.get? periodEnd
  let right ← subtracted.get? periodEnd
  some (differenceOf periodEnd left right)

/-- Several figures of a period as one, attributed to the later filing; none is refused, and no caller sums none. -/
def sumAt (periodEnd : Date) (datums : List Datum) : Option Datum := (datums.argmax Datum.filed).map fun later =>
    { value := (datums.map Datum.value).sum
      filed := later.filed
      periodEnd
      periodStart := none
      accession := later.accession
      form := later.form
      fy := later.fy
      fp := later.fp
      statementForm := combinedStatementForm datums
      document := combinedDocument datums }

/-- Of a reported and a derived figure, the later period, then the better rank; the reported one on a tie. -/
def laterCandidate (direct derived : Option Datum) : Option Datum :=
  ([direct, derived].filterMap id).argmax fun datum => (toLex (datum.periodEnd, -datum.rank) : ℤ ×ₗ ℤ)

variable (facts : CompanyFacts) (ruleset : ConceptMappingRuleset) (cutoff : Date)

def grossProfit : Option Datum := laterCandidate (latest (resolveField reader facts ruleset "gross_profit" cutoff))
    (differenceAtSharedPeriod (resolveField reader facts ruleset "revenue" cutoff)
      (resolveField reader facts ruleset "cost_of_revenue" cutoff))

def insurancePreClaimsProfit : Option Datum :=
  let revenue := resolveField reader facts ruleset "revenue" cutoff
  let claims := resolveField reader facts ruleset "insurance_claims" cutoff
  (differenceAtSharedPeriod revenue claims).filter fun datum => some datum.periodEnd = revenue.keys.max?

def preProvisionProfit : Option Datum := differenceAtSharedPeriod (resolveField reader facts ruleset "bank_revenue" cutoff)
    (resolveField reader facts ruleset "noninterest_expense" cutoff)

def sumAtSharedPeriod (left right : Series) : Option Datum := do
  let periodEnd ← (sharedEnds left right).max?
  let first ← left.get? periodEnd
  let second ← right.get? periodEnd
  sumAt periodEnd [first, second]

def bankNetRevenue : Option Datum :=
  let direct := latest (resolveField reader facts ruleset "bank_net_revenue" cutoff)
  let derived := sumAtSharedPeriod (resolveField reader facts ruleset "interest_income_expense_net" cutoff)
    (resolveField reader facts ruleset "noninterest_income" cutoff)
  match laterCandidate direct derived with
  | some datum => some datum
  | none => latest (resolveField reader facts ruleset "bank_revenue" cutoff)

/-! ## Financial components -/

def investmentTiers : List (List String) := [["short_term_investments", "long_term_investments"],
    ["marketable_securities_current", "marketable_securities_noncurrent"],
    ["afs_debt_securities", "htm_securities", "equity_securities_fvni"], ["investments_total"]]

def bankPortfolioTiers : List (List String) :=
  [["afs_debt_securities", "htm_securities", "equity_securities_fvni", "fed_funds_sold"], ["investments_total"]]

def tierAt (series : String → Series) (periodEnd : Date) (fields : List String) : List (Datum × String) :=
  fields.filterMap fun field => ((series field).get? periodEnd).map fun datum => (datum, field)

def joined (named : List String) : String := "+".intercalate named

structure Component where
  datum : Option Datum
  basis : Option String
  deriving DecidableEq, Repr

def bankAssets (series : String → Series) : Component := (bankPortfolioTiers.findSome? fun fields =>
    (fields.flatMap fun field => (series field).keys).max?.map fun periodEnd =>
      let tier := tierAt series periodEnd fields
      Component.mk (sumAt periodEnd (tier.map Prod.fst)) (some (joined (tier.map Prod.snd)))).getD ⟨none, none⟩

def cashAssets (series : String → Series) (cash : Datum) : Component :=
  let tiers := investmentTiers.map fun fields => tierAt series cash.periodEnd fields
  match tiers.find? fun tier => tier ≠ [] with
  | some tier =>
    ⟨sumAt cash.periodEnd (cash :: tier.map Prod.fst), some ("cash_and_equivalents+" ++ joined (tier.map Prod.snd))⟩
  | none => ⟨some cash, some "cash_and_equivalents"⟩

def combinedAssets (series : String → Series) (combined : Datum) : Component :=
  let tier := tierAt series combined.periodEnd ["long_term_investments"]
  if tier = [] then ⟨some combined, some "cash_and_short_term_investments"⟩
  else ⟨sumAt combined.periodEnd (combined :: tier.map Prod.fst),
    some ("cash_and_short_term_investments+" ++ joined (tier.map Prod.snd))⟩

def operatingAssets (series : String → Series) : Component :=
  match latest (series "cash_and_equivalents") with
  | some cash => cashAssets series cash
  | none =>
    match latest (series "cash_and_short_term_investments") with
    | some combined => combinedAssets series combined
    | none => ⟨none, none⟩

def investmentReturns (series : String → Series) : Component × Bool :=
  match latest (series "investment_income") with
  | some income =>
    let extras := tierAt series income.periodEnd ["investment_income_dividend", "investment_gains"]
    (⟨sumAt income.periodEnd (income :: extras.map Prod.fst), some (joined ("investment_income" :: extras.map Prod.snd))⟩, false)
  | none =>
    match latest (series "nonoperating_income") with
    | some nonoperating => (⟨some nonoperating, some "nonoperating_income"⟩, true)
    | none => (⟨none, none⟩, false)

structure FinancialComponents where
  assets : Component
  returns : Component
  returnsIsProxy : Bool
  deriving DecidableEq, Repr

def financialComponents (branch : OperatingBranch) : FinancialComponents :=
  let series := fun field => resolveField reader facts ruleset field cutoff
  if branch = .financial then ⟨bankAssets series, ⟨none, none⟩, false⟩
  else
    let returns := investmentReturns series
    ⟨operatingAssets series, returns.1, returns.2⟩

structure TangibleCommonEquityComponents where
  stockholdersEquity : Option Datum
  preferredStockValue : Option Datum
  goodwill : Option Datum
  intangibleAssets : Option Datum
  intangibleBasis : Option String
  periodEnd : Option Date
  deriving DecidableEq, Repr

def noTangible : TangibleCommonEquityComponents := ⟨none, none, none, none, none, none⟩

def intangiblesAt (series : String → Series) (periodEnd : Date) : Option Datum × Option String :=
  match (series "intangible_assets_net_excluding_goodwill").get? periodEnd with
  | some total => (some total, some "IntangibleAssetsNetExcludingGoodwill")
  | none =>
    match (series "finite_lived_intangibles_net").get? periodEnd, (series "indefinite_lived_intangibles").get? periodEnd with
    | some finite, some indefinite =>
      (sumAt periodEnd [finite, indefinite],
        some "FiniteLivedIntangibleAssetsNet+IndefiniteLivedIntangibleAssetsExcludingGoodwill")
    | _, _ => (none, none)

def tangibleAt (series : String → Series) (periodEnd : Date) : Option TangibleCommonEquityComponents :=
  let intangibles := intangiblesAt series periodEnd
  if intangibles.1.isNone then none
  else
    some
      { stockholdersEquity := (series "stockholders_equity").get? periodEnd
        preferredStockValue := (series "preferred_stock_value").get? periodEnd
        goodwill := (series "goodwill").get? periodEnd
        intangibleAssets := intangibles.1
        intangibleBasis := intangibles.2
        periodEnd := some periodEnd }

def tangibleCommonEquityComponents (branch : OperatingBranch) : TangibleCommonEquityComponents :=
  let series := fun field => resolveField reader facts ruleset field cutoff
  if branch ≠ .financial then noTangible
  else
    ((sortedSet (sharedEnds (series "stockholders_equity") (series "goodwill"))).reverse.findSome?
      (tangibleAt series)).getD noTangible

def segmentedShares : Option Datum :=
  match ruleset.mappingFor "shares_outstanding" with
  | none => none
  | some mapping =>
    latest (mapping.concepts.foldl (fun candidates concept =>
      (facts.entries concept.taxonomy concept.concept mapping.unit).foldl
        (collectDatum (fun entry => segmentedDatum reader entry mapping.unit) cutoff) candidates) Dict.empty)

def freshShares (maximumInputAgeDays : ℤ) (datum : Option Datum) : Option Datum :=
  datum.filter fun datum => cutoff - datum.periodEnd ≤ maximumInputAgeDays

def segmentedSharesDatum (maximumInputAgeDays : ℤ) : Option Datum :=
  freshShares cutoff maximumInputAgeDays (segmentedShares reader facts ruleset cutoff)

def newestPeriodEnd (candidates : List (Option Datum)) : Option Date := ((candidates.filterMap id).map Datum.periodEnd).max?

def sharesBasisOf (primary fallback segmented : Option Datum) : Option String :=
  if primary.isSome then some "point_in_time"
  else if fallback.isSome then some "weighted_average_basic"
  else if segmented.isSome then some "missing_class_ratio"
  else none

def statementEntry (entry : FactEntry) : Option (String × Date × Date) := do
  let form ← entry.form
  let filedRaw ← entry.filed
  let endRaw ← entry.end
  if form ∉ statementForms ∨ entry.start.isSome ∨ filedRaw = "" ∨ endRaw = "" then none
  else
    let filed ← reader.date filedRaw
    let periodEnd ← reader.date endRaw
    some (form, filed, periodEnd)

def statementEntries : List (String × Date × Date) :=
  let concepts := ((ruleset.mappingFor "total_assets").map FieldMapping.concepts).getD []
  (concepts.flatMap fun concept => (facts.units concept.taxonomy concept.concept).values.flatten).filterMap fun entry =>
    (statementEntry reader entry).filter fun statement => statement.2.1 ≤ cutoff

def statementPeriodEnds : Option Date × Option Date :=
  let statements := statementEntries reader facts ruleset cutoff
  ((statements.map fun statement => statement.2.2).max?,
    ((statements.filter fun statement => statement.1 ∈ annualStatementForms).map fun statement => statement.2.2).max?)

/-! ## The bundle -/

structure Vintage where
  accession : Option String
  document : Option String
  filed : Date
  form : Option String
  fp : Option String
  fy : Option ℤ
  periodEnd : Date
  statementForm : Option Bool
  deriving DecidableEq, Repr

def vintageOf (datum : Datum) : Vintage :=
  ⟨datum.accession, datum.document, datum.filed, datum.form, datum.fp, datum.fy, datum.periodEnd, datum.statementForm⟩

structure FinancialFactsBundle where
  grossProfit : Option ℚ
  totalAssets : Option ℚ
  sharesOutstanding : Option ℚ
  revenue : Option ℚ
  preProvisionProfit : Option ℚ
  rawBytes : String
  knowableAt : Option Instant
  operatingPeriodEnd : Option Date
  revenuePeriodEnd : Option Date
  sharesPeriodEnd : Option Date
  periodStart : Option Date
  netIncome : Option ℚ
  netIncomeByPeriod : List (Date × ℚ)
  vintages : List (String × Vintage)
  netIncomeVintages : List (Date × Vintage)
  financialAssets : Option ℚ
  financialAssetsBasis : Option String
  financialReturns : Option ℚ
  financialReturnsBasis : Option String
  financialReturnsIsProxy : Bool
  sharesBasis : Option String
  latestStatementPeriodEnd : Option Date
  latestAnnualPeriodEnd : Option Date
  document : CompanyFacts
  stockholdersEquity : Option ℚ
  preferredStockValue : Option ℚ
  goodwill : Option ℚ
  intangibleAssetsNetExcludingGoodwill : Option ℚ
  intangibleBasis : Option String
  tangibleEquityPeriodEnd : Option Date
  bankNetRevenue : Option ℚ
  currency : Option String

/-- The end of the filed UTC day: `knowable_instant(AsOfAxis.ACCESSION, day)`. -/
def accessionInstant (day : Date) : Instant := day * microsPerDay + (microsPerDay - 1)

def rulesetCurrency : Option String :=
  ((ruleset.mappingFor "revenue").or (ruleset.mappingFor "total_assets")).map FieldMapping.unit

structure ResolvedFigures where
  grossProfit : Option Datum
  preProvision : Option Datum
  bankNetRevenue : Option Datum
  insurerProfit : Option Datum
  profit : Option Datum
  deriving DecidableEq, Repr

def operatingFigures (branch : OperatingBranch) : ResolvedFigures :=
  match branch with
  | .financial =>
    let preProvision := preProvisionProfit reader facts ruleset cutoff
    ⟨none, preProvision, bankNetRevenue reader facts ruleset cutoff, none, preProvision⟩
  | .insurance =>
    let insurerProfit := insurancePreClaimsProfit reader facts ruleset cutoff
    ⟨insurerProfit, none, none, insurerProfit, insurerProfit⟩
  | .nonFinancial =>
    let profit := grossProfit reader facts ruleset cutoff
    ⟨profit, none, none, none, profit⟩

def valueOf (datum : Option Datum) : Option ℚ := datum.map Datum.value

def namedVintages (figures : List (String × Option Datum)) : List (String × Vintage) :=
  figures.filterMap fun figure => figure.2.map fun datum => (figure.1, vintageOf datum)

/-- What `build_bundle` resolves before it assembles the bundle. -/
structure BundleFigures where
  assets : Option Datum
  sharesPrimary : Option Datum
  sharesFallback : Option Datum
  segmented : Option Datum
  sharesPeriodEnd : Option Date
  revenue : Option Datum
  earningsPeriods : Series
  operating : ResolvedFigures
  financial : FinancialComponents
  tangible : TangibleCommonEquityComponents
  statements : Option Date × Option Date

def BundleFigures.shares (figures : BundleFigures) : Option Datum := figures.sharesPrimary.or figures.sharesFallback

def BundleFigures.netIncome (figures : BundleFigures) : Option Datum := latest figures.earningsPeriods

def BundleFigures.resolved (figures : BundleFigures) : List Datum :=
  [figures.operating.profit, figures.operating.bankNetRevenue, figures.assets, figures.shares, figures.revenue,
    figures.financial.assets.datum, figures.financial.returns.datum, figures.tangible.stockholdersEquity,
    figures.tangible.preferredStockValue, figures.tangible.goodwill,
    figures.tangible.intangibleAssets].filterMap id ++ figures.earningsPeriods.values

def BundleFigures.vintages (figures : BundleFigures) : List (String × Vintage) := namedVintages
    [("gross_profit", figures.operating.grossProfit), ("pre_provision_profit", figures.operating.preProvision),
      ("bank_net_revenue", figures.operating.bankNetRevenue),
      ("insurance_pre_claims_profit", figures.operating.insurerProfit), ("total_assets", figures.assets),
      ("shares_outstanding", figures.shares),
      ("shares_weighted_average_basic", if figures.sharesPrimary.isNone then figures.sharesFallback else none),
      ("revenue", figures.revenue), ("net_income", figures.netIncome),
      ("financial_assets", figures.financial.assets.datum), ("financial_returns", figures.financial.returns.datum),
      ("stockholders_equity", figures.tangible.stockholdersEquity),
      ("preferred_stock_value", figures.tangible.preferredStockValue), ("goodwill", figures.tangible.goodwill),
      ("intangible_assets_net_excluding_goodwill", figures.tangible.intangibleAssets)]

def bundleFigures (maximumInputAgeDays : ℤ) (branch : OperatingBranch) : BundleFigures :=
  let series := fun field => resolveField reader facts ruleset field cutoff
  let sharesPrimary := freshShares cutoff maximumInputAgeDays (latest (series "shares_outstanding"))
  let sharesFallback := freshShares cutoff maximumInputAgeDays (latest (series "shares_outstanding_last_resort"))
  let segmented :=
    if sharesPrimary.isNone ∧ sharesFallback.isNone then
      segmentedSharesDatum reader facts ruleset cutoff maximumInputAgeDays
    else none
  { assets := latest (series "total_assets")
    sharesPrimary
    sharesFallback
    segmented
    sharesPeriodEnd := newestPeriodEnd [sharesPrimary.or sharesFallback, segmented,
      latest (series "shares_outstanding"), latest (series "shares_outstanding_last_resort")]
    revenue := latest (series "revenue")
    earningsPeriods := series "net_income"
    operating := operatingFigures reader facts ruleset cutoff branch
    financial := financialComponents reader facts ruleset cutoff branch
    tangible := tangibleCommonEquityComponents reader facts ruleset cutoff branch
    statements := statementPeriodEnds reader facts ruleset cutoff }

def buildBundle (maximumInputAgeDays : ℤ) (dumps : CompanyFacts → String) (rawBytes : Option String)
    (branch : OperatingBranch) : FinancialFactsBundle :=
  let figures := bundleFigures reader facts ruleset cutoff maximumInputAgeDays branch
  let knowable := (figures.resolved.map Datum.filed).max?
  let periods := sortedBy Prod.fst figures.earningsPeriods.items
  { grossProfit := valueOf figures.operating.grossProfit
    totalAssets := valueOf figures.assets
    sharesOutstanding := valueOf figures.shares
    revenue := valueOf figures.revenue
    preProvisionProfit := valueOf figures.operating.preProvision
    rawBytes := rawBytes.getD (dumps facts)
    knowableAt := knowable.map accessionInstant
    operatingPeriodEnd := figures.operating.profit.map Datum.periodEnd
    revenuePeriodEnd := figures.revenue.map Datum.periodEnd
    sharesPeriodEnd := figures.sharesPeriodEnd
    periodStart := (figures.operating.profit.bind Datum.periodStart).or (figures.revenue.bind Datum.periodStart)
    netIncome := valueOf figures.netIncome
    netIncomeByPeriod := periods.map fun item => (item.1, item.2.value)
    vintages := figures.vintages
    netIncomeVintages := periods.map fun item => (item.1, vintageOf item.2)
    financialAssets := valueOf figures.financial.assets.datum
    financialAssetsBasis := figures.financial.assets.basis
    financialReturns := valueOf figures.financial.returns.datum
    financialReturnsBasis := figures.financial.returns.basis
    financialReturnsIsProxy := figures.financial.returnsIsProxy
    sharesBasis := sharesBasisOf figures.sharesPrimary figures.sharesFallback figures.segmented
    latestStatementPeriodEnd := figures.statements.1
    latestAnnualPeriodEnd := figures.statements.2
    document := facts
    stockholdersEquity := valueOf figures.tangible.stockholdersEquity
    preferredStockValue := valueOf figures.tangible.preferredStockValue
    goodwill := valueOf figures.tangible.goodwill
    intangibleAssetsNetExcludingGoodwill := valueOf figures.tangible.intangibleAssets
    intangibleBasis := figures.tangible.intangibleBasis
    tangibleEquityPeriodEnd := figures.tangible.periodEnd
    bankNetRevenue := valueOf figures.operating.bankNetRevenue
    currency := rulesetCurrency ruleset }

end TrueAlpha.Datahub
