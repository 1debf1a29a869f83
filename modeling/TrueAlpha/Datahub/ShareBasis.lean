import TrueAlpha.Backtest.CorporateActions
import TrueAlpha.Datahub.CompanyFacts

/-!
# The share basis of a filed count

A filed share count is on the basis of one date.  The projector always classes it by the stored documents (`shareCountAsOf`),
the live path only when a split lies between its own date and its filing date.  The texts of a gap use formats that are
parameters.
-/

namespace TrueAlpha.Datahub

open Backtest (SplitEvent splitFactorBetween)

inductive BasisKind where
  | cover
  | statement
  | unrecognised
  deriving DecidableEq, Repr

structure ShareBasis where
  asOf : Date
  kind : BasisKind
  deriving DecidableEq, Repr

/-- A value of a vintage entry: whether it is true, its `str` and its `repr`. -/
structure EntryValue where
  truthy : Bool
  str : String
  repr : String
  deriving DecidableEq, Repr

/-- The vintage entry of a count; `none` is an object that is no mapping. -/
abbrev VintageEntry := Option (Dict String EntryValue)

def VintageEntry.get (entry : VintageEntry) (key : String) : Option EntryValue :=
  ((entry.bind fun fields => fields.get? key)).filter EntryValue.truthy

def sharesKey : String := "shares_outstanding"

def shareCountFields : List String := [sharesKey, "shares_outstanding_last_resort"]

def shareCountConcepts (ruleset : ConceptMappingRuleset) : List ConceptRef × List ConceptRef :=
  let concepts := shareCountFields.flatMap fun field => ((ruleset.mappingFor field).map FieldMapping.concepts).getD []
  (concepts.filter fun concept => concept.taxonomy = "dei", concepts.filter fun concept => concept.taxonomy ≠ "dei")

variable (reader : Reader)

def carries (documents : List CompanyFacts) (concepts : List ConceptRef) (accession periodEnd : String) (value : ℚ) : Bool :=
  documents.any fun facts => concepts.any fun concept =>
    (facts.units concept.taxonomy concept.concept).values.any fun entries => entries.any fun item =>
      item.accn = some accession && item.end = some periodEnd && item.val.any fun text => reader.decimal text = some value

def readDate (text : String) : Except String Date :=
  match reader.date text with
  | none => .error "ValueError: Invalid isoformat string"
  | some date => .ok date

def classOfCount (accession periodEnd : String) (value : ℚ) (documents : List CompanyFacts)
    (coverConcepts statementConcepts : List ConceptRef) (filed : Date) : Except String ShareBasis :=
  if carries reader documents coverConcepts accession periodEnd value then
    (readDate reader periodEnd).map fun asOf => ⟨asOf, .cover⟩
  else if carries reader documents statementConcepts accession periodEnd value then .ok ⟨filed, .statement⟩
  else .ok ⟨filed, .unrecognised⟩

def shareCountAsOf (entry : VintageEntry) (value : ℚ) (documents : List CompanyFacts)
    (coverConcepts statementConcepts : List ConceptRef) (filedFallback : Date) : Except String ShareBasis :=
  match entry.get "filed" with
  | none => .ok ⟨filedFallback, .unrecognised⟩
  | some filedValue => do
    let filed ← readDate reader filedValue.str
    match entry.get "accession", entry.get "period_end" with
    | some accession, some periodEnd =>
      classOfCount reader accession.str periodEnd.str value documents coverConcepts statementConcepts filed
    | _, _ => .ok ⟨filed, .unrecognised⟩

structure Unavailable where
  reason : String
  detail : String
  deriving DecidableEq, Repr

structure OnCloseBasis where
  value : ℚ
  knowableAt : Instant
  factor : ℚ
  deriving DecidableEq, Repr

inductive BasisOutcome where
  | basis (basis : OnCloseBasis)
  | unavailable (gap : Unavailable)
  deriving DecidableEq, Repr

inductive ListingUnits where
  | missing
  | flag (value : Bool)
  | units (ratio : ℚ)
  deriving DecidableEq, Repr

structure Formats where
  date : Date → String
  decimal : ℚ → String
  fourPlaces : ℚ → String

def missingClassRatio : String := "missing_class_ratio"

def missingListingUnitRatio : String := "missing_listing_unit_ratio"

def closeJumpLimit : ℚ := 3 / 2

def scaledBasis (value : ℚ) (knowableAt closeKnowableAt : Instant) (ratio factor : ℚ) : OnCloseBasis :=
  let inListedUnits := if ratio = 1 then value else value / ratio
  if factor = 1 then ⟨inListedUnits, knowableAt, factor⟩
  else ⟨inListedUnits * factor.num / factor.den, max knowableAt closeKnowableAt, factor⟩

def onCloseBasis (formats : Formats) (value : ℚ) (knowableAt : Instant) (basisDate closeSession : Date)
    (closeKnowableAt : Instant) (splits : List SplitEvent) (listingUnitsPerShare : ListingUnits)
    (sharesBasis : Option String) : BasisOutcome :=
  if sharesBasis = some missingClassRatio then
    .unavailable ⟨missingClassRatio, "the multi-class share count has no proven class conversion ratio"⟩
  else
    match listingUnitsPerShare with
    | .missing | .flag _ => .unavailable ⟨missingListingUnitRatio, "the share count has no proven listing unit ratio"⟩
    | .units ratio =>
      if ratio ≤ 0 then
        .unavailable ⟨missingListingUnitRatio, "the listing unit ratio must be positive; got " ++ formats.decimal ratio⟩
      else
        .basis (scaledBasis value knowableAt closeKnowableAt ratio (splitFactorBetween splits basisDate closeSession))

/-! ## The live path -/

structure SplitHistory where
  symbol : String
  events : List SplitEvent
  firstSession : Date
  lastSession : Date
  lastUnadjustedClose : ℚ
  deriving DecidableEq, Repr

inductive ListingHistory where
  | absent
  | blocked (gap : Unavailable)
  | shown (history : SplitHistory)
  deriving DecidableEq, Repr

def ListingHistory.gap? : ListingHistory → Option Unavailable
  | .blocked gap => some gap
  | _ => none

def ListingHistory.known? : ListingHistory → Option SplitHistory
  | .shown history => some history
  | _ => none

structure LiveShareCount where
  shares : ℚ
  knowableAt : Instant
  entry : VintageEntry
  closeSession : Date
  closeKnowableAt : Instant
  close : ℚ

def entryDate (entry : VintageEntry) (key : String) : Option Date := (entry.get key).bind fun value => reader.date value.str

structure LiveSettings where
  formats : Formats
  oldestSessionWithinLag : Date → Date

variable (settings : LiveSettings)

/-- Why a listing's series do not speak for the session of the close; a jump's ratio raises at a zero close. -/
def closeSideGap (history : SplitHistory) (count : LiveShareCount) : Except String (Option Unavailable) :=
  let close := count.closeSession
  let formats := settings.formats
  if close ≤ history.lastSession then .ok none
  else if history.lastSession < settings.oldestSessionWithinLag close then
    .ok (some ⟨"split_series_do_not_cover_the_window",
      history.symbol ++ ": both series hold " ++ formats.date history.firstSession ++ ".." ++
        formats.date history.lastSession ++ "; the close is of " ++ formats.date close⟩)
  else
    let last := history.lastUnadjustedClose
    if last < count.close * closeJumpLimit ∧ count.close < last * closeJumpLimit then .ok none
    else if last = 0 then .error "decimal.DivisionByZero"
    else
      .ok (some ⟨"close_jump_beyond_series",
        history.symbol ++ ": the close of " ++ formats.date close ++ " is " ++ formats.decimal count.close ++
          " and the last stored close, of " ++ formats.date history.lastSession ++ ", is " ++ formats.decimal last ++
          ": ratio " ++ formats.fourPlaces (count.close / last) ++ ", not inside the limit " ++
          formats.decimal closeJumpLimit ++ "; a split or an event, and the stored series cannot tell which"⟩)

def firstGap (earliest : Date) (count : LiveShareCount) : List SplitHistory → Except String (Option Unavailable)
  | [] => .ok none
  | history :: rest =>
    if earliest < history.firstSession then
      .ok (some ⟨"split_series_do_not_cover_the_window",
        history.symbol ++ ": both series start on " ++ settings.formats.date history.firstSession ++
          "; the count's basis can be " ++ settings.formats.date earliest⟩)
    else do
      match ← closeSideGap settings history count with
      | some gap => .ok (some gap)
      | none => firstGap earliest count rest

def factorPair (earliest latest close : Date) (history : SplitHistory) : ℚ × ℚ :=
  (splitFactorBetween history.events earliest close, splitFactorBetween history.events latest close)

def namedValue (entry : VintageEntry) (key : String) : String :=
  ((entry.bind fun fields => fields.get? key).map EntryValue.repr).getD "None"

/-- The basis date of a count whose dates no split separates, or the class of the stored documents (`none` when none). -/
def liveBasisDate (count : LiveShareCount) (documents : List CompanyFacts) (ruleset : ConceptMappingRuleset)
    (filed latest : Date) (fromEarliest fromLatest : ℚ) : Except String (Option Date) :=
  if fromEarliest = fromLatest then .ok (some latest)
  else
    let concepts := shareCountConcepts ruleset
    (shareCountAsOf reader count.entry count.shares documents concepts.1 concepts.2 filed).map fun basis =>
      if basis.kind = .unrecognised then none else some basis.asOf

def datedBasis (count : LiveShareCount) (first : SplitHistory) (rest : List SplitHistory)
    (listingUnitsPerShare : ListingUnits) (sharesBasis : Option String) (documents : List CompanyFacts)
    (ruleset : ConceptMappingRuleset) (ownDate filed : Date) : Except String BasisOutcome := do
  let earliest := min ownDate filed
  let latest := max ownDate filed
  let close := count.closeSession
  match ← firstGap settings earliest count (first :: rest) with
  | some gap => .ok (.unavailable gap)
  | none =>
    let (fromEarliest, fromLatest) := factorPair earliest latest close first
    if rest.any fun history => factorPair earliest latest close history ≠ (fromEarliest, fromLatest) then
      .ok (.unavailable ⟨"listings_disagree_on_splits",
        ", ".intercalate (sortedBy id ((first :: rest).map SplitHistory.symbol)) ++ " show different splits"⟩)
    else
      match ← liveBasisDate reader count documents ruleset filed latest fromEarliest fromLatest with
      | none =>
        .ok (.unavailable ⟨"share_basis_ambiguous",
          "a split lies between the count's date " ++ settings.formats.date ownDate ++ " and its filing " ++
            settings.formats.date filed ++
            ", and no stored document classes the count as a cover or a statement figure"⟩)
      | some basisDate =>
        .ok (onCloseBasis settings.formats count.shares count.knowableAt basisDate close count.closeKnowableAt
          first.events listingUnitsPerShare sharesBasis)

def ListingUnits.unproven : ListingUnits → Bool
  | .missing | .flag _ => true
  | .units ratio => ratio ≤ 0

def liveOnCloseBasis (count : LiveShareCount) (histories : List ListingHistory) (listingUnitsPerShare : ListingUnits)
    (sharesBasis : Option String) (documents : List CompanyFacts) (ruleset : ConceptMappingRuleset) :
    Except String BasisOutcome :=
  if sharesBasis = some missingClassRatio then
    .ok (.unavailable ⟨missingClassRatio, "the multi-class share count has no proven class conversion ratio"⟩)
  else if listingUnitsPerShare.unproven then
    .ok (.unavailable ⟨missingListingUnitRatio, "the share count has no proven listing unit ratio"⟩)
  else
    match histories.filterMap ListingHistory.gap? with
    | gap :: gaps =>
      .ok (.unavailable ⟨gap.reason, "; ".intercalate ((gap :: gaps).map Unavailable.detail)⟩)
    | [] =>
      match histories.filterMap ListingHistory.known? with
      | [] => .ok (.unavailable ⟨"no_split_adjusted_series", "no listing of the issuer holds stored daily series"⟩)
      | first :: rest =>
        match entryDate reader count.entry "period_end", entryDate reader count.entry "filed" with
        | some ownDate, some filed =>
          datedBasis reader settings count first rest listingUnitsPerShare sharesBasis documents ruleset ownDate filed
        | _, _ =>
          .ok (.unavailable ⟨"share_count_undated",
            "the share count needs a valid own date and filing date; the payload names period_end " ++
              namedValue count.entry "period_end" ++ " and filed " ++ namedValue count.entry "filed"⟩)

end TrueAlpha.Datahub
