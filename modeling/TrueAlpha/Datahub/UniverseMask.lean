import TrueAlpha.Datahub.MarketPrices

/-!
# The universe mask

The embedding of `datahub.universe_mask`: `evaluate_symbol_pit` and its reader.  A query orders its rows by date, and rows of
one date as it likes.  `computed_at` is left out.
-/

namespace TrueAlpha.Datahub

inductive MaskReason where
  | ok
  | unlisted
  | insufficientHistory
  | suspended
  deriving DecidableEq, Repr

def MaskReason.code : MaskReason → String
  | .ok => "ok"
  | .unlisted => "unlisted"
  | .insufficientHistory => "unavailable:insufficient_history"
  | .suspended => "suspended"

structure UniverseMaskRecord where
  symbol : String
  cutoffDate : Date
  eligible : Bool
  reasonCode : MaskReason
  resolution : String
  deriving DecidableEq, Repr

structure MaskBar where
  symbol : String
  date : Date
  close : Option PriceNumber
  volume : Option PriceNumber
  isSuspended : Bool
  deriving DecidableEq, Repr

/-- `decimal.InvalidOperation`, which the order of a NaN raises. -/
inductive InvalidOperation where
  | nanCompared
  deriving DecidableEq, Repr

/-- A number is there and not `<= 0`. -/
def isPositive : Option PriceNumber → Except InvalidOperation Bool
  | none => .ok false
  | some (.finite value) => .ok (0 < value)
  | some (.infinite negative) => .ok !negative
  | some .nan => .error .nanCompared

def MaskBar.isActive (bar : MaskBar) : Except InvalidOperation Bool :=
  if bar.isSuspended then .ok false
  else do
    if ← isPositive bar.volume then isPositive bar.close else return false

/-- `max` of bars by date: the first one of the last date. -/
def latestBar (first : MaskBar) (rest : List MaskBar) : MaskBar :=
  rest.foldl (fun latest bar => if latest.date < bar.date then bar else latest) first

def expectedSession (resolution : String) (cutoffDate : Date) : Date :=
  if resolution = "1M" then snapToLastXnysSessionOfMonth cutoffDate else cutoffDate

def evaluateSymbolPit (symbol : String) (cutoffDate : Date) (listingDate : Option Date) (bars : List MaskBar)
    (minPeriods : ℤ) (resolution : String) : Except InvalidOperation UniverseMaskRecord :=
  let ineligible := fun reason => UniverseMaskRecord.mk symbol cutoffDate false reason resolution
  if listingDate.any fun listing => cutoffDate < listing then .ok (ineligible .unlisted)
  else
    -- no bar after the cutoff is read
    let pitBars := bars.filter fun bar => bar.date ≤ cutoffDate
    match pitBars with
    | [] =>
      if listingDate.any fun listing => listing ≤ cutoffDate then .ok (ineligible .insufficientHistory)
      else .ok (ineligible .unlisted)
    | first :: rest =>
      if (pitBars.length : ℤ) < minPeriods then .ok (ineligible .insufficientHistory)
      else if (latestBar first rest).date ≠ expectedSession resolution cutoffDate then .ok (ineligible .suspended)
      else (latestBar first rest).isActive.map fun active =>
        if active then ⟨symbol, cutoffDate, true, .ok, resolution⟩ else ineligible .suspended

def maskOutcomes (barsOf : String → List MaskBar) (symbols : List String) (cutoffDates : List Date)
    (listingDates : Dict String Date) (minPeriods : ℤ) (resolution : String) :
    List (Except InvalidOperation UniverseMaskRecord) :=
  cutoffDates.flatMap fun cutoff => symbols.map fun symbol =>
    evaluateSymbolPit symbol cutoff (listingDates.get? symbol) (barsOf symbol) minPeriods resolution

/-- The first outcome that raises is raised. -/
def computeUniverseMask (symbols : List String) (cutoffDates : List Date) (prices : List MaskBar)
    (listingDates : Option (Dict String Date)) (minPeriods : ℤ) (resolution : String) :
    Except InvalidOperation (List UniverseMaskRecord) :=
  (maskOutcomes (fun symbol => prices.filter fun bar => bar.symbol = symbol) symbols cutoffDates
    (listingDates.getD Dict.empty) minPeriods resolution).mapM id

/-- `staging.universe_mask`: whether a key is eligible, and the code of the reason. -/
abbrev MaskTable := Dict (String × Date × String) (Bool × String)

def persistUniverseMask (mask : MaskTable) (records : List UniverseMaskRecord) : MaskTable := records.foldl (fun mask record =>
    mask.set (record.symbol, record.cutoffDate, record.resolution) (record.eligible, record.reasonCode.code)) mask

/-- How a database returns rows `order by trading_date asc`. -/
structure QueryOrder where
  order : List PriceRow → List PriceRow
  perm : ∀ rows, (order rows).Perm rows
  sorted : ∀ rows, (order rows).Pairwise fun earlier later => earlier.tradingDate ≤ later.tradingDate

def maskBarOf (row : PriceRow) : MaskBar := ⟨row.symbol, row.tradingDate, row.close, row.volume, false⟩

def selectedRows (table : PriceTable) (symbols : List String) (maxCutoff : Date) (adjust : String) : List PriceRow :=
  table.rows.filter fun row => row.symbol ∈ symbols ∧ row.tradingDate ≤ maxCutoff ∧ row.adjust = adjust

/-- The records, and the mask after them. -/
def computeAndPersistUniverseMaskFromDb (query : QueryOrder) (table : PriceTable) (mask : MaskTable)
    (symbols : List String) (cutoffDates : List Date) (adjust : String) (listingDates : Option (Dict String Date))
    (minPeriods : ℤ) (resolution : String) : Except InvalidOperation (List UniverseMaskRecord × MaskTable) :=
  match cutoffDates.max? with
  | none => .ok ([], mask)
  | some maxCutoff =>
    if symbols = [] then .ok ([], mask)
    else do
      let rows := query.order (selectedRows table symbols maxCutoff adjust)
      let records ← computeUniverseMask symbols cutoffDates (rows.map maskBarOf) listingDates minPeriods resolution
      return (records, persistUniverseMask mask records)

end TrueAlpha.Datahub
