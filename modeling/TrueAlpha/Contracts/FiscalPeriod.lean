import Mathlib.Algebra.GroupWithZero.Nat
import Mathlib.Data.String.Basic
import TrueAlpha.Time

/-!
# Fiscal-period tags

The embedding of `truealpha_contracts.fiscal_period`, of `date`, `date.fromisoformat` and the match of `_TAG`.  The expression
accepts every Unicode decimal digit, `fromIsoFormat` only the ASCII ones, so a tag can match and still raise.
-/

namespace TrueAlpha

def isLeap (year : ℕ) : Bool := year % 4 = 0 ∧ (year % 100 ≠ 0 ∨ year % 400 = 0)

def daysInMonth (year month : ℕ) : ℕ :=
  if month = 2 then (if isLeap year then 29 else 28)
  else if month ∈ [4, 6, 9, 11] then 30 else 31

def daysBeforeYear (year : ℕ) : ℕ := (year - 1) * 365 + (year - 1) / 4 - (year - 1) / 100 + (year - 1) / 400

def daysBeforeMonth (year month : ℕ) : ℕ := ((List.range month).drop 1 |>.map (daysInMonth year)).sum

def ordinal (year month day : ℕ) : Date := daysBeforeYear year + daysBeforeMonth year month + day

/-- `date(year, month, day)`, which raises outside the calendar. -/
def dateOf (year month day : ℕ) : Option Date :=
  if 1 ≤ year ∧ year ≤ 9999 ∧ 1 ≤ month ∧ month ≤ 12 ∧ 1 ≤ day ∧ day ≤ daysInMonth year month then
    some (ordinal year month day)
  else none

def monthAndDay (year : ℕ) : ℕ → ℕ → ℕ → ℕ × ℕ
  | 0, month, rest => (month, rest + 1)
  | fuel + 1, month, rest =>
    if rest < daysInMonth year month then (month, rest + 1)
    else monthAndDay year fuel (month + 1) (rest - daysInMonth year month)

/-- `date.fromordinal`: the year, month and day of an ordinal. -/
def fromOrdinal (day : Date) : ℕ × ℕ × ℕ :=
  let n := (day - 1).toNat
  let n400 := n / 146097
  let n100 := n % 146097 / 36524
  let n4 := n % 146097 % 36524 / 1461
  let n1 := n % 146097 % 36524 % 1461 / 365
  let year := n400 * 400 + n100 * 100 + n4 * 4 + n1 + 1
  if n1 = 4 ∨ n100 = 4 then (year - 1, 12, 31)
  else (year, monthAndDay year 11 1 (n % 146097 % 36524 % 1461 % 365))

def padded (width n : ℕ) : String :=
  let digits := toString n
  String.ofList (List.replicate (width - digits.length) '0') ++ digits

def isoFormat (day : Date) : String :=
  let (year, month, dayOfMonth) := fromOrdinal day
  padded 4 year ++ "-" ++ padded 2 month ++ "-" ++ padded 2 dayOfMonth

def weekday (day : Date) : ℤ := (day + 6) % 7

def isoWeekOneMonday (year : ℕ) : Date :=
  let first := ordinal year 1 1
  let monday := first - weekday first
  if 3 < weekday first then monday + 7 else monday

def dateOfWeek (year week day : ℕ) : Option Date :=
  let first := weekday (ordinal year 1 1)
  let weeks := if first = 3 ∨ (first = 2 ∧ isLeap year) then 53 else 52
  let date := isoWeekOneMonday year + (week - 1) * 7 + (day - 1)
  if 1 ≤ year ∧ year ≤ 9999 ∧ 1 ≤ week ∧ week ≤ weeks ∧ 1 ≤ day ∧ day ≤ 7 ∧ date ≤ ordinal 9999 12 31 then
    some date
  else none

/-- The number that the next `n` ASCII digits spell, and the rest. -/
def parseDigits : ℕ → List Char → Option (ℕ × List Char)
  | 0, rest => some (0, rest)
  | _ + 1, [] => none
  | n + 1, c :: rest =>
    if c.isDigit then
      (parseDigits n rest).map fun parsed => ((c.toNat - '0'.toNat) * 10 ^ n + parsed.1, parsed.2)
    else none

def parseSeparator (used : Bool) (rest : List Char) : Option (List Char) :=
  if used then
    match rest with
    | '-' :: rest => some rest
    | _ => none
  else some rest

/-- The week form after `W`: a week and an optional weekday. -/
def parseWeek (year : ℕ) (separated : Bool) (rest : List Char) : Option Date := do
  let (week, rest) ← parseDigits 2 rest
  if rest.isEmpty then dateOfWeek year week 1
  else
    let rest ← parseSeparator separated rest
    let (day, _) ← parseDigits 1 rest
    dateOfWeek year week day

/-- `date.fromisoformat`: what follows the parsed fields is not read. -/
def fromIsoFormat (text : String) : Option Date :=
  if text.utf8ByteSize ∈ [7, 8, 10] then do
    let (year, rest) ← parseDigits 4 text.toList
    let separated := rest.head? = some '-'
    let rest := if separated then rest.tail else rest
    if rest.head? = some 'W' then parseWeek year separated rest.tail
    else
      let (month, rest) ← parseDigits 2 rest
      let rest ← parseSeparator separated rest
      let (day, _) ← parseDigits 2 rest
      dateOf year month day
  else none

def annualMinimumDays : ℤ := 350

structure FiscalPeriod where
  filingFiscalYear : ℕ
  kind : String
  start : Date
  finish : Date
  deriving DecidableEq, Repr

def FiscalPeriod.isAnnual (period : FiscalPeriod) : Bool := period.kind = "FY" ∧ annualMinimumDays ≤ period.finish - period.start

/-- The zeros of the Unicode decimal digits (category `Nd`): each starts a run of ten. -/
def digitZeros : List ℕ := [0x30, 0x660, 0x6f0, 0x7c0, 0x966, 0x9e6, 0xa66, 0xae6, 0xb66, 0xbe6, 0xc66, 0xce6, 0xd66, 0xde6,
    0xe50, 0xed0, 0xf20, 0x1040, 0x1090, 0x17e0, 0x1810, 0x1946, 0x19d0, 0x1a80, 0x1a90, 0x1b50, 0x1bb0,
    0x1c40, 0x1c50, 0xa620, 0xa8d0, 0xa900, 0xa9d0, 0xa9f0, 0xaa50, 0xabf0, 0xff10, 0x104a0, 0x10d30,
    0x11066, 0x110f0, 0x11136, 0x111d0, 0x112f0, 0x11450, 0x114d0, 0x11650, 0x116c0, 0x11730, 0x118e0,
    0x11950, 0x11c50, 0x11d50, 0x11da0, 0x11f50, 0x16a60, 0x16ac0, 0x16b50, 0x1d7ce, 0x1d7d8, 0x1d7e2,
    0x1d7ec, 0x1d7f6, 0x1e140, 0x1e2f0, 0x1e4f0, 0x1e950, 0x1fbf0]

def digitValue (c : Char) : Option ℕ :=
  (digitZeros.find? fun first => first ≤ c.toNat ∧ c.toNat < first + 10).map fun first => c.toNat - first

/-- `\d{n}`: the next `n` decimal digits and the rest. -/
def matchDigits : ℕ → List Char → Option (List Char × List Char)
  | 0, rest => some ([], rest)
  | _ + 1, [] => none
  | n + 1, c :: rest =>
    if (digitValue c).isSome then (matchDigits n rest).map fun matched => (c :: matched.1, matched.2)
    else none

def matchChar (c : Char) : List Char → Option (List Char)
  | [] => none
  | c' :: rest => if c' = c then some rest else none

/-- `\d{4}-\d{2}-\d{2}`. -/
def matchDate (rest : List Char) : Option (String × List Char) := do
  let (year, rest) ← matchDigits 4 rest
  let rest ← matchChar '-' rest
  let (month, rest) ← matchDigits 2 rest
  let rest ← matchChar '-' rest
  let (day, rest) ← matchDigits 2 rest
  return (String.ofList (year ++ '-' :: month ++ '-' :: day), rest)

def intOfDigits (digits : List Char) : ℕ := digits.foldl (fun value c => 10 * value + (digitValue c).getD 0) 0

/-- The match of `_TAG`: filing year, kind, and two dates.  `$` also matches before a final line feed. -/
def matchTag (tag : String) : Option (ℕ × String × String × String) := do
  let rest ← matchChar 'F' tag.toList
  let rest ← matchChar 'Y' rest
  let (filing, rest) ← matchDigits 4 rest
  let rest ← matchChar ':' rest
  let kind := rest.takeWhile fun c => c.isUpper ∨ c.isDigit
  guard (kind ≠ [])
  let rest ← matchChar ':' (rest.drop kind.length)
  let (start, rest) ← matchDate rest
  let rest ← matchChar ':' rest
  let (finish, rest) ← matchDate rest
  guard (rest = [] ∨ rest = ['\n'])
  return (intOfDigits filing, String.ofList kind, start, finish)

/-- The period starts a year before, plus a day; a 29 February falls back on the 28th.  The first year raises (`none`). -/
def encodeAnnual (finish : Date) (filingFiscalYear : Option ℤ) : Option String := do
  let (year, month, day) := fromOrdinal finish
  let prior ← (dateOf (year - 1) month day).or (dateOf (year - 1) month 28)
  return "FY" ++ toString (filingFiscalYear.getD year) ++ ":FY:" ++ isoFormat (prior + 1) ++ ":" ++ isoFormat finish

/-- The annual period of a tag, if it is one.  The error is of a text that matches and is no date. -/
def parseAnnual (tag : String) : Except Unit (Option FiscalPeriod) :=
  match matchTag tag with
  | none => .ok none
  | some (filing, kind, start, finish) =>
    match fromIsoFormat start, fromIsoFormat finish with
    | some start, some finish =>
      let period : FiscalPeriod := ⟨filing, kind, start, finish⟩
      .ok (if period.isAnnual then some period else none)
    | _, _ => .error ()

end TrueAlpha
