import Mathlib.Data.Int.Order.Basic

/-!
# Dates and instants

A calendar date is its proleptic Gregorian ordinal.  An aware `datetime` is the number of microseconds since the midnight UTC
that starts the day of ordinal `0`, whatever zone it was written in.
-/

namespace TrueAlpha

abbrev Date := ℤ

abbrev Instant := ℤ

/-- The order of dates and instants, found before one that is not computable. -/
instance instantPreorder : Preorder ℤ := Int.instLinearOrder.toPreorder

def microsPerDay : ℤ := 86400 * 1000000

/-- The calendar date of an instant in UTC (`astimezone(UTC).date()`). -/
def utcDate (instant : Instant) : Date := instant / microsPerDay

end TrueAlpha
