import LedgerReports.Calendar.Date
import LedgerReports.Number.Power

/-!
# Calendar arithmetic

Days are counted by `Date.dayNumber`, months by `Date.monthIndex`. Arithmetic adds to the count, or
takes from it, and goes back to the calendar; it gives no date where it would leave the supported
years.

The count of days lets the year begin in March, so that a leap day is the last day of its year; the
years come in cycles of 400, all of the same length.
-/

namespace LedgerReports.Date

/-- The number of days in 400 years. -/
def daysPerCycle : Int := 146097

/-- The number of the day with the given parts; the first of March of year 0 is day 0. -/
def dayNumberOf (year : Int) (month day : Nat) : Int :=
  let marchYear : Int := if month ≤ 2 then year - 1 else year
  let marchMonth : Int := if month ≤ 2 then month + 9 else month - 3
  let yearOfCycle := marchYear % 400
  let dayOfYear := (153 * marchMonth + 2) / 5 + day - 1
  marchYear / 400 * daysPerCycle
    + (yearOfCycle * 365 + yearOfCycle / 4 - yearOfCycle / 100 + dayOfYear)

/-- The number of a day. -/
def dayNumber (d : Date) : Int := dayNumberOf d.year d.month d.day

/-- The day with a number, if it is supported. -/
def ofDayNumber? (n : Int) : Option Date :=
  let dayOfCycle := n % daysPerCycle
  let yearOfCycle :=
    (dayOfCycle - dayOfCycle / 1460 + dayOfCycle / 36524 - dayOfCycle / 146096) / 365
  let dayOfYear := dayOfCycle - (365 * yearOfCycle + yearOfCycle / 4 - yearOfCycle / 100)
  let marchMonth := (5 * dayOfYear + 2) / 153
  let day := dayOfYear - (153 * marchMonth + 2) / 5 + 1
  let month := if marchMonth < 10 then marchMonth + 3 else marchMonth - 9
  let year := yearOfCycle + n / daysPerCycle * 400
  ofYMD? (if month ≤ 2 then year + 1 else year) month.toNat day.toNat

/-- The number of days from `b` to `a`. -/
def daysSince (a b : Date) : Int := a.dayNumber - b.dayNumber

/-- The day `n` days later. -/
def laterByDays? (d : Date) (n : Nat) : Option Date := ofDayNumber? (d.dayNumber + n)

/-- The day `n` days earlier. -/
def earlierByDays? (d : Date) (n : Nat) : Option Date := ofDayNumber? (d.dayNumber - n)

/-- The day `n` days later, or earlier if `n` is negative. -/
def addDays? (d : Date) (n : Int) : Option Date :=
  if 0 ≤ n then d.laterByDays? n.natAbs else d.earlierByDays? n.natAbs

/-- The number of the month of a day; January of year 0 is month 0. -/
def monthIndex (d : Date) : Int := 12 * d.year + (d.month - 1)

/-- The same day of the month with a number, or the last day of that month if it is shorter. -/
def inMonth? (d : Date) (index : Int) : Option Date :=
  let year := index / 12
  let month := (index % 12).toNat + 1
  ofYMD? year month (min d.day (daysInMonth year month))

/-- The same day `n` months later, or the last day of that month. -/
def laterByMonths? (d : Date) (n : Nat) : Option Date := d.inMonth? (d.monthIndex + n)

/-- The same day `n` months earlier, or the last day of that month. -/
def earlierByMonths? (d : Date) (n : Nat) : Option Date := d.inMonth? (d.monthIndex - n)

/-- The greatest number of months that can be counted at once. -/
def maxMonthSpan : Nat := 2 ^ 32 - 1

/-- The same day `n` months later, or earlier if `n` is negative; the last day of that month if it
is shorter. -/
def addMonths? (d : Date) (n : Int) : Option Date :=
  let span := n.natAbs
  if maxMonthSpan < span then none
  else if 0 ≤ n then d.laterByMonths? span
  else d.earlierByMonths? span

/-- The same day `n` years later, or the last day of the month: twelve times as many months, if
their number fits 64 bits. -/
def addYears? (d : Date) (n : Int) : Option Date :=
  let months := 12 * n
  if -2 ^ 63 ≤ months ∧ months < 2 ^ 63 then d.addMonths? months else none

/-- The last day of the month, reached by way of the first day of the next one. -/
def endOfMonth? (d : Date) : Option Date := do
  let first ← ofYMD? d.year d.month 1
  let next ← first.laterByMonths? 1
  next.earlierByDays? 1

end LedgerReports.Date
