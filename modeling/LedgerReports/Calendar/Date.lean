/-!
# Calendar days

Days of the proleptic Gregorian calendar from year -262143 to year 262142. A `Date` is valid by
construction: `Date.ofYMD?` is the only way to make one from its parts. Days are ordered as they
follow each other.
-/

namespace LedgerReports

/-- A year is leap if 4 divides it, unless 100 does and 400 does not. -/
def isLeapYear (year : Int) : Bool :=
  year % 4 == 0 && (year % 100 != 0 || year % 400 == 0)

/-- The number of days of a month; `0` if there is no such month. -/
def daysInMonth (year : Int) (month : Nat) : Nat :=
  match month with
  | 1 | 3 | 5 | 7 | 8 | 10 | 12 => 31
  | 4 | 6 | 9 | 11 => 30
  | 2 => if isLeapYear year then 29 else 28
  | _ => 0

/-- The first supported year. -/
def minYear : Int := -262143

/-- The last supported year. -/
def maxYear : Int := 262142

/-- A day of a supported year. -/
structure Date where
  /-- The year; year 0 comes before year 1. -/
  year : Int
  /-- The month, from 1 to 12. -/
  month : Nat
  /-- The day of the month, from 1 on. -/
  day : Nat
  /-- The year is supported. -/
  year_mem : minYear ≤ year ∧ year ≤ maxYear
  /-- The month has the day, and so is a month. -/
  day_mem : 1 ≤ day ∧ day ≤ daysInMonth year month
deriving DecidableEq

namespace Date

/-- The day with the given parts, if there is one. -/
def ofYMD? (year : Int) (month day : Nat) : Option Date :=
  if h : (minYear ≤ year ∧ year ≤ maxYear) ∧ 1 ≤ day ∧ day ≤ daysInMonth year month then
    some ⟨year, month, day, h.1, h.2⟩
  else
    none

theorem ofYMD?_eq_some_iff {year : Int} {month day : Nat} {d : Date} :
    ofYMD? year month day = some d ↔ d.year = year ∧ d.month = month ∧ d.day = day := by
  unfold ofYMD?
  split
  · next h =>
    rw [Option.some.injEq]
    constructor
    · rintro rfl
      exact ⟨rfl, rfl, rfl⟩
    · rintro ⟨rfl, rfl, rfl⟩
      rfl
  · next h =>
    simp only [reduceCtorEq, false_iff]
    rintro ⟨rfl, rfl, rfl⟩
    exact h ⟨d.year_mem, d.day_mem⟩

/-- The first of January 1970. -/
def epoch : Date := ⟨1970, 1, 1, by decide, by decide⟩

/-- How two days follow each other: by year, then by month, then by day. -/
def compare (a b : Date) : Ordering :=
  (Ord.compare a.year b.year).then
    ((Ord.compare a.month b.month).then (Ord.compare a.day b.day))

instance : Ord Date where
  compare := Date.compare

instance : LT Date := ltOfOrd

instance : LE Date := leOfOrd

end Date

end LedgerReports
