import LedgerReports.Calendar.Date
import LedgerReports.Number.Power
import LedgerReports.Text.Blank
import LedgerReports.Text.Digits

/-!
# Days as text

A day is written as year, month and day with hyphens between them, `2017-01-31`. Years from 0 to
9999 have four digits; others have a sign and at least four digits.

Reading is a little more lenient: white space may stand before each number, and numbers may be
shorter. A year without a sign has at most four digits, with a sign it may have any number.
-/

namespace LedgerReports.Date

open Text (digits padStart isDigit digitsValue trimStart)

/-- A number of two digits. -/
def twoDigits (n : Nat) : List Char := padStart 2 '0' (digits n)

/-- A year as it is written. -/
def yearText (year : Int) : List Char :=
  let figures := padStart 4 '0' (digits year.natAbs)
  if 0 ≤ year ∧ year ≤ 9999 then figures
  else if 0 ≤ year then '+' :: figures
  else '-' :: figures

/-- The text of a day. -/
def toChars (d : Date) : List Char :=
  yearText d.year ++ '-' :: twoDigits d.month ++ '-' :: twoDigits d.day

/-- The text of a day. -/
def toText (d : Date) : String := String.ofList d.toChars

/-- Why a text is no day. -/
inductive ParseError where
  /-- The text ends too early. -/
  | tooShort
  /-- Another character stands where a digit or a hyphen is expected. -/
  | invalid
  /-- A number is not one that it could be. -/
  | outOfRange
  /-- More text follows. -/
  | trailing
deriving DecidableEq, Repr

/-- The text shown for an error. -/
def ParseError.message : ParseError → String
  | tooShort => "premature end of input"
  | invalid => "input contains invalid characters"
  | outOfRange => "input is out of range"
  | trailing => "trailing input"

/-- The greatest number that is read. -/
def maxNumber : Nat := 2 ^ 63 - 1

/-- Reads a number of at least one and at most `limit` digits, and what follows it. -/
def readNumber (limit : Option Nat) (cs : List Char) : Except ParseError (Nat × List Char) :=
  let figures := (match limit with | some n => cs.take n | none => cs).takeWhile isDigit
  let n := digitsValue figures
  if cs.isEmpty then .error .tooShort
  else if figures.isEmpty then .error .invalid
  else if maxNumber < n then .error .outOfRange
  else .ok (n, cs.drop figures.length)

/-- Reads a year and what follows it. -/
def readYear (cs : List Char) : Except ParseError (Int × List Char) := do
  match trimStart cs with
  | '-' :: rest =>
    let (n, rest) ← readNumber none rest
    return (-(n : Int), rest)
  | '+' :: rest =>
    let (n, rest) ← readNumber none rest
    return (n, rest)
  | rest =>
    let (n, rest) ← readNumber (some 4) rest
    return (n, rest)

/-- Reads a month or a day, which is a number of at most two digits from 1 to `greatest`, and what
follows it. -/
def readPart (greatest : Nat) (cs : List Char) : Except ParseError (Nat × List Char) := do
  let (n, rest) ← readNumber (some 2) (trimStart cs)
  if 1 ≤ n ∧ n ≤ greatest then return (n, rest) else throw .outOfRange

/-- Reads a hyphen. -/
def readHyphen : List Char → Except ParseError (List Char)
  | [] => .error .tooShort
  | '-' :: rest => .ok rest
  | _ => .error .invalid

/-- Whether a number fits into 32 bits with a sign. -/
def fitsYear (n : Int) : Bool := decide (-2 ^ 31 ≤ n) && decide (n < 2 ^ 31)

/-- The day that a text stands for. -/
def parseChars (cs : List Char) : Except ParseError Date := do
  let (year, rest) ← readYear cs
  unless fitsYear year do throw .outOfRange
  let rest ← readHyphen rest
  let (month, rest) ← readPart 12 rest
  let rest ← readHyphen rest
  let (day, rest) ← readPart 31 rest
  unless rest.isEmpty do throw .trailing
  match ofYMD? year month day with
  | some d => return d
  | none => throw .outOfRange

/-- The day that a text stands for. -/
def parse (text : String) : Except ParseError Date := parseChars text.toList

end LedgerReports.Date
