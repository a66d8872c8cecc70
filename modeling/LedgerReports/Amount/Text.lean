import LedgerReports.Amount.Basic
import LedgerReports.Text.Blank
import LedgerReports.Text.Digits

/-!
# Amounts as text

An amount is read from digits with an optional sign, decimal point and exponent; underscores may
separate the digits. It is written in one of three ways: with an exponent and one digit before the
point if it is small, with all digits and an exponent if many zeros are left out, and plainly
otherwise. `Amount.stored` keeps trailing zeros, `Amount.display` does not.
-/

namespace LedgerReports.Amount

open Text (isDigit digitsValue integer trim)

/-- Reads an optional sign. -/
def readSign : List Char → Bool × List Char
  | '-' :: rest => (true, rest)
  | '+' :: rest => (false, rest)
  | rest => (false, rest)

/-- The value of a string of digits that underscores may separate after the first one. -/
def readDigits? (cs : List Char) : Option Nat :=
  if cs.head?.any isDigit && cs.all (fun c => isDigit c || c == '_') then
    some (digitsValue (cs.filter isDigit))
  else
    none

/-- The exponent that follows the letter `e`: at most 128 bits wide. -/
def readExponent? (cs : List Char) : Option Int :=
  let (negative, figures) := readSign cs
  if figures ≠ [] ∧ figures.all isDigit then
    let n : Int := digitsValue figures
    let n := if negative then -n else n
    if -2 ^ 127 ≤ n ∧ n < 2 ^ 127 then some n else none
  else
    none

/-- Splits a text at the first letter `e`, if there is one. -/
def splitExponent (cs : List Char) : List Char × Option (List Char) :=
  let isMark (c : Char) := c == 'e' || c == 'E'
  match cs.dropWhile (!isMark ·) with
  | [] => (cs, none)
  | _ :: rest => (cs.takeWhile (!isMark ·), some rest)

/-- The amount that a text without surrounding white space stands for. -/
def ofChars? (cs : List Char) : Option Amount := do
  let (base, exponentText) := splitExponent cs
  let exponent ← match exponentText with
    | some text => readExponent? text
    | none => some 0
  let lead := base.takeWhile (· != '.')
  let trail := (base.dropWhile (· != '.')).drop 1
  let (negative, figures) := readSign (lead ++ trail)
  let magnitude ← readDigits? figures
  let places : Int := (trail.filter (· != '_')).length
  let scale := places - exponent
  if -2 ^ 63 ≤ scale ∧ scale < 2 ^ 63 then
    some ⟨if negative then -magnitude else magnitude, scale⟩
  else
    none

/-- The amount that a text stands for. -/
def parse? (text : String) : Option Amount := ofChars? (trim text.toList)

/-- The least number of zeros behind the point that makes an amount be written with an exponent. -/
def leadingZeros : Int := 5

/-- The greatest number of zeros before the point that are written out. -/
def trailingZeros : Int := 15

/-- The text of a magnitude given by its digits and scale. -/
def magnitudeChars (figures : List Char) (scale : Int) : List Char :=
  let width : Int := figures.length
  if leadingZeros < scale - width then
    let tail := figures.drop 1
    figures.take 1 ++ (if tail = [] then [] else '.' :: tail) ++ 'E' :: integer (width - 1 - scale)
  else if trailingZeros < -scale then
    figures ++ 'e' :: '+' :: Text.digits (-scale).toNat
  else if scale ≤ 0 then
    figures ++ List.replicate (-scale).toNat '0'
  else if scale < width then
    let whole := (width - scale).toNat
    figures.take whole ++ '.' :: figures.drop whole
  else
    '0' :: '.' :: (List.replicate (scale - width).toNat '0' ++ figures)

/-- The text of an amount with all its digits. -/
def toChars (a : Amount) : List Char :=
  let scale := if a.digits = 0 then 0 else a.scale
  let magnitude := magnitudeChars (Text.digits a.digits.natAbs) scale
  if a.digits < 0 then '-' :: magnitude else magnitude

/-- The text that keeps an amount, with its trailing zeros. It reads back as the same quantity. -/
def stored (a : Amount) : String := String.ofList a.toChars

/-- The text that shows an amount, without trailing zeros. -/
def display (a : Amount) : String := String.ofList a.normalized.toChars

end LedgerReports.Amount
