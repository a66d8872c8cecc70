/-!
# Decimal digits

Natural numbers as strings of decimal digits, and back.
-/

namespace LedgerReports.Text

/-- Whether the character is one of the ten ASCII digits. -/
def isDigit (c : Char) : Bool := decide ('0' ≤ c) && decide (c ≤ '9')

/-- The value of a digit. -/
def digitValue (c : Char) : Nat := c.toNat - '0'.toNat

/-- The decimal digits of a number, the most significant first. -/
def digits (n : Nat) : List Char := Nat.toDigits 10 n

/-- The number that a string of digits stands for. -/
def digitsValue (cs : List Char) : Nat := cs.foldl (fun n c => 10 * n + digitValue c) 0

/-- The text with as many characters `c` in front as make it `width` long, or unchanged if it is as
long already. -/
def padStart (width : Nat) (c : Char) (cs : List Char) : List Char :=
  List.replicate (width - cs.length) c ++ cs

/-- The longest run of digits in front, and what follows it. -/
def spanDigits (cs : List Char) : List Char × List Char := cs.span isDigit

/-- A number in decimal, with a minus sign if it is negative. -/
def integer (n : Int) : List Char :=
  if n < 0 then '-' :: digits n.natAbs else digits n.natAbs

end LedgerReports.Text
