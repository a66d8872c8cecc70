import LedgerReports.Number.Decimal
import LedgerReports.Text.Digits

/-!
# Numbers of scripts

A number is an integer of 64 bits, which wraps, or a floating-point number. Addition and the like
stay with integers while both operands are integers; division and powers are always done in floats;
bitwise operators need integers or floats equal to one. The two kinds are compared by value.

The float that is no number is a case of its own, because its sign shows in its text: it is negative
when an operation has no result, and else it keeps the sign of the operand.

`Number.read?` reads a numeral, decimal or hexadecimal, and `Number.toText` writes one with 14
significant digits.
-/

namespace LedgerReports.Script

open Binary64 (Finite)

/-- An arithmetic or bitwise operator. -/
inductive ArithOp where
  | add | sub | mul | div | floorDiv | mod | pow
  | band | bor | bxor | shl | shr
deriving DecidableEq, Repr

/-- A number of a script. -/
inductive Number where
  /-- An integer. -/
  | integer (n : Int64)
  /-- A floating-point number. -/
  | float (x : Float)
  /-- The float that is no number, with its sign. -/
  | nan (negative : Bool)

namespace Number

/-- The float that an operation on numbers yields. -/
def ofFloat (x : Float) : Number := if x.isNaN then .nan true else .float x

/-- The float with the given bits. -/
def ofBits (bits : UInt64) : Number :=
  let x := Float.ofBits bits
  if x.isNaN then .nan (decide (bits.toNat / 2 ^ 63 = 1)) else .float x

/-- The integer with the given value, reduced to 64 bits. -/
def ofInt (n : Int) : Number := .integer (Int64.ofInt n)

/-- The number as a float. -/
def toFloat : Number → Float
  | integer n => n.toFloat
  | float x => x
  | nan _ => 0.0 / 0.0

/-- Whether the number is a float. -/
def isFloat : Number → Bool
  | integer _ => false
  | float _ | nan _ => true

/-- Whether an integer fits into 64 bits. -/
def fits (n : Int) : Bool := decide (-2 ^ 63 ≤ n) && decide (n < 2 ^ 63)

/-- The integer that a float is equal to, if it fits. -/
def floatToInteger? (x : Float) : Option Int64 :=
  (Binary64.toInt? x).bind fun n => if fits n then some (Int64.ofInt n) else none

/-- The integer that the number is equal to, if there is one. -/
def toInteger? : Number → Option Int64
  | integer n => some n
  | float x => floatToInteger? x
  | nan _ => none

/-! ### Operators -/

/-- Why an operator has no result. -/
inductive OperatorError where
  /-- The divisor of an integer division is zero. -/
  | divisionByZero
  /-- The divisor of an integer remainder is zero. -/
  | remainderByZero
  /-- An operand of a bitwise operator is not equal to an integer. -/
  | notInteger
deriving DecidableEq, Repr

/-- The quotient of integers rounded down. -/
def floorDiv (a b : Int64) : Int64 := Int64.ofInt (Int.fdiv a.toInt b.toInt)

/-- The remainder of integers with the sign of the divisor. -/
def floorMod (a b : Int64) : Int64 := Int64.ofInt (Int.fmod a.toInt b.toInt)

/-- The remainder of floats with the sign of the divisor. -/
def floatMod (a b : Float) : Float :=
  let r := Binary64.remainder a b
  if 0.0 < r then (if b < 0.0 then r + b else r)
  else if r < 0.0 ∧ 0.0 < b then r + b
  else r

/-- A power of floats. -/
def power (a b : Float) : Float := if b == 2.0 then a * a else Float.pow a b

/-- The bits shifted to the left, or to the right if the distance is negative. -/
def shiftLeft (a distance : Int64) : Int64 :=
  let d := distance.toInt
  let bits := a.toUInt64
  if d ≤ -64 ∨ 64 ≤ d then 0
  else if 0 ≤ d then (bits <<< UInt64.ofNat d.toNat).toInt64
  else (bits >>> UInt64.ofNat (-d).toNat).toInt64

/-- Applies an operator on integers; the ones that need floats are not among them. -/
def integerOp? (op : ArithOp) (a b : Int64) : Option (Except OperatorError Int64) :=
  match op with
  | .add => some (.ok (a + b))
  | .sub => some (.ok (a - b))
  | .mul => some (.ok (a * b))
  | .floorDiv => some (if b == 0 then .error .divisionByZero else .ok (floorDiv a b))
  | .mod => some (if b == 0 then .error .remainderByZero else .ok (floorMod a b))
  | .band => some (.ok (a &&& b))
  | .bor => some (.ok (a ||| b))
  | .bxor => some (.ok (a ^^^ b))
  | .shl => some (.ok (shiftLeft a b))
  | .shr => some (.ok (shiftLeft a (-b)))
  | .div | .pow => none

/-- Applies an operator on floats; the bitwise ones are not among them. -/
def floatOp? (op : ArithOp) (a b : Float) : Option Float :=
  match op with
  | .add => some (a + b)
  | .sub => some (a - b)
  | .mul => some (a * b)
  | .div => some (a / b)
  | .floorDiv => some (a / b).floor
  | .mod => some (floatMod a b)
  | .pow => some (power a b)
  | .band | .bor | .bxor | .shl | .shr => none

/-- The float that an operation on two numbers yields. -/
def ofFloatOp (a b : Number) (result : Float) : Number :=
  if result.isNaN then
    match a, b with
    | nan negative, _ | _, nan negative => nan negative
    | _, _ => nan true
  else
    float result

/-- Applies an operator to two numbers. -/
def arith (op : ArithOp) (a b : Number) : Except OperatorError Number :=
  let integers :=
    match a, b with
    | integer m, integer n => integerOp? op m n
    | _, _ => none
  match integers with
  | some result => result.map integer
  | none =>
    match floatOp? op a.toFloat b.toFloat with
    | some x => .ok (ofFloatOp a b x)
    | none =>
      match a.toInteger?, b.toInteger? with
      | some m, some n => ((integerOp? op m n).getD (.ok 0)).map integer
      | _, _ => .error .notInteger

/-- The negated number. -/
def neg : Number → Number
  | integer n => integer (-n)
  | float x => float (-x)
  | nan negative => nan !negative

/-- How two numbers compare by value; nothing if one is no number. -/
def compare? : Number → Number → Option Ordering
  | integer a, integer b => some (compare a.toInt b.toInt)
  | float a, float b => some (if a < b then .lt else if b < a then .gt else .eq)
  | float a, integer b => Binary64.compareInt? a b.toInt
  | integer a, float b => (Binary64.compareInt? b a.toInt).map Ordering.swap
  | nan _, _ | _, nan _ => none

/-! ### Numerals -/

/-- Whether a byte is white space. -/
def isSpace (c : Char) : Bool := c == ' ' || (decide ('\t' ≤ c) && decide (c ≤ '\x0d'))

/-- The value of a hexadecimal digit. -/
def hexValue? (c : Char) : Option Nat :=
  if decide ('0' ≤ c) && decide (c ≤ '9') then some (c.toNat - '0'.toNat)
  else if decide ('a' ≤ c) && decide (c ≤ 'f') then some (c.toNat - 'a'.toNat + 10)
  else if decide ('A' ≤ c) && decide (c ≤ 'F') then some (c.toNat - 'A'.toNat + 10)
  else none

/-- Whether the character is a hexadecimal digit. -/
def isHexDigit (c : Char) : Bool := (hexValue? c).isSome

/-- The number that hexadecimal digits stand for. -/
def hexDigitsValue (cs : List Char) : Nat :=
  cs.foldl (fun n c => 16 * n + (hexValue? c).getD 0) 0

/-- Reads an optional sign. -/
def readSign : List Char → Bool × List Char
  | '-' :: rest => (true, rest)
  | '+' :: rest => (false, rest)
  | rest => (false, rest)

/-- Reads an exponent, if the text is one. An exponent far outside what matters is cut. -/
def readExponent? (cs : List Char) : Option Int :=
  let (negative, figures) := readSign cs
  if figures ≠ [] ∧ figures.all Text.isDigit then
    let n : Int := min (Text.digitsValue figures) 1000000
    some (if negative then -n else n)
  else
    none

/-- A numeral that stands for a float: digits with an optional point and exponent. -/
structure FloatNumeral where
  /-- The digits before the point. -/
  whole : List Char
  /-- The digits behind the point. -/
  fraction : List Char
  /-- The exponent. -/
  exponent : Int

/-- Reads the numeral of a float with the given digits and mark of the exponent. -/
def readFloatNumeral? (isDigit isMark : Char → Bool) (cs : List Char) : Option FloatNumeral :=
  let (whole, rest) := cs.span isDigit
  let (fraction, rest) :=
    match rest with
    | '.' :: rest => rest.span isDigit
    | rest => ([], rest)
  if whole.isEmpty && fraction.isEmpty then none
  else
    match rest with
    | [] => some ⟨whole, fraction, 0⟩
    | c :: rest =>
      if isMark c then (readExponent? rest).map fun e => ⟨whole, fraction, e⟩ else none

/-- The float nearest to a mantissa times a power of two. -/
def scaleByTwo (negative : Bool) (mantissa : Nat) (exponent : Int) : Float :=
  if 0 ≤ exponent then
    if mantissa = 0 then Binary64.ofSignedBits negative 0
    else if 2000 < exponent then Binary64.ofSignedBits negative Binary64.infinityBits
    else Binary64.nearest negative (mantissa * 2 ^ exponent.toNat) 1
  else if exponent < -2000 - (mantissa.log2 : Int) then Binary64.ofSignedBits negative 0
  else Binary64.nearest negative mantissa (2 ^ (-exponent).toNat)

/-- Reads a numeral without sign and surrounding white space. -/
def readUnsigned? (negative : Bool) (cs : List Char) : Option Number :=
  match cs with
  | '0' :: 'x' :: figures | '0' :: 'X' :: figures =>
    if figures ≠ [] ∧ figures.all isHexDigit then
      let n : Int := hexDigitsValue figures
      some (ofInt (if negative then -n else n))
    else do
      let numeral ← readFloatNumeral? isHexDigit (fun c => c == 'p' || c == 'P') figures
      let mantissa := hexDigitsValue (numeral.whole ++ numeral.fraction)
      return float (scaleByTwo negative mantissa (numeral.exponent - 4 * numeral.fraction.length))
  | figures =>
    let n : Int := Text.digitsValue figures
    let n := if negative then -n else n
    if figures ≠ [] ∧ figures.all Text.isDigit ∧ fits n then some (ofInt n)
    else do
      let numeral ← readFloatNumeral? Text.isDigit (fun c => c == 'e' || c == 'E') figures
      let mantissa := Text.digitsValue (numeral.whole ++ numeral.fraction)
      return float
        (Binary64.ofDecimal negative mantissa (numeral.exponent - numeral.fraction.length))

/-- The number that a text stands for, with white space around it. -/
def read? (cs : List Char) : Option Number :=
  let trimmed := (((cs.dropWhile isSpace).reverse).dropWhile isSpace).reverse
  let (negative, figures) := readSign trimmed
  readUnsigned? negative figures

/-! ### Text -/

/-- Takes zeros off the end of a string of digits. -/
def dropTrailingZeros (cs : List Char) : List Char :=
  (cs.reverse.dropWhile (· == '0')).reverse

/-- An exponent with a sign and at least two digits. -/
def exponentText (exponent : Int) : List Char :=
  (if exponent < 0 then '-' else '+') :: Text.padStart 2 '0' (Text.digits exponent.natAbs)

/-- A point and the digits behind it; nothing if there are none and the point is not wanted. -/
def pointAndDigits (keepPoint : Bool) (figures : List Char) : List Char :=
  if figures.isEmpty && !keepPoint then [] else '.' :: figures

/-- The text of a positive ratio with one digit before the point and `precision` behind it. -/
def scientificText (num den precision : Nat) (keepPoint : Bool) : List Char :=
  if num = 0 then
    '0' :: pointAndDigits keepPoint (List.replicate precision '0') ++ 'e' :: exponentText 0
  else
    let rounded := Decimal.significant num den (precision + 1)
    let figures := Text.digits rounded.digits
    figures.take 1 ++ pointAndDigits keepPoint (figures.drop 1)
      ++ 'e' :: exponentText (rounded.exponent + precision)

/-- The text of a nonnegative ratio with `precision` digits behind the point. -/
def fixedText (num den precision : Nat) (keepPoint : Bool) : List Char :=
  let figures := Text.padStart (precision + 1) '0' (Text.digits (Decimal.fixed num den precision))
  let whole := figures.length - precision
  figures.take whole ++ pointAndDigits keepPoint (figures.drop whole)

/-- The text of a nonnegative ratio with `precision` significant digits, the shorter way: with an
exponent if it is below -4 or not below the precision. Zeros at the end are left out, unless
`keepZeros` is set. -/
def generalText (num den precision : Nat) (keepZeros : Bool) : List Char :=
  let precision := max precision 1
  if num = 0 then
    '0' :: (if keepZeros then '.' :: List.replicate (precision - 1) '0' else [])
  else
    let rounded := Decimal.significant num den precision
    let figures := Text.digits rounded.digits
    let exponent := rounded.exponent + (precision - 1 : Nat)
    let tidy (cs : List Char) := if keepZeros then cs else dropTrailingZeros cs
    if exponent < -4 ∨ precision ≤ exponent then
      figures.take 1 ++ pointAndDigits keepZeros (tidy (figures.drop 1))
        ++ 'e' :: exponentText exponent
    else if exponent < 0 then
      '0' :: '.' :: (List.replicate ((-exponent).toNat - 1) '0' ++ tidy figures)
    else
      let whole := exponent.toNat + 1
      figures.take whole ++ pointAndDigits keepZeros (tidy (figures.drop whole))

/-- The text of the float that is no number. -/
def nanText (negative : Bool) : String := if negative then "-nan" else "nan"

/-- The text of an infinite float. -/
def infinityText (x : Float) : String := if x < 0.0 then "-inf" else "inf"

/-- The text of a float. An integer value is shown with a point. -/
def floatText (x : Float) : String :=
  match Binary64.decode x with
  | none => infinityText x
  | some parts =>
    let (num, den) := parts.ratio
    let figures := generalText num den 14 false
    let figures := if figures.all Text.isDigit then figures ++ ['.', '0'] else figures
    String.ofList (if parts.negative then '-' :: figures else figures)

/-- The text of a number. -/
def toText : Number → String
  | integer n => String.ofList (Text.integer n.toInt)
  | float x => floatText x
  | nan negative => nanText negative

end Number

end LedgerReports.Script
