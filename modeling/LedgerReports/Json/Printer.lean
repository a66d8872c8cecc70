import LedgerReports.Json.Basic
import LedgerReports.Number.Decimal
import LedgerReports.Text.Digits

/-!
# Writing JSON

`Json.render` writes a value without any white space. A float is written with the fewest digits that
read back as it, positionally if its first digit stands at most five places behind the point and at
most sixteen before it, and with an exponent otherwise.
-/

namespace LedgerReports

namespace Numeral

/-- The numeral of an integer. -/
def ofInt (n : Int) : Numeral := { negative := decide (n < 0), whole := Text.digits n.natAbs }

/-- The least exponent of the first digit with which a float is written positionally. -/
def minPositional : Int := -5

/-- The greatest exponent of the first digit with which a float is written positionally. -/
def maxPositional : Int := 15

/-- The numeral of a positive decimal number. -/
def ofDigits (negative : Bool) (x : Decimal.Digits) : Numeral :=
  let figures := Text.digits x.digits
  let lead := x.exponent + (figures.length - 1 : Nat)
  if lead < minPositional ∨ maxPositional < lead then
    { negative
      whole := figures.take 1
      fraction := if figures.length ≤ 1 then none else some (figures.drop 1)
      exponent := some lead }
  else if 0 ≤ x.exponent then
    { negative
      whole := figures ++ List.replicate x.exponent.toNat '0'
      fraction := some ['0'] }
  else if 0 ≤ lead then
    { negative
      whole := figures.take (lead.toNat + 1)
      fraction := some (figures.drop (lead.toNat + 1)) }
  else
    { negative
      whole := ['0']
      fraction := some (List.replicate ((-lead).toNat - 1) '0' ++ figures) }

/-- The numeral of a finite float. -/
def ofFinite (x : Binary64.Finite) : Numeral :=
  if x.mantissa = 0 then { negative := x.negative, whole := ['0'], fraction := some ['0'] }
  else ofDigits x.negative (Decimal.shortest x)

/-- The text of a numeral. An exponent always has a sign. -/
def toChars (n : Numeral) : List Char :=
  let sign := if n.negative then ['-'] else []
  let fraction :=
    match n.fraction with
    | some figures => '.' :: figures
    | none => []
  let exponent :=
    match n.exponent with
    | some e => 'e' :: (if e < 0 then '-' else '+') :: Text.digits e.natAbs
    | none => []
  sign ++ n.whole ++ fraction ++ exponent

end Numeral

namespace Json

/-- An integer as a value. -/
def ofInt (n : Int) : Json := number (Numeral.ofInt n)

/-- A float as a value; one that is not finite is nothing. -/
def ofFloat (x : Float) : Json :=
  match Binary64.decode x with
  | some parts => number (Numeral.ofFinite parts)
  | none => null

/-- A text as a value. -/
def ofText (text : String) : Json := string (some text)

/-- An object with the given fields. -/
def ofFields (fields : List (String × Json)) : Json :=
  object (fields.map fun (name, v) => (some name, v))

/-- How a character stands in a string. -/
def escape (c : Char) : List Char :=
  if c = '"' then ['\\', '"']
  else if c = '\\' then ['\\', '\\']
  else if c = '\x08' then ['\\', 'b']
  else if c = '\x0c' then ['\\', 'f']
  else if c = '\n' then ['\\', 'n']
  else if c = '\x0d' then ['\\', 'r']
  else if c = '\t' then ['\\', 't']
  else if c.toNat < 32 then
    '\\' :: 'u' :: Text.padStart 4 '0' (Nat.toDigits 16 c.toNat)
  else [c]

/-- A text between quotes. -/
def quote (text : String) : List Char := '"' :: text.toList.flatMap escape ++ ['"']

mutual

/-- The text of a value. -/
def toChars : Json → List Char
  | null => "null".toList
  | bool b => (if b then "true" else "false").toList
  | number n => n.toChars
  | string text => quote (text.getD "")
  | array items => '[' :: itemChars items ++ [']']
  | object members => '\x7b' :: memberChars members ++ ['\x7d']

/-- The items of a list with commas between them. -/
def itemChars : List Json → List Char
  | [] => []
  | [v] => v.toChars
  | v :: rest => v.toChars ++ ',' :: itemChars rest

/-- The members of an object with commas between them. -/
def memberChars : List (Option String × Json) → List Char
  | [] => []
  | [(name, v)] => quote (name.getD "") ++ ':' :: v.toChars
  | (name, v) :: rest =>
    quote (name.getD "") ++ ':' :: (v.toChars ++ ',' :: memberChars rest)

end

/-- The text of a value. -/
def render (v : Json) : String := String.ofList v.toChars

end Json

end LedgerReports
