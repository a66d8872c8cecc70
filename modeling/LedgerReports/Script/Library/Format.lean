import LedgerReports.Script.Library.Arguments

/-!
# Formatting

`formatCall` fills a template: an item of the template begins with `%`, has flags, a width and a
precision, and ends in a letter that says how the next argument is written. Which flags an item may
have depends on the letter.

An item is first split off as it stands (`FormatPiece`), and read as a `Layout` only when the
argument is at hand, because an error in an argument comes before one in the item.
-/

namespace LedgerReports.Script

/-- A piece of a template. -/
inductive FormatPiece where
  /-- A character that stands for itself. -/
  | char (c : Char)
  /-- An item: what stands between the percent sign and the letter, and the letter. -/
  | item (modifiers : List Char) (letter : Option Char)
deriving DecidableEq, Repr

namespace FormatPiece

/-- Whether the character may stand between the percent sign and the letter. -/
def isModifier (c : Char) : Bool := "-+ #0123456789.".toList.contains c

/-- The pieces of a template. Each takes up at least one character. -/
def list : (fuel : Nat) → List Char → List FormatPiece
  | 0, _ | _, [] => []
  | _ + 1, ['%'] => [item [] none]
  | fuel + 1, '%' :: '%' :: rest => char '%' :: list fuel rest
  | fuel + 1, '%' :: rest =>
    let (modifiers, rest) := rest.span isModifier
    item modifiers rest.head? :: list fuel (rest.drop 1)
  | fuel + 1, c :: rest => char c :: list fuel rest

/-- The most characters an item may have behind the percent sign. -/
def maxItem : Nat := 21

end FormatPiece

/-- How an item is laid out. -/
structure Layout where
  /-- The flags. -/
  flags : List Char := []
  /-- The least number of characters. -/
  width : Nat := 0
  /-- The precision, if one is given. -/
  precision : Option Nat := none
deriving Repr

namespace Layout

/-- Splits at most two digits off. -/
def twoDigits (cs : List Char) : List Char × List Char :=
  let figures := (cs.take 2).takeWhile Text.isDigit
  (figures, cs.drop figures.length)

/-- The layout that the modifiers of an item stand for, if the item may have them. -/
def read? (allowed : String) (precise : Bool) (modifiers : List Char) : Option Layout :=
  let (flags, rest) := modifiers.span allowed.toList.contains
  if rest.head? = some '0' then none
  else
    let (width, rest) := twoDigits rest
    let width := Text.digitsValue width
    match rest, precise with
    | [], _ => some { flags, width }
    | '.' :: rest, true =>
      let (precision, rest) := twoDigits rest
      if rest.isEmpty then some { flags, width, precision := some (Text.digitsValue precision) }
      else none
    | _, _ => none

variable (l : Layout)

/-- Whether the item has a flag. -/
def has (flag : Char) : Bool := l.flags.contains flag

/-- The text with blanks in front of it, or behind it if it goes to the left. -/
def pad (cs : List Char) : List Char :=
  let blanks := List.replicate (l.width - cs.length) ' '
  if l.has '-' then cs ++ blanks else blanks ++ cs

/-- The sign in front of a number. -/
def sign (negative : Bool) : List Char :=
  if negative then ['-'] else if l.has '+' then ['+'] else if l.has ' ' then [' '] else []

/-- A number of which `lead` comes before everything else; the width may be filled with zeros. -/
def padNumber (lead figures : List Char) (zeros : Bool) : List Char :=
  if zeros && l.has '0' && !l.has '-' then
    lead ++ Text.padStart (l.width - lead.length) '0' figures
  else
    l.pad (lead ++ figures)

/-- The digits of an integer, at least as many as the precision says. -/
def integerDigits (figures : List Char) : List Char :=
  match l.precision with
  | some 0 => if figures = ['0'] then [] else figures
  | some n => Text.padStart n '0' figures
  | none => figures

/-- A decimal integer. -/
def decimal (n : Int) : List Char :=
  l.padNumber (l.sign (decide (n < 0))) (l.integerDigits (Text.digits n.natAbs))
    l.precision.isNone

/-- The digits of a number in capital letters. -/
def capital (cs : List Char) : List Char := cs.map Char.toUpper

/-- An octal or hexadecimal number; negative ones show their bits. -/
def unsigned (letter : Char) (n : UInt64) : List Char :=
  let base := if letter = 'o' then 8 else if letter = 'u' then 10 else 16
  let figures := l.integerDigits (Nat.toDigits base n.toNat)
  let lead := if l.has '#' && base = 16 && n != 0 then ['0', 'x'] else []
  let figures :=
    if l.has '#' && base = 8 && figures.head? ≠ some '0' then '0' :: figures else figures
  let shown := l.padNumber lead figures l.precision.isNone
  if letter = 'X' then capital shown else shown

/-- The hexadecimal digits behind the point of a mantissa with 52 bits there: as many as needed, or as
the precision says, rounded. The first part is what stands before the point. -/
def hexMantissa (mantissa : Nat) : Nat × List Char :=
  match l.precision with
  | some n =>
    if n < 13 then
      let rounded := Binary64.roundQuotient mantissa (16 ^ (13 - n))
      (rounded / 16 ^ n,
        if n = 0 then [] else Text.padStart n '0' (Nat.toDigits 16 (rounded % 16 ^ n)))
    else
      (mantissa / 2 ^ 52,
        Text.padStart 13 '0' (Nat.toDigits 16 (mantissa % 2 ^ 52)) ++ List.replicate (n - 13) '0')
  | none =>
    (mantissa / 2 ^ 52,
      Number.dropTrailingZeros (Text.padStart 13 '0' (Nat.toDigits 16 (mantissa % 2 ^ 52))))

/-- The hexadecimal text of a finite float without its sign: digits and an exponent of two. -/
def hexFloat (x : Binary64.Finite) : List Char :=
  let (whole, figures) := l.hexMantissa x.mantissa
  let exponent := if x.mantissa = 0 then 0 else x.exponent + 52
  Text.digits whole ++ Number.pointAndDigits (l.has '#') figures ++ 'p'
    :: (if exponent < 0 then '-' else '+') :: Text.digits exponent.natAbs

/-- The text of a finite float without its sign, the way a letter asks for. -/
def finite (letter : Char) (x : Binary64.Finite) : List Char :=
  let (num, den) := x.ratio
  let precision := l.precision.getD 6
  match letter with
  | 'f' => Number.fixedText num den precision (l.has '#')
  | 'e' => Number.scientificText num den precision (l.has '#')
  | 'g' => Number.generalText num den precision (l.has '#')
  | _ => l.hexFloat x

/-- A float. -/
def float (letter : Char) (n : Number) : List Char :=
  let special (negative : Bool) (text : String) := l.padNumber (l.sign negative) text.toList false
  let shown :=
    match n with
    | .nan negative => special negative "nan"
    | n =>
      match Binary64.decode n.toFloat with
      | none => special (decide (n.toFloat < 0.0)) "inf"
      | some x =>
        let lead := if letter.toLower = 'a' then ['0', 'x'] else []
        l.padNumber (l.sign x.negative ++ lead) (l.finite letter.toLower x) true
  if letter.isUpper then capital shown else shown

end Layout

/-! ### Literals -/

/-- The bytes of a string between quotes, so that they read back. -/
def quotedChars : List Char → List Char
  | [] => []
  | c :: rest =>
    if c == '"' || c == '\\' || c == '\n' then '\\' :: c :: quotedChars rest
    else if c.toNat < 32 ∨ c.toNat = 127 then
      let figures := Text.digits c.toNat
      let figures := if rest.head?.any Text.isDigit then Text.padStart 3 '0' figures else figures
      '\\' :: (figures ++ quotedChars rest)
    else c :: quotedChars rest

/-- The text of a number that reads back as it. -/
def numberLiteral : Number → List Char
  | .integer n =>
    if n.toInt = -2 ^ 63 then "0x8000000000000000".toList else Text.integer n.toInt
  | .nan _ => "(0/0)".toList
  | .float x =>
    match Binary64.decode x with
    | none => if x < 0.0 then "-1e9999".toList else "1e9999".toList
    | some _ => Layout.float {} 'a' (.float x)

/-- The text that reads back as a value, if there is one. -/
def literalText? : Value → Option (List Char)
  | .nil => some "nil".toList
  | .bool b => some (toString b).toList
  | .number n => some (numberLiteral n)
  | .string bytes => some ('"' :: quotedChars (Bytes.toChars bytes) ++ ['"'])
  | _ => none

/-! ### Templates -/

namespace Call

variable (c : Call)

/-- An item as it stands in errors. -/
def itemText (modifiers : List Char) (letter : Option Char) : String :=
  String.ofList ('%' :: modifiers ++ (letter.toList.filter (· ≠ '\x00')))

/-- The layout of an item, which may have the given flags. -/
def layout (allowed : String) (precise : Bool) (modifiers : List Char) (letter : Char) :
    ScriptM Layout :=
  match Layout.read? allowed precise modifiers with
  | some l => return l
  | none => c.raise s!"invalid conversion '{itemText modifiers (some letter)}' to 'format'"

/-- A string in a layout. Without a precision a long string is shown as it is. -/
def formatString (i : Nat) (modifiers : List Char) : ScriptM (List Char) := do
  let text := Bytes.toChars (← c.textOf (c.arg i))
  if modifiers.isEmpty then return text
  c.require (!text.contains '\x00') i "string contains zeros"
  let l ← c.layout "-" true modifiers 's'
  match l.precision with
  | none => return if 100 ≤ text.length then text else l.pad text
  | some n => return l.pad (text.take n)

/-- The text of an item for the argument `i`. -/
def formatItem (i : Nat) (modifiers : List Char) (letter : Option Char) :
    ScriptM (List Char) := do
  if FormatPiece.maxItem ≤ modifiers.length then c.raise "invalid format string to 'format'"
  match letter with
  | some 'c' =>
    let l ← c.layout "-" false modifiers 'c'
    return l.pad [Char.ofNat ((← c.integerArg i) % 256).toNat]
  | some 'd' | some 'i' =>
    let n ← c.integerArg i
    return (← c.layout "-+ 0" true modifiers (letter.getD 'd')).decimal n
  | some 'u' =>
    let n ← c.integerArg i
    return (← c.layout "-0" true modifiers 'u').unsigned 'u' (Int64.ofInt n).toUInt64
  | some 'o' | some 'x' | some 'X' =>
    let n ← c.integerArg i
    let letter := letter.getD 'x'
    return (← c.layout "-#0" true modifiers letter).unsigned letter (Int64.ofInt n).toUInt64
  | some 'a' | some 'A' =>
    let letter := letter.getD 'a'
    let l ← c.layout "-+ #0" true modifiers letter
    return l.float letter (← c.numberArg i)
  | some 'f' | some 'e' | some 'E' | some 'g' | some 'G' =>
    let n ← c.numberArg i
    let letter := letter.getD 'f'
    return (← c.layout "-+ #0" true modifiers letter).float letter n
  | some 'p' =>
    let l ← c.layout "-" false modifiers 'p'
    match c.arg i with
    | .nil | .bool _ | .number _ => return l.pad "(null)".toList
    | v => return l.pad (Actor.address (Actor.identity v)).toList
  | some 'q' =>
    unless modifiers.isEmpty do c.raise "specifier '%q' cannot have modifiers"
    match literalText? (c.arg i) with
    | some text => return text
    | none => c.raiseArgument i "value has no literal form"
  | some 's' => c.formatString i modifiers
  | letter => c.raise s!"invalid conversion '{itemText modifiers letter}' to 'format'"

/-- Fills a template, the next argument being number `i`. -/
def fill : (i : Nat) → List FormatPiece → List (List Char) → ScriptM (List (List Char))
  | _, [], out => return out
  | i, .char ch :: rest, out => fill i rest ([ch] :: out)
  | i, .item modifiers letter :: rest, out => do
    unless i < c.args.size do c.raiseArgument i "no value"
    fill (i + 1) rest ((← c.formatItem i modifiers letter) :: out)

/-- Fills a template with arguments. -/
def formatCall : ScriptM (Array Value) := do
  let template := Bytes.toChars (← c.bytesArg 0)
  let parts ← c.fill 1 (FormatPiece.list template.length template) []
  return one (← newString (Bytes.ofChars parts.reverse.flatten))

end Call

end LedgerReports.Script
