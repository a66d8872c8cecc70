import LedgerReports.Json.Basic
import LedgerReports.Text.Digits
import LedgerReports.Text.Utf8

/-!
# Reading JSON

`Json.read?` reads one value from the front of some bytes and gives what follows it; `Json.parse?` wants
nothing but white space to follow. Strings are checked for their form only: whether the bytes and the
escapes of a string stand for a text is decided when the string is read, and noted in the value.
-/

namespace LedgerReports.Json

/-- The number of a character. -/
def code (c : Char) : UInt8 := UInt8.ofNat c.toNat

/-- Whether a byte is white space. -/
def isSpace (b : UInt8) : Bool :=
  b == code ' ' || b == code '\n' || b == code '\t' || b == code '\x0d'

/-- The bytes without the white space in front. -/
def skipSpace (bytes : List UInt8) : List UInt8 := bytes.dropWhile isSpace

/-- Whether a byte is a decimal digit. -/
def isDigit (b : UInt8) : Bool := decide (code '0' ≤ b) && decide (b ≤ code '9')

/-- The bytes after a word that they begin with. -/
def afterWord? (word : String) (bytes : List UInt8) : Option (List UInt8) :=
  let w := word.toUTF8.toList
  if bytes.take w.length = w then some (bytes.drop w.length) else none

/-! ### Numbers -/

/-- The run of digits in front, as characters, and what follows it. -/
def readDigits (bytes : List UInt8) : List Char × List UInt8 :=
  ((bytes.takeWhile isDigit).map fun b => Char.ofNat b.toNat, bytes.dropWhile isDigit)

/-- Reads what may stand behind the whole part: a point with at least one digit. -/
def readFraction? (bytes : List UInt8) : Option (Option (List Char) × List UInt8) :=
  match bytes with
  | b :: rest =>
    if b = code '.' then
      let (figures, rest) := readDigits rest
      if figures.isEmpty then none else some (some figures, rest)
    else some (none, bytes)
  | [] => some (none, [])

/-- Reads what may stand at the end: an exponent with at least one digit. -/
def readExponent? (bytes : List UInt8) : Option (Option Int × List UInt8) :=
  match bytes with
  | b :: rest =>
    if b = code 'e' ∨ b = code 'E' then
      let (negative, rest) :=
        match rest with
        | c :: following =>
          if c = code '-' then (true, following)
          else if c = code '+' then (false, following)
          else (false, rest)
        | [] => (false, rest)
      let (figures, rest) := readDigits rest
      if figures.isEmpty then none
      else
        let n : Int := Text.digitsValue figures
        some (some (if negative then -n else n), rest)
    else some (none, bytes)
  | [] => some (none, [])

/-- Reads a number. A zero stands alone before the point. -/
def readNumber? (bytes : List UInt8) : Option (Numeral × List UInt8) := do
  let negative := bytes.head? = some (code '-')
  let (whole, rest) := readDigits (if negative then bytes.drop 1 else bytes)
  if whole.isEmpty ∨ (whole.head? = some '0' ∧ whole.length ≠ 1) then none
  let (fraction, rest) ← readFraction? rest
  let (exponent, rest) ← readExponent? rest
  return ({ negative, whole, fraction, exponent }, rest)

/-! ### Strings -/

/-- The value of a hexadecimal digit. -/
def hexValue? (b : UInt8) : Option Nat :=
  if isDigit b then some (b - code '0').toNat
  else if decide (code 'a' ≤ b) && decide (b ≤ code 'f') then some ((b - code 'a').toNat + 10)
  else if decide (code 'A' ≤ b) && decide (b ≤ code 'F') then some ((b - code 'A').toNat + 10)
  else none

/-- The number that four hexadecimal digits in front stand for, and what follows them. -/
def readHex? : List UInt8 → Option (Nat × List UInt8)
  | a :: b :: c :: d :: rest => do
    let n ← [a, b, c, d].foldlM (fun n x => (hexValue? x).map fun v => 16 * n + v) 0
    return (n, rest)
  | _ => none

/-- The character that an escape of one letter stands for. -/
def simpleEscape? (b : UInt8) : Option Char :=
  if b = code '"' then some '"'
  else if b = code '\\' then some '\\'
  else if b = code '/' then some '/'
  else if b = code 'b' then some '\x08'
  else if b = code 'f' then some '\x0c'
  else if b = code 'n' then some '\n'
  else if b = code 'r' then some '\x0d'
  else if b = code 't' then some '\t'
  else none

/-- What has been read of a string: its bytes, the last one first, or nothing if it is no text. -/
abbrev Spelled := Option (List UInt8)

/-- Adds a character. -/
def Spelled.push (s : Spelled) (c : Char) : Spelled :=
  s.map fun bytes => (String.singleton c).toUTF8.toList.reverse ++ bytes

/-- Reads the escape for a character by its number, behind the letter `u`. Two of them may stand for
one character. -/
def readUnicode? (s : Spelled) (bytes : List UInt8) : Option (Spelled × List UInt8) := do
  let (first, rest) ← readHex? bytes
  if 0xd800 ≤ first ∧ first < 0xdc00 then
    match rest with
    | b :: u :: following =>
      if b = code '\\' ∧ u = code 'u' then
        let (second, after) ← readHex? following
        if 0xdc00 ≤ second ∧ second < 0xe000 then
          let n := 0x10000 + (first - 0xd800) * 0x400 + (second - 0xdc00)
          return (s.push (Char.ofNat n), after)
        else
          return (none, rest)
      else return (none, rest)
    | _ => return (none, rest)
  else if 0xdc00 ≤ first ∧ first < 0xe000 then return (none, rest)
  else return (s.push (Char.ofNat first), rest)

/-- Reads a string behind its opening quote: what it spells, and what follows the closing quote. -/
def readString? : (fuel : Nat) → Spelled → List UInt8 → Option (Spelled × List UInt8)
  | 0, _, _ | _, _, [] => none
  | fuel + 1, s, b :: rest =>
    if b = code '"' then some (s, rest)
    else if b < 32 then none
    else if b = code '\\' then
      match rest with
      | [] => none
      | e :: rest =>
        if e = code 'u' then
          match readUnicode? s rest with
          | some (s, rest) => readString? fuel s rest
          | none => none
        else
          match simpleEscape? e with
          | some c => readString? fuel (s.push c) rest
          | none => none
    else readString? fuel (s.map (b :: ·)) rest

/-- The text that a string spells. -/
def Spelled.toText? (s : Spelled) : Option String := do
  let bytes ← s
  (Utf8.decode ⟨bytes.reverse.toArray⟩).toOption

/-! ### Values -/

/-- The bytes after a byte that they begin with, behind white space. -/
def after? (c : Char) (bytes : List UInt8) : Option (List UInt8) :=
  match skipSpace bytes with
  | b :: rest => if b = code c then some rest else none
  | [] => none

mutual

/-- Reads a value. -/
def readValue? : (fuel : Nat) → List UInt8 → Option (Json × List UInt8)
  | 0, _ => none
  | fuel + 1, bytes =>
    match skipSpace bytes with
    | [] => none
    | b :: rest =>
      if b = code '\x7b' then
        match after? '\x7d' rest with
        | some rest => some (.object [], rest)
        | none => readMembers? fuel [] rest
      else if b = code '[' then
        match after? ']' rest with
        | some rest => some (.array [], rest)
        | none => readItems? fuel [] rest
      else if b = code '"' then
        (readString? (rest.length + 1) (some []) rest).map fun (s, rest) =>
          (.string s.toText?, rest)
      else if b = code 'n' then (afterWord? "ull" rest).map fun rest => (.null, rest)
      else if b = code 't' then (afterWord? "rue" rest).map fun rest => (.bool true, rest)
      else if b = code 'f' then (afterWord? "alse" rest).map fun rest => (.bool false, rest)
      else (readNumber? (b :: rest)).map fun (n, rest) => (.number n, rest)

/-- Reads the items of a list after those found, the last of which comes first. -/
def readItems? : (fuel : Nat) → List Json → List UInt8 → Option (Json × List UInt8)
  | 0, _, _ => none
  | fuel + 1, found, bytes =>
    match readValue? fuel bytes with
    | none => none
    | some (v, rest) =>
      match after? ',' rest with
      | some rest => readItems? fuel (v :: found) rest
      | none => (after? ']' rest).map fun rest => (.array (v :: found).reverse, rest)

/-- Reads the members of an object after those found, the last of which comes first. -/
def readMembers? :
    (fuel : Nat) → List (Option String × Json) → List UInt8 → Option (Json × List UInt8)
  | 0, _, _ => none
  | fuel + 1, found, bytes =>
    match after? '"' bytes with
    | none => none
    | some rest =>
      match readString? (rest.length + 1) (some []) rest with
      | none => none
      | some (name, rest) =>
        match after? ':' rest with
        | none => none
        | some rest =>
          match readValue? fuel rest with
          | none => none
          | some (v, rest) =>
            let found := (name.toText?, v) :: found
            match after? ',' rest with
            | some rest => readMembers? fuel found rest
            | none => (after? '\x7d' rest).map fun rest => (.object found.reverse, rest)

end

/-- Reads a value from the front of some bytes, and gives what follows it. Each step takes at least one
byte, or goes from a list to its first item. -/
def read? (bytes : ByteArray) : Option (Json × List UInt8) :=
  readValue? (2 * bytes.size + 2) bytes.toList

/-- The value that some bytes are. -/
def parse? (bytes : ByteArray) : Option Json :=
  match read? bytes with
  | some (v, rest) => if (skipSpace rest).isEmpty then some v else none
  | none => none

end LedgerReports.Json
