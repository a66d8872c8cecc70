import LedgerReports.Number.Binary64
import LedgerReports.Text.Digits

/-!
# Settings documents

A document of `key = value` lines in the format TOML. Lines may be empty or hold a comment, and a line
`[name]` begins a table of its own. `Document.parse?` gives the values of the document as a tree, or
nothing if the document is malformed or gives a key twice.
-/

namespace LedgerReports.Settings

/-- A value of a document. -/
inductive Entry where
  /-- A text. -/
  | text (s : String)
  /-- An integer. -/
  | integer (n : Int)
  /-- A float. -/
  | float (x : Float)
  /-- A truth value. -/
  | bool (b : Bool)
  /-- A list of values. -/
  | list (items : List Entry)
  /-- Values by key; `sealed` says that no further line may add to them. -/
  | table (entries : List (String × Entry)) («sealed» : Bool)

instance : Inhabited Entry := ⟨.table [] false⟩

namespace Document

/-- Whether the character is white space within a line. -/
def isBlank (c : Char) : Bool := c == ' ' || c == '\t'

/-- The text without the white space in front. -/
def skipBlanks (cs : List Char) : List Char := cs.dropWhile isBlank

/-- Whether the character may not stand in a document. -/
def isControl (c : Char) : Bool := (c.toNat < 32 && c != '\t') || c.toNat == 127

/-- The text after a line break in front. -/
def afterBreak? : List Char → Option (List Char)
  | '\n' :: rest => some rest
  | '\x0d' :: '\n' :: rest => some rest
  | _ => none

/-- The text after a comment, if there is one in front. -/
def skipComment? : List Char → Option (List Char)
  | '#' :: rest =>
    let rest := rest.dropWhile fun c => !isControl c
    if rest.isEmpty || (afterBreak? rest).isSome then some rest else none
  | rest => some rest

/-- The text after white space, comments and line breaks. -/
def skipLines? : (fuel : Nat) → List Char → Option (List Char)
  | 0, _ => none
  | fuel + 1, cs => do
    let cs ← skipComment? (skipBlanks cs)
    match afterBreak? cs with
    | some rest => skipLines? fuel rest
    | none => return cs

/-! ### Texts -/

/-- The character with a number given by hexadecimal digits. -/
def readCode? (count : Nat) (cs : List Char) : Option (Char × List Char) := do
  let figures := cs.take count
  if figures.length < count then none
  let digit (c : Char) : Option Nat :=
    if Text.isDigit c then some (Text.digitValue c)
    else if 'a' ≤ c ∧ c ≤ 'f' then some (c.toNat - 'a'.toNat + 10)
    else if 'A' ≤ c ∧ c ≤ 'F' then some (c.toNat - 'A'.toNat + 10)
    else none
  let n ← figures.foldlM (fun n c => (digit c).map fun d => 16 * n + d) 0
  if n < 0xd800 ∨ (0xdfff < n ∧ n < 0x110000) then some (Char.ofNat n, cs.drop count) else none

/-- The character that an escape stands for, behind the backslash. -/
def readEscape? : List Char → Option (Char × List Char)
  | '"' :: rest => some ('"', rest)
  | '\\' :: rest => some ('\\', rest)
  | 'b' :: rest => some ('\x08', rest)
  | 'f' :: rest => some ('\x0c', rest)
  | 'n' :: rest => some ('\n', rest)
  | 'r' :: rest => some ('\x0d', rest)
  | 't' :: rest => some ('\t', rest)
  | 'u' :: rest => readCode? 4 rest
  | 'U' :: rest => readCode? 8 rest
  | _ => none

/-- Reads a text of one line up to the quote that ends it. -/
def readLineText? (quote : Char) : (fuel : Nat) → List Char → List Char → Option (String × List Char)
  | 0, _, _ | _, _, [] => none
  | fuel + 1, found, c :: rest =>
    if c = quote then some (String.ofList found.reverse, rest)
    else if c = '\\' ∧ quote = '"' then
      match readEscape? rest with
      | some (e, rest) => readLineText? quote fuel (e :: found) rest
      | none => none
    else if isControl c then none
    else readLineText? quote fuel (c :: found) rest

/-- Reads a text of several lines up to the three quotes that end it, before which two more may
stand. -/
def readLinesText? (quote : Char) : (fuel : Nat) → List Char → List Char → Option (String × List Char)
  | 0, _, _ | _, _, [] => none
  | fuel + 1, found, c :: rest =>
    if c = quote then
      let run := (c :: rest).takeWhile (· = quote)
      let after := (c :: rest).drop run.length
      if 3 ≤ run.length then
        if 5 < run.length then none
        else some (String.ofList (List.replicate (run.length - 3) quote ++ found).reverse, after)
      else readLinesText? quote fuel (run ++ found) after
    else if c = '\\' ∧ quote = '"' then
      let blank (c : Char) : Bool := isBlank c || c == '\n' || c == '\x0d'
      match afterBreak? (skipBlanks rest) with
      | some following => readLinesText? quote fuel found (following.dropWhile blank)
      | none =>
        match readEscape? rest with
        | some (e, rest) => readLinesText? quote fuel (e :: found) rest
        | none => none
    else
      match afterBreak? (c :: rest) with
      | some following => readLinesText? quote fuel ('\n' :: found) following
      | none => if isControl c then none else readLinesText? quote fuel (c :: found) rest

/-- Reads a text between quotes. -/
def readText? (cs : List Char) : Option (String × List Char) :=
  match cs with
  | a :: b :: c :: rest =>
    if (a = '"' ∨ a = '\'') ∧ b = a ∧ c = a then
      readLinesText? a (rest.length + 1) [] ((afterBreak? rest).getD rest)
    else if a = '"' ∨ a = '\'' then readLineText? a cs.length [] (b :: c :: rest)
    else none
  | a :: rest => if a = '"' ∨ a = '\'' then readLineText? a cs.length [] rest else none
  | [] => none

/-! ### Keys -/

/-- Whether the character may stand in a key without quotes. -/
def isKeyChar (c : Char) : Bool :=
  Text.isDigit c || ('a' ≤ c && c ≤ 'z') || ('A' ≤ c && c ≤ 'Z') || c == '_' || c == '-'

/-- Reads one part of a key. -/
def readKeyPart? (cs : List Char) : Option (String × List Char) :=
  let name := cs.takeWhile isKeyChar
  if name.isEmpty then
    match cs with
    | a :: b :: c :: _ => if b = a ∧ c = a then none else readText? cs
    | _ => readText? cs
  else some (String.ofList name, cs.drop name.length)

/-- Reads a key: parts with points between them. -/
def readKey? : (fuel : Nat) → List Char → Option (List String × List Char)
  | 0, _ => none
  | fuel + 1, cs => do
    let (part, rest) ← readKeyPart? (skipBlanks cs)
    match skipBlanks rest with
    | '.' :: rest =>
      let (parts, rest) ← readKey? fuel rest
      return (part :: parts, rest)
    | rest => return ([part], rest)

/-! ### Numbers -/

/-- Whether the character may stand in a number or a word. -/
def isWordChar (c : Char) : Bool := isKeyChar c || c == '+' || c == '.'

/-- The digits of a number, between which single underscores may stand. -/
def digits? (isDigit : Char → Bool) (cs : List Char) : Option (List Char) :=
  go false cs
where
  /-- Goes through the digits; `afterDigit` says whether the last character was one. -/
  go (afterDigit : Bool) : List Char → Option (List Char)
    | [] => if afterDigit then some [] else none
    | c :: rest =>
      if isDigit c then (go true rest).map (c :: ·)
      else if c = '_' && afterDigit then go false rest
      else none

/-- The natural number that decimal digits stand for; it does not begin with a zero. -/
def decimal? (cs : List Char) : Option (List Char) := do
  let figures ← digits? Text.isDigit cs
  if figures.head? = some '0' ∧ 1 < figures.length then none else some figures

/-- The integer in a base, behind the mark for the base. -/
def inBase? (base : Nat) (cs : List Char) : Option Int := do
  let value (c : Char) : Nat :=
    if Text.isDigit c then Text.digitValue c
    else if 'a' ≤ c ∧ c ≤ 'f' then c.toNat - 'a'.toNat + 10
    else if 'A' ≤ c ∧ c ≤ 'F' then c.toNat - 'A'.toNat + 10
    else 99
  let figures ← digits? (fun c => value c < base) cs
  return (figures.foldl (fun n c => base * n + value c) 0 : Nat)

/-- The sign of a number, and the rest. -/
def splitSign : List Char → Bool × List Char
  | '-' :: rest => (true, rest)
  | '+' :: rest => (false, rest)
  | rest => (false, rest)

/-- An integer of 64 bits. -/
def ofInteger (n : Int) : Option Entry :=
  if -2 ^ 63 ≤ n ∧ n < 2 ^ 63 then some (.integer n) else none

/-- The float that a number with a point or an exponent is. -/
def float? (negative : Bool) (cs : List Char) : Option Entry := do
  let isMark (c : Char) : Bool := c == 'e' || c == 'E'
  let mantissa := cs.takeWhile (!isMark ·)
  let exponent ←
    match cs.dropWhile (!isMark ·) with
    | [] => some 0
    | _ :: rest => do
      let (negative, figures) := splitSign rest
      let n : Int := Text.digitsValue (← digits? Text.isDigit figures)
      some (if negative then -n else n)
  let whole ← decimal? (mantissa.takeWhile (· != '.'))
  let fraction ←
    match mantissa.dropWhile (· != '.') with
    | [] => some []
    | _ :: rest => digits? Text.isDigit rest
  let exponent := exponent - fraction.length
  return .float (Binary64.ofDecimal negative (Text.digitsValue (whole ++ fraction)) exponent)

/-- The number or truth value that a word is. -/
def ofWord? (word : List Char) : Option Entry :=
  let (negative, rest) := splitSign word
  match word, rest with
  | ['t', 'r', 'u', 'e'], _ => some (.bool true)
  | ['f', 'a', 'l', 's', 'e'], _ => some (.bool false)
  | '0' :: 'x' :: figures, _ => (inBase? 16 figures).bind ofInteger
  | '0' :: 'o' :: figures, _ => (inBase? 8 figures).bind ofInteger
  | '0' :: 'b' :: figures, _ => (inBase? 2 figures).bind ofInteger
  | _, ['i', 'n', 'f'] =>
    some (.float (Binary64.ofSignedBits negative Binary64.infinityBits))
  | _, ['n', 'a', 'n'] => some (.float (0.0 / 0.0))
  | _, figures =>
    match decimal? figures with
    | some figures =>
      let n : Int := Text.digitsValue figures
      ofInteger (if negative then -n else n)
    | none => if figures.any fun c => c == '.' || c == 'e' || c == 'E' then float? negative figures
      else none

/-! ### Values -/

/-- Adds a value to a table under a key. Parts of a key that are not there yet become tables. -/
def insert? (key : List String) (v : Entry) : List (String × Entry) →
    Option (List (String × Entry)) :=
  match key with
  | [] => fun _ => none
  | [name] => fun entries =>
    if entries.any (·.1 == name) then none else some (entries ++ [(name, v)])
  | name :: rest => fun entries =>
    match entries.lookup name with
    | none => (insert? rest v []).map fun inner => entries ++ [(name, .table inner false)]
    | some (.table inner false) =>
      (insert? rest v inner).map fun inner =>
        entries.map fun e => if e.1 == name then (name, .table inner false) else e
    | some _ => none

mutual

/-- Reads a value. -/
def readValue? : (fuel : Nat) → List Char → Option (Entry × List Char)
  | 0, _ => none
  | fuel + 1, cs =>
    match cs with
    | '"' :: _ | '\'' :: _ => (readText? cs).map fun (s, rest) => (.text s, rest)
    | '[' :: rest => readItems? fuel [] rest
    | '\x7b' :: rest =>
      match skipBlanks rest with
      | '\x7d' :: rest => some (.table [] true, rest)
      | rest => readPairs? fuel [] rest
    | cs =>
      let word := cs.takeWhile isWordChar
      (ofWord? word).map fun v => (v, cs.drop word.length)

/-- Reads the items of a list after those found. -/
def readItems? : (fuel : Nat) → List Entry → List Char → Option (Entry × List Char)
  | 0, _, _ => none
  | fuel + 1, found, cs =>
    match skipLines? (cs.length + 1) cs with
    | none => none
    | some (']' :: rest) => some (.list found, rest)
    | some cs =>
      match readValue? fuel cs with
      | none => none
      | some (v, rest) =>
        match skipLines? (rest.length + 1) rest with
        | some (',' :: rest) => readItems? fuel (found ++ [v]) rest
        | some (']' :: rest) => some (.list (found ++ [v]), rest)
        | _ => none

/-- Reads the pairs of a table within a line after those found. -/
def readPairs? : (fuel : Nat) → List (String × Entry) → List Char → Option (Entry × List Char)
  | 0, _, _ => none
  | fuel + 1, found, cs =>
    match readPair? fuel cs with
    | none => none
    | some ((key, v), rest) =>
      match insert? key v found with
      | none => none
      | some found =>
        match skipBlanks rest with
        | ',' :: rest => readPairs? fuel found rest
        | '\x7d' :: rest => some (.table found true, rest)
        | _ => none

/-- Reads a key and its value. -/
def readPair? : (fuel : Nat) → List Char → Option ((List String × Entry) × List Char)
  | 0, _ => none
  | fuel + 1, cs =>
    match readKey? (cs.length + 1) cs with
    | some (key, '=' :: rest) =>
      (readValue? fuel (skipBlanks rest)).map fun (v, rest) => ((key, v), rest)
    | _ => none

end

/-! ### Lines -/

/-- What a document has given so far. -/
structure State where
  /-- The values at the top. -/
  entries : List (String × Entry) := []
  /-- The key of the table that the lines belong to. -/
  heading : List String := []
  /-- The keys of the tables that have begun. -/
  begun : List (List String) := []

/-- Reads the head of a table. One with double brackets begins a further element of a list of
tables. -/
def readHead? (s : State) (cs : List Char) : Option (State × List Char) := do
  match cs with
  | '[' :: rest =>
    let (key, rest) ← readKey? (rest.length + 1) rest
    match rest with
    | ']' :: ']' :: rest =>
      -- the elements of such a list are no settings; they are only told apart
      let name := s!"{s.begun.length}"
      return ({ s with heading := name :: key, begun := (name :: key) :: s.begun }, rest)
    | _ => none
  | cs =>
    let (key, rest) ← readKey? (cs.length + 1) cs
    match rest with
    | ']' :: rest =>
      if s.begun.contains key then none
      let entries ←
        match insert? key (.table [] false) s.entries with
        | some entries => some entries
        -- a table may have come up as a part of another key
        | none => if s.begun.any fun k => key.isPrefixOf k then some s.entries else none
      return ({ entries, heading := key, begun := key :: s.begun }, rest)
    | _ => none

/-- Reads lines up to the end. -/
def readLines? : (fuel : Nat) → State → List Char → Option State
  | 0, _, _ => none
  | fuel + 1, s, cs => do
    let cs ← skipLines? (cs.length + 1) cs
    match cs with
    | [] => return s
    | cs =>
      let (s, rest) ←
        match cs with
        | '[' :: rest => readHead? s rest
        | cs => do
          let ((key, v), rest) ← readPair? (2 * cs.length + 2) cs
          let entries ← insert? (s.heading ++ key) v s.entries
          some ({ s with entries }, rest)
      let rest ← skipComment? (skipBlanks rest)
      match afterBreak? rest with
      | some rest => readLines? fuel s rest
      | none => if rest.isEmpty then some s else none

/-- The values that a document gives. -/
def parse? (text : String) : Option (List (String × Entry)) :=
  let cs := text.toList
  (readLines? (cs.length + 1) {} cs).map (·.entries)

end Document

end LedgerReports.Settings
