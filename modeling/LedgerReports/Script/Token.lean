import LedgerReports.Script.Number
import LedgerReports.Text.Bytes

/-!
# Tokens of scripts

A source text is a list of characters, each of which stands for one byte. `Token.readAll` divides it
into tokens and notes the line on which each of them ends; white space and comments are left out.

Why a text has no tokens is not told, only that it has none.
-/

namespace LedgerReports.Script

/-- A token. -/
inductive Token where
  /-- A name. -/
  | name (text : String)
  /-- A name with a meaning of its own. -/
  | keyword (text : String)
  /-- A string. -/
  | string (bytes : ByteArray)
  /-- A number. -/
  | number (value : Number)
  /-- An operator or a separator. -/
  | symbol (text : String)
  /-- The end of the source. -/
  | eof

namespace Token

/-- The names with a meaning of their own. -/
def keywords : List String :=
  ["and", "break", "do", "else", "elseif", "end", "false", "for", "function", "goto", "if", "in",
    "local", "nil", "not", "or", "repeat", "return", "then", "true", "until", "while"]

/-- Whether a name may begin with the character. -/
def isLetter (c : Char) : Bool :=
  (decide ('a' ≤ c) && decide (c ≤ 'z')) || (decide ('A' ≤ c) && decide (c ≤ 'Z')) || c == '_'

/-- Whether a name may go on with the character. -/
def isLetterOrDigit (c : Char) : Bool := isLetter c || Text.isDigit c

/-- Whether the character ends a line. -/
def isLineBreak (c : Char) : Bool := c == '\n' || c == '\x0d'

/-- Takes off the line break in front: two different characters count as one break. -/
def skipLineBreak : List Char → List Char
  | '\n' :: '\x0d' :: rest | '\x0d' :: '\n' :: rest => rest
  | _ :: rest => rest
  | [] => []

/-- Counts the equals signs in front. -/
def spanEquals : List Char → Nat × List Char
  | '=' :: rest => let (n, rest) := spanEquals rest; (n + 1, rest)
  | rest => (0, rest)

/-- Whether the text begins with a bracket of the given level and direction. -/
def longBracket? (bracket : Char) (cs : List Char) : Option (Nat × List Char) :=
  match cs with
  | c :: rest =>
    if c = bracket then
      let (level, rest) := spanEquals rest
      match rest with
      | d :: rest => if d = bracket then some (level, rest) else none
      | [] => none
    else
      none
  | [] => none

/-- A piece of the source that has been read: its bytes in reverse, what follows, and the line. -/
structure Piece where
  /-- The bytes, the last one first. -/
  reversed : List Char
  /-- What follows. -/
  rest : List Char
  /-- The line. -/
  line : Nat

/-- The bytes of a piece. -/
def Piece.bytes (p : Piece) : ByteArray := Bytes.ofChars p.reversed.reverse

/-- Reads up to the closing bracket of the given level. Every line break becomes a newline. -/
def readLong? (level : Nat) : (fuel : Nat) → Piece → Option Piece
  | 0, _ => none
  | fuel + 1, p =>
    match p.rest with
    | [] => none
    | c :: rest =>
      if isLineBreak c then
        readLong? level fuel ⟨'\n' :: p.reversed, skipLineBreak p.rest, p.line + 1⟩
      else
        match longBracket? ']' p.rest with
        | some (n, after) =>
          if n = level then some { p with rest := after }
          else readLong? level fuel ⟨c :: p.reversed, rest, p.line⟩
        | none => readLong? level fuel ⟨c :: p.reversed, rest, p.line⟩

/-- Reads a long string or comment after its opening bracket. A line break at once is skipped. -/
def readLongBody? (level : Nat) (cs : List Char) (line : Nat) : Option Piece :=
  match cs with
  | c :: _ =>
    if isLineBreak c then readLong? level (cs.length + 1) ⟨[], skipLineBreak cs, line + 1⟩
    else readLong? level (cs.length + 1) ⟨[], cs, line⟩
  | [] => none

/-- The bytes that follow the first one of a code point: `count` times six bits. -/
def continuationBytes (code : Nat) : Nat → List Char
  | 0 => []
  | count + 1 =>
    Char.ofNat (0x80 + code / 2 ^ (6 * count) % 64) :: continuationBytes code count

/-- The bytes of a code point of at most 31 bits. -/
def codePointBytes (code : Nat) : List Char :=
  if code < 0x80 then [Char.ofNat code]
  else if code < 0x800 then Char.ofNat (0xc0 + code / 2 ^ 6) :: continuationBytes code 1
  else if code < 0x10000 then Char.ofNat (0xe0 + code / 2 ^ 12) :: continuationBytes code 2
  else if code < 0x200000 then Char.ofNat (0xf0 + code / 2 ^ 18) :: continuationBytes code 3
  else if code < 0x4000000 then Char.ofNat (0xf8 + code / 2 ^ 24) :: continuationBytes code 4
  else Char.ofNat (0xfc + code / 2 ^ 30) :: continuationBytes code 5

/-- The byte that a letter after a backslash stands for. -/
def namedEscape? (c : Char) : Option Char :=
  match c with
  | 'a' => some '\x07'
  | 'b' => some '\x08'
  | 'f' => some '\x0c'
  | 'n' => some '\n'
  | 'r' => some '\x0d'
  | 't' => some '\t'
  | 'v' => some '\x0b'
  | '\\' => some '\\'
  | '"' => some '"'
  | '\'' => some '\''
  | _ => none

/-- Skips white space, and counts the lines. -/
def skipBlank : (fuel : Nat) → List Char → Nat → List Char × Nat
  | 0, cs, line => (cs, line)
  | fuel + 1, cs, line =>
    match cs with
    | c :: rest =>
      if isLineBreak c then skipBlank fuel (skipLineBreak cs) (line + 1)
      else if Number.isSpace c then skipBlank fuel rest line
      else (cs, line)
    | [] => (cs, line)

/-- Reads what follows a backslash. -/
def readEscape? (p : Piece) : Option Piece :=
  match p.rest with
  | [] => none
  | 'x' :: a :: b :: rest => do
    let hi ← Number.hexValue? a
    let lo ← Number.hexValue? b
    return { p with reversed := Char.ofNat (16 * hi + lo) :: p.reversed, rest }
  | 'u' :: '{' :: rest =>
    let (figures, after) := rest.span Number.isHexDigit
    match after with
    | '}' :: rest =>
      let code := Number.hexDigitsValue figures
      if figures.isEmpty || decide (2 ^ 31 ≤ code) then none
      else some { p with reversed := (codePointBytes code).reverse ++ p.reversed, rest }
    | _ => none
  | 'z' :: rest =>
    let (rest, line) := skipBlank (rest.length + 1) rest p.line
    some { p with rest, line }
  | c :: rest =>
    if isLineBreak c then
      some ⟨'\n' :: p.reversed, skipLineBreak p.rest, p.line + 1⟩
    else if Text.isDigit c then
      let figures := (p.rest.take 3).takeWhile Text.isDigit
      let code := Text.digitsValue figures
      if code ≤ 255 then
        some { p with
          reversed := Char.ofNat code :: p.reversed
          rest := p.rest.drop figures.length }
      else none
    else
      (namedEscape? c).map fun e => { p with reversed := e :: p.reversed, rest }

/-- Reads a string up to its closing quote. -/
def readString? (quote : Char) : (fuel : Nat) → Piece → Option Piece
  | 0, _ => none
  | fuel + 1, p =>
    match p.rest with
    | [] => none
    | c :: rest =>
      if c = quote then some { p with rest }
      else if isLineBreak c then none
      else if c = '\\' then
        match readEscape? { p with rest } with
        | some p => readString? quote fuel p
        | none => none
      else readString? quote fuel { p with reversed := c :: p.reversed, rest }

/-- The characters of a numeral: digits, points, and signs after the mark of an exponent. -/
def spanNumeral (isMark : Char → Bool) : List Char → List Char × List Char
  | [] => ([], [])
  | c :: rest =>
    if isMark c then
      match rest with
      | '+' :: rest => let (n, rest) := spanNumeral isMark rest; (c :: '+' :: n, rest)
      | '-' :: rest => let (n, rest) := spanNumeral isMark rest; (c :: '-' :: n, rest)
      | rest => let (n, rest) := spanNumeral isMark rest; (c :: n, rest)
    else if Number.isHexDigit c || c == '.' then
      let (n, rest) := spanNumeral isMark rest
      (c :: n, rest)
    else
      ([], c :: rest)

/-- Reads a numeral. A letter may not follow it. -/
def readNumeral? (cs : List Char) : Option (Number × List Char) :=
  let (figures, rest) :=
    match cs with
    | '0' :: 'x' :: more =>
      let (n, rest) := spanNumeral (fun c => c == 'p' || c == 'P') more
      ('0' :: 'x' :: n, rest)
    | '0' :: 'X' :: more =>
      let (n, rest) := spanNumeral (fun c => c == 'p' || c == 'P') more
      ('0' :: 'x' :: n, rest)
    | cs => spanNumeral (fun c => c == 'e' || c == 'E') cs
  if rest.head?.any isLetter then none
  else (Number.readUnsigned? false figures).map fun n => (n, rest)

/-- The operators and separators of three, two and one characters. -/
def symbols : List (List String) :=
  [["..."],
    ["==", "~=", "<=", ">=", "//", "::", "<<", ">>", ".."],
    ["+", "-", "*", "/", "%", "^", "#", "&", "~", "|", "<", ">", "=", "(", ")", "\x7b", "\x7d",
      "[", "]", ";", ":", ",", "."]]

/-- Reads an operator or separator, the longest that there is. -/
def readSymbol? (cs : List Char) : Option (String × List Char) :=
  symbols.findSome? fun group =>
    (group.find? fun s => s.toList.isPrefixOf cs).map fun s => (s, cs.drop s.length)

/-- Skips a comment after its two hyphens. -/
def skipComment? (cs : List Char) (line : Nat) : Option (List Char × Nat) :=
  match longBracket? '[' cs with
  | some (level, body) => (readLongBody? level body line).map fun p => (p.rest, p.line)
  | none => some (cs.dropWhile (!isLineBreak ·), line)

/-- A token with the line on which it ends. -/
structure Located where
  /-- The token. -/
  token : Token
  /-- The line. -/
  line : Nat

/-- Reads a token that begins with `c`, and what follows it. -/
def readToken? (c : Char) (rest : List Char) (line : Nat) : Option (Located × List Char) :=
  if isLetter c then
    let (tail, after) := rest.span isLetterOrDigit
    let text := String.ofList (c :: tail)
    some (⟨if keywords.contains text then .keyword text else .name text, line⟩, after)
  else if Text.isDigit c || (c == '.' && rest.head?.any Text.isDigit) then
    (readNumeral? (c :: rest)).map fun (n, after) => (⟨.number n, line⟩, after)
  else if c = '"' ∨ c = '\'' then
    (readString? c (rest.length + 1) ⟨[], rest, line⟩).map fun p =>
      (⟨.string p.bytes, p.line⟩, p.rest)
  else
    match longBracket? '[' (c :: rest) with
    | some (level, body) =>
      (readLongBody? level body line).map fun p => (⟨.string p.bytes, p.line⟩, p.rest)
    | none =>
      if c = '[' ∧ rest.head? = some '=' then none
      else (readSymbol? (c :: rest)).map fun (s, after) => (⟨.symbol s, line⟩, after)

/-- Reads the tokens of a text that begins on the given line, after those read already. -/
def readFrom? : (fuel : Nat) → List Char → (line : Nat) → Array Located → Option (Array Located)
  | 0, _, _, _ => none
  | fuel + 1, cs, line, found =>
    match cs with
    | [] => some (found.push ⟨.eof, line⟩)
    | c :: rest =>
      if isLineBreak c then readFrom? fuel (skipLineBreak cs) (line + 1) found
      else if Number.isSpace c then readFrom? fuel rest line found
      else if c = '-' ∧ rest.head? = some '-' then
        match skipComment? (rest.drop 1) line with
        | some (rest, line) => readFrom? fuel rest line found
        | none => none
      else
        match readToken? c rest line with
        | some (token, rest) => readFrom? fuel rest token.line (found.push token)
        | none => none

/-- The tokens of a source text, if it has any. The last one is the end of the source. -/
def readAll? (source : ByteArray) : Option (Array Located) :=
  let cs := Bytes.toChars source
  readFrom? (cs.length + 1) cs 1 #[]

end Token

end LedgerReports.Script
