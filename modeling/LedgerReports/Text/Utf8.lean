/-!
# UTF-8

Bytes as text. `Utf8.read` reads one character, or says how many bytes cannot be the beginning of
one. On top of it `decode` refuses bytes that are no UTF-8 and says where, and `decodeLossy` puts a
replacement character in the place of each unreadable part.
-/

namespace LedgerReports.Utf8

/-- What stands at the front of some bytes. -/
inductive Read where
  /-- A character of this many bytes. -/
  | char (c : Char) (width : Nat)
  /-- This many bytes that no further byte makes a character. -/
  | malformed (width : Nat)
  /-- The beginning of a character, cut off by the end of the bytes. -/
  | truncated

/-- The byte at position `i`, as a number. -/
def byteAt? (bytes : ByteArray) (i : Nat) : Option Nat :=
  if h : i < bytes.size then some bytes[i].toNat else none

/-- Whether a byte continues a character. -/
def isContinuation (b : Nat) : Bool := decide (0x80 ≤ b) && decide (b ≤ 0xbf)

/-- Whether a byte may come second after this first one. The ranges leave out overlong forms,
surrogates and code points beyond the last one. -/
def isSecond (first b : Nat) : Bool :=
  let lo := if first = 0xe0 then 0xa0 else if first = 0xf0 then 0x90 else 0x80
  let hi := if first = 0xed then 0x9f else if first = 0xf4 then 0x8f else 0xbf
  decide (lo ≤ b) && decide (b ≤ hi)

/-- Reads `left` more bytes of a character at position `i + width`, `code` being the bits so far. -/
def readRest (bytes : ByteArray) (i : Nat) : (left width code : Nat) → Read
  | 0, width, code => .char (Char.ofNat code) width
  | left + 1, width, code =>
    match byteAt? bytes (i + width) with
    | none => .truncated
    | some b =>
      if isContinuation b then readRest bytes i left (width + 1) (code * 64 + (b - 0x80))
      else .malformed width

/-- Reads what stands at position `i`, which lies inside the bytes. -/
def read (bytes : ByteArray) (i : Nat) : Read :=
  match byteAt? bytes i with
  | none => .truncated
  | some first =>
    if first < 0x80 then .char (Char.ofNat first) 1
    else if first < 0xc2 ∨ 0xf4 < first then .malformed 1
    else
      match byteAt? bytes (i + 1) with
      | none => .truncated
      | some second =>
        if isSecond first second then
          let bits := second - 0x80
          if first < 0xe0 then readRest bytes i 0 2 ((first - 0xc0) * 64 + bits)
          else if first < 0xf0 then readRest bytes i 1 2 ((first - 0xe0) * 64 + bits)
          else readRest bytes i 2 2 ((first - 0xf0) * 64 + bits)
        else
          .malformed 1

/-- The number of bytes to go on by: at least one, so that reading always ends. -/
def Read.advance : Read → Nat
  | char _ width => max 1 width
  | malformed width => max 1 width
  | truncated => 1

theorem Read.one_le_advance (r : Read) : 1 ≤ r.advance := by
  cases r <;> simp only [advance] <;> omega

/-- Where bytes stop being UTF-8. -/
structure Invalid where
  /-- The number of bytes before that are UTF-8. -/
  position : Nat
  /-- The number of bytes that cannot begin a character, or `none` if one is cut off. -/
  width : Option Nat
deriving DecidableEq, Repr

/-- The text shown for bytes that are not UTF-8. -/
def Invalid.message (e : Invalid) : String :=
  match e.width with
  | some n => s!"invalid utf-8 sequence of {n} bytes from index {e.position}"
  | none => s!"incomplete utf-8 byte sequence from index {e.position}"

/-- The text that the bytes from position `i` on are, after `out`. -/
def decodeFrom (bytes : ByteArray) (i : Nat) (out : String) : Except Invalid String :=
  if i < bytes.size then
    match read bytes i with
    | .char c width => decodeFrom bytes (i + (Read.char c width).advance) (out.push c)
    | .malformed width => .error ⟨i, some width⟩
    | .truncated => .error ⟨i, none⟩
  else
    .ok out
termination_by bytes.size - i
decreasing_by
  have := Read.one_le_advance (Read.char c width)
  omega

/-- The text that the bytes are, if they are UTF-8. -/
def decode (bytes : ByteArray) : Except Invalid String := decodeFrom bytes 0 ""

/-- The character that stands for an unreadable part. -/
def replacement : Char := '\ufffd'

/-- The text of the bytes from position `i` on, after `out`. -/
def decodeLossyFrom (bytes : ByteArray) (i : Nat) (out : String) : String :=
  if i < bytes.size then
    match read bytes i with
    | .char c width => decodeLossyFrom bytes (i + (Read.char c width).advance) (out.push c)
    | .malformed width =>
      decodeLossyFrom bytes (i + (Read.malformed width).advance) (out.push replacement)
    | .truncated => out.push replacement
  else
    out
termination_by bytes.size - i
decreasing_by
  · have := Read.one_le_advance (Read.char c width)
    omega
  · have := Read.one_le_advance (Read.malformed width)
    omega

/-- The text of the bytes, with a replacement character for each part that is no UTF-8. -/
def decodeLossy (bytes : ByteArray) : String := decodeLossyFrom bytes 0 ""

end LedgerReports.Utf8
