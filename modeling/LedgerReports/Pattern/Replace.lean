import LedgerReports.Pattern.Cursor

/-!
# Replacing matches

`replaceAll` copies a subject and puts something else in the place of each match. What that is comes
from a function, which may run in any monad that can report a search error: a replacement text, a
table or a call. The function may also decide to keep a match as it is.

The text built is bounded: after each step it may hold at most `maxLength` bytes.
-/

namespace LedgerReports.Pattern

/-- A piece of a replacement text. -/
inductive Piece where
  /-- A byte that stands for itself. -/
  | byte (b : UInt8)
  /-- The whole match. -/
  | whole
  /-- A capture, counted from 0. -/
  | capture (index : Nat)
  /-- An escape byte that nothing sensible follows. -/
  | invalid
deriving DecidableEq, Repr

/-- The pieces of a replacement text. -/
def Piece.list : List UInt8 → List Piece
  | [] => []
  | b :: rest =>
    if b ≠ escape then .byte b :: Piece.list rest
    else
      match rest with
      | [] => [.invalid]
      | following :: rest =>
        if following = escape then .byte escape :: Piece.list rest
        else if following = Pattern.byte '0' then .whole :: Piece.list rest
        else if within '1' '9' following then
          .capture (following - Pattern.byte '1').toNat :: Piece.list rest
        else [.invalid]

/-- The bytes of a captured value: a position is written in decimal. -/
def Captured.toBytes : Captured → ByteArray
  | text bytes => bytes
  | position index => (toString index).toUTF8

/-- What a piece stands for in the place of a match. -/
def Piece.expand (subject : ByteArray) (m : Match) : Piece → Except Error ByteArray
  | byte b => .ok ⟨#[b]⟩
  | whole => m.whole subject
  | capture index => Captured.toBytes <$> m.capture subject index
  | invalid => .error .invalidReplacementEscape

/-- What a replacement text stands for in the place of a match. -/
def expand (subject : ByteArray) (pieces : List Piece) (m : Match) : Except Error ByteArray :=
  pieces.foldlM (fun out piece => return out ++ (← piece.expand subject m)) ByteArray.empty

/-- The outcome of replacing the matches of a subject. -/
structure Replaced where
  /-- The text with its replacements. -/
  text : ByteArray
  /-- The number of matches met. -/
  count : Nat
  /-- Whether a match was replaced, and not merely kept. -/
  changed : Bool

/-- A text under construction: what has been written, and where the walk stands. -/
structure Replacing where
  /-- What has been written so far. -/
  out : ByteArray := ByteArray.empty
  /-- The number of matches met so far. -/
  count : Nat := 0
  /-- Whether a match was replaced, and not merely kept. -/
  changed : Bool := false
  /-- Where the walk through the subject stands. -/
  cursor : Cursor := .start 0
  /-- The number of steps that the searches have made. -/
  steps : Nat := 0

/-- What a match is replaced with: other bytes, or nothing if it is kept. -/
abbrev Replacer (m : Type → Type) := Match → m (Option ByteArray)

namespace Replacing

/-- The outcome once no more match is looked for: the rest of the subject is copied. -/
def finish (subject : Subject) (r : Replacing) : Replaced :=
  ⟨r.out ++ subject.bytes.extract r.cursor.position subject.bytes.size, r.count, r.changed⟩

/-- The state after a match whose text is kept or replaced. -/
def afterMatch (r : Replacing) (found : Match) (kept : ByteArray) (image : Option ByteArray) :
    Replacing :=
  { r with
    out := r.out ++ image.getD kept
    count := r.count + 1
    changed := r.changed || image.isSome
    cursor := .past found }

/-- The state after a byte has been copied because no match counts in front of it. -/
def afterByte (r : Replacing) (b : UInt8) : Replacing :=
  { r with out := r.out.push b, cursor := r.cursor.skip }

/-- Where a step leads. -/
inductive Progress where
  /-- There is more to do. -/
  | onward (r : Replacing)
  /-- No more match is looked for. -/
  | done (r : Replacing)

/-- What follows once a match has been met or a byte has been copied: an anchored pattern is not
looked for a second time. -/
def settle (pattern : Pattern) (maxLength : Nat) (r : Replacing) : Except Error Progress :=
  if maxLength < r.out.size then .error .resultTooLong
  else if pattern.anchored then .ok (.done r)
  else .ok (.onward r)

variable {m : Type → Type} [Monad m] [MonadLiftT (Except Error) m]

/-- Meets a match, or copies a byte if no match counts in front of it. -/
def step (subject : Subject) (pattern : Pattern) (replacer : Replacer m) (maxLength : Nat)
    (r : Replacing) : m Progress := do
  let (found?, steps) ← liftM ((r.cursor.matchHere subject pattern).run r.steps)
  let r := { r with steps }
  match found? with
  | some found =>
    let kept ← liftM (found.whole subject.bytes)
    let image ← replacer found
    liftM ((r.afterMatch found kept image).settle pattern maxLength)
  | none =>
    match byteAt? subject.bytes r.cursor.position with
    | some b => liftM ((r.afterByte b).settle pattern maxLength)
    | none => return .done r

/-- Goes on until `limit` matches have been met or the subject ends. Each step meets a match or
copies a byte, so `2 * (size + 1)` steps are enough for a subject of `size` bytes. -/
def run (subject : Subject) (pattern : Pattern) (replacer : Replacer m) (limit : Int)
    (maxLength : Nat) : Nat → Replacing → m Replaced
  | 0, r => return r.finish subject
  | budget + 1, r => do
    if limit ≤ r.count then return r.finish subject
    else
      match ← r.step subject pattern replacer maxLength with
      | .onward r => run subject pattern replacer limit maxLength budget r
      | .done r => return r.finish subject

end Replacing

/-- Replaces the first `limit` matches of a pattern, all of them if there is no limit. -/
def replaceAll {m : Type → Type} [Monad m] [MonadLiftT (Except Error) m] (subject : Subject)
    (pattern : ByteArray) (replacer : Replacer m) (limit : Option Int) (maxLength : Nat) :
    m Replaced :=
  Replacing.run subject (ofBytes pattern) replacer (limit.getD (subject.bytes.size + 1)) maxLength
    (2 * (subject.bytes.size + 1)) {}

end LedgerReports.Pattern
