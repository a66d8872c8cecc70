import LedgerReports.Pattern.Search

/-!
# Finding the first match

`find?` is the search from a start position for the leftmost match, and `findText?` the search for
a plain text. `find` chooses between them: a pattern in which no byte has a meaning of its own is
searched for as a text.
-/

namespace LedgerReports.Pattern

/-- The number of bytes compared between two looks at the deadline in a search for a plain text. -/
def pollBytes : Nat := 65536

/-- The position that a 1-based start selects in a text of `length` bytes. A negative start counts
from the end, and one before the beginning selects the beginning. -/
def startOffset (start : Option Int) (length : Nat) : Nat :=
  match start.getD 1 with
  | .ofNat 0 => 0
  | .ofNat (n + 1) => n
  | .negSucc n => length - (n + 1)

/-- The leftmost match at `s` or after it; of an anchored pattern, the match at `s`. -/
def find? (subject : Subject) (pattern : Pattern) (s : Nat) : SearchM (Option Match) := do
  match ← matchAt subject pattern s with
  | some found => return some found
  | none =>
    if pattern.anchored ∨ subject.bytes.size ≤ s then return none
    else find? subject pattern (s + 1)
termination_by subject.bytes.size - s

/-- The first position at `s` or after it where the text stands. The deadline is looked at before
each of the windows `0`, `stride`, `2 * stride`, …, counted from `origin`. -/
def textPosition? (subject : Subject) (text : ByteArray) (stride origin s : Nat) :
    Except Error (Option Nat) :=
  if s + text.size ≤ subject.bytes.size then
    if (s - origin) % stride = 0 && subject.deadline.passed (s - origin) then
      .error .deadlineExceeded
    else if subject.startsWithAt text s then
      .ok (some s)
    else
      textPosition? subject text stride origin (s + 1)
  else
    .ok none
termination_by subject.bytes.size + 1 - s

/-- The first match of a plain text at `s` or after it. The empty text is found at once. -/
def findText? (subject : Subject) (text : ByteArray) (s : Nat) : Except Error (Option Match) :=
  if text.size = 0 then
    .ok (some ⟨s, s, []⟩)
  else do
    let stride := max 1 (pollBytes / text.size)
    let position? ← textPosition? subject text stride s s
    return position?.map fun start => ⟨start, start + text.size, []⟩

/-- The first match of a pattern from a 1-based start, or nothing if the start lies past the end of
the subject. With `plain` the pattern is taken as a text. -/
def find (subject : Subject) (pattern : ByteArray) (start : Option Int) (plain : Bool) :
    SearchM (Option Match) := do
  let s := startOffset start subject.bytes.size
  if subject.bytes.size < s then return none
  else if plain || isPlain pattern then findText? subject pattern s
  else find? subject (ofBytes pattern) s

/-- The first match of a pattern from a 1-based start, always by way of its items. -/
def findMatch (subject : Subject) (pattern : ByteArray) (start : Option Int) :
    SearchM (Option Match) := do
  let s := startOffset start subject.bytes.size
  if subject.bytes.size < s then return none else find? subject (ofBytes pattern) s

end LedgerReports.Pattern
