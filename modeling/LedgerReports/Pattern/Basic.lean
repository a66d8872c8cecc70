/-!
# Patterns

A pattern is a byte string that is read from left to right as a list of items: literal bytes,
character classes with a repetition, captures, balanced pairs, frontiers and back references.
`Item.read` reads the item that starts at a position, and `Item.list` all items of a pattern.

Reading is lazy about mistakes: a malformed item becomes `Item.invalid`, which fails only when a
search reaches it. So a pattern whose beginning never matches is never refused for its end.

Every look at a byte goes through `byteAt`, which reports a position outside the text as
`Error.outOfBounds`; nothing is read by default.
-/

namespace LedgerReports

namespace Pattern

/-- What is wrong with the writing of a pattern. -/
inductive Malformation where
  /-- The pattern ends with the escape byte. -/
  | trailingEscape
  /-- A set has no closing bracket. -/
  | unclosedSet
  /-- A balanced pair lacks its two delimiters. -/
  | missingDelimiters
deriving DecidableEq, Repr

/-- Why a search fails, as opposed to finding nothing. -/
inductive Error where
  /-- The pattern is badly written. -/
  | malformed (what : Malformation)
  /-- A frontier is not followed by a set. -/
  | missingFrontierSet
  /-- The items nest deeper than the engine goes. -/
  | tooComplex
  /-- The pattern opens more captures than the engine keeps. -/
  | tooManyCaptures
  /-- A capture is closed that was not opened. -/
  | unopenedCapture
  /-- There is no capture of this 1-based number, or it is still open. -/
  | invalidCaptureIndex (index : Nat)
  /-- A capture that was opened was never closed. -/
  | unfinishedCapture
  /-- The escape byte of a replacement text is followed by neither a digit nor an escape byte. -/
  | invalidReplacementEscape
  /-- The text with its replacements grows beyond what may be held. -/
  | resultTooLong
  /-- The deadline passed while searching. -/
  | deadlineExceeded
  /-- A position outside the pattern or the subject was read. -/
  | outOfBounds
deriving DecidableEq, Repr

/-- The part of a message that names a malformation. -/
def Malformation.message : Malformation → String
  | trailingEscape => "ends with '%'"
  | unclosedSet => "missing ']'"
  | missingDelimiters => "missing arguments to '%b'"

/-- The text shown for an error. -/
def Error.message : Error → String
  | malformed what => "malformed pattern (" ++ what.message ++ ")"
  | missingFrontierSet => "missing '[' after '%f' in pattern"
  | tooComplex => "pattern too complex"
  | tooManyCaptures => "too many captures"
  | unopenedCapture => "invalid pattern capture"
  | invalidCaptureIndex index => "invalid capture index %" ++ toString index
  | unfinishedCapture => "unfinished capture"
  | invalidReplacementEscape => "invalid use of '%' in replacement string"
  | resultTooLong => "gsub result exceeds the memory limit"
  | deadlineExceeded => "report script exceeded its deadline"
  | outOfBounds => "position out of bounds"

/-- The byte at position `i` of a text. -/
def byteAt? (text : ByteArray) (i : Nat) : Option UInt8 :=
  if h : i < text.size then some text[i] else none

/-- The byte at position `i`, which the caller knows to lie inside the text. -/
def byteAt (text : ByteArray) (i : Nat) : Except Error UInt8 :=
  match byteAt? text i with
  | some b => .ok b
  | none => .error .outOfBounds

/-- The bytes from `start` up to `stop`, which the caller knows to lie inside the text. -/
def slice (text : ByteArray) (start stop : Nat) : Except Error ByteArray :=
  if start ≤ stop ∧ stop ≤ text.size then .ok (text.extract start stop) else .error .outOfBounds

/-! ### Bytes with a meaning -/

/-- The byte of an ASCII character. -/
abbrev byte (c : Char) : UInt8 := c.toUInt8

/-- The byte that takes the special meaning from, or gives one to, the byte after it. -/
def escape : UInt8 := byte '%'

/-- The bytes that have a meaning of their own in a pattern. -/
def specials : List UInt8 := "^$*+?.([%-".toList.map byte

/-- The bytes of the ASCII range from `lo` to `hi`. -/
def within (lo hi : Char) (b : UInt8) : Bool := decide (byte lo ≤ b) && decide (b ≤ byte hi)

/-- The lower-case form of an ASCII letter; any other byte is itself. -/
def lower (b : UInt8) : UInt8 := if within 'A' 'Z' b then b + 32 else b

/-- The class that a lower-case letter names, if it names one. -/
def namedClass? (letter : UInt8) : Option (UInt8 → Bool) :=
  if letter = byte 'a' then some fun b => within 'a' 'z' (lower b)
  else if letter = byte 'c' then some fun b => decide (b < 32) || b == 127
  else if letter = byte 'd' then some (within '0' '9')
  else if letter = byte 'g' then some (within '!' '~')
  else if letter = byte 'l' then some (within 'a' 'z')
  else if letter = byte 'p' then some fun b =>
    within '!' '~' b && !within 'a' 'z' (lower b) && !within '0' '9' b
  else if letter = byte 's' then some fun b => b == 32 || (decide (9 ≤ b) && decide (b ≤ 13))
  else if letter = byte 'u' then some (within 'A' 'Z')
  else if letter = byte 'w' then some fun b => within 'a' 'z' (lower b) || within '0' '9' b
  else if letter = byte 'x' then some fun b => within '0' '9' b || within 'a' 'f' (lower b)
  else none

/-- Whether an escaped byte covers `b`: a letter that names a class covers the class, its upper-case
form everything else, and any other byte covers itself. -/
def escapeCovers (escaped b : UInt8) : Bool :=
  match namedClass? (lower escaped) with
  | some members => if within 'A' 'Z' escaped then !members b else members b
  | none => escaped == b

/-! ### Sets of bytes -/

/-- A member of a set in brackets. -/
inductive SetItem where
  /-- The byte itself. -/
  | byte (b : UInt8)
  /-- An escaped byte: a class, or the byte itself. -/
  | escaped (b : UInt8)
  /-- Every byte from `lo` to `hi`, both included. -/
  | range (lo hi : UInt8)
deriving DecidableEq, Repr

/-- Whether a member of a set covers the byte `b`. -/
def SetItem.covers : SetItem → UInt8 → Bool
  | byte a, b => a == b
  | escaped a, b => escapeCovers a b
  | range lo hi, b => decide (lo ≤ b) && decide (b ≤ hi)

/-- A set in brackets. -/
structure CharSet where
  /-- Whether the set holds the bytes that no member covers. -/
  complemented : Bool
  /-- The members, as they are written. -/
  items : List SetItem
deriving DecidableEq, Repr

/-- Whether the set holds the byte `b`. -/
def CharSet.covers (set : CharSet) (b : UInt8) : Bool :=
  set.items.any (·.covers b) != set.complemented

/-- The position just past the member of a set at `p`: an escape byte takes the byte after it along,
if there is one. -/
def memberEnd (pattern : ByteArray) (p : Nat) : Nat :=
  if byteAt? pattern p = some escape ∧ p + 1 < pattern.size then p + 2 else p + 1

theorem lt_memberEnd (pattern : ByteArray) (p : Nat) : p < memberEnd pattern p := by
  unfold memberEnd
  split <;> omega

/-- The position just past the closing bracket of a set, when the members start at `p`.

The first member is taken whatever it is, even a closing bracket. -/
def setEnd (pattern : ByteArray) (p : Nat) : Except Error Nat :=
  if p < pattern.size then
    if byteAt? pattern (memberEnd pattern p) = some (byte ']') then
      .ok (memberEnd pattern p + 1)
    else
      setEnd pattern (memberEnd pattern p)
  else
    .error (.malformed .unclosedSet)
termination_by pattern.size - p
decreasing_by
  have := lt_memberEnd pattern p
  omega

/-- The members written from `p` up to the closing bracket at `close`.

A hyphen makes a range only if a byte other than the closing bracket follows it. -/
def setItems (pattern : ByteArray) (close p : Nat) : Except Error (List SetItem) := do
  if p < close then
    let b ← byteAt pattern p
    let following ← byteAt pattern (p + 1)
    if b = escape then
      return .escaped following :: (← setItems pattern close (p + 2))
    else if following = byte '-' ∧ p + 2 < close then
      return .range b (← byteAt pattern (p + 2)) :: (← setItems pattern close (p + 3))
    else
      return .byte b :: (← setItems pattern close (p + 1))
  else
    return []
termination_by close - p

/-- The set whose opening bracket is at `p`, and the position just past its closing bracket. -/
def CharSet.read (pattern : ByteArray) (p : Nat) : Except Error (CharSet × Nat) := do
  let complemented := byteAt? pattern (p + 1) == some (byte '^')
  let first := if complemented then p + 2 else p + 1
  let stop ← setEnd pattern first
  let items ← setItems pattern (stop - 1) first
  return (⟨complemented, items⟩, stop)

/-! ### Items -/

/-- What one byte of the subject is matched with. -/
inductive CharClass where
  /-- Any byte. -/
  | any
  /-- The byte itself. -/
  | literal (b : UInt8)
  /-- An escaped byte: a class, or the byte itself. -/
  | escaped (b : UInt8)
  /-- A set in brackets. -/
  | set (s : CharSet)
deriving DecidableEq, Repr

/-- Whether the class holds the byte `b`. -/
def CharClass.covers : CharClass → UInt8 → Bool
  | any, _ => true
  | literal a, b => a == b
  | escaped a, b => escapeCovers a b
  | set s, b => s.covers b

/-- How often a class is matched in a row. -/
inductive Repetition where
  /-- Exactly once. -/
  | once
  /-- Once or, failing that, not at all. -/
  | optional
  /-- As often as possible, also not at all. -/
  | greedy
  /-- As often as possible, at least once. -/
  | greedyOnce
  /-- As seldom as possible. -/
  | lazy
deriving DecidableEq, Repr

/-- An item of a pattern. -/
inductive Item where
  /-- Opens a capture of text. -/
  | openCapture
  /-- Captures the position in the subject. -/
  | positionCapture
  /-- Closes the capture that was opened last and is still open. -/
  | closeCapture
  /-- Matches the end of the subject. -/
  | endAnchor
  /-- Matches from an opening byte to the closing byte that balances it. -/
  | balance (opening closing : UInt8)
  /-- Matches nothing, where the subject passes from outside the set into it. -/
  | frontier (set : CharSet)
  /-- Matches the text of the capture with this 1-based number once more. -/
  | backReference (index : Nat)
  /-- Matches a class of bytes repeatedly. -/
  | single (bytes : CharClass) (repetition : Repetition)
  /-- A mistake in the pattern, reported when a search gets here. -/
  | invalid (error : Error)
deriving DecidableEq, Repr

/-- Whether matching the item nests the search for the items after it. -/
def Item.nests : Item → Bool
  | openCapture | positionCapture | closeCapture => true
  | single _ repetition => repetition != .once
  | _ => false

/-- The class written at `p`, and the position just past it. -/
def CharClass.read (pattern : ByteArray) (p : Nat) : Except Error (CharClass × Nat) := do
  let b ← byteAt pattern p
  if b = byte '.' then
    return (.any, p + 1)
  else if b = escape then
    match byteAt? pattern (p + 1) with
    | some following => return (.escaped following, p + 2)
    | none => throw (.malformed .trailingEscape)
  else if b = byte '[' then
    let (members, stop) ← CharSet.read pattern p
    return (.set members, stop)
  else
    return (.literal b, p + 1)

/-- The repetition that a byte after a class stands for. -/
def Repetition.ofByte? (b : UInt8) : Option Repetition :=
  if b = byte '?' then some .optional
  else if b = byte '*' then some .greedy
  else if b = byte '+' then some .greedyOnce
  else if b = byte '-' then some .lazy
  else none

/-- The class with its repetition written at `p`, and the position just past them. -/
def Item.readSingle (pattern : ByteArray) (p : Nat) : Except Error (Item × Nat) := do
  let (bytes, stop) ← CharClass.read pattern p
  match (byteAt? pattern stop).bind Repetition.ofByte? with
  | some repetition => return (.single bytes repetition, stop + 1)
  | none => return (.single bytes .once, stop)

/-- The frontier whose set is written at `p`, and the position just past it. -/
def Item.readFrontier (pattern : ByteArray) (p : Nat) : Except Error (Item × Nat) := do
  if byteAt? pattern p = some (byte '[') then
    let (set, stop) ← CharSet.read pattern p
    return (.frontier set, stop)
  else
    throw .missingFrontierSet

/-- The item written at `p`, and the position just past it. -/
def Item.read (pattern : ByteArray) (p : Nat) : Except Error (Item × Nat) := do
  let b ← byteAt pattern p
  let following := byteAt? pattern (p + 1)
  if b = byte '(' then
    if following = some (byte ')') then return (.positionCapture, p + 2)
    else return (.openCapture, p + 1)
  else if b = byte ')' then
    return (.closeCapture, p + 1)
  else if b = byte '$' ∧ following = none then
    return (.endAnchor, p + 1)
  else if b = escape ∧ following = some (byte 'b') then
    match byteAt? pattern (p + 2), byteAt? pattern (p + 3) with
    | some opening, some closing => return (.balance opening closing, p + 4)
    | _, _ => throw (.malformed .missingDelimiters)
  else if b = escape ∧ following = some (byte 'f') then
    Item.readFrontier pattern (p + 2)
  else if b = escape ∧ following.any (within '0' '9') then
    return (.backReference (((following.getD 0) - byte '0').toNat), p + 2)
  else
    Item.readSingle pattern p

/-! ### Reading goes forward -/

theorem lt_of_setEnd_eq_ok {pattern : ByteArray} {p stop : Nat}
    (h : setEnd pattern p = .ok stop) : p + 1 < stop := by
  fun_induction setEnd pattern p with
  | case1 p _ _ =>
    have := lt_memberEnd pattern p
    cases h
    omega
  | case2 p _ _ ih =>
    have := lt_memberEnd pattern p
    have := ih h
    omega
  | case3 => cases h

theorem CharSet.lt_of_read_eq_ok {pattern : ByteArray} {p stop : Nat} {set : CharSet}
    (h : CharSet.read pattern p = .ok (set, stop)) : p + 2 < stop := by
  simp only [CharSet.read, bind, Except.bind, pure, Except.pure] at h
  split at h
  · contradiction
  · next hstop =>
    have := lt_of_setEnd_eq_ok hstop
    split at h
    · contradiction
    · cases h
      split at this <;> omega

theorem CharClass.lt_of_read_eq_ok {pattern : ByteArray} {p stop : Nat} {bytes : CharClass}
    (h : CharClass.read pattern p = .ok (bytes, stop)) : p < stop := by
  simp only [CharClass.read, bind, Except.bind, pure, Except.pure] at h
  split at h
  · contradiction
  split at h
  · cases h; omega
  split at h
  · split at h <;> cases h; omega
  split at h
  · split at h
    · contradiction
    · next hread =>
      have := CharSet.lt_of_read_eq_ok hread
      cases h
      omega
  · cases h; omega

theorem Item.lt_of_readSingle_eq_ok {pattern : ByteArray} {p stop : Nat} {item : Item}
    (h : Item.readSingle pattern p = .ok (item, stop)) : p < stop := by
  simp only [Item.readSingle, bind, Except.bind, pure, Except.pure] at h
  split at h
  · contradiction
  · next hread =>
    have := CharClass.lt_of_read_eq_ok hread
    split at h <;> cases h <;> omega

theorem Item.lt_of_readFrontier_eq_ok {pattern : ByteArray} {p stop : Nat} {item : Item}
    (h : Item.readFrontier pattern p = .ok (item, stop)) : p < stop := by
  simp only [Item.readFrontier, bind, Except.bind, pure, Except.pure] at h
  split at h
  · split at h
    · contradiction
    · next hread =>
      have := CharSet.lt_of_read_eq_ok hread
      cases h
      omega
  · cases h

theorem Item.lt_of_read_eq_ok {pattern : ByteArray} {p stop : Nat} {item : Item}
    (h : Item.read pattern p = .ok (item, stop)) : p < stop := by
  simp only [Item.read, bind, Except.bind, pure, Except.pure] at h
  split at h
  · contradiction
  split at h
  · split at h <;> cases h <;> omega
  split at h
  · cases h; omega
  split at h
  · cases h; omega
  split at h
  · split at h <;> cases h; omega
  split at h
  · have := Item.lt_of_readFrontier_eq_ok h; omega
  split at h
  · cases h; omega
  · exact Item.lt_of_readSingle_eq_ok h

/-- The items written from `p` to the end of the pattern. A mistake ends the list. -/
def Item.readAll (pattern : ByteArray) (p : Nat) : List Item :=
  go p []
where
  /-- Reads on at `p`, after the items of `done`, which stand in reverse. -/
  go (p : Nat) (done : List Item) : List Item :=
    if p < pattern.size then
      match hread : Item.read pattern p with
      | .error e => (Item.invalid e :: done).reverse
      | .ok (item, stop) =>
        have := Item.lt_of_read_eq_ok hread
        go stop (item :: done)
    else
      done.reverse
  termination_by pattern.size - p

end Pattern

/-- A pattern, ready to be searched for. -/
structure Pattern where
  /-- Whether the pattern matches only where the search starts. -/
  anchored : Bool
  /-- What is matched, item by item. -/
  items : List Pattern.Item
deriving DecidableEq, Repr

namespace Pattern

/-- The pattern as a search reads it: a leading `^` anchors it. -/
def ofBytes (text : ByteArray) : Pattern :=
  if byteAt? text 0 = some (byte '^') then ⟨true, Item.readAll text 1⟩
  else ⟨false, Item.readAll text 0⟩

/-- The pattern as an iteration reads it: a leading `^` is a byte like any other. -/
def ofBytesUnanchored (text : ByteArray) : Pattern := ⟨false, Item.readAll text 0⟩

/-- Whether no byte of the text has a meaning of its own, so that it can only match itself. -/
def isPlain (text : ByteArray) : Bool :=
  text.data.all fun b => !specials.contains b

end Pattern

end LedgerReports
