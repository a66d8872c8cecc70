import LedgerReports.Deadline
import LedgerReports.Pattern.Basic

/-!
# Searching

`Item.matchList` tries the items of a pattern at a position of the subject, with backtracking, and
answers with the first way to match them all. The ways are tried in the order that the items ask
for: a greedy item takes as much as it can first, a lazy one as little.

Captures are passed along as a list, so an alternative that is given up leaves nothing behind: the
next one starts from the captures the choice was made with.

Two things bound a search. Items that nest may do so at most `maxDepth` deep, which depends on the
pattern alone and keeps the stack small. And every step is counted: each `pollInterval` steps the
search asks whether the deadline has passed, so a pattern that would take exponential time is
stopped.
-/

namespace LedgerReports.Pattern

/-- The greatest number of captures a pattern may open. -/
def maxCaptures : Nat := 32

/-- How deep the items of a pattern may nest. -/
def maxDepth : Nat := 200

/-- The number of steps between two looks at the deadline. -/
def pollInterval : Nat := 4096

/-- How far a capture has come. -/
inductive Extent where
  /-- The capture is open: its end is not known yet. -/
  | opened
  /-- The capture is of a position and has no text. -/
  | position
  /-- The capture is of this many bytes. -/
  | closed (length : Nat)
deriving DecidableEq, Repr

/-- A capture: where it starts in the subject, and how far it extends. -/
structure Capture where
  /-- The position where the capture was opened. -/
  start : Nat
  /-- How far it has come. -/
  extent : Extent
deriving DecidableEq, Repr

/-- The captures of a match, in the order in which they were opened. -/
abbrev Captures := List Capture

/-- The captures after the last open one has been closed at `stop`, or `none` if none is open. -/
def Captures.close? (stop : Nat) : Captures → Option Captures
  | [] => none
  | c :: rest =>
    match Captures.close? stop rest with
    | some closed => some (c :: closed)
    | none =>
      if c.extent = .opened then some ({ c with extent := .closed (stop - c.start) } :: rest)
      else none

/-- A search that counts its steps and may fail. -/
abbrev SearchM := StateT Nat (Except Error)

/-- Counts a step, and looks at the deadline at each multiple of `pollInterval`. -/
def tick (deadline : Deadline) : SearchM Unit := fun steps =>
  if (steps + 1) % pollInterval = 0 && deadline.passed (steps + 1) then .error .deadlineExceeded
  else .ok ((), steps + 1)

/-- What is searched, and until when. -/
structure Subject where
  /-- The bytes searched. -/
  bytes : ByteArray
  /-- When the search has to stop. -/
  deadline : Deadline

namespace Subject

variable (subject : Subject)

/-- Whether there is a byte at `s` and the class holds it. -/
def matchesAt (bytes : CharClass) (s : Nat) : Bool :=
  (byteAt? subject.bytes s).any bytes.covers

/-- Where the run of bytes of the class that starts at `s` ends. Each byte of it is a step. -/
def runEnd (bytes : CharClass) (s : Nat) : SearchM Nat := do
  if subject.matchesAt bytes s ∧ s < subject.bytes.size then
    tick subject.deadline
    runEnd bytes (s + 1)
  else
    return s
termination_by subject.bytes.size - s

/-- The position past the closing byte that balances the opening one, looked for from `s` when
`depth` opening bytes are still to be balanced. -/
def balanceEnd? (opening closing : UInt8) (depth s : Nat) : SearchM (Option Nat) := do
  if h : s < subject.bytes.size then
    tick subject.deadline
    if subject.bytes[s] = closing then
      if depth ≤ 1 then return some (s + 1)
      else balanceEnd? opening closing (depth - 1) (s + 1)
    else if subject.bytes[s] = opening then
      balanceEnd? opening closing (depth + 1) (s + 1)
    else
      balanceEnd? opening closing depth (s + 1)
  else
    return none
termination_by subject.bytes.size - s

/-- Whether the subject passes at `s` from outside the set into it. Both ends of the subject count
as a zero byte. -/
def atFrontier (set : CharSet) (s : Nat) : Except Error Bool := do
  let previous ← if s = 0 then pure 0 else byteAt subject.bytes (s - 1)
  let current := (byteAt? subject.bytes s).getD 0
  return !set.covers previous && set.covers current

/-- The text of the capture with a 1-based number, as a back reference reads it: a capture of a
position is the empty text. -/
def referenced (captures : Captures) (index : Nat) : Except Error ByteArray :=
  match index with
  | 0 => .error (.invalidCaptureIndex 0)
  | i + 1 =>
    match captures[i]? with
    | some ⟨start, .closed length⟩ => slice subject.bytes start (start + length)
    | some ⟨start, .position⟩ => slice subject.bytes start start
    | some ⟨_, .opened⟩ | none => .error (.invalidCaptureIndex index)

/-- Whether the text stands at `s`. -/
def startsWithAt (text : ByteArray) (s : Nat) : Bool :=
  go 0
where
  /-- Compares the bytes from number `i` of the text on. -/
  go (i : Nat) : Bool :=
    if h : i < text.size then
      byteAt? subject.bytes (s + i) == some text[i] && go (i + 1)
    else
      true

end Subject

/-- Tries the continuation at `s + count`, at `s + count - 1`, and so on down to `s`. -/
def backOff {α : Type} (next : Nat → SearchM (Option α)) (s : Nat) : Nat → SearchM (Option α)
  | 0 => next s
  | count + 1 => do
    match ← next (s + count + 1) with
    | some found => return some found
    | none => backOff next s count

/-- Tries the continuation at `s`, at `s + 1`, and so on as long as the bytes passed are of the
class. -/
def advance {α : Type} (subject : Subject) (bytes : CharClass) (next : Nat → SearchM (Option α))
    (s : Nat) : SearchM (Option α) := do
  match ← next s with
  | some found => return some found
  | none =>
    if subject.matchesAt bytes s ∧ s < subject.bytes.size then
      advance subject bytes next (s + 1)
    else
      return none
termination_by subject.bytes.size - s

/-- Enters the search for the items after a nesting one, for which `room` levels are left. -/
def nest {α : Type} (room : Nat) (search : Nat → SearchM α) : SearchM α :=
  match room with
  | 0 => throw .tooComplex
  | room + 1 => search room

/-- The first way to match the items from position `s` of the subject, given the captures so far:
where it ends, and the captures then. `room` levels of nesting are left. -/
def Item.matchList (subject : Subject) :
    List Item → (room s : Nat) → Captures → SearchM (Option (Nat × Captures))
  | [], _, s, captures => do
    tick subject.deadline
    return some (s, captures)
  | item :: rest, room, s, captures => do
    tick subject.deadline
    match item with
    | .openCapture =>
      if captures.length < maxCaptures then
        nest room fun room => matchList subject rest room s (captures ++ [⟨s, .opened⟩])
      else
        throw .tooManyCaptures
    | .positionCapture =>
      if captures.length < maxCaptures then
        nest room fun room => matchList subject rest room s (captures ++ [⟨s, .position⟩])
      else
        throw .tooManyCaptures
    | .closeCapture =>
      match captures.close? s with
      | some captures => nest room fun room => matchList subject rest room s captures
      | none => throw .unopenedCapture
    | .endAnchor =>
      return if s = subject.bytes.size then some (s, captures) else none
    | .balance opening closing =>
      if byteAt? subject.bytes s = some opening then
        match ← subject.balanceEnd? opening closing 1 (s + 1) with
        | some stop => matchList subject rest room stop captures
        | none => return none
      else
        return none
    | .frontier set =>
      if ← subject.atFrontier set s then
        matchList subject rest room s captures
      else
        return none
    | .backReference index =>
      let text ← subject.referenced captures index
      if subject.startsWithAt text s then
        matchList subject rest room (s + text.size) captures
      else
        return none
    | .single bytes repetition =>
      if subject.matchesAt bytes s then
        match repetition with
        | .once => matchList subject rest room (s + 1) captures
        | .optional =>
          match ← nest room fun room => matchList subject rest room (s + 1) captures with
          | some found => return some found
          | none => matchList subject rest room s captures
        | .greedy =>
          let stop ← subject.runEnd bytes s
          backOff (fun s => nest room fun room => matchList subject rest room s captures)
            s (stop - s)
        | .greedyOnce =>
          let stop ← subject.runEnd bytes (s + 1)
          backOff (fun s => nest room fun room => matchList subject rest room s captures)
            (s + 1) (stop - (s + 1))
        | .lazy =>
          advance subject bytes
            (fun s => nest room fun room => matchList subject rest room s captures) s
      else
        match repetition with
        | .once | .greedyOnce => return none
        | .optional | .greedy | .lazy => matchList subject rest room s captures
    | .invalid error => throw error

/-! ### Matches -/

/-- A match: the part of the subject it spans, and its captures. -/
structure Match where
  /-- The position of the first byte. -/
  start : Nat
  /-- The position just past the last byte. -/
  stop : Nat
  /-- The captures, in the order in which they were opened. -/
  captures : Captures
deriving DecidableEq, Repr

/-- Texts are compared as the core library does, whatever else is imported. -/
local instance (priority := 2000) decEqCapturedText : DecidableEq ByteArray :=
  ByteArray.instDecidableEq

/-- A captured value. -/
inductive Captured where
  /-- The captured text. -/
  | text (bytes : ByteArray)
  /-- A captured position, counted from 1. -/
  | position (index : Nat)
deriving DecidableEq

/-- The bytes that the match spans. -/
def Match.whole (m : Match) (subject : ByteArray) : Except Error ByteArray :=
  slice subject m.start m.stop

/-- The value of a capture. -/
def Capture.value (c : Capture) (subject : ByteArray) : Except Error Captured :=
  match c.extent with
  | .opened => .error .unfinishedCapture
  | .position => .ok (.position (c.start + 1))
  | .closed length => Captured.text <$> slice subject c.start (c.start + length)

/-- The value of capture number `i`, counted from 0. A match without captures has one for its whole
text. -/
def Match.capture (m : Match) (subject : ByteArray) (i : Nat) : Except Error Captured :=
  match m.captures[i]? with
  | some c => c.value subject
  | none => if i = 0 then Captured.text <$> m.whole subject else .error (.invalidCaptureIndex (i + 1))

/-- The values of all captures that the pattern opens. -/
def Match.values (m : Match) (subject : ByteArray) : Except Error (List Captured) :=
  m.captures.mapM (·.value subject)

/-- The values of the captures, or the whole text of the match when there are none. -/
def Match.valuesOrWhole (m : Match) (subject : ByteArray) : Except Error (List Captured) := do
  if m.captures.isEmpty then return [.text (← m.whole subject)] else m.values subject

/-- The first way to match the pattern at position `s` of the subject. -/
def matchAt (subject : Subject) (pattern : Pattern) (s : Nat) : SearchM (Option Match) := do
  let found ← nest maxDepth fun room => Item.matchList subject pattern.items room s []
  return found.map fun (stop, captures) => ⟨s, stop, captures⟩

end LedgerReports.Pattern
