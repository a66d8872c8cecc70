import LedgerReports.Pattern.Search

/-!
# Successive matches

A `Cursor` walks through a subject from one match to the next. After a match it stands at the end of
it, and an empty match there does not count, so no match is met twice and the walk always moves on.
-/

namespace LedgerReports.Pattern

/-- A place in a walk through the matches of a subject. -/
structure Cursor where
  /-- Where the next match is looked for. -/
  position : Nat
  /-- Where the last match ended. -/
  lastStop : Option Nat
deriving DecidableEq, Repr

namespace Cursor

/-- The start of a walk at a position. -/
def start (position : Nat) : Cursor := ⟨position, none⟩

/-- The cursor after a match has been met. -/
def past (m : Match) : Cursor := ⟨m.stop, some m.stop⟩

/-- The cursor one byte further, when no match counts where it stands. -/
def skip (c : Cursor) : Cursor := { c with position := c.position + 1 }

/-- The match where the cursor stands, if there is one and it counts. -/
def matchHere (subject : Subject) (pattern : Pattern) (c : Cursor) : SearchM (Option Match) := do
  let found ← matchAt subject pattern c.position
  return found.filter fun m => c.lastStop ≠ some m.stop

/-- The next match that counts, and the cursor past it. Without one the cursor has run off the end,
and stays there. -/
def next (subject : Subject) (pattern : Pattern) (c : Cursor) :
    SearchM (Option Match × Cursor) := do
  if c.position ≤ subject.bytes.size then
    match ← c.matchHere subject pattern with
    | some m => return (some m, past m)
    | none => next subject pattern c.skip
  else
    return (none, c)
termination_by subject.bytes.size + 1 - c.position
decreasing_by
  simp only [skip]
  omega

end Cursor

end LedgerReports.Pattern
