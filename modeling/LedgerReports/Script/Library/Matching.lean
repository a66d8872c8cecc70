import LedgerReports.Pattern.Find
import LedgerReports.Pattern.Replace
import LedgerReports.Script.Library.Conversion

/-!
# Searching strings by pattern

The functions on strings that take a pattern. They belong to the host, because a search may take very
long: it looks at the deadline itself, and what `gsub` builds has a bound of its own.
-/

namespace LedgerReports.Script

open Pattern (Subject Match Captured)

/-- Raises the error of a search. That the deadline has passed is noted. -/
def raisePattern {α : Type} (e : Pattern.Error) : ScriptM α := do
  if e = .deadlineExceeded then
    unless (← getThe Machine).journal.deadlinePassed do noteDeadline
    raiseHost .deadline
  raiseHost (.runtime e.message)

/-- The result of a part of a search. -/
def searched {α : Type} : Except Pattern.Error α → ScriptM α
  | .ok a => return a
  | .error e => raisePattern e

instance : MonadLift (Except Pattern.Error) ScriptM := ⟨searched⟩

/-- A subject to be searched before the deadline of the run. -/
def subjectOf (bytes : ByteArray) : ScriptM Subject := do
  let m ← getThe Machine
  let deadline := (← readThe Setting).deadline
  return ⟨bytes, if m.journal.deadlinePassed then .expired else deadline.remaining m.steps⟩

/-- Runs a search; its steps count as steps of the run. -/
def runSearch {α : Type} (search : Pattern.SearchM α) : ScriptM α := do
  let (a, steps) ← searched (search.run 0)
  modifyThe Machine fun m => { m with steps := m.steps + steps }
  return a

/-- A captured value as a value of the script. -/
def ofCaptured : Captured → ScriptM Value
  | .text bytes => newString bytes
  | .position index => return .ofInt index

/-- Captured values as values of the script. -/
def ofCaptures (captures : List Captured) : ScriptM (Array Value) :=
  return (← captures.mapM ofCaptured).toArray

/-- The subject, the pattern and the start of a search. -/
def searchArguments (c : Call) : ScriptM (ByteArray × ByteArray × Option Int) := do
  let subject ← c.read 0 Value.asBytes
  let pattern ← c.read 1 Value.asBytes
  let start ← c.read 2 (Value.asOptional Value.asInt64)
  return (subject, pattern, start)

/-- The first match: where it begins and ends, and its captures. -/
def findCall (c : Call) : ScriptM (Array Value) := do
  let (bytes, pattern, start) ← searchArguments c
  let subject ← subjectOf bytes
  match ← runSearch (Pattern.find subject pattern start (c.arg 3).truthy) with
  | none => return one .nil
  | some m =>
    let captures ← searched (m.values bytes)
    return #[.ofInt (m.start + 1), .ofInt m.stop] ++ (← ofCaptures captures)

/-- The captures of the first match. -/
def matchCall (c : Call) : ScriptM (Array Value) := do
  let (bytes, pattern, start) ← searchArguments c
  let subject ← subjectOf bytes
  match ← runSearch (Pattern.findMatch subject pattern start) with
  | none => return one .nil
  | some m => ofCaptures (← searched (m.valuesOrWhole bytes))

/-- Begins a walk through the matches. -/
def gmatchCall (c : Call) : ScriptM (Array Value) := do
  let (subject, pattern, start) ← searchArguments c
  let position := min (Pattern.startOffset start subject.size) (subject.size + 1)
  let walk : MatchWalk :=
    { subject, pattern := Pattern.ofBytesUnanchored pattern, cursor := .start position }
  let id := (← getThe Machine).walks.size
  modifyThe Machine fun m => { m with walks := m.walks.push walk }
  return one (.builtin (.matches id))

/-- Goes on to the next match of a walk. -/
def nextMatch (id : Nat) : ScriptM (Array Value) := do
  match (← getThe Machine).walks[id]? with
  | none => return #[]
  | some walk =>
    let subject ← subjectOf walk.subject
    let (found, cursor) ← runSearch (walk.cursor.next subject walk.pattern)
    modifyThe Machine fun m => { m with walks := m.walks.setIfInBounds id { walk with cursor } }
    match found with
    | none => return #[]
    | some m => ofCaptures (← searched (m.valuesOrWhole walk.subject))

/-- What a match is replaced with, given what a function or a table said. -/
def replacementOf (v : Value) : ScriptM (Option ByteArray) := do
  match v with
  | .nil | .bool false => return none
  | v =>
    match v.toBytes? with
    | some bytes => return some bytes
    | none => raiseHost (.runtime s!"invalid replacement value (a {v.exactTypeName})")

/-- What the matches are replaced with, according to the third argument. -/
def replacer (c : Call) (subject : ByteArray) : ScriptM (Pattern.Replacer ScriptM) := do
  match c.arg 2 with
  | .table id => return fun m => do
    let key ← ofCaptured (← searched (m.capture subject 0))
    replacementOf (← c.throughHost (c.actor.index (.table id) key none))
  | v =>
    if v.isFunction then return fun m => do
      let args ← ofCaptures (← searched (m.valuesOrWhole subject))
      replacementOf ((← c.throughHost (c.call v args)).getD 0 .nil)
    else
      match v.toBytes? with
      | some text =>
        let pieces := Pattern.Piece.list text.toList
        return fun m => some <$> searched (Pattern.expand subject pieces m)
      | none =>
        raiseHost (.runtime <|
          "bad argument #3 to 'gsub' (string/function/table expected, got "
            ++ v.exactTypeName ++ ")")

/-- Replaces the matches. A subject in which nothing was replaced is given back itself. -/
def gsubCall (c : Call) : ScriptM (Array Value) := do
  let bytes ← c.read 0 Value.asBytes
  let pattern ← c.read 1 Value.asBytes
  let limit ← c.read 3 (Value.asOptional Value.asInt64)
  let replacer ← replacer c bytes
  let subject ← subjectOf bytes
  let maxLength := (← readThe Setting).maxReplaced
  let replaced ← Pattern.replaceAll subject pattern replacer limit maxLength
  let result ← if replaced.changed then newString replaced.text else pure (.string bytes)
  return #[result, .ofInt replaced.count]

end LedgerReports.Script
