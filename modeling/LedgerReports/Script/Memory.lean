import LedgerReports.Script.Machine
import Std.Data.HashSet

/-!
# Memory

How many bytes a run holds: those of the values that can still be reached from the global variables
and from the functions that are being run. They are counted only when enough bytes have been asked
for since the last count. The numbers are estimates.
-/

namespace LedgerReports.Script

/-- What has been counted so far, and what is still to be looked at. -/
structure Marking where
  /-- Which tables have been seen. -/
  tables : Array Bool
  /-- Which boxes have been seen. -/
  boxes : Array Bool
  /-- The strings that have been seen. -/
  strings : Std.HashSet ByteArray := ∅
  /-- The numbers of the closures and objects that have been seen. -/
  others : Std.HashSet Nat := ∅
  /-- The number of bytes. -/
  bytes : Nat := 0
  /-- What is still to be looked at. -/
  pending : List Value

namespace Marking

/-- Adds values to those to be looked at. -/
def push (m : Marking) (values : Array Value) : Marking :=
  { m with pending := values.foldl (fun pending v => v :: pending) m.pending }

/-- Looks at a box. -/
def markBox (machine : Machine) (m : Marking) (id : Nat) : Marking :=
  if m.boxes.getD id true then m
  else
    { m with
      boxes := m.boxes.setIfInBounds id true
      bytes := m.bytes + 40
      pending := machine.boxes.getD id .nil :: m.pending }

/-- Looks at a table. -/
def markTable (machine : Machine) (m : Marking) (id : Nat) : Marking :=
  if m.tables.getD id true then m
  else
    let t := machine.table id
    let pairs := t.pairs.entries.foldl (fun pending (k, v) => k :: v :: pending) m.pending
    let pending := t.items.foldl (fun pending v => v :: pending) pairs
    { m with
      tables := m.tables.setIfInBounds id true
      bytes := m.bytes + t.weight
      pending := (t.metatable.map Value.table).toList ++ pending }

/-- Looks at a value. -/
def mark (machine : Machine) (m : Marking) : Value → Marking
  | .nil | .bool _ | .number _ | .builtin _ => m
  | .string bytes =>
    if m.strings.contains bytes then m
    else { m with strings := m.strings.insert bytes, bytes := m.bytes + bytes.size + 24 }
  | .table id => markTable machine m id
  | .closure id f =>
    if m.others.contains id then m
    else
      let m := { m with others := m.others.insert id, bytes := m.bytes + 40 + 8 * f.upvalues.size }
      f.upvalues.foldl (markBox machine) m
  | .object id _ =>
    if m.others.contains id then m
    else { m with others := m.others.insert id, bytes := m.bytes + 40 }

/-- Looks at everything that is still to be looked at. -/
def run (machine : Machine) : (fuel : Nat) → Marking → Marking
  | 0, m => m
  | fuel + 1, m =>
    match m.pending with
    | [] => m
    | v :: rest => run machine fuel (mark machine { m with pending := rest } v)

/-- Looks at what a function that is being run holds. -/
def markFrame (machine : Machine) (m : Marking) (f : Frame) : Marking :=
  let m := { m with bytes := m.bytes + 16 * (f.locals.size + f.stack.size + f.varargs.size) }
  let m := (((m.push f.locals).push f.stack).push f.varargs).push f.pending
  let m := f.closure.upvalues.foldl (markBox machine) m
  f.boxes.foldl (markBox machine) m

end Marking

/-- The functions of scripts that wait. -/
def Stack.allFrames : Stack → List Frame
  | bottom => []
  | builtin below => below.allFrames
  | frames inner below => inner ++ below.allFrames

/-- The greatest number of values that a count looks at. -/
def maxMarked : Nat := 2 ^ 50

/-- The number of bytes that can be reached. -/
def Machine.liveBytes (m : Machine) (running : Stack) : Nat :=
  let tables := [Machine.globals, Machine.loaded, Machine.preloaded, Machine.stringMeta,
    Machine.package].map Value.table
  let start : Marking :=
    { tables := Array.replicate m.tables.size false
      boxes := Array.replicate m.boxes.size false
      pending := tables }
  let marked := running.allFrames.foldl (Marking.markFrame m) (start.push m.closing)
  (Marking.run m maxMarked marked).bytes

/-- Whether so much was asked for that the live bytes have to be counted. -/
def Machine.isFull (m : Machine) (limit : Nat) : Bool :=
  decide (0 < limit) && decide (max limit m.threshold < m.allocated)

/-- Counts the live bytes if enough were asked for, and raises that there is not enough memory if
there are more than the limit. -/
def checkMemory (running : Stack) : ScriptM Unit := do
  let limit := (← readThe Setting).memoryLimit
  let m ← getThe Machine
  if m.isFull limit then
    let live := m.liveBytes running
    modifyThe Machine fun m => { m with allocated := live, threshold := live + limit / 4 }
    if limit < live then raiseText outOfMemory

end LedgerReports.Script
