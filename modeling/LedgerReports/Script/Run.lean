import LedgerReports.Script.Library.Base
import LedgerReports.Script.Library.Host
import LedgerReports.Script.Library.Mathematics
import LedgerReports.Script.Library.Packages
import LedgerReports.Script.Library.Sequences
import LedgerReports.Script.Library.Text
import LedgerReports.Script.Memory
import LedgerReports.Script.Thread

/-!
# Running functions

`callAt` calls a value: a closure is run by a `Thread` of its own until it is done, a built-in
function directly. A built-in function may call values itself, so calls nest; how deeply is bounded
by `maxNesting`, and how many instructions there are by `maxInstructions`, so every call comes to an
end.

The deadline is looked at on each call and each time `Setting.interval` instructions have been
executed. If a run is ever out of instructions, it is late.
-/

namespace LedgerReports.Script

/-- Runs a built-in function. -/
def Call.run (c : Call) : ScriptM (Array Value) :=
  match c.function with
  | .base f => f.run c
  | .string f => f.run c
  | .table f => f.run c
  | .math f => f.run c
  | .package f => f.run c
  | .stringOperator f => f.run c
  | .host f => f.run c
  | .matches cursor => nextMatch cursor

/-- The most instructions of an activation. -/
def maxInstructions : Nat := 2 ^ 50

/-- How deeply calls from built-in functions may nest. -/
def maxNesting : Nat := 190

/-- Counts an instruction, and says whether it is time to look at the deadline and at the memory. -/
def countInstruction : ScriptM Bool := do
  modifyThe Machine fun m => { m with steps := m.steps + 1 }
  let m ← getThe Machine
  let setting ← readThe Setting
  return m.steps % setting.interval == 0 || m.isFull setting.memoryLimit

/-- Looks at the deadline and at the memory. -/
def checkLimits (running : Stack) : ScriptM Unit := do
  checkDeadline
  checkMemory running

/-- The journal of a run that is out of instructions says that the deadline has passed. -/
def outOfInstructions {α : Type} : ScriptM α := do
  noteDeadline
  raiseHost .deadline

/-- Counts the next instruction of a thread, and looks at the limits if it is time. -/
def Thread.countNext (s : Surroundings) (t : Thread) : ScriptM Unit := do
  if ← countInstruction then checkLimits (t.stack s)

/-- Runs a thread until it is done. -/
def Thread.run (s : Surroundings) : (instructions : Nat) → Thread → ScriptM (Array Value)
  | 0, _ => outOfInstructions
  | instructions + 1, t => do
    t.countNext s
    match ← t.step s with
    | .running t => Thread.run s instructions t
    | .finished values => return values

/-- Closes values after an error, the last one first, until `height` are left. An error on the way
takes the place of the first one. -/
def unwind (call : Value → Array Value → ScriptM (Array Value)) (height : Nat) :
    (count : Nat) → Value → ScriptM Value
  | 0, e => return e
  | count + 1, e => do
    let m ← getThe Machine
    if m.closing.size ≤ height then return e
    let v := m.closing.back?.getD .nil
    modifyThe Machine fun m => { m with closing := m.closing.pop }
    let e ← tryCatch
      (do
        if v.truthy then discard (call (← metamethod v "__close") #[v, e])
        return e)
      (fun raised => return raised)
    unwind call height count e

/-- Runs an activation. When it fails, what it has left to be closed is closed. -/
def activate (call : Value → Array Value → ScriptM (Array Value))
    (x : ScriptM (Array Value)) : ScriptM (Array Value) := do
  let height := (← getThe Machine).closing.size
  tryCatch x fun e => do
    let size := (← getThe Machine).closing.size
    throw (← unwind call height (size - height) e)

/-- Calls a value, for which a stack waits; `nesting` more calls may be nested in it. -/
def callAt : (nesting : Nat) → Stack → Value → Array Value → ScriptM (Array Value)
  | 0, stack, _, _ => raiseText (stack.position 0 ++ "C stack overflow")
  | nesting + 1, stack, f, args => do
    checkDeadline
    let s : Surroundings := ⟨stack, callAt nesting, Call.run⟩
    match f with
    | .closure _ closure =>
      activate (callAt nesting stack) do
        let base := (← getThe Machine).closing.size
        let frame := Frame.ofCall closure args .all base
        Thread.run s maxInstructions { frame, slots := Thread.weight frame }
    | .builtin b =>
      Call.run { function := b, args, stack, origin := none, callWith := callAt nesting }
    | f =>
      let actor : Actor := ⟨callAt nesting stack, none⟩
      let (f, args) ← actor.callable f args none
      callAt nesting stack f args

/-- Calls a value. -/
def call (f : Value) (args : Array Value) : ScriptM (Array Value) := callAt maxNesting .bottom f args

end LedgerReports.Script
