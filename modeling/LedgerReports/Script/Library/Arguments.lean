import LedgerReports.Script.Operation

/-!
# Arguments of built-in functions

How a built-in function reads its arguments, and the errors it raises about them. An error names the
function as the caller does; a method does not count its object.
-/

namespace LedgerReports.Script

namespace Call

variable (c : Call)

/-- The argument with a number, counted from 0; `nil` if there is none. -/
def arg (i : Nat) : Value := c.args.getD i .nil

/-- The entries of a module that are the given function, by name. -/
def nameInModule? (module : Table) (f : Builtin) : Option ByteArray :=
  module.toList.findSome? fun (key, value) =>
    match key, value with
    | .string name, .builtin g => if f = g then some name else none
    | _, _ => none

/-- The name under which a loaded module holds the function. -/
def loadedName? : ScriptM (Option String) := do
  let m ← getThe Machine
  return (m.table Machine.loaded).toList.findSome? fun (key, value) =>
    match key, value with
    | .string module, .table id =>
      (nameInModule? (m.table id) c.function).map fun name =>
        let module := Utf8.decodeLossy module
        let name := Utf8.decodeLossy name
        if module == "_G" then name else module ++ "." ++ name
    | _, _ => none

/-- Raises an error about an argument, counted from 0. -/
def raiseArgument {α : Type} (i : Nat) (what : String) : ScriptM α := do
  match c.origin with
  | some ⟨"method", name⟩ =>
    if i = 0 then c.raise s!"calling '{name}' on bad self ({what})"
    else c.raise s!"bad argument #{i} to '{name}' ({what})"
  | some o => c.raise s!"bad argument #{i + 1} to '{o.name}' ({what})"
  | none =>
    let name := (← c.loadedName?).getD "?"
    c.raise s!"bad argument #{i + 1} to '{name}' ({what})"

/-- The name of the type of an argument in an error. -/
def argumentType (i : Nat) : ScriptM String :=
  if i < c.args.size then shownTypeName (c.arg i) else return "no value"

/-- Raises that an argument is not of the type that is expected. -/
def raiseExpected {α : Type} (i : Nat) (type : String) : ScriptM α := do
  c.raiseArgument i s!"{type} expected, got {← c.argumentType i}"

/-- An argument that has to be there. -/
def any (i : Nat) : ScriptM Value :=
  if i < c.args.size then return c.arg i else c.raiseArgument i "value expected"

/-- An argument that has to be a table. -/
def tableArg (i : Nat) : ScriptM Nat :=
  match c.arg i with
  | .table id => return id
  | _ => c.raiseExpected i "table"

/-- An argument that has to be a number or to be read as one. -/
def numberArg (i : Nat) : ScriptM Number :=
  match (c.arg i).toNumber? with
  | some n => return n
  | none => c.raiseExpected i "number"

/-- An argument that has to be equal to an integer. -/
def integerArg (i : Nat) : ScriptM Int := do
  match (← c.numberArg i).toInteger? with
  | some n => return n.toInt
  | none => c.raiseArgument i "number has no integer representation"

/-- An argument that has to be a string or a number. -/
def bytesArg (i : Nat) : ScriptM ByteArray :=
  match (c.arg i).toBytes? with
  | some bytes => return bytes
  | none => c.raiseExpected i "string"

/-- An argument that may be left out. -/
def optional {α : Type} (i : Nat) (default : α) (read : Nat → ScriptM α) : ScriptM α :=
  if (c.arg i).isNil then return default else read i

/-- An integer that may be left out. -/
def integerOr (i : Nat) (default : Int) : ScriptM Int := c.optional i default c.integerArg

/-- The text of a value, as it is shown. -/
def textOf (v : Value) : ScriptM ByteArray := do
  match ← c.actor.text? v with
  | some bytes => return bytes
  | none => c.raise "'__tostring' must return a string"

/-- Raises an error about an argument unless a condition holds. -/
def require (condition : Bool) (i : Nat) (what : String) : ScriptM Unit :=
  if condition then return () else c.raiseArgument i what

end Call

/-- One result. -/
def one (v : Value) : Array Value := #[v]

end LedgerReports.Script
