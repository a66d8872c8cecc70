import LedgerReports.Script.Compile
import LedgerReports.Script.Library.Arguments

/-!
# The basic functions

Types, metatables, errors and their handling, walking through tables, and loading of source text.
-/

namespace LedgerReports.Script

/-- The greatest number of bytes of the name of a chunk in an error. -/
def chunkNameLimit : Nat := 59

/-- The name of a chunk in an error. After an equals sign or an at sign the name stands as it is; any
other name is the beginning of the source text, of which the first line is shown. -/
def chunkName (name : ByteArray) : String :=
  match name.toList with
  | 61 :: rest => Utf8.decodeLossy ⟨(rest.take chunkNameLimit).toArray⟩
  | 64 :: rest =>
    if rest.length ≤ chunkNameLimit then Utf8.decodeLossy ⟨rest.toArray⟩
    else
      let tail := rest.drop (rest.length - (chunkNameLimit - 3))
      "..." ++ Utf8.decodeLossy ⟨tail.toArray⟩
  | source =>
    let line := source.takeWhile (· ≠ 10)
    -- room for the frame and three dots
    let room := chunkNameLimit - "[string \"...\"]".length
    if line.length = source.length ∧ line.length ≤ room then
      "[string \"" ++ Utf8.decodeLossy ⟨line.toArray⟩ ++ "\"]"
    else
      "[string \"" ++ Utf8.decodeLossy ⟨(line.take room).toArray⟩ ++ "...\"]"

namespace BaseFunction

/-- Raises a value. A string gets the position of the function at the given level in front. -/
def raiseAt (c : Call) (v : Value) (level : Int) : ScriptM (Array Value) := do
  match v with
  | .string bytes =>
    if 0 < level then
      let position := c.stack.position (level.toNat - 1)
      throw (.string (position.toUTF8 ++ bytes))
    else throw v
  | v => throw v

/-- Takes all arguments if the first counts as true, and else raises the second. -/
def assertTrue (c : Call) : ScriptM (Array Value) := do
  if (c.arg 0).truthy then return c.args
  discard (c.any 0)
  let message := if 2 ≤ c.args.size then c.arg 1 else .ofText "assertion failed!"
  raiseAt c message 1

/-- The options of the memory management, which happens by itself, with their results. -/
def memoryOptions : List (String × Value) :=
  [("stop", .ofInt 0), ("restart", .ofInt 0), ("collect", .ofInt 0), ("step", .bool true),
    ("isrunning", .bool true), ("setpause", .ofInt 200), ("setstepmul", .ofInt 100),
    ("generational", .ofText "incremental"), ("incremental", .ofText "incremental")]

/-- Answers questions about memory. -/
def collectGarbageCall (c : Call) : ScriptM (Array Value) := do
  let option ← c.optional 0 "collect".toUTF8 c.bytesArg
  let option := Utf8.decodeLossy option
  if option == "count" then
    let bytes := (← getThe Machine).allocated + 24000
    return one (.ofFloat (Float.ofNat bytes / 1024.0))
  match memoryOptions.lookup option with
  | some result => return one result
  | none => c.raiseArgument 0 s!"invalid option '{option}'"

/-- The metatable of a value as scripts see it: what it keeps in `__metatable`, or itself. -/
def visibleMetatable (v : Value) : ScriptM Value := do
  match v with
  | .object .. => return .bool false
  | v =>
    match ← metatable? v with
    | none => return .nil
    | some id =>
      match (← getTable id).get (.ofText "__metatable") with
      | .nil => return .table id
      | shown => return shown

/-- Sets the metatable of a table, unless the one it has is protected. -/
def setMetatableCall (c : Call) : ScriptM (Array Value) := do
  let id ← c.tableArg 0
  let new : Option Nat ←
    match c.args[1]? with
    | some (Value.table m) => pure (some m)
    | some Value.nil => pure none
    | _ => c.raiseExpected 1 "nil or table"
  unless (← metamethod (c.arg 0) "__metatable").isNil do
    c.raise "cannot change a protected metatable"
  modifyThe Machine fun m =>
    { m with tables := m.tables.modify id fun t => { t with metatable := new } }
  return one (c.arg 0)

/-- The next step of a walk through a sequence. -/
def ipairsStepCall (c : Call) : ScriptM (Array Value) := do
  let i := Int64.ofInt (← c.integerArg 1) + 1
  let key := Value.number (.integer i)
  match ← c.actor.index (c.arg 0) key none with
  | .nil => return one .nil
  | v => return #[key, v]

/-- The element that follows a key in a table. -/
def nextCall (c : Call) : ScriptM (Array Value) := do
  let id ← c.tableArg 0
  match (← getTable id).next? (c.arg 1) with
  | none => raiseText "invalid key to 'next'"
  | some none => return one .nil
  | some (some (key, value)) => return #[key, value]

/-- What walks through a table. -/
def pairsCall (c : Call) : ScriptM (Array Value) := do
  let v ← c.any 0
  match ← metamethod v "__pairs" with
  | .nil => return #[.builtin (.base .next), v, .nil]
  | handler =>
    let results ← c.call handler #[v]
    return #[results.getD 0 .nil, results.getD 1 .nil, results.getD 2 .nil]

/-- Calls a function and says whether it raised an error. -/
def protectedCallCall (c : Call) : ScriptM (Array Value) := do
  let f ← c.any 0
  tryCatch
    (do return #[.bool true] ++ (← c.call f (c.args.extract 1 c.args.size)))
    (fun e => return #[.bool false, e])

/-- Gives an error to a handler. An error of the handler is given to it again, a bounded number of
times. -/
def handle (c : Call) (handler : Value) : Nat → Value → ScriptM (Array Value)
  | 0, _ => return one (.ofText "error in error handling")
  | n + 1, e => tryCatch (c.call handler #[e]) (handle c handler n)

/-- How often a handler is asked about its own errors. -/
def maxHandlerErrors : Nat := 10

/-- Calls a function, and on an error a handler. -/
def handledCallCall (c : Call) : ScriptM (Array Value) := do
  let f := c.arg 0
  let handler := c.arg 1
  unless handler.isFunction do c.raiseExpected 1 "function"
  tryCatch
    (do return #[.bool true] ++ (← c.call f (c.args.extract 2 c.args.size)))
    (fun e => do
      let results ← handle c handler maxHandlerErrors e
      return #[.bool false, results.getD 0 .nil])

/-- The number of elements of a table, or of bytes of a string. -/
def rawLenCall (c : Call) : ScriptM (Array Value) := do
  match c.arg 0 with
  | .table id => return one (.ofInt (← getTable id).length)
  | .string bytes => return one (.ofInt bytes.size)
  | _ => c.raiseExpected 0 "table or string"

/-- The number of the remaining arguments, or those from a number on. -/
def selectCall (c : Call) : ScriptM (Array Value) := do
  let count : Int := c.args.size
  match c.arg 0 with
  | .string ⟨#[35]⟩ => return one (.ofInt (count - 1))
  | _ =>
    let n ← c.integerArg 0
    let n := if n < 0 then count + n else min n count
    c.require (1 ≤ n) 0 "index out of range"
    return c.args.extract n.toNat c.args.size

/-- The value of a digit in bases up to 36. -/
def digitInBase? (base : Nat) (ch : Char) : Option Nat :=
  let value :=
    if Text.isDigit ch then some (Text.digitValue ch)
    else if decide ('a' ≤ ch) && decide (ch ≤ 'z') then some (ch.toNat - 'a'.toNat + 10)
    else if decide ('A' ≤ ch) && decide (ch ≤ 'Z') then some (ch.toNat - 'A'.toNat + 10)
    else none
  value.filter (· < base)

/-- The integer that a text is in a base. -/
def integerInBase? (base : Nat) (cs : List Char) : Option Number := do
  let trimmed := (((cs.dropWhile Number.isSpace).reverse).dropWhile Number.isSpace).reverse
  let (negative, figures) :=
    match trimmed with
    | '-' :: rest => (true, rest)
    | rest => (false, rest)
  if figures.isEmpty then none
  let n ← figures.foldlM
    (fun n ch => (digitInBase? base ch).map fun d => (base : Int) * n + d) (0 : Int)
  return Number.ofInt (if negative then -n else n)

/-- Reads a number. -/
def toNumberCall (c : Call) : ScriptM (Array Value) := do
  let shown : Option Number → Array Value
    | some n => one (.number n)
    | none => one .nil
  if (c.arg 1).isNil then
    match (c.arg 0).toNumber? with
    | some n => return one (.number n)
    | none =>
      discard (c.any 0)
      return one .nil
  else
    let base ← c.integerArg 1
    match c.arg 0 with
    | .string bytes =>
      c.require (2 ≤ base ∧ base ≤ 36) 1 "base out of range"
      return shown (integerInBase? base.toNat (Bytes.toChars bytes))
    | _ => c.raiseExpected 0 "string"

/-- Reads the pieces that a function yields, up to an empty one or `nil`. -/
def readPieces (c : Call) (f : Value) : Nat → ByteArray → ScriptM ByteArray
  | 0, source => return source
  | n + 1, source => do
    match (← c.call f #[]).getD 0 .nil with
    | .nil => return source
    | v =>
      match v.toBytes? with
      | some piece =>
        if piece.size = 0 then return source
        else
          allocate piece.size
          readPieces c f n (source ++ piece)
      | none => raiseText "reader function must return a string"

/-- The greatest number of pieces that a source text is read in. -/
def maxPieces : Nat := 10000000

/-- Makes a function of a source text. -/
def loadSource (c : Call) (name source mode : ByteArray) : ScriptM (Array Value) := do
  let shown := chunkName name
  let refuse (why : String) : ScriptM (Array Value) := return #[.nil, .ofText why]
  let mode := Utf8.decodeLossy mode
  if source.toList.head? = some 27 then
    refuse s!"attempt to load a binary chunk (mode is '{mode}')"
  else if !mode.toList.contains 't' then
    refuse s!"attempt to load a text chunk (mode is '{mode}')"
  else
    match Program.parse? shown source with
    | none => refuse (shown ++ ": syntax error")
    | some program =>
      let environment := if 4 ≤ c.args.size then c.arg 3 else .table Machine.globals
      let box ← newBox environment
      allocate source.size
      return one (.closure (← newId) { program, number := 0, upvalues := #[box] })

/-- Loads a source text, or one that a function yields piece by piece. -/
def loadCall (c : Call) : ScriptM (Array Value) := do
  let mode ← c.optional 2 "bt".toUTF8 c.bytesArg
  match (c.arg 0).toBytes? with
  | some source =>
    let name ← c.optional 1 source c.bytesArg
    loadSource c name source mode
  | none =>
    let name ← c.optional 1 "=(load)".toUTF8 c.bytesArg
    unless (c.arg 0).isFunction do c.raiseExpected 0 "function"
    tryCatch
      (do loadSource c name (← readPieces c (c.arg 0) maxPieces ByteArray.empty) mode)
      (fun e => return #[.nil, e])

/-- Runs a basic function. -/
def run (f : BaseFunction) (c : Call) : ScriptM (Array Value) := do
  match f with
  | assert => assertTrue c
  | collectGarbage => collectGarbageCall c
  | error => raiseAt c (c.arg 0) (← c.integerOr 1 1)
  | getMetatable => return one (← visibleMetatable (← c.any 0))
  | ipairs => return #[.builtin (.base .ipairsStep), ← c.any 0, .ofInt 0]
  | ipairsStep => ipairsStepCall c
  | load => loadCall c
  | next => nextCall c
  | pairs => pairsCall c
  | protectedCall => protectedCallCall c
  | rawEqual => return one (.bool ((← c.any 0).rawEquals (← c.any 1)))
  | rawGet =>
    let id ← c.tableArg 0
    return one ((← getTable id).get (← c.any 1))
  | rawLen => rawLenCall c
  | rawSet =>
    let id ← c.tableArg 0
    let key ← c.any 1
    c.actor.setRaw id key (← c.any 2)
    return one (c.arg 0)
  | select => selectCall c
  | setMetatable => setMetatableCall c
  | toNumber => toNumberCall c
  | toString => return one (.string (← c.textOf (← c.any 0)))
  | type => return one (.ofText (← c.any 0).typeName)
  | warn =>
    discard (c.bytesArg 0)
    return #[]
  | handledCall => handledCallCall c

end BaseFunction

end LedgerReports.Script
