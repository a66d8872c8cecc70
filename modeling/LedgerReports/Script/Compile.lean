import LedgerReports.Script.Chunk
import LedgerReports.Script.Code

/-!
# From trees to code

`Program.ofChunk` turns each function of a chunk into instructions. Targets of jumps are labels at
first, which are numbered as they are needed; when the function is complete each is replaced by the
address where it was placed.

A block knows how many values are to be closed in it (`depth`). A jump out of blocks first closes
what lies above the depth of its target.
-/

namespace LedgerReports.Script

namespace Compile

/-- Where a jump goes. -/
structure Target where
  /-- The number of the label. -/
  label : Nat
  /-- How many values are to be closed there. -/
  depth : Nat

/-- What surrounds a statement. -/
structure Scope where
  /-- The slots that live in boxes. -/
  captured : List Nat
  /-- Whether the function takes additional arguments. -/
  variadic : Bool
  /-- The visible labels. -/
  labels : List (String × Target) := []
  /-- Where a loop is left for. -/
  exit : Option Target := none
  /-- How many values are to be closed. -/
  depth : Nat := 0

/-- Code under construction. -/
structure Draft where
  /-- The instructions so far. -/
  code : Array Instr := #[]
  /-- Their lines. -/
  lines : Array Nat := #[]
  /-- The addresses of the labels so far. -/
  labels : Array Nat := #[]

/-- A step in the construction of code. -/
abbrev CodeM := StateM Draft

/-- Adds an instruction. -/
def emit (line : Nat) (i : Instr) : CodeM Unit :=
  modify fun d => { d with code := d.code.push i, lines := d.lines.push line }

/-- Makes a label. -/
def newLabel : CodeM Nat := do
  let d ← get
  set { d with labels := d.labels.push 0 }
  return d.labels.size

/-- Places a label here. -/
def place (label : Nat) : CodeM Unit :=
  modify fun d => { d with labels := d.labels.setIfInBounds label d.code.size }

/-- Reads a local variable. -/
def getSlot (scope : Scope) (slot : Nat) : Instr :=
  if scope.captured.contains slot then .getBox slot else .getLocal slot

/-- Assigns to a local variable. -/
def setSlot (scope : Scope) (slot : Nat) : Instr :=
  if scope.captured.contains slot then .setBox slot else .setLocal slot

/-- Gives a new local variable its first value. -/
def initSlot (scope : Scope) (slot : Nat) : Instr :=
  if scope.captured.contains slot then .newBox slot else .setLocal slot

/-- The text of a constant string. -/
def constantText? : Expr → Option String
  | .literal (.string bytes) =>
    some (String.ofList (Bytes.toChars bytes))
  | _ => none

/-- Whether an expression is the table of global variables. -/
def isEnvironment : Expr → Bool
  | .local _ name | .upvalue _ name => name == "_ENV"
  | _ => false

/-- Whether an integer key is small enough to stand in an instruction. -/
def isSmallKey : Expr → Bool
  | .literal (.number (.integer n)) => decide (0 ≤ n.toInt) && decide (n.toInt ≤ 255)
  | _ => false

/-- Where the value of an expression comes from, as far as errors tell. -/
def origin : Expr → Option Origin
  | .local _ name => some ⟨"local", name⟩
  | .upvalue _ name => some ⟨"upvalue", name⟩
  | .index table key _ =>
    let name := (constantText? key).getD (if isSmallKey key then "integer index" else "?")
    some ⟨if isEnvironment table && (constantText? key).isSome then "global" else "field", name⟩
  | .methodCall .. | .call .. => none
  | .literal (.string bytes) => (constantText? (.literal (.string bytes))).map (⟨"constant", ·⟩)
  | _ => none

/-- Whether an expression can have any number of values. -/
def isMulti : Expr → Bool
  | .call .. | .methodCall .. | .varargs => true
  | _ => false

/-- Whether evaluating an expression can call a function. -/
def calls : Expr → Bool
  | .literal _ | .varargs | .local .. | .upvalue .. | .function .. => false
  | .paren e => calls e
  | .logic _ a b _ => calls a || calls b
  | .index .. | .call .. | .methodCall .. | .unary .. | .binary .. | .table .. => true

/-- The line on which an expression ends, as far as the expression itself tells. -/
def lineOf (default : Nat) : Expr → Nat
  | .index _ _ line | .call _ _ line | .methodCall _ _ _ line | .function _ line
  | .unary _ _ line | .binary _ _ _ line | .logic _ _ _ line | .table _ line => line
  | _ => default

/-- Counts the fields of a new table that are elements of its sequence. -/
def countItems (fields : List Field) : Nat :=
  fields.countP fun
    | .item _ => true
    | .pair .. => false

mutual

/-- Code for an expression with one value. -/
def expr (scope : Scope) (line : Nat) : Expr → CodeM Unit
  | .literal value => emit line (.literal value)
  | .varargs => emit line (.varargs (.exactly 1))
  | .local slot _ => emit line (getSlot scope slot)
  | .upvalue index _ => emit line (.getUpvalue index)
  | .index table key at' => do
    expr scope at' table
    match key with
    | .literal value => emit at' (.field value (origin table))
    | key =>
      expr scope at' key
      emit at' (.index (origin table))
  | .call function args at' => do
    expr scope at' function
    let (count, multi) ← exprList scope at' args
    emit at' (.call count multi (.exactly 1) (origin function))
  | .methodCall object name args at' => do
    expr scope at' object
    emit at' (.method name.toUTF8 (origin object))
    let (count, multi) ← exprList scope at' args
    emit at' (.call (count + 1) multi (.exactly 1) (some ⟨"method", name⟩))
  | .function number at' => emit at' (.closure number)
  | .unary op operand at' => do
    expr scope at' operand
    emit at' (.unary op (origin operand))
  | .binary op left right at' => do
    -- a local variable is read after the second operand has been evaluated
    match left, op with
    | .local slot name, .arith _ | .local slot name, .compare _ =>
      if calls right then
        expr scope at' right
        emit at' (getSlot scope slot)
        emit at' .swap
      else
        expr scope at' (.local slot name)
        expr scope at' right
    | left, _ =>
      expr scope at' left
      expr scope at' right
    match op with
    | .arith op => emit at' (.arith op (origin left) (origin right))
    | .compare op => emit at' (.compare op)
    | .concat => emit at' (.concat (origin left) (origin right))
  | .logic op left right at' => do
    let done ← newLabel
    expr scope at' left
    emit at' (.jumpKeeping (op == .or) done)
    expr scope at' right
    place done
  | .table fields at' => do
    let items := countItems fields
    let last :=
      match fields.getLast? with
      | some (.item e) => isMulti e
      | _ => false
    emit at' (.newTable (if last then items - 1 else items) (fields.length - items))
    tableFields scope at' 1 fields
  | .paren inner => expr scope line inner

/-- Code for an expression with all its values, which are pending then. -/
def multiExpr (scope : Scope) (line : Nat) (want : Want) : Expr → CodeM Unit
  | .varargs => emit line (.varargs want)
  | .call function args at' => do
    expr scope at' function
    let (count, multi) ← exprList scope at' args
    emit at' (.call count multi want (origin function))
  | .methodCall object name args at' => do
    expr scope at' object
    emit at' (.method name.toUTF8 (origin object))
    let (count, multi) ← exprList scope at' args
    emit at' (.call (count + 1) multi want (some ⟨"method", name⟩))
  | _ => return ()

/-- Code for a list of expressions: how many values are on the stack, and whether more are
pending. -/
def exprList (scope : Scope) (line : Nat) : List Expr → CodeM (Nat × Bool)
  | [] => return (0, false)
  | e :: rest => do
    if rest.isEmpty && isMulti e then
      multiExpr scope line .all e
      return (0, true)
    else
      expr scope line e
      let (count, multi) ← exprList scope line rest
      return (count + 1, multi)

/-- Code for the fields of a new table, the next element being number `next`. -/
def tableFields (scope : Scope) (line next : Nat) : List Field → CodeM Unit
  | [] => return ()
  | .item e :: rest => do
    if rest.isEmpty && isMulti e then
      multiExpr scope line .all e
      emit line (.setItems next 0 true)
    else
      expr scope line e
      emit line (.setItems next 1 false)
      tableFields scope line (next + 1) rest
  | .pair key value at' :: rest => do
    expr scope at' key
    expr scope at' value
    emit at' .setPair
    tableFields scope line next rest

end

/-- Code for a list of expressions with exactly `count` values. -/
def exprsExactly (scope : Scope) (line : Nat) : (count : Nat) → List Expr → CodeM Unit
  | count, [] => (List.range count).forM fun _ => emit line (.literal .nil)
  | count, e :: rest => do
    if rest.isEmpty && isMulti e then
      multiExpr scope line (.exactly count) e
    else
      match count with
      | 0 =>
        -- evaluated for the effect
        expr scope line e
        emit line (.drop 1)
        exprsExactly scope line 0 rest
      | count + 1 =>
        expr scope line e
        exprsExactly scope line count rest

/-- Code that brings table and key of a target onto the stack. -/
def targetParts (scope : Scope) (line : Nat) : Expr → CodeM Unit
  | .index table key at' => do
    expr scope at' table
    expr scope at' key
  | _ => do
    emit line (.literal .nil)
    emit line (.literal .nil)

/-- Code that takes a value and assigns it to a target, whose parts have `above` values on top of
them. -/
def store (scope : Scope) (line above : Nat) : Expr → CodeM Unit
  | .local slot _ => emit line (setSlot scope slot)
  | .upvalue index _ => emit line (.setUpvalue index)
  | .index table _ _ => emit line (.setIndex above (origin table))
  | _ => emit line (.drop 1)

/-- Code that assigns the values on the stack to the targets, the last one first. -/
def storeAll (scope : Scope) (line : Nat) (targets : List Expr) : CodeM Unit :=
  let total := targets.length
  (targets.zipIdx.reverse).forM fun (target, i) =>
    -- above the parts of target `i` lie those of the later ones and the earlier values
    store scope line (2 * (total - 1 - i) + i) target

/-- Code that gives local variables their first values, which are on the stack. -/
def initAll (scope : Scope) (line : Nat) (slots : List Nat) : CodeM Unit :=
  slots.reverse.forM fun slot => emit line (initSlot scope slot)

/-- Code that leaves for a target. -/
def leaveTo (scope : Scope) (line : Nat) (target : Target) : CodeM Unit := do
  if target.depth < scope.depth then emit line (.closeTo target.depth)
  emit line (.jump target.label)

/-- The number of values to be closed that a statement adds to its block. -/
def addedDepth : Stmt → Nat
  | .local slots _ _ => slots.countP fun (_, _, kind) => kind == .closing
  | _ => 0

/-- The labels of a block with their depths. -/
def blockLabels (depth : Nat) : List Stmt → List (String × Nat)
  | [] => []
  | s :: rest =>
    let here :=
      match s with
      | .labels names => names.map fun n => (n, depth)
      | _ => []
    here ++ blockLabels (depth + addedDepth s) rest

/-- The scope within a block, with its labels. -/
def enterBlock (scope : Scope) (body : List Stmt) : CodeM Scope := do
  let labels ← (blockLabels scope.depth body).mapM fun (name, depth) => do
    return (name, ({ label := ← newLabel, depth } : Target))
  return { scope with labels := labels ++ scope.labels }

/-- The depth after the statements of a block. -/
def depthAfter (depth : Nat) (body : List Stmt) : Nat :=
  body.foldl (fun d s => d + addedDepth s) depth

mutual

/-- Code for a statement. -/
def stmt (scope : Scope) : Stmt → CodeM Unit
  | .local slots values line => do
    exprsExactly scope line slots.length values
    initAll scope line (slots.map (·.1))
    slots.forM fun (slot, name, kind) => do
      if kind == .closing then
        emit line (getSlot scope slot)
        emit line (.markClosing name)
  | .localFunction slot number line => do
    if scope.captured.contains slot then
      emit line (.literal .nil)
      emit line (.newBox slot)
    emit line (.closure number)
    emit line (setSlot scope slot)
  | .assign [target] values line => do
    match target with
    | .index .. =>
      targetParts scope line target
      exprsExactly scope line 1 values
      store scope line 0 target
      emit line (.drop 2)
    | target =>
      exprsExactly scope line 1 values
      store scope line 0 target
  | .assign targets values line => do
    targets.forM (targetParts scope line)
    exprsExactly scope line targets.length values
    storeAll scope line targets
    emit line (.drop (2 * targets.length))
  | .call function line => multiExpr scope line (.exactly 0) function
  | .block body => do
    let inner ← enterBlock scope body
    stmts inner body
    if scope.depth < depthAfter scope.depth body then emit 0 (.closeTo scope.depth)
  | .while condition body line => do
    let top ← newLabel
    let exit ← newLabel
    place top
    expr scope line condition
    emit line (.jumpIfFalse exit)
    let inner ← enterBlock { scope with exit := some ⟨exit, scope.depth⟩ } body
    stmts inner body
    if scope.depth < depthAfter scope.depth body then emit line (.closeTo scope.depth)
    emit line (.jump top)
    place exit
  | .repeat body condition line => do
    let top ← newLabel
    let exit ← newLabel
    let again ← newLabel
    place top
    let inner ← enterBlock { scope with exit := some ⟨exit, scope.depth⟩ } body
    stmts inner body
    let depth := depthAfter scope.depth body
    expr { inner with depth } line condition
    emit line (.jumpIfFalse again)
    if scope.depth < depth then emit line (.closeTo scope.depth)
    emit line (.jump exit)
    place again
    if scope.depth < depth then emit line (.closeTo scope.depth)
    emit line (.jump top)
    place exit
  | .if condition yes no line => do
    let otherwise ← newLabel
    let done ← newLabel
    expr scope line condition
    emit line (.jumpIfFalse otherwise)
    let inner ← enterBlock scope yes
    stmts inner yes
    if scope.depth < depthAfter scope.depth yes then emit line (.closeTo scope.depth)
    emit line (.jump done)
    place otherwise
    let inner ← enterBlock scope no
    stmts inner no
    if scope.depth < depthAfter scope.depth no then emit line (.closeTo scope.depth)
    place done
  | .numericFor slot hidden first limit step body line => do
    let top ← newLabel
    let exit ← newLabel
    expr scope line first
    expr scope line limit
    match step with
    | some step => expr scope line step
    | none => emit line (.literal (.number (.integer 1)))
    emit line (.beginFor hidden exit)
    place top
    emit line (initSlot scope slot)
    let inner ← enterBlock { scope with exit := some ⟨exit, scope.depth⟩ } body
    stmts inner body
    if scope.depth < depthAfter scope.depth body then emit line (.closeTo scope.depth)
    emit line (.nextFor hidden top)
    place exit
  | .genericFor slots hidden values body line => do
    let top ← newLabel
    let exit ← newLabel
    exprsExactly scope line 4 values
    emit line (.markClosing "(for state)")
    initAll scope line [hidden, hidden + 1, hidden + 2]
    let depth := scope.depth + 1
    place top
    emit line (.callIterator hidden slots.length)
    emit line (.testIterator hidden slots.length exit)
    initAll scope line slots
    let inner ← enterBlock { scope with exit := some ⟨exit, depth⟩, depth } body
    stmts inner body
    if depth < depthAfter depth body then emit line (.closeTo depth)
    emit line (.jump top)
    place exit
    emit line (.closeTo scope.depth)
  | .return [.call function args at'] _ => do
    if scope.depth = 0 then
      expr scope at' function
      let (count, multi) ← exprList scope at' args
      emit at' (.tailCall count multi (origin function))
    else
      multiExpr scope at' .all (.call function args at')
      emit at' (.return 0 true)
  | .return [.methodCall object name args at'] _ => do
    if scope.depth = 0 then
      expr scope at' object
      emit at' (.method name.toUTF8 (origin object))
      let (count, multi) ← exprList scope at' args
      emit at' (.tailCall (count + 1) multi (some ⟨"method", name⟩))
    else
      multiExpr scope at' .all (.methodCall object name args at')
      emit at' (.return 0 true)
  | .return values line => do
    let (count, multi) ← exprList scope line values
    emit line (.return count multi)
  | .break line => do
    match scope.exit with
    | some target => leaveTo scope line target
    | none => return ()
  | .goto label line => do
    match scope.labels.lookup label with
    | some target => leaveTo scope line target
    | none => return ()
  | .labels names =>
    names.forM fun name => do
      match scope.labels.lookup name with
      | some target => place target.label
      | none => return ()

/-- Code for the statements of a block. -/
def stmts (scope : Scope) : List Stmt → CodeM Unit
  | [] => return ()
  | s :: rest => do
    stmt scope s
    stmts { scope with depth := scope.depth + addedDepth s } rest

end

/-- Code for a function: boxes for the parameters that need them, the body, and a return at the
end. -/
def function (f : FunctionBody) : Prototype :=
  let build : CodeM Unit := do
    let scope : Scope := { captured := f.captured, variadic := f.variadic }
    (f.parameters.filter f.captured.contains).forM fun slot => do
      emit 0 (.getLocal slot)
      emit 0 (.newBox slot)
    let inner ← enterBlock scope f.body
    stmts inner f.body
    emit f.lastLine (.return 0 false)
  let draft := (build.run {}).2
  { parameters := f.parameters
    variadic := f.variadic
    slots := f.slots
    boxed := !f.captured.isEmpty
    upvalues := f.upvalues
    code := draft.code.map (Instr.mapTargets fun label => draft.labels.getD label 0)
    lines := draft.lines }

end Compile

/-- The code of a chunk. -/
def Program.ofChunk (name : String) (chunk : Chunk) : Program :=
  ⟨name, chunk.functions.map Compile.function⟩

/-- The program that a source text is, if it is one. -/
def Program.parse? (name : String) (source : ByteArray) : Option Program :=
  (Chunk.parse? source).map (Program.ofChunk name)

end LedgerReports.Script
