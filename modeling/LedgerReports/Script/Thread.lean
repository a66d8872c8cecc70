import LedgerReports.Script.Operation

/-!
# Threads

A `Thread` is what an activation of the machine works on: the function that is being run and those
that wait for it. `Thread.step` executes one instruction. Built-in functions are called through
`Step.run`, everything else that calls a function on the way (a metatable's function for instance)
through `Step.call`, which begins an activation of its own.

A loop over numbers counts its turns in advance if it goes over integers.
-/

namespace LedgerReports.Script

/-- What is being run in an activation. -/
structure Thread where
  /-- The function that is being run. -/
  frame : Frame
  /-- The functions that wait for it, the innermost first. -/
  callers : List Frame := []
  /-- The number of slots of all of them. -/
  slots : Nat := 0

/-- What comes of an instruction. -/
inductive Next where
  /-- The activation goes on. -/
  | running (t : Thread)
  /-- The activation is over. -/
  | finished (values : Array Value)

/-- What instructions need to know about their surroundings. -/
structure Surroundings where
  /-- What waits for the activation. -/
  below : Stack
  /-- Calls a value, for which a stack waits. -/
  callWith : Stack → Value → Array Value → ScriptM (Array Value)
  /-- Runs a built-in function. -/
  runBuiltin : Call → ScriptM (Array Value)

/-! ### Frames -/

namespace Frame

/-- Puts a value on the stack. -/
@[inline] def push (f : Frame) (v : Value) : Frame := { f with stack := f.stack.push v }

/-- The value at a distance from the top of the stack. -/
@[inline] def peek (f : Frame) (depth : Nat) : Value := f.stack.getD (f.stack.size - 1 - depth) .nil

/-- Takes values off the stack. -/
@[inline] def drop (f : Frame) (count : Nat) : Frame :=
  { f with stack := f.stack.shrink (f.stack.size - count) }

/-- Takes one value off the stack. -/
@[inline] def pop (f : Frame) : Frame := { f with stack := f.stack.pop }

/-- Takes one value off the stack and puts another one there. -/
@[inline] def replaceTop (f : Frame) (v : Value) : Frame := { f with stack := f.stack.pop.push v }

/-- Takes two values off the stack and puts one there. -/
@[inline] def replaceTwo (f : Frame) (v : Value) : Frame := { f with stack := f.stack.pop.pop.push v }

/-- Sets a slot to the value on top of the stack, which is taken off. -/
@[inline] def popInto (f : Frame) (slot : Nat) : Frame :=
  let v := f.peek 0
  { f with stack := f.stack.pop, locals := f.locals.setIfInBounds slot v }

/-- Sets a slot. -/
@[inline] def setLocal (f : Frame) (slot : Nat) (v : Value) : Frame :=
  { f with locals := f.locals.setIfInBounds slot v }

/-- The value of a slot. -/
@[inline] def slot (f : Frame) (number : Nat) : Value := f.locals.getD number .nil

/-- Goes on elsewhere. -/
@[inline] def jump (f : Frame) (target : Nat) : Frame := { f with pc := target }

/-- The top `count` values of the stack, and the pending ones too if `multi` is set. -/
def operands (f : Frame) (count : Nat) (multi : Bool) : Array Value :=
  let taken := f.stack.extract (f.stack.size - count) f.stack.size
  if multi then taken ++ f.pending else taken

/-- Takes up values as they are wanted. -/
def deliver (f : Frame) (want : Want) (values : Array Value) : Frame :=
  match want with
  | .all => { f with pending := values }
  | .exactly 0 => f
  | .exactly 1 => f.push (values.getD 0 .nil)
  | .exactly n =>
    let missing := Array.replicate (n - values.size) Value.nil
    { f with stack := f.stack ++ values.extract 0 n ++ missing }

/-- The frame of a closure that is called. -/
def ofCall (closure : Closure) (args : Array Value) (want : Want) (base : Nat) : Frame :=
  let function := closure.function
  let count := function.parameters.length
  let locals := Array.replicate function.slots Value.nil
  let (locals, _) := function.parameters.foldl
    (fun (locals, i) slot => (locals.setIfInBounds slot (args.getD i .nil), i + 1)) (locals, 0)
  { closure, function, locals, want, base
    boxes := if function.boxed then Array.replicate function.slots 0 else #[]
    varargs := if function.variadic then args.extract count args.size else #[] }

end Frame

/-! ### Loops over numbers -/

/-- A loop over numbers as it begins: the first number, the limit or the number of further turns, and
the step. -/
structure NumericLoop where
  /-- The first number. -/
  first : Number
  /-- The limit of a loop over floats; the number of further turns of one over integers. -/
  bound : Number
  /-- The step. -/
  step : Number

namespace NumericLoop

/-- A natural number of 64 bits as an integer with the same bits. -/
def ofTurns (n : Nat) : Number := .integer (UInt64.ofNat n).toInt64

/-- The integer that bounds a loop over integers, a float being rounded toward the first number;
nothing if the loop has no turn because of it. -/
def integerLimit? (limit : Number) (up : Bool) : Option Int :=
  match limit with
  | .integer n => some n.toInt
  | .nan _ => if up then none else some (-2 ^ 63)
  | .float x =>
    match Binary64.toInt? (if up then x.floor else x.ceil) with
    | some n =>
      if Number.fits n then some n
      else if 0 < n then (if up then some (2 ^ 63 - 1) else none)
      else (if up then none else some (-2 ^ 63))
    | none =>
      if 0.0 < x then (if up then some (2 ^ 63 - 1) else none)
      else (if up then none else some (-2 ^ 63))

/-- The loop from one integer to a limit, if it has a turn. -/
def ofIntegers? (first step : Int64) (limit : Number) : Option NumericLoop := do
  let up := decide (0 < step.toInt)
  let last ← integerLimit? limit up
  let distance := if up then last - first.toInt else first.toInt - last
  if distance < 0 then none
  else
    let turns := distance.toNat / step.toInt.natAbs
    some ⟨.integer first, ofTurns turns, .integer step⟩

/-- The loop from one float to a limit, if it has a turn. -/
def ofFloats? (first limit step : Number) : Option NumericLoop :=
  let before := if 0.0 < step.toFloat then limit.toFloat < first.toFloat
    else first.toFloat < limit.toFloat
  if before then none
  else some ⟨.ofFloat first.toFloat, .ofFloat limit.toFloat, .ofFloat step.toFloat⟩

/-- The number after the current one and the bound that is left, if the loop has another turn. -/
def next? (current bound step : Number) : Option (Number × Number) :=
  match current, bound, step with
  | .integer i, .integer turns, .integer s =>
    if turns == 0 then none else some (.integer (i + s), .integer (turns - 1))
  | i, limit, s =>
    let x := i.toFloat + s.toFloat
    let inside := if 0.0 < s.toFloat then x ≤ limit.toFloat else limit.toFloat ≤ x
    if inside then some (.ofFloat x, limit) else none

end NumericLoop

/-! ### Steps -/

namespace Thread

variable (s : Surroundings)

/-- What waits for a function that the thread calls. -/
def stack (t : Thread) : Stack := .frames (t.frame :: t.callers) s.below

/-- The thread as the one who performs an operation. -/
def actor (t : Thread) : Actor := ⟨fun f args => s.callWith (t.stack s) f args, some t.frame⟩

/-- The thread with another frame. -/
@[inline] def withFrame (t : Thread) (f : Frame → Frame) : Thread :=
  match t with
  | ⟨frame, callers, slots⟩ => ⟨f frame, callers, slots⟩

/-- The thread goes on. -/
@[inline] def goOn (t : Thread) : ScriptM Next := return .running t

/-! The operations on the frame of a thread. -/

/-- Puts a value on the stack. -/
def push (t : Thread) (v : Value) : Thread := t.withFrame (·.push v)

/-- Takes a value off the stack. -/
def pop (t : Thread) : Thread := t.withFrame Frame.pop

/-- Takes values off the stack. -/
def drop (t : Thread) (count : Nat) : Thread := t.withFrame (·.drop count)

/-- Takes a value off the stack and puts another one there. -/
def replaceTop (t : Thread) (v : Value) : Thread := t.withFrame (·.replaceTop v)

/-- Takes two values off the stack and puts one there. -/
def replaceTwo (t : Thread) (v : Value) : Thread := t.withFrame (·.replaceTwo v)

/-- Sets a slot to the value on top of the stack, which is taken off. -/
def popInto (t : Thread) (slot : Nat) : Thread := t.withFrame (·.popInto slot)

/-- Sets a slot. -/
def setLocal (t : Thread) (slot : Nat) (v : Value) : Thread := t.withFrame (·.setLocal slot v)

/-- Puts a box into a slot, for the value on top of the stack, which is taken off. -/
def popBox (t : Thread) (slot box : Nat) : Thread :=
  t.withFrame fun f => { f.pop with boxes := f.boxes.setIfInBounds slot box }

/-- Exchanges the two values on top of the stack. -/
def swap (t : Thread) : Thread := t.withFrame fun f =>
  let a := f.peek 1
  let b := f.peek 0
  { f with stack := (f.stack.pop.pop.push b).push a }

/-- Goes on elsewhere. -/
def jump (t : Thread) (target : Nat) : Thread := t.withFrame (·.jump target)

/-- Goes on to the next instruction. -/
def advance (t : Thread) : Thread := t.withFrame fun f => { f with pc := f.pc + 1 }

/-- Takes up values as they are wanted. -/
def deliver (t : Thread) (want : Want) (values : Array Value) : Thread :=
  t.withFrame (·.deliver want values)

/-- The value at a distance from the top of the stack. -/
def peek (t : Thread) (depth : Nat) : Value := t.frame.peek depth

/-- The value of a slot. -/
def slot (t : Thread) (number : Nat) : Value := t.frame.slot number

/-- The additional arguments. -/
def varargs (t : Thread) : Array Value := t.frame.varargs

/-- The number of the box of a slot. -/
def boxNumber (t : Thread) (slot : Nat) : Nat := t.frame.boxes.getD slot 0

/-- The number of the box of an upvalue. -/
def upvalueNumber (t : Thread) (index : Nat) : Nat := t.frame.closure.upvalues.getD index 0

/-- The top `count` values of the stack, and the pending ones too if `multi` is set. -/
def operands (t : Thread) (count : Nat) (multi : Bool) : Array Value := t.frame.operands count multi

/-- The next instruction. A function ends where its instructions end. -/
def instruction (t : Thread) : Instr := t.frame.function.code.getD t.frame.pc (.return 0 false)

/-- The most slots that the functions of an activation may have together. -/
def maxSlots : Nat := 1000000

/-- The number of slots that are counted for a function. -/
def weight (f : Frame) : Nat := f.function.slots + 3

/-- Closes values, the last one first, until `height` are left; `count` is how many there are
above. -/
def closeTo (t : Thread) (height : Nat) : (count : Nat) → ScriptM Unit
  | 0 => return ()
  | count + 1 => do
    let v := (← getThe Machine).closing.back?.getD .nil
    modifyThe Machine fun m => { m with closing := m.closing.pop }
    if v.truthy then
      match ← metamethod v "__close" with
      | .nil => (t.actor s).raiseType "call" v (some ⟨"metamethod", "close"⟩)
      | handler => discard (s.callWith (t.stack s) handler #[v, .nil])
    closeTo t height count

/-- Closes all values above a height. -/
def closeAbove (t : Thread) (height : Nat) : ScriptM Unit := do
  let size := (← getThe Machine).closing.size
  if height < size then closeTo s t height (size - height)

/-- Enters a closure. -/
def enter (t : Thread) (closure : Closure) (args : Array Value) (want : Want) : ScriptM Next := do
  let base := (← getThe Machine).closing.size
  let callee := Frame.ofCall closure args want base
  let slots := t.slots + weight callee
  if maxSlots < slots then (t.actor s).raise "stack overflow"
  allocate (16 * weight callee)
  return .running { frame := callee, callers := t.frame :: t.callers, slots }

/-- Gives the results of a function that is done to the one that waits for it. -/
def leave (t : Thread) (values : Array Value) : Next :=
  match t.callers with
  | [] => .finished values
  | caller :: rest =>
    .running
      { frame := caller.deliver t.frame.want values
        callers := rest
        slots := t.slots - weight t.frame }

/-- Calls a function with its arguments, which have been taken off the stack. -/
def call (t : Thread) (f : Value) (args : Array Value) (want : Want) (origin : Option Origin) :
    ScriptM Next := do
  checkDeadline
  match f with
  | .closure _ closure => t.enter s closure args want
  | .builtin b =>
    let c : Call :=
      { function := b, args, stack := t.stack s, origin, callWith := s.callWith }
    let values ← s.runBuiltin c
    return .running (t.deliver want values)
  | f =>
    let (f, args) ← (t.actor s).callable f args origin
    match f with
    | .closure _ closure => t.enter s closure args want
    | f =>
      let values ← s.callWith (t.stack s) f args
      return .running (t.deliver want values)

/-- Calls a function in the place of the one that is being run. -/
def tailCall (t : Thread) (f : Value) (args : Array Value) (origin : Option Origin) :
    ScriptM Next := do
  checkDeadline
  match f with
  | .closure _ closure =>
    let callee := Frame.ofCall closure args t.frame.want t.frame.base
    let slots := t.slots - weight t.frame + weight callee
    return .running { frame := callee, callers := t.callers, slots }
  | .builtin b =>
    let c : Call :=
      { function := b, args, stack := t.stack s, origin, callWith := s.callWith }
    return t.leave (← s.runBuiltin c)
  | f =>
    let (f, args) ← (t.actor s).callable f args origin
    return t.leave (← s.callWith (t.stack s) f args)

/-- The element of a table that no metatable has a say in. -/
def plainElement? (v : Value) (key : Value) : ScriptM (Option Value) := do
  match v with
  | .table id =>
    let t ← getTable id
    match t.get key with
    | .nil => return if t.metatable.isNone then some .nil else none
    | found => return some found
  | _ => return none

/-- The element of a value. -/
def element (t : Thread) (v key : Value) (origin : Option Origin) : ScriptM Value := do
  match ← plainElement? v key with
  | some found => return found
  | none => (t.actor s).index v key origin

/-- Sets an element of a value. -/
def setElement (t : Thread) (v key new : Value) (origin : Option Origin) : ScriptM Unit := do
  match v, key with
  | .table id, .string _ | .table id, .number (.integer _) =>
    if (← getTable id).metatable.isNone then putRaw id key new
    else (t.actor s).setIndex v key new origin
  | v, key => (t.actor s).setIndex v key new origin

/-- Applies a comparison to two values that are not both numbers. -/
def comparisonByHandler (t : Thread) (op : CompareOp) (a b : Value) : ScriptM Bool := do
  match op with
  | .eq => (t.actor s).equal a b
  | .ne => return !(← (t.actor s).equal a b)
  | .lt => (t.actor s).less a b
  | .le => (t.actor s).lessOrEqual a b
  | .gt => (t.actor s).less b a
  | .ge => (t.actor s).lessOrEqual b a

/-- Whether an order, if there is one, is as a comparison says. -/
def holds (op : CompareOp) (o : Option Ordering) : Bool :=
  match op, o with
  | .eq, some .eq | .lt, some .lt | .gt, some .gt => true
  | .le, some .lt | .le, some .eq | .ge, some .gt | .ge, some .eq => true
  | .ne, o => o != some .eq
  | _, _ => false

/-- Applies a comparison to two values. -/
def comparison (t : Thread) (op : CompareOp) (a b : Value) : ScriptM Bool :=
  match a, b with
  | .number m, .number n => return holds op (m.compare? n)
  | a, b => t.comparisonByHandler s op a b

/-- Applies an operator with one operand. -/
def unary (t : Thread) (op : UnaryOp) (v : Value) (origin : Option Origin) : ScriptM Value :=
  match op with
  | .neg => (t.actor s).neg v origin
  | .not => return .bool !v.truthy
  | .len => (t.actor s).len v origin
  | .bnot => (t.actor s).bnot v origin

/-- The box of the variable that a closure refers to. -/
def boxOf (t : Thread) : Source → Nat
  | .local slot => t.boxNumber slot
  | .upvalue index => t.upvalueNumber index

/-- Makes a closure of a function of the same program. -/
def makeClosure (t : Thread) (number : Nat) : ScriptM Value := do
  let program := t.frame.closure.program
  let upvalues := (program.function number).upvalues.map fun (_, source) => t.boxOf source
  allocate (40 + 8 * upvalues.size)
  return .closure (← newId) { program, number, upvalues }

/-- The number that a part of a loop is. -/
def loopNumber (t : Thread) (what : String) (v : Value) : ScriptM Number :=
  match v.toNumber? with
  | some n => return n
  | none => do
    (t.actor s).raise s!"bad 'for' {what} (number expected, got {← shownTypeName v})"

/-- The loop that begins with the given numbers, if it has a turn. -/
def numericLoop? (t : Thread) (first limit step : Value) : ScriptM (Option NumericLoop) := do
  match first, step with
  | .number (.integer i), .number (.integer n) =>
    if n == 0 then (t.actor s).raise "'for' step is zero"
    let limit ← t.loopNumber s "limit" limit
    return NumericLoop.ofIntegers? i n limit
  | first, step =>
    let limit ← t.loopNumber s "limit" limit
    let step ← t.loopNumber s "step" step
    let first ← t.loopNumber s "initial value" first
    if step.toFloat == 0.0 then (t.actor s).raise "'for' step is zero"
    return NumericLoop.ofFloats? first limit step

/-- Sets the slots of a loop to its current number, its bound and its step, and puts the number on
the stack. -/
def setLoop (t : Thread) (hidden : Nat) (loop : NumericLoop) : Thread := t.withFrame fun f =>
  let f := (f.setLocal hidden (.number loop.first)).setLocal (hidden + 1) (.number loop.bound)
  (f.setLocal (hidden + 2) (.number loop.step)).push (.number loop.first)

/-- Begins a loop over numbers. -/
def beginFor (t : Thread) (hidden exit : Nat) : ScriptM Next := do
  let loop? ← t.numericLoop? s (t.peek 2) (t.peek 1) (t.peek 0)
  match loop? with
  | none => goOn ((t.drop 3).jump exit)
  | some loop => goOn ((t.drop 3).setLoop hidden loop)

/-- The next turn of the loop in some slots, if there is one. -/
def nextTurn? (t : Thread) (hidden : Nat) : Option NumericLoop :=
  match t.slot hidden, t.slot (hidden + 1), t.slot (hidden + 2) with
  | .number current, .number bound, .number step =>
    (NumericLoop.next? current bound step).map fun (n, bound) => ⟨n, bound, step⟩
  | _, _, _ => none

/-- Goes on with a loop over numbers. -/
def nextFor (t : Thread) (hidden body : Nat) : ScriptM Next :=
  match t.nextTurn? hidden with
  | some loop => goOn ((t.setLoop hidden loop).jump body)
  | none => goOn t

/-- Marks the value on top of the stack as one to be closed. -/
def markClosing (t : Thread) (name : String) : ScriptM Next := do
  let v := t.peek 0
  if v.truthy then
    if (← metamethod v "__close").isNil then
      (t.actor s).raise s!"variable '{name}' got a non-closable value"
  modifyThe Machine fun m => { m with closing := m.closing.push v }
  goOn t.pop

/-- Sets elements of a new table from a number on. -/
def setItems (id : Nat) (first : Nat) (values : Array Value) : ScriptM Unit := do
  if 1 < values.size then
    modifyThe Machine fun m =>
      { m with tables := m.tables.modify id fun t => t.reserveItems (first - 1 + values.size) }
  discard <| values.foldlM (fun i v => do
    putRaw id (.ofInt i) v
    return i + 1) first

/-- Applies an arithmetic or bitwise operator to two values. -/
def arithmetic (t : Thread) (op : ArithOp) (a b : Value) (left right : Option Origin) :
    ScriptM Value :=
  match a, b with
  | .number m, .number n =>
    match Number.arith op m n with
    | .ok r => return .number r
    | .error _ => (t.actor s).arithNumbers op m n left right
  | a, b => (t.actor s).arith op a b left right

/-- Executes an instruction. The number of the next instruction is set already. -/
def execute (t : Thread) : Instr → ScriptM Next
  | .literal value => goOn (t.push (.ofLiteral value))
  | .varargs want =>
    let values := t.varargs
    goOn (t.deliver want values)
  | .getLocal slot =>
    let v := t.slot slot
    goOn (t.push v)
  | .setLocal slot => goOn (t.popInto slot)
  | .newBox slot => do
    let box ← newBox (t.peek 0)
    goOn (t.popBox slot box)
  | .getBox slot => do
    let v ← getBox (t.boxNumber slot)
    goOn (t.push v)
  | .setBox slot => do
    setBox (t.boxNumber slot) (t.peek 0)
    goOn t.pop
  | .getUpvalue index => do
    let v ← getBox (t.upvalueNumber index)
    goOn (t.push v)
  | .setUpvalue index => do
    setBox (t.upvalueNumber index) (t.peek 0)
    goOn t.pop
  | .index origin => do
    let v ← t.element s (t.peek 1) (t.peek 0) origin
    goOn (t.replaceTwo v)
  | .field key origin => do
    let v ← t.element s (t.peek 0) (.ofLiteral key) origin
    goOn (t.replaceTop v)
  | .method name origin => do
    let object := t.peek 0
    let v ← t.element s object (.string name) origin
    goOn ((t.replaceTop v).push object)
  | .setIndex above origin => do
    t.setElement s (t.peek (above + 2)) (t.peek (above + 1)) (t.peek 0) origin
    goOn t.pop
  | .call count multi want origin =>
    let args := t.operands count multi
    let f := t.peek count
    call s (t.drop (count + 1)) f args want origin
  | .tailCall count multi origin =>
    let args := t.operands count multi
    let f := t.peek count
    tailCall s (t.drop (count + 1)) f args origin
  | .return count multi => do
    let values := t.operands count multi
    t.closeAbove s t.frame.base
    return t.leave values
  | .arith op left right => do
    let v ← t.arithmetic s op (t.peek 1) (t.peek 0) left right
    goOn (t.replaceTwo v)
  | .unary op origin => do
    let v ← t.unary s op (t.peek 0) origin
    goOn (t.replaceTop v)
  | .compare op => do
    let b ← t.comparison s op (t.peek 1) (t.peek 0)
    goOn (t.replaceTwo (.bool b))
  | .concat left right => do
    let v ← (t.actor s).concat (t.peek 1) (t.peek 0) left right
    goOn (t.replaceTwo v)
  | .jump target => goOn (t.jump target)
  | .jumpIfFalse target =>
    if (t.peek 0).truthy then goOn t.pop else goOn (t.pop.jump target)
  | .jumpKeeping truth target =>
    if (t.peek 0).truthy == truth then goOn (t.jump target) else goOn t.pop
  | .newTable items pairs => do
    let v ← newTable (Table.withRoom items pairs)
    goOn (t.push v)
  | .setPair => do
    if let .table id := t.peek 2 then (t.actor s).setRaw id (t.peek 1) (t.peek 0)
    goOn (t.drop 2)
  | .setItems first count multi => do
    let values := t.operands count multi
    if let .table id := t.peek count then setItems id first values
    goOn (t.drop count)
  | .closure number => do
    let v ← t.makeClosure number
    goOn (t.push v)
  | .beginFor hidden exit => t.beginFor s hidden exit
  | .nextFor hidden body => t.nextFor hidden body
  | .callIterator hidden count =>
    let f := t.slot hidden
    let args := #[t.slot (hidden + 1), t.slot (hidden + 2)]
    call s t f args (.exactly count) (some ⟨"for iterator", "for iterator"⟩)
  | .testIterator hidden count exit =>
    match t.peek (count - 1) with
    | .nil => goOn ((t.drop count).jump exit)
    | v => goOn (t.setLocal (hidden + 2) v)
  | .markClosing name => t.markClosing s name
  | .closeTo depth => do
    t.closeAbove s (t.frame.base + depth)
    goOn t
  | .drop count => goOn (t.drop count)
  | .swap => goOn t.swap

/-- Executes the next instruction. -/
def step (t : Thread) : ScriptM Next :=
  let i := t.instruction
  execute s t.advance i

end Thread

end LedgerReports.Script
