import LedgerReports.Script.Machine

/-!
# Operations on values

Indexing, arithmetic, comparison and the like. Where a value does not know an operation itself, its
metatable may hold a function for it under the name of the event.

An operation is performed on behalf of an `Actor`, who can call functions and knows the position that
errors are reported at.
-/

namespace LedgerReports.Script

/-- Who performs an operation. -/
structure Actor where
  /-- Calls a value. -/
  call : Value → Array Value → ScriptM (Array Value)
  /-- What is being run, if it is a function of a script. -/
  frame : Option Frame

/-- A built-in function as the one who performs an operation. -/
def Call.actor (c : Call) : Actor := ⟨c.call, none⟩

namespace Actor

/-- Calls a value for its first result. -/
def callForOne (actor : Actor) (f : Value) (args : Array Value) : ScriptM Value :=
  return (← actor.call f args).getD 0 .nil

/-- Raises an error at the position of the actor. -/
def raise {α : Type} (actor : Actor) (text : String) : ScriptM α :=
  raiseText ((actor.frame.map (·.position)).getD "" ++ text)

end Actor

/-- Where a value comes from, as it is added to an error. -/
def originText : Option Origin → String
  | some o => s!" ({o.kind} '{o.name}')"
  | none => ""

/-! ### Metatables -/

/-- The function of the host that an object has for an event. -/
def hostMetamethod (kind : HostKind) (event : String) : Value :=
  let known :=
    match kind, event with
    | _, "__index" => some HostOperator.index
    | .tabulation, "__newindex" => some .newIndex
    | .date, "__sub" | .balance, "__sub" => some .sub
    | .balance, "__add" => some .add
    | .balance, "__unm" => some .neg
    | .date, "__eq" | .balance, "__eq" => some .eq
    | .date, "__lt" | .balance, "__lt" => some .lt
    | .date, "__le" | .balance, "__le" => some .le
    | _, "__tostring" => some .toString
    | _, _ => none
  match known with
  | some op => .builtin (.host (.operator kind op))
  | none => .nil

/-- The metatable of a value that has one. -/
def metatable? (v : Value) : ScriptM (Option Nat) := do
  match v with
  | .table id => return (← getTable id).metatable
  | .string _ => return some Machine.stringMeta
  | _ => return none

/-- What the metatable of a value holds for an event; `nil` if it holds nothing. -/
def metamethod (v : Value) (event : String) : ScriptM Value := do
  match v with
  | .object _ o =>
    match o.kind? with
    | some kind => return hostMetamethod kind event
    | none => return if event == "__tostring" then .builtin (.host .failureText) else .nil
  | v =>
    match ← metatable? v with
    | some id => return (← getTable id).get (.ofText event)
    | none => return .nil

/-- The name of the type of a value in errors: a metatable may give it a name. -/
def shownTypeName (v : Value) : ScriptM String := do
  match v with
  | .object _ o => return (o.kind?.map (·.typeName)).getD "userdata"
  | .table _ =>
    match ← metamethod v "__name" with
    | .string bytes => return Utf8.decodeLossy bytes
    | _ => return v.typeName
  | v => return v.typeName

namespace Actor

variable (actor : Actor)

/-- Raises that an operation cannot be done on a value. -/
def raiseType {α : Type} (operation : String) (v : Value) (origin : Option Origin) : ScriptM α := do
  actor.raise s!"attempt to {operation} a {← shownTypeName v} value{originText origin}"

/-! ### Calling -/

/-- The function that a value stands for when it is called, with the arguments that it then gets. -/
def callable (f : Value) (args : Array Value) (origin : Option Origin) :
    ScriptM (Value × Array Value) := do
  if f.isFunction then return (f, args)
  else
    match ← metamethod f "__call" with
    | .nil => actor.raiseType "call" f origin
    | handler => return (handler, #[f] ++ args)

/-! ### Elements -/

/-- How many metatables an access goes through. -/
def maxChain : Nat := 2000

/-- The element of a value with a key. -/
def index (v key : Value) (origin : Option Origin) : ScriptM Value :=
  go maxChain v origin
where
  /-- Goes through the given number of metatables at most. -/
  go : Nat → Value → Option Origin → ScriptM Value
    | 0, _, _ => actor.raise "'__index' chain too long; possibly a loop"
    | n + 1, v, origin => do
      match v with
      | .table id =>
        let t ← getTable id
        match t.get key with
        | .nil =>
          match t.metatable with
          | none => return .nil
          | some m =>
            match (← getTable m).get (.ofText "__index") with
            | .nil => return .nil
            | handler =>
              if handler.isFunction then actor.callForOne handler #[v, key]
              else go n handler none
        | found => return found
      | v =>
        match ← metamethod v "__index" with
        | .nil => actor.raiseType "index" v origin
        | handler =>
          if handler.isFunction then actor.callForOne handler #[v, key] else go n handler none

/-- Sets an element of a table without asking the metatable. -/
def setRaw (id : Nat) (key value : Value) : ScriptM Unit := do
  match key with
  | .nil => actor.raise "table index is nil"
  | .number (.nan _) => actor.raise "table index is NaN"
  | key => putRaw id key value

/-- Sets the element of a value with a key. -/
def setIndex (v key value : Value) (origin : Option Origin) : ScriptM Unit :=
  go maxChain v origin
where
  /-- Goes through the given number of metatables at most. -/
  go : Nat → Value → Option Origin → ScriptM Unit
    | 0, _, _ => actor.raise "'__newindex' chain too long; possibly a loop"
    | n + 1, v, origin => do
      match v with
      | .table id =>
        match (← getTable id).metatable with
        | none => actor.setRaw id key value
        | some m =>
          if ((← getTable id).get key).isNil then
            match (← getTable m).get (.ofText "__newindex") with
            | .nil => actor.setRaw id key value
            | handler =>
              if handler.isFunction then discard (actor.call handler #[v, key, value])
              else go n handler none
          else
            actor.setRaw id key value
      | v =>
        match ← metamethod v "__newindex" with
        | .nil => actor.raiseType "index" v origin
        | handler =>
          if handler.isFunction then discard (actor.call handler #[v, key, value])
          else go n handler none

/-! ### Operators -/

/-- The event of an arithmetic or bitwise operator. -/
def arithEvent : ArithOp → String
  | .add => "__add"
  | .sub => "__sub"
  | .mul => "__mul"
  | .div => "__div"
  | .floorDiv => "__idiv"
  | .mod => "__mod"
  | .pow => "__pow"
  | .band => "__band"
  | .bor => "__bor"
  | .bxor => "__bxor"
  | .shl => "__shl"
  | .shr => "__shr"

/-- Whether an operator works on bits. -/
def isBitwise : ArithOp → Bool
  | .band | .bor | .bxor | .shl | .shr => true
  | _ => false

/-- What one of two values has for an event, the first one being asked first. -/
def binaryHandler (a b : Value) (event : String) : ScriptM Value := do
  match ← metamethod a event with
  | .nil => metamethod b event
  | handler => return handler

/-- Raises that an operator cannot be applied: the second operand is blamed if the first is a
number. -/
def raiseOperands {α : Type} (operation : String) (a b : Value) (left right : Option Origin) :
    ScriptM α :=
  match a with
  | .number _ => actor.raiseType operation b right
  | a => actor.raiseType operation a left

/-- The text of an error in an operator on numbers. -/
def operatorErrorText (e : Number.OperatorError) (origin : Option Origin) : String :=
  match e with
  | .divisionByZero => "attempt to divide by zero"
  | .remainderByZero => "attempt to perform 'n%0'"
  | .notInteger => s!"number{originText origin} has no integer representation"

/-- Applies an operator to two numbers. -/
def arithNumbers (op : ArithOp) (a b : Number) (left right : Option Origin) : ScriptM Value := do
  match Number.arith op a b with
  | .ok n => return .number n
  | .error e =>
    actor.raise (operatorErrorText e (if a.toInteger?.isNone then left else right))

/-- Applies an operator to values that are not both numbers. -/
def arithByHandler (op : ArithOp) (a b : Value) (left right : Option Origin) : ScriptM Value := do
  match ← binaryHandler a b (arithEvent op) with
  | .nil =>
    match isBitwise op, a.toInteger?, b.toInteger? with
    | true, some m, some n => actor.arithNumbers op (.integer m) (.integer n) left right
    | true, _, _ => actor.raiseOperands "perform bitwise operation on" a b left right
    | false, _, _ => actor.raiseOperands "perform arithmetic on" a b left right
  | handler => actor.callForOne handler #[a, b]

/-- Applies an arithmetic or bitwise operator. -/
def arith (op : ArithOp) (a b : Value) (left right : Option Origin) : ScriptM Value :=
  match a, b with
  | .number m, .number n => actor.arithNumbers op m n left right
  | a, b => actor.arithByHandler op a b left right

/-- Negates a value. -/
def neg (v : Value) (origin : Option Origin) : ScriptM Value := do
  match v with
  | .number n => return .number n.neg
  | v =>
    match ← metamethod v "__unm" with
    | .nil => actor.raiseType "perform arithmetic on" v origin
    | handler => actor.callForOne handler #[v, v]

/-- Inverts the bits of a value. -/
def bnot (v : Value) (origin : Option Origin) : ScriptM Value := do
  match v with
  | .number n =>
    match n.toInteger? with
    | some i => return .number (.integer (~~~ i))
    | none => actor.raise (operatorErrorText .notInteger origin)
  | v =>
    match ← metamethod v "__bnot" with
    | .nil =>
      match v.toInteger? with
      | some i => return .number (.integer (~~~ i))
      | none => actor.raiseType "perform bitwise operation on" v origin
    | handler => actor.callForOne handler #[v, v]

/-- The length of a value. -/
def len (v : Value) (origin : Option Origin) : ScriptM Value := do
  match v with
  | .string bytes => return .ofInt bytes.size
  | .table id =>
    let t ← getTable id
    match t.metatable with
    | none => return .ofInt t.length
    | some m =>
      match (← getTable m).get (.ofText "__len") with
      | .nil => return .ofInt t.length
      | handler => actor.callForOne handler #[v, v]
  | v =>
    match ← metamethod v "__len" with
    | .nil => actor.raiseType "get length of" v origin
    | handler => actor.callForOne handler #[v, v]

/-- Joins two values. -/
def concat (a b : Value) (left right : Option Origin) : ScriptM Value := do
  match a.toBytes?, b.toBytes? with
  | some x, some y =>
    allocate (x.size + y.size + 24)
    return .string (x ++ y)
  | x, _ =>
    match ← binaryHandler a b "__concat" with
    | .nil =>
      if x.isSome then actor.raiseType "concatenate" b right
      else actor.raiseType "concatenate" a left
    | handler => actor.callForOne handler #[a, b]

/-! ### Comparison -/

/-- How the bytes of two strings compare from position `i` on. -/
def compareBytes (x y : ByteArray) (i : Nat) : Ordering :=
  if hx : i < x.size then
    if hy : i < y.size then
      if x[i] < y[i] then .lt
      else if y[i] < x[i] then .gt
      else compareBytes x y (i + 1)
    else .gt
  else if i < y.size then .lt
  else .eq
termination_by x.size - i

/-- Raises that two values cannot be compared. -/
def raiseOrder {α : Type} (a b : Value) : ScriptM α := do
  let x ← shownTypeName a
  let y ← shownTypeName b
  actor.raise
    (if x == y then s!"attempt to compare two {x} values"
      else s!"attempt to compare {x} with {y}")

/-- Whether a value is less than another one. -/
def less (a b : Value) : ScriptM Bool := do
  match a, b with
  | .number m, .number n => return m.compare? n == some .lt
  | .string x, .string y => return compareBytes x y 0 == .lt
  | a, b =>
    match ← binaryHandler a b "__lt" with
    | .nil => actor.raiseOrder a b
    | handler => return (← actor.callForOne handler #[a, b]).truthy

/-- Whether a value is less than or equal to another one. -/
def lessOrEqual (a b : Value) : ScriptM Bool := do
  match a, b with
  | .number m, .number n =>
    let o := m.compare? n
    return o == some .lt || o == some .eq
  | .string x, .string y => return compareBytes x y 0 != .gt
  | a, b =>
    match ← binaryHandler a b "__le" with
    | .nil =>
      match ← binaryHandler b a "__lt" with
      | .nil => actor.raiseOrder a b
      | handler => return !(← actor.callForOne handler #[b, a]).truthy
    | handler => return (← actor.callForOne handler #[a, b]).truthy

/-- Whether two values are equal. Two tables, or two objects, may have a function for it. -/
def equal (a b : Value) : ScriptM Bool := do
  if a.rawEquals b then return true
  else
    match a, b with
    | .table _, .table _ | .object .., .object .. =>
      match ← binaryHandler a b "__eq" with
      | .nil => return false
      | handler => return (← actor.callForOne handler #[a, b]).truthy
    | _, _ => return false

/-! ### Text -/

/-- An address-like text for a value without a text of its own. -/
def address (id : Nat) : String :=
  "0x" ++ String.ofList (Nat.toDigits 16 (0x5599a0000000 + 64 * id))

/-- The number that tells a value from others of its type. -/
def identity : Value → Nat
  | .table id | .closure id _ | .object id _ => id
  | .builtin f => (hash f).toNat % 65536
  | _ => 0

/-- The text of a value, as it is shown; nothing if the metatable gives none. -/
def text? (v : Value) : ScriptM (Option ByteArray) := do
  match ← metamethod v "__tostring" with
  | .nil =>
    match v with
    | .nil => return some "nil".toUTF8
    | .bool b => return some (if b then "true" else "false").toUTF8
    | .number n => return some n.toText.toUTF8
    | .string bytes => return some bytes
    | .builtin _ => return some ("function: builtin: " ++ address (identity v)).toUTF8
    | v => return some ((← shownTypeName v) ++ ": " ++ address (identity v)).toUTF8
  | handler => return (← actor.callForOne handler #[v]).toBytes?

end Actor

end LedgerReports.Script
