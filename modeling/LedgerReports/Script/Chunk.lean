import LedgerReports.Script.Syntax
import LedgerReports.Script.Token

/-!
# Reading chunks

`Chunk.parse?` reads a source text as a list of functions. While it goes through the tokens it keeps,
for each function that is still open, the variables in scope and the labels and jumps of the open
blocks; so names are resolved and jumps are checked on the way.

A text is refused without telling why. What is refused besides ungrammatical text: an assignment to
a constant variable, `...` outside a variadic function, `break` outside a loop, a jump to no visible
label or into the scope of a local variable, a label defined twice, too many variables, and nesting
that is too deep.
-/

namespace LedgerReports.Script

/-- A chunk: its functions, of which the first is the chunk itself. -/
structure Chunk where
  /-- The functions. -/
  functions : Array FunctionBody

namespace Chunk

/-- How deep statements and expressions may nest. -/
def maxNesting : Nat := 196

/-- The greatest number of local variables in scope in a function. -/
def maxLocals : Nat := 200

/-- The greatest number of upvalues of a function. -/
def maxUpvalues : Nat := 255

/-- A local variable in scope. -/
structure Variable where
  /-- The name. -/
  name : String
  /-- The slot. -/
  slot : Nat
  /-- What is special about it. -/
  kind : VariableKind

/-- A jump to a label that has not been seen yet. -/
structure PendingJump where
  /-- The name of the label. -/
  label : String
  /-- The number of variables in scope. -/
  active : Nat

/-- A block that is still open. -/
structure OpenBlock where
  /-- Whether it is the body of a loop. -/
  isLoop : Bool
  /-- The variables in scope when it was opened. -/
  outer : List Variable
  /-- The names of its labels. -/
  labels : List String := []
  /-- The jumps out of it or forward in it. -/
  jumps : List PendingJump := []

/-- An upvalue of an open function. -/
structure Upvalue where
  /-- The name. -/
  name : String
  /-- Where it comes from. -/
  source : Source
  /-- What is special about the variable. -/
  kind : VariableKind

/-- A function that is still open. -/
structure OpenFunction where
  /-- The number it will have. -/
  number : Nat
  /-- Whether it takes additional arguments. -/
  variadic : Bool
  /-- The slots of its parameters. -/
  parameters : List Nat := []
  /-- The local variables in scope, the last one first. -/
  active : List Variable := []
  /-- The number of slots given out. -/
  slots : Nat := 0
  /-- The slots that inner functions refer to. -/
  captured : List Nat := []
  /-- The upvalues. -/
  upvalues : Array Upvalue := #[]
  /-- The open blocks, the innermost first. -/
  blocks : List OpenBlock := []

/-- Where the reading of a chunk stands. -/
structure State where
  /-- The tokens. -/
  tokens : Array Token.Located
  /-- The number of the next token. -/
  position : Nat := 0
  /-- The open functions, the innermost first. -/
  opened : List OpenFunction := []
  /-- The functions by number; those that are still open have no body yet. -/
  functions : Array FunctionBody := #[]

/-- A step in reading a chunk. -/
abbrev ParseM := StateT State Option

/-! ### Tokens -/

/-- The next token. -/
def peek : ParseM Token := do
  let s ← get
  return (s.tokens[s.position]?.map (·.token)).getD .eof

/-- The token after the next one. -/
def peekSecond : ParseM Token := do
  let s ← get
  return (s.tokens[s.position + 1]?.map (·.token)).getD .eof

/-- The line of the token at a position. -/
def State.lineAt (s : State) (position : Nat) : Nat :=
  (s.tokens[position]?.map (·.line)).getD 0

/-- The line of the next token. -/
def nextLine : ParseM Nat := do
  let s ← get
  return s.lineAt s.position

/-- The line of the token taken last. -/
def lastLine : ParseM Nat := do
  let s ← get
  return s.lineAt (s.position - 1)

/-- Takes the next token. -/
def advance : ParseM Unit := modify fun s => { s with position := s.position + 1 }

/-- Whether the next token is the given symbol. -/
def atSymbol (text : String) : ParseM Bool := do
  match ← peek with
  | .symbol s => return s == text
  | _ => return false

/-- Whether the next token is the given keyword. -/
def atKeyword (text : String) : ParseM Bool := do
  match ← peek with
  | .keyword s => return s == text
  | _ => return false

/-- Takes the next token if it is the given symbol. -/
def acceptSymbol (text : String) : ParseM Bool := do
  if ← atSymbol text then
    advance
    return true
  else
    return false

/-- Takes the next token if it is the given keyword. -/
def acceptKeyword (text : String) : ParseM Bool := do
  if ← atKeyword text then
    advance
    return true
  else
    return false

/-- Takes the given symbol. -/
def expectSymbol (text : String) : ParseM Unit := do
  unless ← acceptSymbol text do failure

/-- Takes the given keyword. -/
def expectKeyword (text : String) : ParseM Unit := do
  unless ← acceptKeyword text do failure

/-- Takes a name. -/
def expectName : ParseM String := do
  match ← peek with
  | .name text =>
    advance
    return text
  | _ => failure

/-- Whether the next token ends a block. -/
def atBlockEnd (withUntil : Bool) : ParseM Bool := do
  match ← peek with
  | .eof => return true
  | .keyword k => return ["else", "elseif", "end"].contains k || (withUntil && k == "until")
  | _ => return false

/-! ### Scopes -/

/-- The innermost open function. -/
def current : ParseM OpenFunction := do
  match (← get).opened with
  | f :: _ => return f
  | [] => failure

/-- Changes the innermost open function. -/
def modifyCurrent (f : OpenFunction → OpenFunction) : ParseM Unit :=
  modify fun s =>
    match s.opened with
    | g :: rest => { s with opened := f g :: rest }
    | [] => s

/-- Gives out slots. -/
def newSlots (count : Nat) : ParseM Nat := do
  let f ← current
  modifyCurrent fun f => { f with slots := f.slots + count }
  return f.slots

/-- Brings a local variable into scope. -/
def declare (v : Variable) : ParseM Unit := do
  let f ← current
  if maxLocals ≤ f.active.length then failure
  modifyCurrent fun f => { f with active := v :: f.active }

/-- Brings a local variable with a new slot into scope. -/
def declareNew (name : String) : ParseM Nat := do
  let slot ← newSlots 1
  declare ⟨name, slot, .regular⟩
  return slot

/-- Brings variables without a name into scope. -/
def declareHidden (first count : Nat) : ParseM Unit :=
  (List.range count).forM fun i => declare ⟨"(for state)", first + i, .regular⟩

/-- What a name refers to in a function. -/
inductive Reference where
  /-- A local variable. -/
  | local (slot : Nat)
  /-- An upvalue. -/
  | upvalue (index : Nat)

/-- Notes that an inner function refers to what a reference stands for. -/
def OpenFunction.capture (f : OpenFunction) : Reference → OpenFunction × Source
  | .local slot =>
    (if f.captured.contains slot then f else { f with captured := slot :: f.captured },
      .local slot)
  | .upvalue index => (f, .upvalue index)

/-- Looks up a name in a list of nested functions, and adds the upvalues that this takes. -/
def resolve? (name : String) :
    List OpenFunction → Option (Reference × VariableKind × List OpenFunction)
  | [] => none
  | f :: outer =>
    match f.active.find? (·.name == name) with
    | some v => some (.local v.slot, v.kind, f :: outer)
    | none =>
      match f.upvalues.findIdx? (·.name == name) with
      | some i => some (.upvalue i, (f.upvalues[i]?.map (·.kind)).getD .regular, f :: outer)
      | none =>
        match resolve? name outer with
        | some (reference, kind, g :: outer) =>
          if f.upvalues.size < maxUpvalues then
            let (g, source) := g.capture reference
            some (.upvalue f.upvalues.size, kind,
              { f with upvalues := f.upvalues.push ⟨name, source, kind⟩ } :: g :: outer)
          else
            none
        | _ => none

/-- The variable with a name, if it is no global one. -/
def localVariable? (name : String) : ParseM (Option (Expr × VariableKind)) := do
  let s ← get
  match resolve? name s.opened with
  | some (reference, kind, opened) =>
    set { s with opened }
    match reference with
    | .local slot => return some (.local slot name, kind)
    | .upvalue index => return some (.upvalue index name, kind)
  | none => return none

/-- A string constant. -/
def stringLiteral (text : String) : Expr := .literal (.string text.toUTF8)

/-- The variable with a name. A global one is a field of `_ENV`. -/
def lookUp (name : String) : ParseM (Expr × VariableKind) := do
  match ← localVariable? name with
  | some found => return found
  | none =>
    match ← localVariable? "_ENV" with
    | some (environment, _) =>
      return (.index environment (stringLiteral name) (← lastLine), .regular)
    | none => failure

/-! ### Blocks and jumps -/

/-- Opens a block. -/
def openBlock (isLoop : Bool) : ParseM Unit :=
  modifyCurrent fun f => { f with blocks := { isLoop, outer := f.active } :: f.blocks }

/-- Closes a block: its variables go out of scope, and its jumps become those of the block around
it. -/
def closeBlock : ParseM Unit := do
  let f ← current
  match f.blocks with
  | [] => failure
  | b :: blocks =>
    let moved := b.jumps.map fun j => { j with active := b.outer.length }
    match blocks with
    | [] =>
      unless moved.isEmpty do failure
      modifyCurrent fun f => { f with active := b.outer, blocks := [] }
    | outer :: rest =>
      modifyCurrent fun f =>
        { f with
          active := b.outer
          blocks := { outer with jumps := moved ++ outer.jumps } :: rest }

/-- Whether a label is visible in one of the open blocks. -/
def OpenFunction.sees (f : OpenFunction) (label : String) : Bool :=
  f.blocks.any (·.labels.contains label)

/-- Notes a jump. -/
def jumpTo (label : String) : ParseM Unit := do
  let f ← current
  unless f.sees label do
    modifyCurrent fun f =>
      match f.blocks with
      | b :: rest => { f with blocks := { b with jumps := ⟨label, f.active.length⟩ :: b.jumps } :: rest }
      | [] => f

/-- Defines a label. A label at the end of a block counts as outside the scope of its variables. -/
def defineLabel (name : String) (atEnd : Bool) : ParseM Unit := do
  let f ← current
  if f.sees name then failure
  match f.blocks with
  | [] => failure
  | b :: rest =>
    let active := if atEnd then b.outer.length else f.active.length
    let (solved, others) := b.jumps.partition (·.label == name)
    if solved.any (·.active < active) then failure
    modifyCurrent fun f =>
      { f with blocks := { b with labels := name :: b.labels, jumps := others } :: rest }

/-- Runs a step in a block of its own. -/
def inBlock {α : Type} (isLoop : Bool) (step : ParseM α) : ParseM α := do
  openBlock isLoop
  let result ← step
  closeBlock
  return result

/-! ### Functions -/

/-- Opens a function. -/
def openFunction (variadic : Bool) (upvalues : Array Upvalue) : ParseM Nat := do
  let number := (← get).functions.size
  modify fun s =>
    { s with
      functions := s.functions.push default
      opened := { number, variadic, upvalues } :: s.opened }
  openBlock false
  return number

/-- Closes a function. -/
def closeFunction (body : List Stmt) : ParseM Unit := do
  closeBlock
  let line ← lastLine
  modify fun s =>
    match s.opened with
    | [] => s
    | f :: opened =>
      let function : FunctionBody :=
        { parameters := f.parameters
          variadic := f.variadic
          slots := f.slots
          captured := f.captured
          upvalues := f.upvalues.map fun u => (u.name, u.source)
          body
          lastLine := line }
      { s with opened, functions := s.functions.setIfInBounds f.number function }

/-- Reads the names of parameters up to the closing parenthesis. -/
def parameters : (fuel : Nat) → List Nat → ParseM (List Nat × Bool)
  | 0, _ => failure
  | fuel + 1, slots => do
    if ← acceptSymbol "..." then
      expectSymbol ")"
      return (slots.reverse, true)
    else
      let slot ← declareNew (← expectName)
      if ← acceptSymbol "," then
        parameters fuel (slot :: slots)
      else
        expectSymbol ")"
        return ((slot :: slots).reverse, false)

/-- Reads the parameters of a function. -/
def parameterList (fuel : Nat) : ParseM Unit := do
  expectSymbol "("
  if ← acceptSymbol ")" then
    return ()
  let (slots, variadic) ← parameters fuel []
  modifyCurrent fun f => { f with parameters := f.parameters ++ slots, variadic }

/-! ### Operators -/

/-- The operator that a token stands for between two operands, with the priorities to its left and
right. -/
def binaryOperator? : Token → Option ((BinaryOp ⊕ LogicOp) × Nat × Nat)
  | .symbol "+" => some (.inl (.arith .add), 10, 10)
  | .symbol "-" => some (.inl (.arith .sub), 10, 10)
  | .symbol "*" => some (.inl (.arith .mul), 11, 11)
  | .symbol "/" => some (.inl (.arith .div), 11, 11)
  | .symbol "//" => some (.inl (.arith .floorDiv), 11, 11)
  | .symbol "%" => some (.inl (.arith .mod), 11, 11)
  | .symbol "^" => some (.inl (.arith .pow), 14, 13)
  | .symbol ".." => some (.inl .concat, 9, 8)
  | .symbol "<<" => some (.inl (.arith .shl), 7, 7)
  | .symbol ">>" => some (.inl (.arith .shr), 7, 7)
  | .symbol "&" => some (.inl (.arith .band), 6, 6)
  | .symbol "~" => some (.inl (.arith .bxor), 5, 5)
  | .symbol "|" => some (.inl (.arith .bor), 4, 4)
  | .symbol "==" => some (.inl (.compare .eq), 3, 3)
  | .symbol "~=" => some (.inl (.compare .ne), 3, 3)
  | .symbol "<" => some (.inl (.compare .lt), 3, 3)
  | .symbol "<=" => some (.inl (.compare .le), 3, 3)
  | .symbol ">" => some (.inl (.compare .gt), 3, 3)
  | .symbol ">=" => some (.inl (.compare .ge), 3, 3)
  | .keyword "and" => some (.inr .and, 2, 2)
  | .keyword "or" => some (.inr .or, 1, 1)
  | _ => none

/-- The operator that a token stands for before an operand. -/
def unaryOperator? : Token → Option UnaryOp
  | .symbol "-" => some .neg
  | .symbol "~" => some .bnot
  | .symbol "#" => some .len
  | .keyword "not" => some .not
  | _ => none

/-- The priority of the operators before an operand. -/
def unaryPriority : Nat := 12

/-- Checks that nesting has not gone too deep. -/
def checkNesting (level : Nat) : ParseM Unit := if maxNesting < level then failure else return ()

/-! ### The grammar

Each function takes a bound on the recursion and, where it can nest, the level of nesting. -/

/-- Reads further names after commas. -/
def nameList (fuel : Nat) (found : List String) : ParseM (List String) :=
  match fuel with
  | 0 => failure
  | fuel + 1 => do
    if ← acceptSymbol "," then
      let name ← expectName
      nameList fuel (name :: found)
    else
      return found.reverse

/-- Reads the fields in the name of a function. -/
def functionPath (fuel : Nat) (e : Expr) : ParseM (Expr × Bool) :=
  match fuel with
  | 0 => failure
  | fuel + 1 => do
    if ← acceptSymbol "." then
      let name ← expectName
      functionPath fuel (.index e (stringLiteral name) (← lastLine))
    else if ← acceptSymbol ":" then
      let name ← expectName
      return (.index e (stringLiteral name) (← lastLine), true)
    else
      return (e, false)

/-- Reads the name of a function that is declared by a statement, and whether it is a method. -/
def functionName (fuel : Nat) : ParseM (Expr × Bool) :=
  match fuel with
  | 0 => failure
  | fuel + 1 => do
    let (e, kind) ← lookUp (← expectName)
    let (target, isMethod) ← functionPath fuel e
    match target with
    | .local .. | .upvalue .. => unless kind == .regular do failure
    | _ => pure ()
    return (target, isMethod)

/-- Skips semicolons. -/
def skipSemicolons : (fuel : Nat) → ParseM Unit
  | 0 => return ()
  | fuel + 1 => do
    if ← acceptSymbol ";" then skipSemicolons fuel

/-- Reads labels with nothing but semicolons between them, after the first two colons. The last label
is defined first. -/
def labels (fuel : Nat) (found : List String) : ParseM (List String) :=
  match fuel with
  | 0 => failure
  | fuel + 1 => do
    let name ← expectName
    expectSymbol "::"
    skipSemicolons fuel
    let found ← if ← acceptSymbol "::" then labels fuel found else pure found
    defineLabel name (← atBlockEnd false)
    return name :: found

/-- Reads the names of local variables with their attributes. -/
def attributedNames (fuel : Nat) (found : List (String × VariableKind)) :
    ParseM (List (String × VariableKind)) :=
  match fuel with
  | 0 => failure
  | fuel + 1 => do
    let name ← expectName
    let kind ←
      if ← acceptSymbol "<" then do
        let word ← expectName
        expectSymbol ">"
        if word == "const" then pure VariableKind.constant
        else if word == "close" then pure VariableKind.closing
        else failure
      else pure VariableKind.regular
    if ← acceptSymbol "," then
      attributedNames fuel ((name, kind) :: found)
    else
      return ((name, kind) :: found).reverse

/-- Checks that an expression can be assigned to. -/
def checkTarget (e : Expr) : ParseM Unit :=
  match e with
  | .index .. => return ()
  | .local _ name | .upvalue _ name => do
    match ← localVariable? name with
    | some (_, .regular) => return ()
    | _ => failure
  | _ => failure

mutual

/-- Reads an expression whose operators bind more tightly than `limit`. -/
def expression (fuel level limit : Nat) : ParseM Expr :=
  match fuel with
  | 0 => failure
  | fuel + 1 => do
    checkNesting level
    match unaryOperator? (← peek) with
    | some op =>
      let line ← nextLine
      advance
      let operand ← expression fuel (level + 1) unaryPriority
      operators fuel level limit (.unary op operand line)
    | none =>
      let first ← simpleExpression fuel level
      operators fuel level limit first

/-- Reads the operators that follow an operand, as long as they bind more tightly than `limit`. -/
def operators (fuel level limit : Nat) (left : Expr) : ParseM Expr :=
  match fuel with
  | 0 => failure
  | fuel + 1 => do
    match binaryOperator? (← peek) with
    | some (op, leftPriority, rightPriority) =>
      if limit < leftPriority then
        let line ← nextLine
        advance
        let right ← expression fuel (level + 1) rightPriority
        let combined :=
          match op with
          | .inl op => Expr.binary op left right line
          | .inr op => Expr.logic op left right line
        operators fuel level limit combined
      else
        return left
    | none => return left

/-- Reads an operand. -/
def simpleExpression (fuel level : Nat) : ParseM Expr :=
  match fuel with
  | 0 => failure
  | fuel + 1 => do
    match ← peek with
    | .number n =>
      advance
      return .literal (.number n)
    | .string bytes =>
      advance
      return .literal (.string bytes)
    | .keyword "nil" =>
      advance
      return .literal .nil
    | .keyword "true" =>
      advance
      return .literal (.bool true)
    | .keyword "false" =>
      advance
      return .literal (.bool false)
    | .symbol "..." =>
      unless (← current).variadic do failure
      advance
      return .varargs
    | .symbol "\x7b" => tableConstructor fuel level
    | .keyword "function" =>
      let line ← nextLine
      advance
      return .function (← functionBody fuel level false) line
    | _ => suffixedExpression fuel level

/-- Reads a variable or an expression in parentheses, and what is applied to it. -/
def suffixedExpression (fuel level : Nat) : ParseM Expr :=
  match fuel with
  | 0 => failure
  | fuel + 1 => do
    match ← peek with
    | .name text =>
      advance
      suffixes fuel level (← lookUp text).1
    | .symbol "(" =>
      advance
      let inner ← expression fuel (level + 1) 0
      expectSymbol ")"
      suffixes fuel level (.paren inner)
    | _ => failure

/-- Reads the indexes and calls that are applied to an expression. -/
def suffixes (fuel level : Nat) (e : Expr) : ParseM Expr :=
  match fuel with
  | 0 => failure
  | fuel + 1 => do
    match ← peek with
    | .symbol "." =>
      advance
      let name ← expectName
      suffixes fuel level (.index e (stringLiteral name) (← lastLine))
    | .symbol "[" =>
      advance
      let key ← expression fuel (level + 1) 0
      expectSymbol "]"
      suffixes fuel level (.index e key (← lastLine))
    | .symbol ":" =>
      advance
      let name ← expectName
      let line ← nextLine
      let args ← arguments fuel level
      suffixes fuel level (.methodCall e name args line)
    | .symbol "(" | .symbol "\x7b" | .string _ =>
      let line ← nextLine
      let args ← arguments fuel level
      suffixes fuel level (.call e args line)
    | _ => return e

/-- Reads the arguments of a call. -/
def arguments (fuel level : Nat) : ParseM (List Expr) :=
  match fuel with
  | 0 => failure
  | fuel + 1 => do
    match ← peek with
    | .string bytes =>
      advance
      return [.literal (.string bytes)]
    | .symbol "\x7b" => return [← tableConstructor fuel level]
    | .symbol "(" =>
      advance
      if ← acceptSymbol ")" then
        return []
      else
        let args ← expressionList fuel level []
        expectSymbol ")"
        return args
    | _ => failure

/-- Reads expressions with commas between them, after those read already. -/
def expressionList (fuel level : Nat) (found : List Expr) : ParseM (List Expr) :=
  match fuel with
  | 0 => failure
  | fuel + 1 => do
    let e ← expression fuel (level + 1) 0
    if ← acceptSymbol "," then
      expressionList fuel level (e :: found)
    else
      return (e :: found).reverse

/-- Reads a new table. -/
def tableConstructor (fuel level : Nat) : ParseM Expr :=
  match fuel with
  | 0 => failure
  | fuel + 1 => do
    let line ← nextLine
    expectSymbol "\x7b"
    let fields ← tableFields fuel level []
    return .table fields line

/-- Reads the fields of a new table, after those read already. -/
def tableFields (fuel level : Nat) (found : List Field) : ParseM (List Field) :=
  match fuel with
  | 0 => failure
  | fuel + 1 => do
    if ← acceptSymbol "\x7d" then
      return found.reverse
    else
      let field ← tableField fuel level
      let separated ← if ← acceptSymbol "," then pure true else acceptSymbol ";"
      if separated then
        tableFields fuel level (field :: found)
      else
        expectSymbol "\x7d"
        return (field :: found).reverse

/-- Reads a field of a new table. -/
def tableField (fuel level : Nat) : ParseM Field :=
  match fuel with
  | 0 => failure
  | fuel + 1 => do
    match ← peek, ← peekSecond with
    | .name text, .symbol "=" =>
      let line ← nextLine
      advance
      advance
      return .pair (stringLiteral text) (← expression fuel (level + 1) 0) line
    | .symbol "[", _ =>
      let line ← nextLine
      advance
      let key ← expression fuel (level + 1) 0
      expectSymbol "]"
      expectSymbol "="
      return .pair key (← expression fuel (level + 1) 0) line
    | _, _ => return .item (← expression fuel (level + 1) 0)

/-- Reads the parameters and the body of a function. A method has a first parameter of its own. -/
def functionBody (fuel level : Nat) (isMethod : Bool) : ParseM Nat :=
  match fuel with
  | 0 => failure
  | fuel + 1 => do
    let number ← openFunction false #[]
    if isMethod then
      let slot ← declareNew "self"
      modifyCurrent fun f => { f with parameters := [slot] }
    parameterList fuel
    let body ← statements fuel level []
    expectKeyword "end"
    closeFunction body
    return number

/-- Reads the statements of a block, after those read already. -/
def statements (fuel level : Nat) (found : List Stmt) : ParseM (List Stmt) :=
  match fuel with
  | 0 => failure
  | fuel + 1 => do
    if ← atBlockEnd true then
      return found.reverse
    else if ← acceptSymbol ";" then
      statements fuel level found
    else if ← atKeyword "return" then
      let s ← returnStatement fuel level
      return (s :: found).reverse
    else
      let s ← statement fuel (level + 1)
      statements fuel level (s :: found)

/-- Reads a return statement, which is the last one of its block. -/
def returnStatement (fuel level : Nat) : ParseM Stmt :=
  match fuel with
  | 0 => failure
  | fuel + 1 => do
    let line ← nextLine
    advance
    let values ←
      if ← (do return (← atBlockEnd true) || (← atSymbol ";")) then pure []
      else expressionList fuel (level + 1) []
    discard (acceptSymbol ";")
    unless ← atBlockEnd true do failure
    return .return values line

/-- Reads a block with a scope of its own. -/
def block (fuel level : Nat) (isLoop : Bool) : ParseM (List Stmt) :=
  match fuel with
  | 0 => failure
  | fuel + 1 => inBlock isLoop (statements fuel level [])

/-- Reads a statement. -/
def statement (fuel level : Nat) : ParseM Stmt :=
  match fuel with
  | 0 => failure
  | fuel + 1 => do
    checkNesting level
    let line ← nextLine
    match ← peek with
    | .keyword "if" =>
      advance
      ifStatement fuel level line
    | .keyword "while" =>
      advance
      let condition ← expression fuel (level + 1) 0
      expectKeyword "do"
      let body ← block fuel level true
      expectKeyword "end"
      return .while condition body line
    | .keyword "do" =>
      advance
      let body ← block fuel level false
      expectKeyword "end"
      return .block body
    | .keyword "for" =>
      advance
      forStatement fuel level line
    | .keyword "repeat" =>
      advance
      inBlock true <| inBlock false do
        let body ← statements fuel level []
        expectKeyword "until"
        let condition ← expression fuel (level + 1) 0
        return .repeat body condition line
    | .keyword "function" =>
      advance
      let (target, isMethod) ← functionName fuel
      let number ← functionBody fuel level isMethod
      return .assign [target] [.function number line] line
    | .keyword "local" =>
      advance
      if ← acceptKeyword "function" then
        let slot ← declareNew (← expectName)
        return .localFunction slot (← functionBody fuel level false) line
      else
        localStatement fuel level line
    | .symbol "::" =>
      advance
      return .labels (← labels fuel [])
    | .keyword "break" =>
      advance
      unless (← current).blocks.any (·.isLoop) do failure
      return .break line
    | .keyword "goto" =>
      advance
      let name ← expectName
      jumpTo name
      return .goto name line
    | _ => expressionStatement fuel level line

/-- Reads a choice after its first keyword. -/
def ifStatement (fuel level line : Nat) : ParseM Stmt :=
  match fuel with
  | 0 => failure
  | fuel + 1 => do
    let condition ← expression fuel (level + 1) 0
    expectKeyword "then"
    let yes ← block fuel level false
    let nextLine ← nextLine
    if ← acceptKeyword "elseif" then
      let no ← ifStatement fuel level nextLine
      return .if condition yes [no] line
    else if ← acceptKeyword "else" then
      let no ← block fuel level false
      expectKeyword "end"
      return .if condition yes no line
    else
      expectKeyword "end"
      return .if condition yes [] line

/-- Reads a loop over numbers or over what an iterator yields, after its first keyword. -/
def forStatement (fuel level line : Nat) : ParseM Stmt :=
  match fuel with
  | 0 => failure
  | fuel + 1 => do
    let first ← expectName
    if ← acceptSymbol "=" then
      let start ← expression fuel (level + 1) 0
      expectSymbol ","
      let limit ← expression fuel (level + 1) 0
      let step ← if ← acceptSymbol "," then some <$> expression fuel (level + 1) 0 else pure none
      expectKeyword "do"
      inBlock true do
        let hidden ← newSlots 3
        declareHidden hidden 3
        let body ← inBlock false do
          let slot ← declareNew first
          return (slot, ← statements fuel level [])
        expectKeyword "end"
        return .numericFor body.1 hidden start limit step body.2 line
    else
      let names ← nameList fuel [first]
      expectKeyword "in"
      let values ← expressionList fuel level []
      expectKeyword "do"
      inBlock true do
        let hidden ← newSlots 3
        declareHidden hidden 4
        let body ← inBlock false do
          let slots ← names.mapM declareNew
          return (slots, ← statements fuel level [])
        expectKeyword "end"
        return .genericFor body.1 hidden values body.2 line

/-- Reads a declaration of local variables after its first keyword. -/
def localStatement (fuel level line : Nat) : ParseM Stmt :=
  match fuel with
  | 0 => failure
  | fuel + 1 => do
    let names ← attributedNames fuel []
    if 1 < (names.filter (·.2 == .closing)).length then failure
    let values ← if ← acceptSymbol "=" then expressionList fuel level [] else pure []
    let slots ← names.mapM fun (name, kind) => do
      let slot ← newSlots 1
      declare ⟨name, slot, kind⟩
      return (slot, name, kind)
    return .local slots values line

/-- Reads an assignment or a call. -/
def expressionStatement (fuel level line : Nat) : ParseM Stmt :=
  match fuel with
  | 0 => failure
  | fuel + 1 => do
    let e ← suffixedExpression fuel level
    let assigns ← if ← atSymbol "=" then pure true else atSymbol ","
    if assigns then
      let targets ← assignmentTargets fuel (level + 1) [e]
      targets.forM checkTarget
      expectSymbol "="
      let values ← expressionList fuel level []
      return .assign targets values (← lastLine)
    else
      match e with
      | .call .. | .methodCall .. => return .call e line
      | _ => failure

/-- Reads further targets of an assignment. -/
def assignmentTargets (fuel level : Nat) (found : List Expr) : ParseM (List Expr) :=
  match fuel with
  | 0 => failure
  | fuel + 1 => do
    checkNesting level
    if ← acceptSymbol "," then
      let e ← suffixedExpression fuel level
      assignmentTargets fuel (level + 1) (e :: found)
    else
      return found.reverse

end

/-- Reads a whole chunk. -/
def chunk (fuel : Nat) : ParseM Unit := do
  discard (openFunction true #[⟨"_ENV", .upvalue 0, .regular⟩])
  let body ← statements fuel 0 []
  match ← peek with
  | .eof => closeFunction body
  | _ => failure

/-- The chunk that a source text is, if it is one. Each step of the grammar either takes a token or
goes on to one of a few others, so the recursion is bounded by a multiple of their number. -/
def parse? (source : ByteArray) : Option Chunk := do
  let tokens ← Token.readAll? source
  let ((), s) ← (chunk (16 * tokens.size + 64)).run { tokens }
  return ⟨s.functions⟩

end Chunk

end LedgerReports.Script
