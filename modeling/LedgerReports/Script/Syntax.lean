import LedgerReports.Script.Number

/-!
# Scripts as syntax trees

A chunk is a list of functions; the first is the chunk itself. Functions refer to each other by
number, so a tree never contains another function's body.

Variables are resolved: a local variable has a slot of its own in its function, which no other
variable of the function shares, and a variable of an enclosing function is reached through a
numbered upvalue. A global variable is a field of the variable `_ENV`. Names are kept only to be
shown in errors.
-/

namespace LedgerReports.Script

/-- A constant. -/
inductive Literal where
  /-- The value `nil`. -/
  | nil
  /-- A truth value. -/
  | bool (b : Bool)
  /-- A number. -/
  | number (n : Number)
  /-- A string. -/
  | string (bytes : ByteArray)

/-- An operator with one operand. -/
inductive UnaryOp where
  | neg | not | len | bnot
deriving DecidableEq, Repr

/-- A comparison. -/
inductive CompareOp where
  | eq | ne | lt | le | gt | ge
deriving DecidableEq, Repr

/-- An operator with two operands that evaluates both. -/
inductive BinaryOp where
  /-- An arithmetic or bitwise operator. -/
  | arith (op : ArithOp)
  /-- A comparison. -/
  | compare (op : CompareOp)
  /-- Concatenation. -/
  | concat
deriving DecidableEq, Repr

/-- An operator with two operands that may leave the second one out. -/
inductive LogicOp where
  | and | or
deriving DecidableEq, Repr

mutual

/-- An expression. Each that may fail carries its line. -/
inductive Expr where
  /-- A constant. -/
  | literal (value : Literal)
  /-- The additional arguments of the function. -/
  | varargs
  /-- A local variable. -/
  | local (slot : Nat) (name : String)
  /-- A variable of an enclosing function. -/
  | upvalue (index : Nat) (name : String)
  /-- An element of a table. -/
  | index (table key : Expr) (line : Nat)
  /-- A call. -/
  | call (function : Expr) (args : List Expr) (line : Nat)
  /-- A call of an element of an object, with the object as first argument. -/
  | methodCall (object : Expr) (name : String) (args : List Expr) (line : Nat)
  /-- A closure of the function with this number. -/
  | function (number : Nat) (line : Nat)
  /-- An operator with one operand. -/
  | unary (op : UnaryOp) (operand : Expr) (line : Nat)
  /-- An operator with two operands. -/
  | binary (op : BinaryOp) (left right : Expr) (line : Nat)
  /-- An operator that may leave its second operand out. -/
  | logic (op : LogicOp) (left right : Expr) (line : Nat)
  /-- A new table. -/
  | table (fields : List Field) (line : Nat)
  /-- An expression in parentheses, which has exactly one value. -/
  | paren (inner : Expr)

/-- A field of a new table. -/
inductive Field where
  /-- The next element of the sequence. -/
  | item (value : Expr)
  /-- An element with a key. -/
  | pair (key value : Expr) (line : Nat)

end

/-- What is special about a local variable. -/
inductive VariableKind where
  /-- The variable may be assigned to. -/
  | regular
  /-- The variable keeps its first value. -/
  | constant
  /-- The variable keeps its first value, which is closed when the variable goes out of scope. -/
  | closing
deriving DecidableEq, Repr

/-- A statement. -/
inductive Stmt where
  /-- Declares local variables. -/
  | local (slots : List (Nat × String × VariableKind)) (values : List Expr) (line : Nat)
  /-- Declares a local variable and sets it to a closure, which may refer to the variable. -/
  | localFunction (slot : Nat) (number : Nat) (line : Nat)
  /-- Assigns to variables and elements. -/
  | assign (targets values : List Expr) (line : Nat)
  /-- Evaluates a call for its effect. -/
  | call (function : Expr) (line : Nat)
  /-- A block. -/
  | block (body : List Stmt)
  /-- A loop with the condition in front. -/
  | while (condition : Expr) (body : List Stmt) (line : Nat)
  /-- A loop with the condition at the end, which sees the variables of the body. -/
  | repeat (body : List Stmt) (condition : Expr) (line : Nat)
  /-- A choice. -/
  | if (condition : Expr) (yes no : List Stmt) (line : Nat)
  /-- A loop over numbers. `hidden` is the first of three slots for the next number, the limit or the
  number of turns left, and the step. -/
  | numericFor (slot hidden : Nat) (first limit : Expr) (step : Option Expr) (body : List Stmt)
      (line : Nat)
  /-- A loop over what an iterator yields. `hidden` is the first of three slots for the iterator, its
  state and its control value. -/
  | genericFor (slots : List Nat) (hidden : Nat) (values : List Expr) (body : List Stmt)
      (line : Nat)
  /-- Returns from the function. -/
  | return (values : List Expr) (line : Nat)
  /-- Leaves the innermost loop. -/
  | break (line : Nat)
  /-- Goes on at a label. -/
  | goto (label : String) (line : Nat)
  /-- Labels. -/
  | labels (names : List String)

/-- Where a closure takes an upvalue from when it is made. -/
inductive Source where
  /-- A local variable of the enclosing function. -/
  | local (slot : Nat)
  /-- An upvalue of the enclosing function. -/
  | upvalue (index : Nat)
deriving DecidableEq, Repr

/-- A function. -/
structure FunctionBody where
  /-- The slots of the parameters. -/
  parameters : List Nat
  /-- Whether the function takes additional arguments. -/
  variadic : Bool
  /-- The number of slots. -/
  slots : Nat
  /-- The slots of the variables that inner functions refer to. -/
  captured : List Nat
  /-- The upvalues: their names, and where they come from. -/
  upvalues : Array (String × Source)
  /-- The statements. -/
  body : List Stmt
  /-- The line where the function ends. -/
  lastLine : Nat

instance : Inhabited FunctionBody := ⟨⟨[], false, 0, [], #[], [], 0⟩⟩

end LedgerReports.Script
