import LedgerReports.Script.Syntax

/-!
# Code

A function is run as a list of instructions that work on a stack of operands and on numbered slots
for local variables. A local variable that an inner function refers to lives in a box instead, which
the closures share.

The last of a list of expressions may have any number of values. They are *pending*: the instruction
that yields them leaves them apart from the stack, and the next instruction takes them up.
-/

namespace LedgerReports.Script

/-- Where a value in an error comes from: the kind of variable and its name. -/
structure Origin where
  /-- The kind, `global` or `field` for instance. -/
  kind : String
  /-- The name. -/
  name : String

/-- How many values of a call are wanted. -/
inductive Want where
  /-- Exactly this many, on the stack; missing ones are `nil`. -/
  | exactly (count : Nat)
  /-- All of them, as pending values. -/
  | all

/-- An instruction. Operands are taken from the stack, the last one first; a result is put there. -/
inductive Instr where
  /-- Puts a constant on the stack. -/
  | literal (value : Literal)
  /-- Yields the additional arguments. -/
  | varargs (want : Want)
  /-- Puts the value of a slot on the stack. -/
  | getLocal (slot : Nat)
  /-- Sets a slot. -/
  | setLocal (slot : Nat)
  /-- Puts a value into a new box for the slot. -/
  | newBox (slot : Nat)
  /-- Puts the value in the box of a slot on the stack. -/
  | getBox (slot : Nat)
  /-- Sets the value in the box of a slot. -/
  | setBox (slot : Nat)
  /-- Puts the value of an upvalue on the stack. -/
  | getUpvalue (index : Nat)
  /-- Sets an upvalue. -/
  | setUpvalue (index : Nat)
  /-- Replaces a table and a key by the element. -/
  | index (table : Option Origin)
  /-- Replaces a table by the element with a constant key. -/
  | field (key : Literal) (table : Option Origin)
  /-- Replaces an object by its element with the name and the object. -/
  | method (name : ByteArray) (object : Option Origin)
  /-- Takes a value and sets an element: table and key are on the stack, with `above` values on top of
  them, and stay there. -/
  | setIndex (above : Nat) (table : Option Origin)
  /-- Calls a function with `args` arguments, and the pending values too if `multi` is set. -/
  | call (args : Nat) (multi : Bool) (want : Want) (function : Option Origin)
  /-- Calls a function in the place of this one. -/
  | tailCall (args : Nat) (multi : Bool) (function : Option Origin)
  /-- Returns values, and the pending ones too if `multi` is set. -/
  | return (count : Nat) (multi : Bool)
  /-- Applies an arithmetic or bitwise operator. -/
  | arith (op : ArithOp) (left right : Option Origin)
  /-- Applies an operator with one operand. -/
  | unary (op : UnaryOp) (operand : Option Origin)
  /-- Compares. -/
  | compare (op : CompareOp)
  /-- Concatenates. -/
  | concat (left right : Option Origin)
  /-- Goes on elsewhere. -/
  | jump (target : Nat)
  /-- Goes on elsewhere if a value counts as false. -/
  | jumpIfFalse (target : Nat)
  /-- Goes on elsewhere if the value on the stack counts as `truth`, and else takes it off. -/
  | jumpKeeping (truth : Bool) (target : Nat)
  /-- Puts a new table on the stack, with room for elements. -/
  | newTable (items pairs : Nat)
  /-- Takes a key and a value, and sets the element of the table below them. -/
  | setPair
  /-- Takes values, and the pending ones too if `multi` is set, and sets the elements of the table
  below them from a number on. -/
  | setItems (first count : Nat) (multi : Bool)
  /-- Puts a closure on the stack. -/
  | closure (number : Nat)
  /-- Takes first number, limit and step of a loop; puts the first number on the stack, or leaves the
  loop. -/
  | beginFor (hidden exit : Nat)
  /-- Goes back with the next number of a loop on the stack, or goes on. -/
  | nextFor (hidden body : Nat)
  /-- Calls the iterator of a loop and puts `count` values on the stack. -/
  | callIterator (hidden count : Nat)
  /-- Leaves the loop if the first of the `count` values is `nil`; then they are taken off. -/
  | testIterator (hidden count exit : Nat)
  /-- Takes a value that is to be closed. -/
  | markClosing (name : String)
  /-- Closes values until only `depth` are left to be closed. -/
  | closeTo (depth : Nat)
  /-- Takes values off. -/
  | drop (count : Nat)
  /-- Exchanges the two values on top. -/
  | swap

/-- The instruction with its targets replaced by others. -/
def Instr.mapTargets (f : Nat → Nat) : Instr → Instr
  | jump target => .jump (f target)
  | jumpIfFalse target => .jumpIfFalse (f target)
  | jumpKeeping truth target => .jumpKeeping truth (f target)
  | beginFor hidden exit => .beginFor hidden (f exit)
  | nextFor hidden body => .nextFor hidden (f body)
  | testIterator hidden count exit => .testIterator hidden count (f exit)
  | i => i

/-- A function ready to be run. -/
structure Prototype where
  /-- The slots of the parameters. -/
  parameters : List Nat
  /-- Whether the function takes additional arguments. -/
  variadic : Bool
  /-- The number of slots. -/
  slots : Nat
  /-- Whether some slot has a box. -/
  boxed : Bool
  /-- The upvalues: their names, and where they come from. -/
  upvalues : Array (String × Source)
  /-- The instructions. -/
  code : Array Instr
  /-- The line of each instruction. -/
  lines : Array Nat

instance : Inhabited Prototype := ⟨⟨[], false, 0, false, #[], #[], #[]⟩⟩

/-- A program: the functions of a chunk, ready to be run, and the name shown in errors. -/
structure Program where
  /-- The name of the chunk. -/
  name : String
  /-- The functions; the first is the chunk itself. -/
  functions : Array Prototype

instance : Inhabited Program := ⟨⟨"?", #[]⟩⟩

/-- The function with a number. -/
def Program.function (p : Program) (number : Nat) : Prototype := p.functions.getD number default

end LedgerReports.Script
