import LedgerReports.Script.Library.Format
import LedgerReports.Script.Library.Matching
import LedgerReports.Script.Library.Packing

/-!
# Functions on strings

Parts of strings, single bytes, repetition and the like. A position may be negative, and then counts
from the end of the string. Arithmetic on strings reads them as numbers.
-/

namespace LedgerReports.Script

namespace StringFunction

/-- The position where a part begins. -/
def firstPosition (n : Int) (length : Nat) : Int :=
  if 0 < n then n else if n = 0 ∨ n < -length then 1 else length + n + 1

/-- The position where a part ends. -/
def lastPosition (n : Int) (length : Nat) : Int :=
  if length < n then length else if 0 ≤ n then n else if n < -length then 0 else length + n + 1

/-- A part of a string, from one position to another. -/
def part (bytes : ByteArray) (first last : Int) : ByteArray :=
  if last < first then ByteArray.empty else bytes.extract (first.toNat - 1) last.toNat

/-- A part of a string. -/
def subCall (c : Call) : ScriptM (Array Value) := do
  let bytes ← c.bytesArg 0
  let first := firstPosition (← c.integerArg 1) bytes.size
  let last := lastPosition (← c.integerOr 2 (-1)) bytes.size
  return one (← newString (part bytes first last))

/-- The most values that a function can have. -/
def maxResults : Nat := 999900

/-- Single bytes as numbers. -/
def byteCall (c : Call) : ScriptM (Array Value) := do
  let bytes ← c.bytesArg 0
  let n ← c.integerOr 1 1
  let first := firstPosition n bytes.size
  let last := lastPosition (← c.integerOr 2 n) bytes.size
  let found := part bytes first last
  if maxResults < found.size then c.raise "stack overflow (string slice too long)"
  return found.data.map fun b => .ofInt b.toNat

/-- A string of the bytes with given numbers. -/
def charCall (c : Call) : ScriptM (Array Value) := do
  let bytes ← (List.range c.args.size).mapM fun i => do
    let n ← c.integerArg i
    c.require (0 ≤ n ∧ n ≤ 255) i "value out of range"
    return UInt8.ofNat n.toNat
  return one (← newString ⟨bytes.toArray⟩)

/-- The most bytes that a repeated string may have. -/
def maxRepeated : Nat := 2 ^ 31 - 1

/-- `n` copies of a string with a separator between them, after `out`. -/
def repeatBytes (bytes separator : ByteArray) : Nat → ByteArray → ByteArray
  | 0, out => out
  | 1, out => out ++ bytes
  | n + 2, out => repeatBytes bytes separator (n + 1) (out ++ bytes ++ separator)

/-- Copies of a string one after the other. -/
def repeatCall (c : Call) : ScriptM (Array Value) := do
  let bytes ← c.bytesArg 0
  let n ← c.integerArg 1
  let separator ← c.optional 2 ByteArray.empty c.bytesArg
  if n ≤ 0 then return one (.string ByteArray.empty)
  let size := bytes.size + separator.size
  if maxRepeated / n.toNat < size then c.raise "resulting string too large"
  allocate (size * n.toNat)
  if size = 0 then return one (.string ByteArray.empty)
  return one (.string (repeatBytes bytes separator n.toNat ByteArray.empty))

/-- A string with each byte replaced by another one. -/
def mapCall (f : UInt8 → UInt8) (c : Call) : ScriptM (Array Value) := do
  let bytes ← c.bytesArg 0
  return one (← newString ⟨bytes.data.map f⟩)

/-- The small letter for a capital one. -/
def lowerByte (b : UInt8) : UInt8 := if 65 ≤ b ∧ b ≤ 90 then b + 32 else b

/-- The capital letter for a small one. -/
def upperByte (b : UInt8) : UInt8 := if 97 ≤ b ∧ b ≤ 122 then b - 32 else b

/-- A function in the form of bytes, which nothing here reads back. -/
def dumpCall (c : Call) : ScriptM (Array Value) := do
  match c.arg 0 with
  | .closure .. => return one (← newString ⟨#[27, 76, 117, 97, 84]⟩)
  | .builtin _ => c.raise "unable to dump given function"
  | _ => c.raiseExpected 0 "function"

/-- Runs a function on strings. -/
def run (f : StringFunction) (c : Call) : ScriptM (Array Value) := do
  match f with
  | byte => byteCall c
  | char => charCall c
  | dump => dumpCall c
  | find => findCall c
  | format => c.formatCall
  | gmatch => gmatchCall c
  | gsub => gsubCall c
  | len => return one (.ofInt (← c.bytesArg 0).size)
  | lower => mapCall lowerByte c
  | .match => matchCall c
  | pack => c.packCall
  | packSize => c.packSizeCall
  | rep => repeatCall c
  | reverse =>
    let bytes ← c.bytesArg 0
    return one (← newString ⟨bytes.data.reverse⟩)
  | sub => subCall c
  | unpack => c.unpackCall
  | upper => mapCall upperByte c

end StringFunction

namespace StringOperator

/-- The event that the operator stands for. -/
def event : StringOperator → String
  | add => "__add"
  | sub => "__sub"
  | mul => "__mul"
  | mod => "__mod"
  | pow => "__pow"
  | div => "__div"
  | floorDiv => "__idiv"
  | neg => "__unm"

/-- The operator on numbers; negation is another matter. -/
def arithOp? : StringOperator → Option ArithOp
  | add => some .add
  | sub => some .sub
  | mul => some .mul
  | mod => some .mod
  | pow => some .pow
  | div => some .div
  | floorDiv => some .floorDiv
  | neg => none

/-- Applies the operator to what two operands read as. If one of them is no number, the second
operand may know the operator. -/
def run (f : StringOperator) (c : Call) : ScriptM (Array Value) := do
  match (c.arg 0).toNumber?, (c.arg 1).toNumber? with
  | some m, some n =>
    match f.arithOp? with
    | some op => return one (← c.actor.arithNumbers op m n none none)
    | none => return one (.number m.neg)
  | _, _ =>
    let handler ←
      match c.arg 1 with
      | .string _ => pure .nil
      | v => metamethod v f.event
    match handler with
    | .nil => c.raise s!"attempt to perform arithmetic on a {(c.arg 0).typeName} value"
    | handler => return one (← c.actor.callForOne handler #[c.arg 0, c.arg 1])

end StringOperator

end LedgerReports.Script
