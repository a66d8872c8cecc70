import LedgerReports.Script.Library.Arguments

/-!
# Functions on tables

Tables as sequences: inserting and removing, moving and joining, and sorting. Elements are read and
written as a script would do it, so the metatable is asked.
-/

namespace LedgerReports.Script

namespace TableFunction

/-- Fails unless an argument is a table, or a value whose metatable knows the events. -/
def checkTable (c : Call) (i : Nat) (events : List String) : ScriptM Unit := do
  match c.arg i with
  | .table _ => return ()
  | v =>
    let known ← events.allM fun event => return !(← metamethod v event).isNil
    unless known && (← metatable? v).isSome do c.raiseExpected i "table"

/-- The length of a value, which has to be an integer. -/
def lengthOf (c : Call) (v : Value) : ScriptM Int := do
  match (← c.actor.len v none).toInteger? with
  | some n => return n.toInt
  | none => c.raise "object length is not an integer"

/-- The length of an argument on which the given events happen. -/
def lengthArg (c : Call) (events : List String) : ScriptM Int := do
  checkTable c 0 (events ++ ["__len"])
  lengthOf c (c.arg 0)

/-- An element of a value. -/
def item (c : Call) (v : Value) (i : Int) : ScriptM Value := c.actor.index v (.ofInt i) none

/-- Sets an element of a value. -/
def setItem (c : Call) (v : Value) (i : Int) (new : Value) : ScriptM Unit :=
  c.actor.setIndex v (.ofInt i) new none

/-- What is read and written. -/
def readWrite : List String := ["__index", "__newindex"]

/-- Joins the elements from `i` to `last`, of which there are `count`, after `out`. -/
def joinItems (c : Call) (separator : ByteArray) (last : Int) :
    (count : Nat) → (i : Int) → ByteArray → ScriptM ByteArray
  | 0, _, out => return out
  | count + 1, i, out => do
    match (← item c (c.arg 0) i).toBytes? with
    | some bytes =>
      allocate bytes.size
      let out := out ++ bytes
      joinItems c separator last count (i + 1) (if i = last then out else out ++ separator)
    | none => c.raise s!"invalid value (at index {i}) in table for 'concat'"

/-- Joins elements. -/
def concatCall (c : Call) : ScriptM (Array Value) := do
  let length ← lengthArg c ["__index"]
  let separator ← c.optional 1 ByteArray.empty c.bytesArg
  let first ← c.integerOr 2 1
  let last ← c.integerOr 3 length
  let bytes ← joinItems c separator last (last - first + 1).toNat first ByteArray.empty
  return one (← newString bytes)

/-- Moves elements up by one place, from the one before `i` down, `count` of them. -/
def shiftUp (c : Call) : (count : Nat) → (i : Int) → ScriptM Unit
  | 0, _ => return ()
  | count + 1, i => do
    setItem c (c.arg 0) i (← item c (c.arg 0) (i - 1))
    shiftUp c count (i - 1)

/-- Inserts an element. -/
def insertCall (c : Call) : ScriptM (Array Value) := do
  let free := (← lengthArg c readWrite) + 1
  match c.args.size with
  | 2 =>
    setItem c (c.arg 0) free (c.arg 1)
    return #[]
  | 3 =>
    let position ← c.integerArg 1
    c.require (1 ≤ position ∧ position ≤ free) 1 "position out of bounds"
    shiftUp c (free - position).toNat free
    setItem c (c.arg 0) position (c.arg 2)
    return #[]
  | _ => c.raise "wrong number of arguments to 'insert'"

/-- Moves elements down by one place, from the one after `i` up, `count` of them. -/
def shiftDown (c : Call) : (count : Nat) → (i : Int) → ScriptM Unit
  | 0, _ => return ()
  | count + 1, i => do
    setItem c (c.arg 0) i (← item c (c.arg 0) (i + 1))
    shiftDown c count (i + 1)

/-- Removes an element. -/
def removeCall (c : Call) : ScriptM (Array Value) := do
  let length ← lengthArg c readWrite
  let position ← c.integerOr 1 length
  unless position = length do
    c.require (1 ≤ position ∧ position ≤ length + 1) 1 "position out of bounds"
  let removed ← item c (c.arg 0) position
  shiftDown c (length - position).toNat position
  setItem c (c.arg 0) (max position length) .nil
  return one removed

/-- Copies elements of a value to another one, in the order of the list. -/
def copyItems (c : Call) (source target : Value) (first start : Int) : List Nat → ScriptM Unit
  | [] => return ()
  | i :: rest => do
    setItem c target (start + i) (← item c source (first + i))
    copyItems c source target first start rest

/-- Copies elements to another place. -/
def moveCall (c : Call) : ScriptM (Array Value) := do
  let first ← c.integerArg 1
  let last ← c.integerArg 2
  let start ← c.integerArg 3
  let other := !(c.arg 4).isNil
  let target := if other then c.arg 4 else c.arg 0
  checkTable c 0 ["__index"]
  checkTable c (if other then 4 else 0) ["__newindex"]
  if first ≤ last then
    let greatest : Int := 2 ^ 63 - 1
    c.require (0 < first ∨ last < greatest + first) 2 "too many elements to move"
    let count := last - first + 1
    c.require (start ≤ greatest - count + 1) 3 "destination wrap around"
    let places := List.range count.toNat
    let apart ←
      if last < start ∨ start ≤ first then pure true
      else if other then pure !(← c.actor.equal (c.arg 0) target)
      else pure false
    copyItems c (c.arg 0) target first start (if apart then places else places.reverse)
  return one target

/-- A table of all arguments, with their number. -/
def packCall (c : Call) : ScriptM (Array Value) := do
  let t : Table := { items := c.args, pairs := { capacity := 1 } }
  return one (← newTable (t.set (.ofText "n") (.ofInt c.args.size)))

/-- The most values that a function can have. -/
def maxResults : Nat := 999900

/-- The elements from `i` on, of which there are `count`, after `found`. -/
def collectItems (c : Call) : (count : Nat) → (i : Int) → Array Value → ScriptM (Array Value)
  | 0, _, found => return found
  | count + 1, i, found => do
    collectItems c count (i + 1) (found.push (← item c (c.arg 0) i))

/-- The elements of a table. -/
def unpackCall (c : Call) : ScriptM (Array Value) := do
  let first ← c.integerOr 1 1
  let last ← if (c.arg 2).isNil then lengthOf c (c.arg 0) else c.integerArg 2
  let count := (last - first + 1).toNat
  if maxResults < count then c.raise "too many results to unpack"
  collectItems c count first #[]

/-! ### Sorting

Ranges are sorted by parting them at a pivot, the middle one of the first, the middle and the last
element. How elements are compared may make no sense; that is then noticed, or the order is just
some order. -/

/-- Whether an element goes before another one. -/
def before (c : Call) (a b : Value) : ScriptM Bool :=
  match c.arg 1 with
  | .nil => c.actor.less a b
  | f => return (← c.actor.callForOne f #[a, b]).truthy

/-- Puts two elements in order, and gives them. -/
def orderPair (c : Call) (t : Value) (lo hi : Nat) : ScriptM Unit := do
  let a ← item c t lo
  let b ← item c t hi
  if ← before c b a then
    setItem c t lo b
    setItem c t hi a

/-- Puts the middle element in order with the two ends. -/
def orderMiddle (c : Call) (t : Value) (lo mid hi : Nat) : ScriptM Unit := do
  let m ← item c t mid
  let a ← item c t lo
  if ← before c m a then
    setItem c t mid a
    setItem c t lo m
  else
    let b ← item c t hi
    if ← before c b m then
      setItem c t mid b
      setItem c t hi m

/-- Raises that elements are compared in a way that makes no sense. -/
def raiseOrder {α : Type} (c : Call) : ScriptM α := c.raise "invalid order function for sorting"

/-- The first place after `i` whose element does not go before the pivot, with the element. -/
def scanUp (c : Call) (t pivot : Value) (hi : Nat) : (fuel i : Nat) → ScriptM (Nat × Value)
  | 0, _ => raiseOrder c
  | fuel + 1, i => do
    let v ← item c t (i + 1 : Nat)
    if ← before c v pivot then
      if i + 1 = hi - 1 then raiseOrder c else scanUp c t pivot hi fuel (i + 1)
    else
      return (i + 1, v)

/-- The last place before `j` whose element the pivot does not go before, with the element. -/
def scanDown (c : Call) (t pivot : Value) (i : Nat) : (fuel j : Nat) → ScriptM (Nat × Value)
  | 0, _ => raiseOrder c
  | fuel + 1, j => do
    let v ← item c t (j - 1 : Nat)
    if ← before c pivot v then
      if j - 1 < i then raiseOrder c else scanDown c t pivot i fuel (j - 1)
    else
      return (j - 1, v)

/-- Parts a range at the pivot, which stands before its last place, and gives the place where the
pivot comes to stand. -/
def partRange (c : Call) (t pivot : Value) (hi : Nat) : (fuel i j : Nat) → ScriptM Nat
  | 0, i, _ => return i
  | fuel + 1, i, j => do
    let (i, a) ← scanUp c t pivot hi (hi + 1) i
    let (j, b) ← scanDown c t pivot i (hi + 1) j
    if j < i then
      setItem c t (hi - 1 : Nat) a
      setItem c t i pivot
      return i
    else
      setItem c t i b
      setItem c t j a
      partRange c t pivot hi fuel i j

/-- Sorts the elements from `lo` to `hi`, the shorter part of a range first. -/
def sortRange (c : Call) (t : Value) : (fuel lo hi : Nat) → ScriptM Unit
  | 0, _, _ => return ()
  | fuel + 1, lo, hi => do
    if lo < hi then
      orderPair c t lo hi
      if hi - lo = 1 then return ()
      let mid := (lo + hi) / 2
      orderMiddle c t lo mid hi
      if hi - lo = 2 then return ()
      let pivot ← item c t mid
      let other ← item c t (hi - 1 : Nat)
      setItem c t mid other
      setItem c t (hi - 1 : Nat) pivot
      let p ← partRange c t pivot hi (hi + 1) lo (hi - 1)
      if p - lo < hi - p then
        sortRange c t fuel lo (p - 1)
        sortRange c t fuel (p + 1) hi
      else
        sortRange c t fuel (p + 1) hi
        sortRange c t fuel lo (p - 1)

/-- The most elements that can be sorted. -/
def maxSorted : Nat := 2 ^ 31 - 1

/-- Sorts a table. -/
def sortCall (c : Call) : ScriptM (Array Value) := do
  let length ← lengthArg c readWrite
  if 1 < length then
    c.require (length < maxSorted) 0 "array too big"
    unless (c.arg 1).isNil || (c.arg 1).isFunction do c.raiseExpected 1 "function"
    sortRange c (c.arg 0) length.toNat 1 length.toNat
  return #[]

/-- Runs a function on tables. -/
def run (f : TableFunction) (c : Call) : ScriptM (Array Value) := do
  match f with
  | concat => concatCall c
  | insert => insertCall c
  | move => moveCall c
  | pack => packCall c
  | remove => removeCall c
  | sort => sortCall c
  | unpack => unpackCall c

end TableFunction

end LedgerReports.Script
