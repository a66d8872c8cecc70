import LedgerReports.Script.Value
import Std.Data.HashMap

/-!
# Tables

A table keeps the elements with the keys 1, 2, … up to some size as a sequence and all others as
pairs. The sequence has as many places as are worth it: when a new key finds no room among the
pairs, the keys are counted anew, and the sequence gets the greatest power of two of which more than
half would be in use.

The length of a table is a *border*: a place that is in use and followed by one that is not. If there
are several, the sizes of the two parts decide which one it is.
-/

namespace LedgerReports.Script

/-- The pairs of a table, in the order in which their keys came in. A pair whose value is `nil` is
left over from one that was removed. -/
structure Pairs where
  /-- The keys and values. -/
  entries : Array (Value × Value) := #[]
  /-- Where the pair of a key stands. -/
  positions : Std.HashMap Value.Key Nat := ∅
  /-- How many pairs there is room for. -/
  capacity : Nat := 0

/-- Adds a pair with a new key, for which there is room. -/
def Pairs.push (p : Pairs) (k : Value.Key) (key value : Value) : Pairs :=
  let positions := p.positions.insert k p.entries.size
  { p with positions, entries := p.entries.push (key, value) }

/-- A table. -/
structure Table where
  /-- The places of the sequence. -/
  items : Array Value := #[]
  /-- The other elements. -/
  pairs : Pairs := {}
  /-- The table that says how this one behaves. -/
  metatable : Option Nat := none

namespace Table

instance : Inhabited Table := ⟨{}⟩

/-- The least power of two that is not less than `n`; nothing for nothing. -/
def roomFor (n : Nat) : Nat := if n = 0 then 0 else if n = 1 then 1 else 2 ^ ((n - 1).log2 + 1)

/-- A table with places for a sequence and room for pairs. -/
def withRoom (items pairs : Nat) : Table :=
  { items := Array.replicate items .nil, pairs := { capacity := roomFor pairs } }

/-- The place in a sequence of the given size that an integer key stands for. -/
def place? (size : Nat) (n : Int64) : Option Nat :=
  let i := n.toInt
  if 1 ≤ i ∧ i ≤ size then some (i.toNat - 1) else none

/-- The value of a key among the pairs. -/
def pairValue (t : Table) (k : Value.Key) : Value :=
  match t.pairs.positions[k]? with
  | some i => (t.pairs.entries[i]?.map (·.2)).getD .nil
  | none => .nil

/-- The element with an integer key. -/
def getInteger (t : Table) (n : Int64) : Value :=
  match place? t.items.size n with
  | some i => t.items.getD i .nil
  | none => t.pairValue (.integer n)

/-- The element with a key. -/
def getKey (t : Table) : Value.Key → Value
  | .integer n => t.getInteger n
  | k => t.pairValue k

/-- The element with a key; `nil` if there is none. -/
def get (t : Table) (key : Value) : Value :=
  match key.key? with
  | some k => t.getKey k
  | none => .nil

/-- The elements from number 1 to the first that is `nil`, but no more than `most` of them. -/
def leading (t : Table) (most : Nat) : List Value :=
  (go most #[]).toList
where
  /-- The elements after those taken so far. -/
  go : Nat → Array Value → Array Value
    | 0, taken => taken
    | left + 1, taken =>
      match t.getInteger (Int64.ofInt (taken.size + 1)) with
      | .nil => taken
      | v => go left (taken.push v)

/-! ### Sizes -/

/-- The number of the smallest power of two that is not less than a positive key. -/
def bucket (n : Nat) : Nat := if n ≤ 1 then 0 else (n - 1).log2 + 1

/-- Counts a key in the bucket of its power of two, if it is a positive integer. -/
def countKey (buckets : Array Nat) : Value.Key → Array Nat
  | .integer n => if 0 < n.toInt then buckets.modify (bucket n.toInt.toNat) (· + 1) else buckets
  | _ => buckets

/-- The size of the sequence that is worth it, given how many integer keys there are in each bucket
and in all: how many of them it holds, and the size. -/
def bestSize (buckets : Array Nat) (total : Nat) : Nat × Nat :=
  let step (state : Nat × Nat × Nat) (i : Nat) : Nat × Nat × Nat :=
    let (below, held, size) := state
    if total > 2 ^ i / 2 then
      let below := below + buckets.getD i 0
      if below > 2 ^ i / 2 then (below, below, 2 ^ i) else (below, held, size)
    else state
  let (_, held, size) := (List.range (total.log2 + 2)).foldl step (0, 0, 0)
  (held, size)

/-- All elements with their keys. -/
def toList (t : Table) : List (Value × Value) :=
  let items := t.items.toList.zipIdx.map fun (v, i) => (Value.ofInt (i + 1), v)
  (items ++ t.pairs.entries.toList).filter fun (_, v) => !v.isNil

/-- Sets an element that has a place or goes among the pairs, without looking for room. -/
def putAnywhere (t : Table) (key value : Value) : Table :=
  match key.key? with
  | none => t
  | some k =>
    let place :=
      match k with
      | .integer n => place? t.items.size n
      | _ => none
    match place with
    | some i => { t with items := t.items.setIfInBounds i value }
    | none => { t with pairs := t.pairs.push k key value }

/-- The table with parts of a new size. -/
def resize (t : Table) (items pairs : Nat) : Table :=
  let fresh : Table := { withRoom items pairs with metatable := t.metatable }
  t.toList.foldl (fun t (k, v) => t.putAnywhere k v) fresh

/-- The table with room for a new key: all keys are counted, the new one included. -/
def makeRoom (t : Table) (k : Value.Key) : Table :=
  let keys := k :: t.toList.filterMap fun (key, _) => key.key?
  let buckets := keys.foldl countKey (Array.replicate 65 0)
  let integers := buckets.foldl (· + ·) 0
  let (held, size) := bestSize buckets integers
  t.resize size (keys.length - held)

/-- The table with at least the given number of places in its sequence. -/
def reserveItems (t : Table) (size : Nat) : Table :=
  if t.items.size < size then t.resize size t.pairs.entries.size else t

/-! ### Setting -/

/-- Sets the element with a key. -/
def setKey (t : Table) (k : Value.Key) (key value : Value) : Table :=
  let place :=
    match k with
    | .integer n => place? t.items.size n
    | _ => none
  match place with
  | some i => { t with items := t.items.setIfInBounds i value }
  | none =>
    match t.pairs.positions[k]? with
    | some i =>
      { t with pairs := { t.pairs with entries := t.pairs.entries.modify i fun e => (e.1, value) } }
    | none =>
      if value.isNil then t
      else if t.pairs.entries.size < t.pairs.capacity then
        { t with pairs := t.pairs.push k key value }
      else (t.makeRoom k).putAnywhere key value

/-- The key as it is kept: a float that is equal to an integer becomes it. -/
def storedKey (key : Value) : Value.Key → Value
  | .integer n => .number (.integer n)
  | _ => key

/-- Sets the element with a key that is neither `nil` nor no number. -/
def set (t : Table) (key value : Value) : Table :=
  match key.key? with
  | some k => t.setKey k (storedKey key k) value
  | none => t

/-- Sets the element with a number. -/
def setInteger (t : Table) (n : Int) (value : Value) : Table := t.set (Value.ofInt n) value

/-! ### Length -/

/-- A border between a place in use (or none) and a later one that is not in use. -/
def searchBorder (inUse : Nat → Bool) : (fuel lo hi : Nat) → Nat
  | 0, lo, _ => lo
  | fuel + 1, lo, hi =>
    if hi - lo ≤ 1 then lo
    else
      let mid := (lo + hi) / 2
      if inUse mid then searchBorder inUse fuel mid hi else searchBorder inUse fuel lo mid

/-- A border from a place in use on, looked for at doubled distances. -/
def searchUnbounded (inUse : Nat → Bool) : (fuel lo : Nat) → Nat
  | 0, lo => lo
  | fuel + 1, lo =>
    let hi := lo * 2
    if inUse hi then searchUnbounded inUse fuel hi else searchBorder inUse 64 lo hi

/-- The length of the table. -/
def length (t : Table) : Nat :=
  let size := t.items.size
  let inUse (n : Nat) : Bool := !(t.getInteger (Int64.ofInt n)).isNil
  if 0 < size ∧ !inUse size then
    if 2 ≤ size ∧ inUse (size - 1) then size - 1 else searchBorder inUse 64 0 size
  else if inUse (size + 1) then searchUnbounded inUse 62 (size + 1)
  else size

/-! ### Walking through a table -/

/-- The first element in use at a place of the sequence or after it. -/
def nextItem? (t : Table) (i : Nat) : Option (Value × Value) :=
  if h : i < t.items.size then
    if t.items[i].isNil then nextItem? t (i + 1) else some (Value.ofInt (i + 1), t.items[i])
  else
    none
termination_by t.items.size - i

/-- The first pair in use at a position or after it. -/
def nextPair? (t : Table) (i : Nat) : Option (Value × Value) :=
  if h : i < t.pairs.entries.size then
    if t.pairs.entries[i].2.isNil then nextPair? t (i + 1) else some t.pairs.entries[i]
  else
    none
termination_by t.pairs.entries.size - i

/-- The first element from a place of the sequence on. -/
def nextFrom? (t : Table) (i : Nat) : Option (Value × Value) :=
  match t.nextItem? i with
  | some found => some found
  | none => t.nextPair? 0

/-- What follows a key in a walk: an element, or the end; nothing if the key is unknown. -/
def next? (t : Table) (key : Value) : Option (Option (Value × Value)) :=
  match key with
  | .nil => some (t.nextFrom? 0)
  | key => do
    let k ← key.key?
    let place :=
      match k with
      | .integer n => place? t.items.size n
      | _ => none
    match place with
    | some i => return t.nextFrom? (i + 1)
    | none =>
      let i ← t.pairs.positions[k]?
      return t.nextPair? (i + 1)

/-- An estimate of the number of bytes that the table itself takes up. -/
def weight (t : Table) : Nat := 56 + 16 * t.items.size + 40 * t.pairs.capacity

end Table

end LedgerReports.Script
