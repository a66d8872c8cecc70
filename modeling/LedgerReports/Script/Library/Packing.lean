import LedgerReports.Script.Library.Arguments

/-!
# Binary layouts

A format is a string of letters, each of which says how a value is laid out in bytes: numbers of some
size, strings of a fixed size or with their length in front, and padding. `packCall` writes values
and `unpackCall` reads them; both go through the format with the same `PackState`.
-/

namespace LedgerReports.Script

/-- What an option of a format stands for. -/
inductive PackKind where
  /-- An integer. -/
  | signed
  /-- An integer that is not negative. -/
  | unsigned
  /-- A float of 32 bits. -/
  | single
  /-- A float of 64 bits. -/
  | double
  /-- A string of fixed size. -/
  | fixed
  /-- A string with its length in front. -/
  | counted
  /-- A string with a zero behind it. -/
  | terminated
  /-- A byte that is left out. -/
  | padding
  /-- Padding up to the alignment of the next option. -/
  | align
  /-- Nothing. -/
  | nothing
deriving DecidableEq, Repr

/-- What an option says: its kind, the bytes of padding in front, and its size. -/
structure PackOption where
  /-- The kind. -/
  kind : PackKind
  /-- The bytes of padding in front. -/
  lead : Nat
  /-- The size. -/
  size : Nat

/-- How a format is gone through. -/
structure PackState where
  /-- The rest of the format. -/
  rest : List Char
  /-- Whether the byte of least weight comes first. -/
  little : Bool := true
  /-- The greatest alignment. -/
  maxAlign : Nat := 1

namespace Call

variable (c : Call)

/-- The greatest size of an integer. -/
def maxIntegerSize : Nat := 16

/-- The greatest total size. -/
def maxPacked : Nat := 2 ^ 31 - 1

/-- Reads a number at the front, if there is one. A very great one is cut. -/
def packNumber? (cs : List Char) : Option Nat × List Char :=
  let (figures, rest) := Text.spanDigits cs
  if figures.isEmpty then (none, rest) else (some (min (Text.digitsValue figures) maxPacked), rest)

/-- Reads the size of an integer. -/
def packLimit (default : Nat) (cs : List Char) : ScriptM (Nat × List Char) := do
  let (n, rest) := packNumber? cs
  let n := n.getD default
  unless 1 ≤ n ∧ n ≤ maxIntegerSize do
    c.raise s!"integral size ({n}) out of limits [1,{maxIntegerSize}]"
  return (n, rest)

/-- Reads one option: its kind, its size and the state behind it. -/
def packLetter (letter : Char) (s : PackState) : ScriptM (PackKind × Nat × PackState) := do
  match letter with
  | 'b' => return (.signed, 1, s)
  | 'B' => return (.unsigned, 1, s)
  | 'h' => return (.signed, 2, s)
  | 'H' => return (.unsigned, 2, s)
  | 'l' | 'j' => return (.signed, 8, s)
  | 'L' | 'J' | 'T' => return (.unsigned, 8, s)
  | 'f' => return (.single, 4, s)
  | 'd' | 'n' => return (.double, 8, s)
  | 'i' | 'I' =>
    let (size, rest) ← c.packLimit 4 s.rest
    return (if letter = 'i' then .signed else .unsigned, size, { s with rest })
  | 's' =>
    let (size, rest) ← c.packLimit 8 s.rest
    return (.counted, size, { s with rest })
  | 'c' =>
    match packNumber? s.rest with
    | (some size, rest) => return (.fixed, size, { s with rest })
    | (none, _) => c.raise "missing size for format option 'c'"
  | 'z' => return (.terminated, 0, s)
  | 'x' => return (.padding, 1, s)
  | 'X' => return (.align, 0, s)
  | ' ' => return (.nothing, 0, s)
  | '<' | '=' => return (.nothing, 0, { s with little := true })
  | '>' => return (.nothing, 0, { s with little := false })
  | '!' =>
    let (maxAlign, rest) ← c.packLimit 8 s.rest
    return (.nothing, 0, { s with rest, maxAlign })
  | letter => c.raise s!"invalid format option '{letter}'"

/-- Reads one option with its alignment, `total` bytes being laid out so far. -/
def packOption (total : Nat) (letter : Char) (s : PackState) :
    ScriptM (PackOption × PackState) := do
  let (kind, size, s) ← c.packLetter letter s
  let (align, s) ←
    if kind = .align then do
      match s.rest with
      | [] => c.raiseArgument 0 "invalid next option for option 'X'"
      | next :: rest =>
        let (following, align, s) ← c.packLetter next { s with rest }
        if following = .fixed ∨ align = 0 then
          c.raiseArgument 0 "invalid next option for option 'X'"
        pure (align, s)
    else pure (size, s)
  if align ≤ 1 ∨ kind = .fixed then return (⟨kind, 0, size⟩, s)
  let align := min align s.maxAlign
  unless align = 2 ^ align.log2 do
    c.raiseArgument 0 "format asks for alignment not power of 2"
  return (⟨kind, (align - total % align) % align, size⟩, s)

/-- The bytes of a natural number. -/
def packedNat (little : Bool) (size n : Nat) : ByteArray :=
  let bytes := (List.range size).map fun i => UInt8.ofNat (n / 256 ^ i % 256)
  ⟨(if little then bytes else bytes.reverse).toArray⟩

/-- Some zeros. -/
def zeros (n : Nat) : ByteArray := ⟨Array.replicate n 0⟩

/-- The bytes that an option makes of argument `i`, and whether it used the argument. -/
def packValue (little : Bool) (o : PackOption) (i : Nat) : ScriptM (ByteArray × Bool) := do
  match o.kind with
  | .signed =>
    let n ← c.integerArg i
    let limit : Int := 2 ^ (8 * o.size - 1)
    c.require (8 ≤ o.size || (-limit ≤ n && n < limit)) i "integer overflow"
    return (packedNat little o.size (n % 2 ^ (8 * o.size)).toNat, true)
  | .unsigned =>
    let n ← c.integerArg i
    let bits := (Int64.ofInt n).toUInt64.toNat
    c.require (8 ≤ o.size || bits < 2 ^ (8 * o.size)) i "unsigned overflow"
    return (packedNat little o.size (n % 2 ^ (8 * o.size)).toNat, true)
  | .single =>
    let bits := (← c.numberArg i).toFloat.toFloat32.toBits
    return (packedNat little 4 bits.toNat, true)
  | .double => return (packedNat little 8 (← c.numberArg i).toFloat.toBits.toNat, true)
  | .fixed =>
    let bytes ← c.bytesArg i
    c.require (bytes.size ≤ o.size) i "string longer than given size"
    return (bytes ++ zeros (o.size - bytes.size), true)
  | .counted =>
    let bytes ← c.bytesArg i
    c.require (8 ≤ o.size || bytes.size < 2 ^ (8 * o.size)) i
      "string length does not fit in given size"
    return (packedNat little o.size bytes.size ++ bytes, true)
  | .terminated =>
    let bytes ← c.bytesArg i
    c.require (!bytes.data.contains 0) i "string contains zeros"
    return (bytes.push 0, true)
  | .padding => return (zeros 1, false)
  | .align | .nothing => return (ByteArray.empty, false)

/-- Lays out the arguments from number `i` on. -/
def packFrom : (fuel i : Nat) → PackState → ByteArray → ScriptM ByteArray
  | 0, _, _, out => return out
  | fuel + 1, i, s, out => do
    match s.rest with
    | [] => return out
    | letter :: rest =>
      let (o, s) ← c.packOption out.size letter { s with rest }
      allocate (o.lead + o.size)
      let (bytes, used) ← c.packValue s.little o i
      packFrom fuel (if used then i + 1 else i) s (out ++ zeros o.lead ++ bytes)

/-- Lays out values in bytes. -/
def packCall : ScriptM (Array Value) := do
  let format := Bytes.toChars (← c.bytesArg 0)
  return one (← newString (← c.packFrom format.length 1 { rest := format } ByteArray.empty))

/-- The size of a layout from `total` bytes on. -/
def packSizeFrom : (fuel total : Nat) → PackState → ScriptM Nat
  | 0, total, _ => return total
  | fuel + 1, total, s => do
    match s.rest with
    | [] => return total
    | letter :: rest =>
      let (o, s) ← c.packOption total letter { s with rest }
      c.require (o.kind != .counted && o.kind != .terminated) 0 "variable-length format"
      c.require (total + o.lead + o.size ≤ maxPacked) 0 "format result too large"
      packSizeFrom fuel (total + o.lead + o.size) s

/-- The size of a layout. -/
def packSizeCall : ScriptM (Array Value) := do
  let format := Bytes.toChars (← c.bytesArg 0)
  return one (.ofInt (← c.packSizeFrom format.length 0 { rest := format }))

/-- The natural number that some bytes are. -/
def unpackedNat (little : Bool) (bytes : ByteArray) : Nat :=
  let bytes := bytes.toList
  (if little then bytes.reverse else bytes).foldl (fun n b => 256 * n + b.toNat) 0

/-- The integer that some bytes are. More than eight are fine if they only repeat the sign. -/
def unpackedInteger (little signed : Bool) (bytes : ByteArray) : ScriptM Int := do
  let n := unpackedNat little bytes
  let negative := signed && decide (2 ^ (8 * bytes.size - 1) ≤ n)
  let value : Int := if negative then (n : Int) - 2 ^ (8 * bytes.size) else n
  unless bytes.size ≤ 8 ∨ n < 2 ^ 64 ∨ (negative ∧ -2 ^ 64 ≤ value) do
    c.raise s!"{bytes.size}-byte integer does not fit into Lua Integer"
  return value

/-- The value that an option reads at a position, and the position behind it. -/
def unpackValue (little : Bool) (o : PackOption) (data : ByteArray) (position : Nat) :
    ScriptM (Option Value × Nat) := do
  let bytes := data.extract position (position + o.size)
  let next := position + o.size
  match o.kind with
  | .signed => return (some (.ofInt (← c.unpackedInteger little true bytes)), next)
  | .unsigned => return (some (.ofInt (← c.unpackedInteger little false bytes)), next)
  | .single =>
    let bits := UInt32.ofNat (unpackedNat little bytes)
    return (some (.ofFloat (Float32.ofBits bits).toFloat), next)
  | .double =>
    let bits := UInt64.ofNat (unpackedNat little bytes)
    return (some (.number (Number.ofBits bits)), next)
  | .fixed => return (some (← newString bytes), next)
  | .counted =>
    let length := unpackedNat little bytes
    c.require (length ≤ data.size - next) 1 "data string too short"
    return (some (← newString (data.extract next (next + length))), next + length)
  | .terminated =>
    match (data.extract position data.size).toList.findIdx? (· == 0) with
    | some length =>
      return (some (← newString (data.extract position (position + length))),
        position + length + 1)
    | none => c.raiseArgument 1 "unfinished string for format 'z'"
  | .padding | .align | .nothing => return (none, next)

/-- Reads values from a position on. -/
def unpackFrom (data : ByteArray) :
    (fuel position : Nat) → PackState → Array Value → ScriptM (Array Value)
  | 0, position, _, found => return found.push (.ofInt (position + 1))
  | fuel + 1, position, s, found => do
    match s.rest with
    | [] => return found.push (.ofInt (position + 1))
    | letter :: rest =>
      let (o, s) ← c.packOption position letter { s with rest }
      c.require (o.lead + o.size ≤ data.size - position) 1 "data string too short"
      let (value, next) ← c.unpackValue s.little o data (position + o.lead)
      unpackFrom data fuel next s (found ++ value.toArray)

/-- Reads values out of bytes. -/
def unpackCall : ScriptM (Array Value) := do
  let format := Bytes.toChars (← c.bytesArg 0)
  let data ← c.bytesArg 1
  let n ← c.integerOr 2 1
  let size : Int := data.size
  let first := if 0 < n then n else if n = 0 ∨ n < -size then 1 else size + n + 1
  c.require (first - 1 ≤ size) 2 "initial position out of string"
  c.unpackFrom data (format.length + 1) (first - 1).toNat { rest := format } #[]

end Call

end LedgerReports.Script
