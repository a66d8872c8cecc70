import LedgerReports.Ledger.Basic
import LedgerReports.Script.Builtin
import LedgerReports.Script.Code
import LedgerReports.Script.HostError
import LedgerReports.Text.Bytes

/-!
# Values

What a script computes with. Tables are shared and can be changed, so a value only holds the number
of a table. Closures and objects of the host have a number too, by which they are told apart.
-/

namespace LedgerReports.Script

/-- A function of a program together with the boxes of its upvalues. -/
structure Closure where
  /-- The program. -/
  program : Program
  /-- The number of the function in it. -/
  number : Nat
  /-- The boxes of the upvalues. -/
  upvalues : Array Nat

instance : Inhabited Closure := ⟨⟨default, 0, #[]⟩⟩

/-- The function of a closure. -/
def Closure.function (c : Closure) : Prototype := c.program.function c.number

/-- An object of the host. -/
inductive HostObject where
  /-- A day. -/
  | date (d : Date)
  /-- An account. -/
  | account (a : Account)
  /-- A security. -/
  | security (s : Security)
  /-- A price. -/
  | price (p : Price)
  /-- A balance. -/
  | balance (b : Balance)
  /-- The draft of a tabulation with this number. -/
  | tabulation (draft : Nat)
  /-- A series of the draft with this number. -/
  | series (draft node : Nat)
  /-- What stands for an error of the host. -/
  | failure (e : HostError)

/-- The kind of an object; a failure has none. -/
def HostObject.kind? : HostObject → Option HostKind
  | date _ => some .date
  | account _ => some .account
  | security _ => some .security
  | price _ => some .price
  | balance _ => some .balance
  | tabulation _ => some .tabulation
  | series .. => some .series
  | failure _ => none

/-- The name of a kind in errors. -/
def HostKind.typeName : HostKind → String
  | date => "Date"
  | account => "Account"
  | security => "Security"
  | price => "Price"
  | balance => "Balance"
  | tabulation => "TabulationHandle"
  | series => "SeriesHandle"

/-- A value. -/
inductive Value where
  /-- The absence of a value. -/
  | nil
  /-- A truth value. -/
  | bool (b : Bool)
  /-- A number. -/
  | number (n : Number)
  /-- A string of bytes. -/
  | string (bytes : ByteArray)
  /-- The table with this number. -/
  | table (id : Nat)
  /-- A closure. -/
  | closure (id : Nat) (function : Closure)
  /-- A built-in function. -/
  | builtin (f : Builtin)
  /-- An object of the host. -/
  | object (id : Nat) (o : HostObject)

namespace Value

instance : Inhabited Value := ⟨nil⟩

/-- The value of a constant. -/
def ofLiteral : Literal → Value
  | .nil => nil
  | .bool b => bool b
  | .number n => number n
  | .string bytes => string bytes

/-- An integer as a value. -/
def ofInt (n : Int) : Value := number (Number.ofInt n)

/-- A float as a value. -/
def ofFloat (x : Float) : Value := number (Number.ofFloat x)

/-- A text as a value. -/
def ofText (text : String) : Value := string text.toUTF8

/-- Whether the value counts as true: `nil` and `false` do not. -/
def truthy : Value → Bool
  | nil | bool false => false
  | _ => true

/-- Whether the value is `nil`. -/
def isNil : Value → Bool
  | nil => true
  | _ => false

/-- Whether the value is a function. -/
def isFunction : Value → Bool
  | closure .. | builtin _ => true
  | _ => false

/-- The name of the type of the value. -/
def typeName : Value → String
  | nil => "nil"
  | bool _ => "boolean"
  | number _ => "number"
  | string _ => "string"
  | table _ => "table"
  | closure .. | builtin _ => "function"
  | object .. => "userdata"

/-- The name of the type of the value as the host tells types apart: integers from other numbers, and
what stands for an error from other objects. -/
def exactTypeName : Value → String
  | number (.integer _) => "integer"
  | object _ (.failure _) => "error"
  | v => v.typeName

/-- Strings are compared as the core library does, whatever else is imported. -/
local instance (priority := 2000) decEqKeyBytes : DecidableEq ByteArray :=
  ByteArray.instDecidableEq

/-- What makes two values the same key or the same thing. -/
inductive Key where
  /-- A truth value. -/
  | bool (b : Bool)
  /-- An integer, or a float equal to one. -/
  | integer (n : Int64)
  /-- Any other float, by its bits. -/
  | float (bits : UInt64)
  /-- A string. -/
  | string (bytes : ByteArray)
  /-- A table. -/
  | table (id : Nat)
  /-- A closure. -/
  | closure (id : Nat)
  /-- A built-in function. -/
  | builtin (f : Builtin)
  /-- An object of the host. -/
  | object (id : Nat)
deriving DecidableEq, Hashable

/-- The value as a key; `nil` and the float that is no number are none. -/
def key? : Value → Option Key
  | nil => none
  | bool b => some (.bool b)
  | number n =>
    match n with
    | .integer i => some (.integer i)
    | .float x =>
      match Number.floatToInteger? x with
      | some i => some (.integer i)
      | none => some (.float x.toBits)
    | .nan _ => none
  | string bytes => some (.string bytes)
  | table id => some (.table id)
  | closure id _ => some (.closure id)
  | builtin f => some (.builtin f)
  | object id _ => some (.object id)

/-- Whether two values are the same, without asking the values themselves. -/
def rawEquals (a b : Value) : Bool :=
  match a, b with
  | nil, nil => true
  | string x, string y => x == y
  | number (.integer m), number (.integer n) => m == n
  | a, b =>
    match a.key?, b.key? with
    | some x, some y => x == y
    | _, _ => false

/-- The number that the value is or that its text stands for. -/
def toNumber? : Value → Option Number
  | number n => some n
  | string bytes => Number.read? (Bytes.toChars bytes)
  | _ => none

/-- The integer that the value is equal to, after its text has been read as a number. -/
def toInteger? (v : Value) : Option Int64 := v.toNumber?.bind Number.toInteger?

/-- The string that the value is, or the text of a number. -/
def toBytes? : Value → Option ByteArray
  | string bytes => some bytes
  | number n => some n.toText.toUTF8
  | _ => none

end Value

end LedgerReports.Script
