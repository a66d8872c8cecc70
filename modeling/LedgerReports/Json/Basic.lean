/-!
# JSON values

A JSON text as a tree. A number is kept as it is written, because how it is read depends on what it is
wanted for; and a string may stand for no text at all, which only matters if somebody asks for it.
-/

namespace LedgerReports

/-- A number as it is written. -/
structure Numeral where
  /-- Whether there is a minus sign. -/
  negative : Bool := false
  /-- The digits before the point. -/
  whole : List Char
  /-- The digits behind the point, if there is one. -/
  fraction : Option (List Char) := none
  /-- The exponent, if there is one. -/
  exponent : Option Int := none
deriving DecidableEq, Repr

/-- A JSON value. -/
inductive Json where
  /-- Nothing. -/
  | null
  /-- A truth value. -/
  | bool (b : Bool)
  /-- A number. -/
  | number (n : Numeral)
  /-- A string, or a string that stands for no text. -/
  | string (text : Option String)
  /-- A list of values. -/
  | array (items : List Json)
  /-- Values by name, in the order in which they are written. -/
  | object (members : List (Option String × Json))

namespace Json

instance : Inhabited Json := ⟨null⟩

/-- The text that the value is. -/
def toText? : Json → Option String
  | string text => text
  | _ => none

/-- The list that the value is. -/
def toList? : Json → Option (List Json)
  | array items => some items
  | _ => none

/-- The value of a field of an object; nothing if it is missing or not the only one of its name. -/
def field? (members : List (Option String × Json)) (name : String) : Option Json :=
  match members.filter fun (key, _) => key == some name with
  | [(_, v)] => some v
  | _ => none

/-- Whether an object has a field. -/
def hasField (members : List (Option String × Json)) (name : String) : Bool :=
  members.any fun (key, _) => key == some name

/-- Whether all names of an object are texts. -/
def wellNamed (members : List (Option String × Json)) : Bool :=
  members.all fun (key, _) => key.isSome

/-- The values of the given fields, which are there exactly once. A list with as many elements will do
as well. -/
def fields? (names : List String) : Json → Option (List Json)
  | object members => if wellNamed members then names.mapM (field? members) else none
  | array items => if items.length = names.length then some items else none
  | _ => none

end Json

end LedgerReports
