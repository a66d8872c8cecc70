import LedgerReports.Calendar.Problem
import LedgerReports.Script.Library.Conversion

/-!
# Objects of the host

What a script can do with a day, an account, a balance and the like: read and set fields, call
methods, and use operators. A method gets its object as the first argument, so it may be called with
something else, and then fails.

A kind of object that has methods yields `nil` for an unknown field; the others refuse.
-/

namespace LedgerReports.Script

/-- Reads the argument of a method, counted from 0, the object being number 0. -/
def Call.readFor {α : Type} (c : Call) (method : String) (i : Nat)
    (convert : Value → Except HostError α) : ScriptM α :=
  match convert (c.arg i) with
  | .ok a => return a
  | .error e =>
    raiseHost (.badArgument (if i = 0 then .self else .index (i + 1)) (some method) e)

/-- The draft of the tabulation that an object is. -/
def HostObject.tabulation? : HostObject → Option Nat
  | tabulation draft => some draft
  | _ => none

/-- The draft and the node of the series that an object is. -/
def HostObject.series? : HostObject → Option (Nat × Nat)
  | series draft node => some (draft, node)
  | _ => none

/-- A draft on the workbench. -/
def getDraft (id : Nat) : ScriptM Draft := return (← getThe Machine).workbench.draft id

/-- The values of a node of a draft. -/
def getValues (draft node : Nat) : ScriptM (Array Float) :=
  return ((← getThe Machine).workbench.node draft node).values

/-! ### Fields -/

/-- A field of an object. -/
def HostObject.field? (o : HostObject) (name : String) : Option (ScriptM Value) :=
  let int (n : Int) : Option (ScriptM Value) := some (return .ofInt n)
  let text (s : String) : Option (ScriptM Value) := some (newString s.toUTF8)
  match o, name with
  | date d, "year" => int d.year
  | date d, "month" => int d.month
  | date d, "day" => int d.day
  | account a, "id" => int a.id
  | account a, "name" => text a.name
  | account a, "type" => text a.type.name
  | account a, "security_id" => int a.securityId
  | account a, "parent_id" => some (return (a.parentId.map Value.ofInt).getD .nil)
  | security s, "id" => int s.id
  | security s, "name" => text s.name
  | security s, "description" => text s.description
  | security s, "symbol" => text s.symbol
  | security s, "precision" => int s.precision
  | security s, "type" => text s.type.name
  | price p, "id" => int p.id
  | price p, "security_id" => int p.securityId
  | price p, "currency_id" => int p.currencyId
  | price p, "date" => some (newObject (.date p.date))
  | price p, "value" => some (return .ofFloat p.value.toFloat)
  | balance b, "amount" => some (return .ofFloat b.amount.toFloat)
  | balance b, "security" => some (newObject (.security b.security))
  | tabulation id, "title" => some do newString (← getDraft id).title.toUTF8
  | tabulation id, "subtitle" => some do newString (← getDraft id).subtitle.toUTF8
  | tabulation id, "units" => some do newString (← getDraft id).units.toUTF8
  | tabulation id, "labels" => some do newSequence ((← getDraft id).labels.map Value.ofText)
  | series draft node, "values" => some do
    newSequence ((← getValues draft node).map Value.ofFloat)
  | _, _ => none

/-- The method with a name that the objects of a kind have. -/
def HostKind.method? : HostKind → String → Option HostMethod
  | date, "add_days" => some .addDays
  | date, "add_months" => some .addMonths
  | date, "add_years" => some .addYears
  | date, "end_of_month" => some .endOfMonth
  | tabulation, "label" => some .tabulationLabel
  | tabulation, "series" => some .tabulationSeries
  | series, "set" => some .seriesSet
  | series, "push" => some .seriesPush
  | series, "series" => some .seriesSeries
  | _, _ => none

/-- Whether the objects of a kind have methods. -/
def HostKind.hasMethods : HostKind → Bool
  | date | tabulation | series => true
  | account | security | price | balance => false

/-- A field of an object, or one of its methods. -/
def HostObject.read (o : HostObject) (kind : HostKind) (key : Value) : ScriptM Value := do
  let name := (key.toBytes?.map Utf8.decodeLossy).getD ""
  let isText := match key with
    | .string _ => true
    | _ => false
  match (if isText then o.field? name else none) with
  | some field => field
  | none =>
    match (if isText then kind.method? name else none) with
    | some m => return .builtin (.host (.method m))
    | none =>
      if kind.hasMethods then return .nil
      else if key.toBytes?.isSome then raiseText s!"attempt to get an unknown field '{name}'"
      else raiseText s!"attempt to concatenate a {← shownTypeName key} value"

/-- Replaces the labels of a draft by the elements of a table from number 1 to the first that is
`nil`. -/
def setLabels (draft table : Nat) : ScriptM Unit := do
  let elements := (← getTable table).leading (Draft.maxPoints + 1)
  converted (← onWorkbench (Workbench.setLabels draft (elements.map Value.asBytes)))

/-- Sets a field of a tabulation. -/
def setTabulationField (c : Call) (draft : Nat) (name : String) : ScriptM Unit := do
  let method := "TabulationHandle." ++ name
  match name with
  | "title" => onWorkbench (Workbench.setTitle draft (← c.readFor method 1 fun _ => asNew))
  | "subtitle" => onWorkbench (Workbench.setSubtitle draft (← c.readFor method 1 fun _ => asNew))
  | "units" => onWorkbench (Workbench.setUnits draft (← c.readFor method 1 fun _ => asNew))
  | "labels" => setLabels draft (← c.readFor method 1 fun _ => (c.arg 2).asTable)
  | name => raiseText s!"attempt to set an unknown field '{name}'"
where
  /-- The new value as bytes. -/
  asNew : Except HostError ByteArray := (c.arg 2).asBytes

/-! ### Methods -/

/-- An object for a day, if it can be given. -/
def newDate : Except Date.Problem Date → ScriptM (Array Value)
  | .ok d => return one (← newObject (.date d))
  | .error problem => raiseHost (.runtime problem.message)

namespace HostMethod

/-- The kind of object that has the method. -/
def kind : HostMethod → HostKind
  | addDays | addMonths | addYears | endOfMonth => .date
  | tabulationLabel | tabulationSeries => .tabulation
  | seriesSet | seriesPush | seriesSeries => .series

/-- The name of the method. -/
def name : HostMethod → String
  | addDays => "add_days"
  | addMonths => "add_months"
  | addYears => "add_years"
  | endOfMonth => "end_of_month"
  | tabulationLabel => "label"
  | seriesSet => "set"
  | seriesPush => "push"
  | tabulationSeries | seriesSeries => "series"

/-- The name of the method in errors. -/
def fullName (m : HostMethod) : String := m.kind.typeName ++ "." ++ m.name

/-- Runs a method. -/
def run (m : HostMethod) (c : Call) : ScriptM (Array Value) := do
  let read {α : Type} (i : Nat) (convert : Value → Except HostError α) : ScriptM α :=
    c.readFor m.fullName i convert
  match m with
  | addDays =>
    let d ← read 0 Value.asDate
    newDate (Date.orOutOfRange (d.addDays? (← read 1 Value.asInt64)))
  | addMonths =>
    let d ← read 0 Value.asDate
    newDate (Date.orOutOfRange (d.addMonths? (← read 1 Value.asInt64)))
  | addYears =>
    let d ← read 0 Value.asDate
    newDate (Date.orOutOfRange (d.addYears? (← read 1 Value.asInt64)))
  | endOfMonth =>
    let d ← read 0 Value.asDate
    newDate (Date.orOutOfRange d.endOfMonth?)
  | tabulationLabel =>
    let draft ← read 0 (Value.asObject HostObject.tabulation?)
    let index ← read 1 Value.asInt64
    onWorkbench (Workbench.setLabel draft index (← read 2 Value.asBytes))
    return #[]
  | tabulationSeries =>
    let draft ← read 0 (Value.asObject HostObject.tabulation?)
    let node ← onWorkbench (Workbench.child draft Draft.root (← read 1 Value.asBytes))
    return one (← newObject (.series draft node))
  | seriesSet =>
    let (draft, node) ← read 0 (Value.asObject HostObject.series?)
    let index ← read 1 Value.asInt64
    onWorkbench (Workbench.setValue draft node index (← read 2 Value.asFloat))
    return #[]
  | seriesPush =>
    let (draft, node) ← read 0 (Value.asObject HostObject.series?)
    onWorkbench (Workbench.pushValue draft node (← read 1 Value.asFloat))
    return #[]
  | seriesSeries =>
    let (draft, parent) ← read 0 (Value.asObject HostObject.series?)
    let node ← onWorkbench (Workbench.child draft parent (← read 1 Value.asBytes))
    return one (← newObject (.series draft node))

end HostMethod

/-! ### Operators -/

/-- The text of an object. -/
def HostObject.text : HostObject → ScriptM String
  | date d => return d.toText
  | account a => return s!"account {a.id}: {a.name}"
  | security s => return s!"security {s.id}: {s.symbol}"
  | price p => return s!"price of {p.securityId} on {p.date.toText}: {p.value.display}"
  | balance b => return s!"{b.amount.display} {b.security.symbol}"
  | tabulation draft => return "tabulation: " ++ (← getDraft draft).title
  | series draft node => return s!"series: {(← getValues draft node).size} values"
  | failure e => return e.message

/-- Fails unless two balances are of the same security. -/
def checkSameSecurity (a b : Balance) : ScriptM Unit :=
  if a.security.id = b.security.id then return ()
  else
    raiseHost (.runtime
      s!"cannot combine balances in {a.security.symbol} and {b.security.symbol}")

namespace HostOperator

/-- The event of the operator. -/
def event : HostOperator → String
  | index => "__index"
  | newIndex => "__newindex"
  | add => "__add"
  | sub => "__sub"
  | neg => "__unm"
  | eq => "__eq"
  | lt => "__lt"
  | le => "__le"
  | toString => "__tostring"

/-- Runs an operator on two days. -/
def runOnDates (op : HostOperator) (c : Call) (name : String) (a : Date) : ScriptM Value := do
  let other : ScriptM Date := c.readFor name 1 Value.asDate
  match op with
  | sub => return .ofInt (a.daysSince (← other))
  | eq =>
    match c.arg 1 with
    | .object _ (.date b) => return .bool (a = b)
    | _ => return .bool false
  | lt => return .bool (a.compare (← other) == .lt)
  | le => return .bool (a.compare (← other) != .gt)
  | _ => return .nil

/-- Runs an operator on two balances. -/
def runOnBalances (op : HostOperator) (c : Call) (name : String) (a : Balance) :
    ScriptM Value := do
  let other : ScriptM Balance := do
    let b ← c.readFor name 1 Value.asBalance
    checkSameSecurity a b
    return b
  let result (amount : Amount) : ScriptM Value := newObject (.balance { a with amount })
  match op with
  | add => result (a.amount + (← other).amount)
  | sub => result (a.amount - (← other).amount)
  | neg => result (-a.amount)
  | eq =>
    match c.arg 1 with
    | .object _ (.balance b) => return .bool (a.same b)
    | _ => return .bool false
  | lt => return .bool (a.amount.compare (← other).amount == .lt)
  | le => return .bool (a.amount.compare (← other).amount != .gt)
  | _ => return .nil

/-- The object of a kind that a value is. -/
def asKind (kind : HostKind) : Value → Except HostError HostObject :=
  Value.asObject fun o => if o.kind? = some kind then some o else none

/-- Runs an operator of the objects of a kind. -/
def run (op : HostOperator) (kind : HostKind) (c : Call) : ScriptM (Array Value) := do
  let name := kind.typeName ++ "." ++ op.event
  let o ← c.readFor name 0 (asKind kind)
  match op, o with
  | index, o => return one (← o.read kind (c.arg 1))
  | newIndex, .tabulation draft =>
    match c.arg 1 with
    | .string key =>
      setTabulationField c draft (Utf8.decodeLossy key)
      return #[]
    | key =>
      match key.toBytes? with
      | some key => raiseText s!"attempt to set an unknown field '{Utf8.decodeLossy key}'"
      | none => raiseText s!"attempt to concatenate a {← shownTypeName key} value"
  | toString, o => return one (← newString (← o.text).toUTF8)
  | op, .date a => return one (← op.runOnDates c name a)
  | op, .balance a => return one (← op.runOnBalances c name a)
  | _, _ => return one .nil

end HostOperator

end LedgerReports.Script
