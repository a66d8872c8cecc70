import LedgerReports.Script.Library.Object

/-!
# Functions of the host

All that a script can ask of the ledger and all that it can make there: accounts, securities,
balances and prices of the user's ledger, days, and tabulations. The functions that ask the ledger
read their arguments first and then look at the deadline.
-/

namespace LedgerReports.Script

/-- An object, or `nil` if there is none. -/
def objectOrNil : Option HostObject → ScriptM (Array Value)
  | some o => return one (← newObject o)
  | none => return one .nil

/-- A table of objects by their numbers. -/
def objectsById (objects : List (Int × HostObject)) : ScriptM (Array Value) := do
  let t ← newTable {}
  if let .table id := t then
    objects.forM fun (key, o) => do putRaw id (.ofInt key) (← newObject o)
  return one t

/-- The balance of an account over a period. -/
def balanceOf (accountId : Int) (period : Period) : ScriptM (Array Value) := do
  checkDeadline
  match ← consult (.balance accountId period) with
  -- the same text for a missing account and for somebody else's
  | .error .notFound => raiseHost (.runtime s!"account {accountId} not found")
  | .error f => raiseHost (.runtime f.message)
  | .ok (account, amount) =>
    let security ← ask (.securityOf account)
    return one (← newObject (.balance { security, amount }))

/-- An option of a new tabulation. -/
def tabulationOption (c : Call) (options : Nat) (name : String) : ScriptM Value :=
  c.throughHost (c.actor.index (.table options) (.ofText name) none)

/-- Sets up a new tabulation by its options. -/
def configure (c : Call) (draft options : Nat) : ScriptM Unit := do
  let text (name : String) : ScriptM (Option ByteArray) := do
    converted ((← tabulationOption c options name).asOptional Value.asBytes)
  if let some title ← text "title" then onWorkbench (Workbench.setTitle draft title)
  if let some subtitle ← text "subtitle" then onWorkbench (Workbench.setSubtitle draft subtitle)
  if let some units ← text "units" then onWorkbench (Workbench.setUnits draft units)
  let labels ← converted ((← tabulationOption c options "labels").asOptional Value.asTable)
  if let some labels := labels then setLabels draft labels

/-- Reads the texts of all arguments. Nothing is shown to anybody. -/
def printCall (c : Call) : ScriptM (Array Value) := do
  checkDeadline
  c.args.forM fun v => do
    let text ← c.throughHost do
      match ← c.actor.text? v with
      | some bytes => return bytes
      | none => raiseText "'__tostring' must return a string"
    discard (converted (Value.asText (.string text)))
  return #[]

namespace HostFunction

/-- Runs a function of the host. -/
def run (f : HostFunction) (c : Call) : ScriptM (Array Value) := do
  match f with
  | accountsAll =>
    checkDeadline
    let accounts ← ask .accounts
    objectsById (accounts.map fun a => (a.id, .account a))
  | accountsGet =>
    let id ← c.read 0 Value.asAccountId
    checkDeadline
    objectOrNil ((← ask (.account id)).map .account)
  | securitiesAll =>
    checkDeadline
    let securities ← ask .securities
    objectsById (securities.map fun s => (s.id, .security s))
  | securitiesGet =>
    let id ← c.read 0 Value.asSecurityId
    checkDeadline
    objectOrNil ((← ask (.security id)).map .security)
  | securitiesDefault =>
    checkDeadline
    return one (← newObject (.security (← ask .defaultCurrency)))
  | balancesAt =>
    let account ← c.read 0 Value.asAccountId
    balanceOf account (.upTo (← c.read 1 Value.asDate))
  | balancesBetween =>
    let account ← c.read 0 Value.asAccountId
    let first ← c.read 1 Value.asDate
    balanceOf account (.between first (← c.read 2 Value.asDate))
  | pricesAt =>
    let security ← c.read 0 Value.asSecurityId
    let currency ← c.read 1 Value.asSecurityId
    let day ← c.read 2 Value.asDate
    checkDeadline
    objectOrNil ((← ask (.closestPrice security currency day)).map .price)
  | dateNew =>
    let year ← c.read 0 Value.asInt32
    let month ← c.read 1 Value.asNat32
    let day ← c.read 2 Value.asNat32
    newDate (Date.ask year month.toNat day.toNat)
  | dateParse =>
    newDate (Date.askText (← c.read 0 Value.asText))
  | dateToday => return one (← newObject (.date (← readThe Setting).today))
  | tabulationNew =>
    let options ← c.read 0 (Value.asOptional Value.asTable)
    let draft ← onWorkbench Workbench.begin
    if let some options := options then configure c draft options
    return one (← newObject (.tabulation draft))
  | print => printCall c
  | deadlineCheck =>
    checkDeadline
    return #[]
  | method m => m.run c
  | operator kind op => op.run kind c
  | failureText =>
    match c.arg 0 with
    | .object _ o => return one (← newString (← o.text).toUTF8)
    | _ => return one .nil

end HostFunction

end LedgerReports.Script
