import LedgerReports.Store.Connection

/-!
# Requests

What can be asked of the tables directly, as it is done to provide users, sessions and the ledger. A
request is a sequence of statements. Most have one; one that has more can fail after some of them,
and only the end of the transaction takes these back.
-/

namespace LedgerReports

/-- A request to the tables, by the type of the answer. -/
inductive Request : Type → Type where
  /-- Adding a user. -/
  | createUser (name : String) (defaultCurrency : Int) : Request User
  /-- Which user has this number. -/
  | findUser (id : Int) : Request (Option User)
  /-- Opening a session. -/
  | createSession (user : User) (secret : String) : Request Unit
  /-- Which user a session stands for. -/
  | userForSession (secret : String) : Request (Option User)
  /-- Adding a security. -/
  | createSecurity (name symbol : String) (precision : Int) (type : SecurityType) : Request Int
  /-- Adding an account. -/
  | createAccount (user : User) (name : String) (type : AccountType) (securityId : Int)
    (parentId : Option Int) : Request Int
  /-- Recording a transaction with its splits. -/
  | postTransaction (user : User) (date : Date) (description : String)
    (splits : List (Int × Amount)) : Request Int
  /-- Adding a price. -/
  | createPrice (securityId currencyId : Int) (date : Date) (value : Amount) : Request Int
  /-- Adding a report. -/
  | insertReport (r : Report) : Request Int
  /-- Which report of an owner has this number. -/
  | report (owner id : Int) : Request (Option Report)
  /-- Which reports an owner has. -/
  | reports (owner : Int) : Request (List Report)
  /-- Replacing name and source of a report. -/
  | updateReport (r : Report) : Request Bool
  /-- Deleting a report. -/
  | deleteReport (owner id : Int) : Request Bool

namespace Store

/-- Adds a transaction without splits. -/
def createTransaction (user : User) (date : Date) (description : String) : StoreM Int := do
  let s ← get
  checkReference (s.hasUser user.id)
  let id := nextId (s.transactions.map (·.id))
  let row : TransactionRow := { id, userId := user.id, description, date := date.toText }
  set { s with transactions := s.transactions ++ [row] }
  return id

/-- Recording a transaction is checking the accounts, adding it, and adding the splits. -/
theorem postTransaction_eq (user : User) (date : Date) (description : String)
    (splits : List (Int × Amount)) :
    postTransaction user date description splits = (do
      splits.forM fun split => checkOwner user split.1
      let id ← createTransaction user date description
      splits.forM fun split => createSplit id split.1 split.2
      return id) := by
  unfold postTransaction createTransaction
  simp only [bind_assoc, pure_bind]

end Store

namespace Request

open Connection (statement)

variable {α : Type}

/-- A request as one step on the tables, which does all or nothing. -/
def step : Request α → StoreM α
  | createUser name defaultCurrency => Store.createUser name defaultCurrency
  | findUser id => return (← get).user? id
  | createSession user secret => Store.createSession user secret
  | userForSession secret => return (← get).userForSession? secret
  | createSecurity name symbol precision type => Store.createSecurity name symbol precision type
  | createAccount user name type securityId parentId =>
    Store.createAccount user name type securityId parentId
  | postTransaction user date description splits =>
    Store.postTransaction user date description splits
  | createPrice securityId currencyId date value =>
    Store.createPrice securityId currencyId date value
  | insertReport r => Store.insertReport r
  | report owner id => return (← get).report? owner id
  | reports owner => return (← get).reportsOf owner
  | updateReport r => Store.updateReport r
  | deleteReport owner id => Store.deleteReport owner id

/-- The statements of a request. -/
def run : Request α → ConnectionM α
  | userForSession secret => do
    match ← statement (return (← get).sessions.find? (·.secret == secret)) with
    | some session => statement (return (← get).user? session.userId)
    | none => return none
  | postTransaction user date description splits => do
    splits.forM fun split => statement (Store.checkOwner user split.1)
    let id ← statement (Store.createTransaction user date description)
    splits.forM fun split => statement (Store.createSplit id split.1 split.2)
    return id
  | q => statement q.step

end Request

end LedgerReports
