import LedgerReports.Ledger.Basic
import LedgerReports.Report.Basic
import LedgerReports.Amount.Text
import LedgerReports.Calendar.Text

/-!
# The store

A store is a set of tables. Amounts, dates and kinds are kept as text, so a row says exactly what was
written, and reading it may fail.

The rows of a table are in the order of their numbers. A new row gets the number after the greatest
one that the table holds, so the number of a deleted last row is given out again.

A write is a `StoreM` step: it either gives a new store or fails, and then there is none.
-/

namespace LedgerReports

namespace Store

/-- A session: the secret stands for the user. -/
structure SessionRow where
  /-- The secret. -/
  secret : String
  /-- The user. -/
  userId : Int
deriving DecidableEq, Repr

/-- A stored security. -/
structure SecurityRow where
  /-- The number. -/
  id : Int
  /-- The name. -/
  name : String
  /-- A description. -/
  description : String
  /-- The symbol. -/
  symbol : String
  /-- The number of decimal places. -/
  precision : Int
  /-- The name of the kind. -/
  type : String
deriving DecidableEq, Repr

/-- A stored account. -/
structure AccountRow where
  /-- The number. -/
  id : Int
  /-- The user who holds it. -/
  userId : Int
  /-- The security it is kept in. -/
  securityId : Int
  /-- The account that it is a part of. -/
  parentId : Option Int
  /-- The name. -/
  name : String
  /-- The name of the kind. -/
  type : String
deriving DecidableEq, Repr

/-- A stored transaction. -/
structure TransactionRow where
  /-- The number. -/
  id : Int
  /-- The user who made it. -/
  userId : Int
  /-- What it was. -/
  description : String
  /-- The text of the day. -/
  date : String
deriving DecidableEq, Repr

/-- A stored split: what a transaction does to one account. -/
structure SplitRow where
  /-- The number. -/
  id : Int
  /-- The transaction. -/
  transactionId : Int
  /-- The account. -/
  accountId : Int
  /-- The text of the amount. -/
  amount : String
deriving DecidableEq, Repr

/-- A stored price. -/
structure PriceRow where
  /-- The number. -/
  id : Int
  /-- The security. -/
  securityId : Int
  /-- The security that the value is in. -/
  currencyId : Int
  /-- The text of the day. -/
  date : String
  /-- The text of the value. -/
  value : String
deriving DecidableEq, Repr

end Store

/-- The tables. -/
structure Store where
  /-- The users. -/
  users : List User := []
  /-- The sessions. -/
  sessions : List Store.SessionRow := []
  /-- The securities. -/
  securities : List Store.SecurityRow := []
  /-- The accounts. -/
  accounts : List Store.AccountRow := []
  /-- The transactions. -/
  transactions : List Store.TransactionRow := []
  /-- The splits of the transactions. -/
  splits : List Store.SplitRow := []
  /-- The prices. -/
  prices : List Store.PriceRow := []
  /-- The reports. -/
  reports : List Report := []

instance : Inhabited Store := ⟨{}⟩

/-- A step that may change a store, or fail. -/
abbrev StoreM := StateT Store (Except Failure)

namespace Store

/-- The number of a new row: one more than the greatest number in the table. -/
def nextId (ids : List Int) : Int := ids.foldl max 0 + 1

/-- A reference to a row that is not there. -/
def brokenReference : Failure := .persistence "FOREIGN KEY constraint failed"

/-- A session secret that is taken. -/
def duplicateSecret : Failure := .persistence "UNIQUE constraint failed: sessions.SessionSecret"

/-- Whether there is a user with this number. -/
def hasUser (s : Store) (id : Int) : Bool := s.users.any (·.id == id)

/-- Whether there is a security with this number. -/
def hasSecurity (s : Store) (id : Int) : Bool := s.securities.any (·.id == id)

/-- Whether there is an account with this number. -/
def hasAccount (s : Store) (id : Int) : Bool := s.accounts.any (·.id == id)

/-- Whether there is a transaction with this number. -/
def hasTransaction (s : Store) (id : Int) : Bool := s.transactions.any (·.id == id)

/-- Fails if a reference is broken. -/
def checkReference (present : Bool) : StoreM Unit :=
  if present then return () else throw brokenReference

/-! ### Users and sessions -/

/-- Adds a user. The currency need not exist. -/
def createUser (name : String) (defaultCurrency : Int) : StoreM User := do
  let s ← get
  let user : User := { id := nextId (s.users.map (·.id)), name, defaultCurrency }
  set { s with users := s.users ++ [user] }
  return user

/-- The user with a number. -/
def user? (s : Store) (id : Int) : Option User := s.users.find? (·.id == id)

/-- Opens a session. -/
def createSession (user : User) (secret : String) : StoreM Unit := do
  let s ← get
  if s.sessions.any (·.secret == secret) then throw duplicateSecret
  checkReference (s.hasUser user.id)
  let row : SessionRow := { secret, userId := user.id }
  set { s with sessions := s.sessions ++ [row] }

/-- The user that a session stands for. -/
def userForSession? (s : Store) (secret : String) : Option User := do
  let session ← s.sessions.find? (·.secret == secret)
  s.user? session.userId

/-! ### The ledger -/

/-- Adds a security, which is described by its name. -/
def createSecurity (name symbol : String) (precision : Int) (type : SecurityType) :
    StoreM Int := do
  let s ← get
  let id := nextId (s.securities.map (·.id))
  let row : SecurityRow := { id, name, description := name, symbol, precision, type := type.name }
  set { s with securities := s.securities ++ [row] }
  return id

/-- Adds an account. -/
def createAccount (user : User) (name : String) (type : AccountType) (securityId : Int)
    (parentId : Option Int) : StoreM Int := do
  let s ← get
  checkReference (s.hasUser user.id)
  checkReference (s.hasSecurity securityId)
  let id := nextId (s.accounts.map (·.id))
  -- an account may be a part of itself
  checkReference (parentId.all fun p => p == id || s.hasAccount p)
  let row : AccountRow := { id, userId := user.id, securityId, parentId, name, type := type.name }
  set { s with accounts := s.accounts ++ [row] }
  return id

/-- Fails unless an account belongs to a user. -/
def checkOwner (user : User) (accountId : Int) : StoreM Unit := do
  let s ← get
  let owner := (s.accounts.find? (·.id == accountId)).map (·.userId)
  unless owner = some user.id do
    throw (.validation s!"account {accountId} does not belong to user {user.id}")

/-- Adds a split to a transaction. -/
def createSplit (transactionId accountId : Int) (amount : Amount) : StoreM Unit := do
  let s ← get
  checkReference (s.hasTransaction transactionId && s.hasAccount accountId)
  let id := nextId (s.splits.map (·.id))
  let row : SplitRow := { id, transactionId, accountId, amount := amount.stored }
  set { s with splits := s.splits ++ [row] }

/-- Records a transaction with its splits, which have to be of accounts of the user. -/
def postTransaction (user : User) (date : Date) (description : String)
    (splits : List (Int × Amount)) : StoreM Int := do
  splits.forM fun (accountId, _) => checkOwner user accountId
  let s ← get
  checkReference (s.hasUser user.id)
  let id := nextId (s.transactions.map (·.id))
  let row : TransactionRow := { id, userId := user.id, description, date := date.toText }
  set { s with transactions := s.transactions ++ [row] }
  splits.forM fun (accountId, amount) => createSplit id accountId amount
  return id

/-- Adds a price. -/
def createPrice (securityId currencyId : Int) (date : Date) (value : Amount) : StoreM Int := do
  let s ← get
  checkReference (s.hasSecurity securityId && s.hasSecurity currencyId)
  let id := nextId (s.prices.map (·.id))
  let row : PriceRow :=
    { id, securityId, currencyId, date := date.toText, value := value.stored }
  set { s with prices := s.prices ++ [row] }
  return id

/-! ### Reports

Every access names the owner, so a report of somebody else cannot be told from a missing one. -/

/-- Adds a report; its number is not looked at. -/
def insertReport (r : Report) : StoreM Int := do
  let s ← get
  checkReference (s.hasUser r.owner)
  let id := nextId (s.reports.map (·.id))
  set { s with reports := s.reports ++ [{ r with id }] }
  return id

/-- The report of an owner with a number. -/
def report? (s : Store) (owner id : Int) : Option Report :=
  s.reports.find? fun r => r.owner == owner && r.id == id

/-- The reports of an owner. -/
def reportsOf (s : Store) (owner : Int) : List Report := s.reports.filter (·.owner == owner)

/-- Replaces name and source of a report, and says whether there was one. -/
def updateReport (r : Report) : StoreM Bool := do
  let s ← get
  let replace (old : Report) : Report :=
    if old.owner == r.owner && old.id == r.id then { old with name := r.name, source := r.source }
    else old
  set { s with reports := s.reports.map replace }
  return (s.report? r.owner r.id).isSome

/-- Deletes a report, and says whether there was one. -/
def deleteReport (owner id : Int) : StoreM Bool := do
  let s ← get
  set { s with reports := s.reports.filter fun r => !(r.owner == owner && r.id == id) }
  return (s.report? owner id).isSome

end Store

end LedgerReports
