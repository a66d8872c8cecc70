import LedgerReports.Store.Basic

/-!
# Queries

What the ledger answers. Every query about accounts names the user, and sees only that user's rows.

Days are compared as text, byte by byte. A row is read column by column, and the first column that
makes no sense is reported with its position.

`Ledger.View` is what a script can ask on behalf of a user: a record of all answers. Whatever a
script does, it learns about the store only through it.
-/

namespace LedgerReports

namespace Store

/-- A column that makes no sense. -/
def badColumn (index : Nat) (why : String) : Failure :=
  .persistence s!"Conversion error from type Text at index: {index}, {why}"

/-- What a column of a row may hold, where it is not known to be text. -/
inductive Cell where
  /-- Nothing. -/
  | null
  /-- An integer. -/
  | integer (n : Int)
  /-- A float. -/
  | real (x : Float)
  /-- A text. -/
  | text (s : String)
  /-- Bytes. -/
  | blob (bytes : ByteArray)

/-- A column that holds something of another type. -/
def wrongType (index : Nat) (type : String) : Failure :=
  .persistence s!"Invalid column type {type} at index: {index}, name: ?"

/-- Reads the text of an amount in a column. -/
def readAmount (column : Nat) (text : String) : Except Failure Amount :=
  match Amount.parse? text with
  | some a => .ok a
  | none => .error (badColumn column ("not a decimal: " ++ text))

/-- Reads an amount in a column of any type: a text, or an integer. -/
def Cell.readAmount (column : Nat) : Cell → Except Failure Amount
  | text s => Store.readAmount column s
  | integer n => .ok (Amount.ofInt n)
  | null => .error (wrongType column "Null")
  | real _ => .error (wrongType column "Real")
  | blob _ => .error (wrongType column "Blob")

/-- Reads the text of a day in a column. -/
def readDate (column : Nat) (text : String) : Except Failure Date :=
  match Date.parse text with
  | .ok d => .ok d
  | .error e => .error (badColumn column e.message)

/-- Reads an account. -/
def AccountRow.read (row : AccountRow) : Except Failure Account :=
  match AccountType.ofName? row.type with
  | some type =>
    .ok { id := row.id, userId := row.userId, securityId := row.securityId,
          parentId := row.parentId, name := row.name, type }
  | none => .error (badColumn 5 ("unknown account type " ++ row.type))

/-- Reads a security. -/
def SecurityRow.read (row : SecurityRow) : Except Failure Security :=
  match SecurityType.ofName? row.type with
  | some type =>
    .ok { id := row.id, name := row.name, description := row.description, symbol := row.symbol,
          precision := row.precision, type }
  | none => .error (badColumn 5 ("unknown security type " ++ row.type))

/-- Reads a price. -/
def PriceRow.read (row : PriceRow) : Except Failure Price := do
  let date ← readDate 3 row.date
  let value ← readAmount 4 row.value
  return { id := row.id, securityId := row.securityId, currencyId := row.currencyId, date, value }

variable (s : Store)

/-- The accounts of a user. -/
def accountsOf (user : User) : Except Failure (List Account) :=
  (s.accounts.filter (·.userId == user.id)).mapM (·.read)

/-- The account of a user with a number. -/
def account? (user : User) (id : Int) : Except Failure (Option Account) :=
  (s.accounts.find? fun a => a.userId == user.id && a.id == id).mapM (·.read)

/-- All securities. -/
def allSecurities : Except Failure (List Security) := s.securities.mapM (·.read)

/-- The security with a number. -/
def security? (id : Int) : Except Failure (Option Security) :=
  (s.securities.find? (·.id == id)).mapM (·.read)

/-- The security that a user counts in. -/
def defaultCurrency (user : User) : Except Failure Security := do
  match ← s.security? user.defaultCurrency with
  | some security => return security
  | none =>
    throw (.internal s!"default currency {user.defaultCurrency} of user {user.id} is missing")

/-- Whether a stored day counts for a period. -/
def includes (date : String) : Period → Bool
  | .upTo day => decide (date ≤ day.toText)
  | .between first stop => decide (first.toText ≤ date) && decide (date < stop.toText)

/-- Whether a split belongs to a transaction of the user that counts for the period. -/
def counts (user : User) (period : Period) (split : SplitRow) : Bool :=
  s.transactions.any fun t =>
    t.id == split.transactionId && t.userId == user.id && includes t.date period

/-- The account of a user and the sum of its splits over a period. -/
def balance (user : User) (accountId : Int) (period : Period) :
    Except Failure (Account × Amount) := do
  match ← s.account? user accountId with
  | none => throw .notFound
  | some account =>
    let splits := s.splits.filter fun split =>
      split.accountId == account.id && s.counts user period split
    let amounts ← splits.mapM fun split => readAmount 0 split.amount
    return (account, Amount.sum amounts)

/-- The later of two prices by the text of the day, the one with the greater number on one day. -/
def laterPrice (a b : PriceRow) : PriceRow :=
  if a.date < b.date ∨ (a.date = b.date ∧ a.id ≤ b.id) then b else a

/-- The latest price of a security in another one on a day or before it. -/
def closestPrice? (securityId currencyId : Int) (day : Date) : Except Failure (Option Price) :=
  let known := s.prices.filter fun p =>
    p.securityId == securityId && p.currencyId == currencyId && decide (p.date ≤ day.toText)
  let latest := known.foldl (fun best p => some ((best.map (laterPrice · p)).getD p)) none
  latest.mapM (·.read)

end Store

/-- What a script can ask on behalf of a user. -/
structure Ledger.View where
  /-- The accounts of the user. -/
  accounts : Except Failure (List Account)
  /-- The account of the user with a number. -/
  account? : Int → Except Failure (Option Account)
  /-- All securities. -/
  securities : Except Failure (List Security)
  /-- The security with a number. -/
  security? : Int → Except Failure (Option Security)
  /-- The security that the user counts in. -/
  defaultCurrency : Except Failure Security
  /-- The balance of an account of the user. -/
  balance : Int → Period → Except Failure (Account × Amount)
  /-- The latest price of a security in another one on a day or before it. -/
  closestPrice? : Int → Int → Date → Except Failure (Option Price)

/-- What a script can ask of a store on behalf of a user. -/
def Store.view (s : Store) (user : User) : Ledger.View where
  accounts := s.accountsOf user
  account? := s.account? user
  securities := s.allSecurities
  security? := s.security?
  defaultCurrency := s.defaultCurrency user
  balance := s.balance user
  closestPrice? := s.closestPrice?

/-- A question to the ledger, by the type of the answer. -/
inductive Ledger.Question : Type → Type where
  /-- Which accounts the user has. -/
  | accounts : Question (List Account)
  /-- Which account of the user has this number. -/
  | account (id : Int) : Question (Option Account)
  /-- Which securities there are. -/
  | securities : Question (List Security)
  /-- Which security has this number. -/
  | security (id : Int) : Question (Option Security)
  /-- Which security the user counts in. -/
  | defaultCurrency : Question Security
  /-- What the balance of an account of the user is. -/
  | balance (accountId : Int) (period : Period) : Question (Account × Amount)
  /-- Which security an account is kept in. -/
  | securityOf (account : Account) : Question Security
  /-- What the latest price of a security in another one is on a day or before it. -/
  | closestPrice (securityId currencyId : Int) (day : Date) : Question (Option Price)

/-- The answer to a question. -/
def Ledger.View.answer {α : Type} (view : Ledger.View) : Question α → Except Failure α
  | .accounts => view.accounts
  | .account id => view.account? id
  | .securities => view.securities
  | .security id => view.security? id
  | .defaultCurrency => view.defaultCurrency
  | .balance accountId period => view.balance accountId period
  | .securityOf account => do
    match ← view.security? account.securityId with
    | some security => return security
    | none =>
      throw (.internal s!"security {account.securityId} of account {account.id} is missing")
  | .closestPrice securityId currencyId day => view.closestPrice? securityId currencyId day

/-- Whether a failure is the answer to some question. -/
def Ledger.View.Gives (view : Ledger.View) (f : Failure) : Prop :=
  ∃ (α : Type) (question : Question α), view.answer question = .error f

end LedgerReports
