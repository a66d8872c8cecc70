import LedgerReports.Amount.Basic
import LedgerReports.Calendar.Date

/-!
# The ledger

Users hold accounts, each in one security; a price says what a security is worth in another one.
These are the records as they are handed out; how they are stored is another matter.
-/

namespace LedgerReports

/-- The kinds of accounts. -/
inductive AccountType where
  | bank | cash | asset | liability | investment | income | expense | trading | equity
  | receivable | payable
deriving DecidableEq, Repr

namespace AccountType

/-- All kinds of accounts. -/
def all : List AccountType :=
  [bank, cash, asset, liability, investment, income, expense, trading, equity, receivable, payable]

/-- The name of a kind. -/
def name : AccountType → String
  | bank => "bank"
  | cash => "cash"
  | asset => "asset"
  | liability => "liability"
  | investment => "investment"
  | income => "income"
  | expense => "expense"
  | trading => "trading"
  | equity => "equity"
  | receivable => "receivable"
  | payable => "payable"

/-- The kind with a name. -/
def ofName? (text : String) : Option AccountType := all.find? (·.name == text)

end AccountType

/-- The kinds of securities. -/
inductive SecurityType where
  | currency | stock
deriving DecidableEq, Repr

namespace SecurityType

/-- All kinds of securities. -/
def all : List SecurityType := [currency, stock]

/-- The name of a kind. -/
def name : SecurityType → String
  | currency => "currency"
  | stock => "stock"

/-- The kind with a name. -/
def ofName? (text : String) : Option SecurityType := all.find? (·.name == text)

end SecurityType

/-- A user. -/
structure User where
  /-- The number of the user. -/
  id : Int
  /-- The name. -/
  name : String
  /-- The security that the user counts in. -/
  defaultCurrency : Int
deriving DecidableEq, Repr

instance : Inhabited User := ⟨⟨0, "", 0⟩⟩

/-- An account. -/
structure Account where
  /-- The number of the account. -/
  id : Int
  /-- The user who holds it. -/
  userId : Int
  /-- The security it is kept in. -/
  securityId : Int
  /-- The account that it is a part of. -/
  parentId : Option Int
  /-- The name. -/
  name : String
  /-- The kind. -/
  type : AccountType
deriving DecidableEq, Repr

/-- A security: a currency or a stock. -/
structure Security where
  /-- The number of the security. -/
  id : Int
  /-- The name. -/
  name : String
  /-- A description. -/
  description : String
  /-- The symbol. -/
  symbol : String
  /-- The number of decimal places it is counted in. -/
  precision : Int
  /-- The kind. -/
  type : SecurityType
deriving DecidableEq, Repr

/-- What a security was worth on a day. -/
structure Price where
  /-- The number of the price. -/
  id : Int
  /-- The security. -/
  securityId : Int
  /-- The security that the value is in. -/
  currencyId : Int
  /-- The day. -/
  date : Date
  /-- The value. -/
  value : Amount
deriving DecidableEq

/-- Which days count for a balance. -/
inductive Period where
  /-- Up to this day. -/
  | upTo (day : Date)
  /-- From the first day on, and before the second. -/
  | between (first stop : Date)

/-- An amount of a security. -/
structure Balance where
  /-- The security. -/
  security : Security
  /-- The amount. -/
  amount : Amount

/-- Whether two balances are the same amount of the same security. -/
def Balance.same (a b : Balance) : Bool := a.security == b.security && a.amount.same b.amount

end LedgerReports
