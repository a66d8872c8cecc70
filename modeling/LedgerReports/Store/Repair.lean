import LedgerReports.Store.Basic

/-!
# Repairs

A stored column can be overwritten directly. Nothing is checked: what is written may be text that
makes no sense, or a reference to a row that is not there. So this is how a store gets into a state
that the other steps never lead to.
-/

namespace LedgerReports.Store

/-- What a column of a row is overwritten with. -/
inductive Repair where
  /-- The name of the kind of an account. -/
  | accountType (text : String)
  /-- The security of an account. -/
  | accountSecurity (securityId : Int)
  /-- The name of the kind of a security. -/
  | securityType (text : String)
  /-- The amount of a split. -/
  | splitAmount (text : String)
  /-- The value of a price. -/
  | priceValue (text : String)
  /-- The day of a price. -/
  | priceDate (text : String)
  /-- The security that a user counts in. -/
  | defaultCurrency (securityId : Int)
deriving DecidableEq, Repr

/-- The rows of a table, the ones with a number changed. -/
def changeRows {α : Type} (idOf : α → Int) (id : Int) (change : α → α) (rows : List α) : List α :=
  rows.map fun row => if idOf row == id then change row else row

/-- The number of rows that have a number. -/
def countRows {α : Type} (idOf : α → Int) (id : Int) (rows : List α) : Nat :=
  rows.countP fun row => idOf row == id

/-- Overwrites a column of the row with a number, and says how many rows there were. -/
def repair (id : Int) (r : Repair) : StoreM Nat := do
  let s ← get
  match r with
  | .accountType type =>
    set { s with accounts := changeRows AccountRow.id id ({ · with type }) s.accounts }
    return countRows AccountRow.id id s.accounts
  | .accountSecurity securityId =>
    set { s with accounts := changeRows AccountRow.id id ({ · with securityId }) s.accounts }
    return countRows AccountRow.id id s.accounts
  | .securityType type =>
    set { s with securities := changeRows SecurityRow.id id ({ · with type }) s.securities }
    return countRows SecurityRow.id id s.securities
  | .splitAmount amount =>
    set { s with splits := changeRows SplitRow.id id ({ · with amount }) s.splits }
    return countRows SplitRow.id id s.splits
  | .priceValue value =>
    set { s with prices := changeRows PriceRow.id id ({ · with value }) s.prices }
    return countRows PriceRow.id id s.prices
  | .priceDate date =>
    set { s with prices := changeRows PriceRow.id id ({ · with date }) s.prices }
    return countRows PriceRow.id id s.prices
  | .defaultCurrency defaultCurrency =>
    set { s with users := changeRows User.id id ({ · with defaultCurrency }) s.users }
    return countRows User.id id s.users

end LedgerReports.Store
