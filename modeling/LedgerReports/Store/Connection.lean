import LedgerReports.Store.Basic

/-!
# Connections

A connection holds the tables that are kept, and runs statements. A statement works as a whole or
not at all, and takes effect at once unless a transaction is open. In a transaction the statements
work on pending tables; a commit makes these the ones that are kept, and without a commit they are
gone.

The database can refuse to begin a transaction, to run a statement or to commit for a cause that is
not in the tables: another writer keeps it waiting for too long, or the disk is full. Which refusals
are to come is a part of a connection, so that they may come at any point of a run.
-/

namespace LedgerReports

/-- A connection to the database. -/
structure Connection where
  /-- The tables that are kept. -/
  kept : Store
  /-- The tables of the open transaction. -/
  pending : Option Store := none
  /-- What is refused of that which is to come, one entry for each attempt; then nothing more. -/
  refusals : List (Option Failure) := []

/-- A step on a connection. A failure does not undo what was done before it. -/
abbrev ConnectionM := ExceptT Failure (StateM Connection)

namespace Connection

variable {α : Type}

/-- Fails if the next attempt is refused. -/
def attempt : ConnectionM Unit := do
  let c ← get
  match c.refusals with
  | [] => return ()
  | refusal :: refusals =>
    set { c with refusals }
    match refusal with
    | some f => throw f
    | none => return ()

/-- Runs a statement on the tables of the open transaction, or else on those that are kept. -/
def statement (step : StoreM α) : ConnectionM α := do
  attempt
  let c ← get
  match step.run (c.pending.getD c.kept) with
  | .ok (a, s) =>
    set (if c.pending.isSome then { c with pending := some s } else { c with kept := s })
    return a
  | .error f => throw f

/-- The tables that a transaction starts from are those that are kept. -/
def opened (c : Connection) : Connection := { c with pending := some c.kept }

/-- After a commit the pending tables are those that are kept. -/
def committed (c : Connection) : Connection :=
  { c with kept := c.pending.getD c.kept, pending := none }

/-- A transaction that is dropped is rolled back: the pending tables are gone. -/
def dropped (c : Connection) : Connection := { c with pending := none }

/-- Works in a transaction, which is committed if the work succeeds, and dropped if not. -/
def transaction (work : ConnectionM α) : ConnectionM α := do
  attempt
  modify opened
  try
    let a ← work
    attempt
    modify committed
    pure a
  catch f =>
    modify dropped
    throw f

end Connection

end LedgerReports
