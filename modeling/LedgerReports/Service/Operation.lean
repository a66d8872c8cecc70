import LedgerReports.Service
import LedgerReports.Store.Request

/-!
# Operations

The operations of the service on a connection to the database. Each works in one transaction. What
needs no tables is checked before it, and whether something was found is looked at after it.

An errand is work on the tables that is handed in from outside. It makes requests one after the
other, sees how each one ends, and may go on after a failure.
-/

namespace LedgerReports

open Connection (statement transaction)

/-- Work that makes requests, and goes by how they end. -/
inductive Errand (α : Type) : Type 1 where
  /-- The end, with a result or a failure. -/
  | done (result : Except Failure α)
  /-- A request, and what is done next. -/
  | ask {β : Type} (request : Request β) (next : Except Failure β → Errand α)

namespace Errand

variable {α : Type}

/-- Makes the requests on a connection. -/
def run : Errand α → ConnectionM α
  | done result => liftM result
  | ask request next => do
    let answer ← ExceptT.lift request.run.run
    (next answer).run

/-- The requests as one step on the tables, if each does all or nothing. -/
def step : Errand α → StoreM α
  | done result => liftM result
  | ask request next => fun s =>
    let (answer, s) := Service.transact request.step s
    (next answer).step.run s

end Errand

/-- An operation of the service, by the type of the result. -/
inductive Operation : Type → Type 1 where
  /-- Keeping a new report for a user. -/
  | createReport (user : User) (draft : Report) : Operation Report
  /-- Showing a report of a user. -/
  | report (user : User) (id : Int) : Operation Report
  /-- Listing the reports of a user. -/
  | reports (user : User) : Operation (List Report)
  /-- Replacing a report of a user. -/
  | updateReport (user : User) (id : Int) (replacement : Report) : Operation Report
  /-- Deleting a report of a user. -/
  | deleteReport (user : User) (id : Int) : Operation Unit
  /-- Finding the user that a session stands for. -/
  | userForSession (secret : String) : Operation User
  /-- Running a report of a user. -/
  | tabulate (user : User) (id : Int) : Operation Tabulation
  /-- Running an errand. -/
  | withTables {α : Type} (errand : Errand α) : Operation α

namespace Operation

variable {α : Type}

/-- An operation as one step on the tables, which does all or nothing. -/
def step (service : Service) : Operation α → StoreM α
  | createReport user draft => Service.createReport user draft
  | report user id => Service.report user id
  | reports user => Service.reports user
  | updateReport user id replacement => Service.updateReport user id replacement
  | deleteReport user id => Service.deleteReport user id
  | userForSession secret => Service.userForSession secret
  | tabulate user id => service.tabulate user id
  | withTables errand => errand.step

/-- The run of the script of a report, which sees the tables as of one moment. -/
def runScript (service : Service) (user : User) (r : Report) : StoreM Tabulation := do
  Sandbox.execute service.limits r user ((← get).view user) service.today

/-- Performs an operation on a connection. -/
def perform (service : Service) : Operation α → ConnectionM α
  | createReport user draft => do
    draft.validate
    let report := { draft with owner := user.id }
    let id ← transaction (Request.insertReport report).run
    return { report with id }
  | report user id => do
    match ← transaction (Request.report user.id id).run with
    | some r => return r
    | none => throw .notFound
  | reports user => transaction (Request.reports user.id).run
  | updateReport user id replacement => do
    unless replacement.id = id do
      throw (.validation s!"report id {replacement.id} in body does not match {id}")
    replacement.validate
    let report := { replacement with owner := user.id }
    unless ← transaction (Request.updateReport report).run do throw .notFound
    return report
  | deleteReport user id => do
    unless ← transaction (Request.deleteReport user.id id).run do throw .notFound
  | userForSession secret => do
    match ← transaction (Request.userForSession secret).run with
    | some user => return user
    | none => throw .notSignedIn
  | tabulate user id => transaction do
    match ← (Request.report user.id id).run with
    | some r => statement (runScript service user r)
    | none => throw .notFound
  | withTables errand => transaction errand.run

end Operation

end LedgerReports
