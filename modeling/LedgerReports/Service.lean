import LedgerReports.Sandbox
import LedgerReports.Store.Query

/-!
# The service

What users can do with their reports. Each operation is one step on the store: it either succeeds as
a whole, or fails and leaves the store as it was. A report of somebody else is as good as none.
-/

namespace LedgerReports

/-- Under which conditions scripts are run. -/
structure Service where
  /-- The limits for scripts. -/
  limits : Limits := {}
  /-- Today. -/
  today : Date := .epoch

namespace Service

/-- Runs a step: the result, and the store afterwards. -/
def transact {α : Type} (step : StoreM α) (s : Store) : Except Failure α × Store :=
  match step.run s with
  | .ok (a, s) => (.ok a, s)
  | .error f => (.error f, s)

/-- The user that a session stands for. -/
def userForSession (secret : String) : StoreM User := do
  match (← get).userForSession? secret with
  | some user => return user
  | none => throw .notSignedIn

/-- Keeps a new report for a user. -/
def createReport (user : User) (draft : Report) : StoreM Report := do
  draft.validate
  let report := { draft with owner := user.id }
  let id ← Store.insertReport report
  return { report with id }

/-- A report of a user. -/
def report (user : User) (id : Int) : StoreM Report := do
  match (← get).report? user.id id with
  | some r => return r
  | none => throw .notFound

/-- The reports of a user. -/
def reports (user : User) : StoreM (List Report) := return (← get).reportsOf user.id

/-- Replaces name and script of a report of a user. -/
def updateReport (user : User) (id : Int) (replacement : Report) : StoreM Report := do
  unless replacement.id = id do
    throw (.validation s!"report id {replacement.id} in body does not match {id}")
  replacement.validate
  let report := { replacement with owner := user.id }
  unless ← Store.updateReport report do throw .notFound
  return report

/-- Deletes a report of a user. -/
def deleteReport (user : User) (id : Int) : StoreM Unit := do
  unless ← Store.deleteReport user.id id do throw .notFound

/-- Runs a report of a user. -/
def tabulate (service : Service) (user : User) (id : Int) : StoreM Tabulation := do
  let s ← get
  match s.report? user.id id with
  | some r => Sandbox.execute service.limits r user (s.view user) service.today
  | none => throw .notFound

/-- Whether a name can be that of a database: it has to name a file. -/
def checkDatabase (name : String) : Except Failure Unit :=
  if name.isEmpty ∨ name = ":memory:" then
    .error (.config s!"database must be a file path, not \"{name}\"")
  else
    .ok ()

end Service

end LedgerReports
