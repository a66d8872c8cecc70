import LedgerReports.Script.Start

/-!
# Running reports

`Sandbox.execute` runs the script of a report on behalf of its owner and gives the tabulation that it
yields. The script first runs as a whole; then its function `generate` is called, which has to
return one tabulation.

A run depends on the store only through the ledger view of the user. How it ends is decided by what
the journal says first: a run during which the deadline has passed has timed out, and a fault of the
host is reported as such, whatever the script made of it.
-/

namespace LedgerReports

/-- What a script may use up. -/
structure Limits where
  /-- The time, in milliseconds. -/
  timeout : Nat := 30000
  /-- The number of bytes; `0` for no limit. -/
  memory : Nat := 64 * 1024 * 1024
  /-- The number of instructions between two looks at the deadline. -/
  interval : Nat := 1000
deriving DecidableEq, Repr

namespace Sandbox

open Script

/-- The number of steps that stand for a millisecond. -/
def stepsPerMillisecond : Nat := 5000

/-- The name of the function that a script has to define. -/
def entryPoint : String := "generate"

/-- The name of the script in errors. -/
def chunkName : String := "report"

/-- The conditions of a run. -/
def setting (limits : Limits) (ledger : Ledger.View) (today : Date) : Setting where
  deadline := .after (limits.timeout * stepsPerMillisecond)
  interval := limits.interval
  memoryLimit := limits.memory
  maxReplaced := limits.memory
  ledger := ledger
  today := today

/-- The text of an error that nobody has caught. -/
def errorText (e : Value) : ScriptM String := do
  match e with
  | .object _ (.failure (.runtime text)) => return text
  | .object _ (.failure .outOfMemory) => return outOfMemory
  | .object _ (.failure cause) => return cause.message
  | e =>
    let actor : Actor := ⟨callAt maxNesting .bottom, none⟩
    tryCatch
      (return Utf8.decodeLossy ((← actor.text? e).getD ByteArray.empty))
      (fun _ => return "")

/-- Runs something; an error that is raised is the failure of the script. -/
def guarded {α : Type} (x : ScriptM α) : ScriptM (Except Failure α) :=
  tryCatch (return .ok (← x)) fun e => return .error (.runtime (← errorText e))

/-- The function that a script has defined as its entry point. -/
def findEntryPoint : ScriptM (Except Failure Value) := do
  let actor : Actor := ⟨callAt maxNesting .bottom, none⟩
  let found ← tryCatch (actor.index (.table Machine.globals) (.ofText entryPoint) none)
    (fun _ => return .nil)
  return if found.isFunction then .ok found
    else .error (.contractViolation .missingEntryPoint)

/-- The tabulation that the results of the entry point are. -/
def accept (values : Array Value) : ScriptM (Except Failure Tabulation) := do
  match values.toList with
  | [.object _ (.tabulation draft)] =>
    return .ok ((← getThe Machine).workbench.draft draft).finish
  | [.object _ (.failure _)] => return .error (.contractViolation .notAHandle)
  | [.object ..] => return .error (.contractViolation .wrongHandle)
  | [_] => return .error (.contractViolation .notAHandle)
  | values => return .error (.contractViolation (.returnCount values.length))

/-- Runs a program and then its entry point. -/
def runProgram (program : Program) : ScriptM (Except Failure Tabulation) := do
  match ← guarded do call (← newProgram program) #[] with
  | .error f => return .error f
  | .ok _ =>
    match ← findEntryPoint with
    | .error f => return .error f
    | .ok entry =>
      match ← guarded (call entry #[]) with
      | .error f => return .error f
      | .ok values => accept values

/-- Runs a source text. -/
def runSource (source : String) : ScriptM (Except Failure Tabulation) :=
  match Program.parse? chunkName source.toUTF8 with
  | some program => runProgram program
  | none => return .error (.compile "syntax error")

/-- The outcome of a run, given what the journal says. -/
def classify {α : Type} (journal : Journal) (outcome : Except Failure α) : Except Failure α :=
  if journal.deadlinePassed then .error .timeout
  else
    match journal.firstFault? with
    | some f => .error f
    | none => outcome

/-- The outcome of a run of a source text. -/
def run (setting : Setting) (source : String) : Except Failure Tabulation :=
  match ((runSource source).run setting).run Machine.start with
  | .ok outcome m => classify m.journal outcome
  | .error _ m => classify m.journal (.error (.internal "the run came to no end"))

/-- Runs a report for a user. -/
def execute (limits : Limits) (report : Report) (user : User) (ledger : Ledger.View)
    (today : Date) : Except Failure Tabulation := do
  unless report.owner = user.id do throw .notFound
  report.validate
  let tabulation ← run (setting limits ledger today) report.source
  return { tabulation with reportId := report.id }

end Sandbox

end LedgerReports
