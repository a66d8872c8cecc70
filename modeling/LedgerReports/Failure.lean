/-!
# Failures

Everything that can go wrong with a request, by cause. The text of a cause is for the log; a client
is only told the number of the cause and a general sentence, and gets a status to go with it.
-/

namespace LedgerReports

/-- How a script can run to its end and still not give a tabulation. -/
inductive ContractBreach where
  /-- There is no function to call. -/
  | missingEntryPoint
  /-- The function did not return exactly one value. -/
  | returnCount (count : Nat)
  /-- The value is no object of the host. -/
  | notAHandle
  /-- The value is an object of the host, but no tabulation. -/
  | wrongHandle
deriving DecidableEq, Repr

/-- The text for a breach. -/
def ContractBreach.message : ContractBreach → String
  | missingEntryPoint => "generate() is not defined"
  | returnCount count => s!"generate() returned {count} values, expected 1"
  | notAHandle => "generate() didn't even return a host object"
  | wrongHandle => "generate() didn't return a tabulation"

/-- Why a request fails. -/
inductive Failure where
  /-- The request is malformed or breaks a limit. -/
  | validation (message : String)
  /-- No session goes with the request. -/
  | notSignedIn
  /-- What is asked for does not exist, or belongs to somebody else. -/
  | notFound
  /-- A script is not well formed. -/
  | compile (message : String)
  /-- A script raised an error. -/
  | runtime (message : String)
  /-- A script did not give a tabulation. -/
  | contractViolation (breach : ContractBreach)
  /-- A script took too long. -/
  | timeout
  /-- The database could not do or understand something. -/
  | persistence (message : String)
  /-- The settings cannot be used. -/
  | config (message : String)
  /-- The stored data lacks something that has to be there. -/
  | internal (message : String)
deriving DecidableEq, Repr

namespace Failure

/-- The number of the cause that a client is told. -/
def id : Failure → Int
  | notSignedIn => 1
  | validation _ => 3
  | notFound => 4
  | compile _ => 10
  | runtime _ => 11
  | contractViolation _ => 12
  | timeout => 13
  | persistence _ | config _ | internal _ => 999

/-- The sentence that a client is told. -/
def publicMessage : Failure → String
  | notSignedIn => "Not Signed In"
  | validation _ => "Invalid Request"
  | notFound => "Not Found"
  | compile _ => "Report script failed to compile"
  | runtime _ => "Report script raised an error"
  | contractViolation _ => "Report script returned an invalid result"
  | timeout => "Report script exceeded its time limit"
  | persistence _ | config _ | internal _ => "Internal Error"

/-- The text of the cause, for those that have one. -/
def detail? : Failure → Option String
  | validation m | compile m | runtime m | persistence m | config m | internal m => some m
  | contractViolation breach => some breach.message
  | notSignedIn | notFound | timeout => none

/-- The text for the log. -/
def message : Failure → String
  | validation m => "Invalid request: " ++ m
  | notSignedIn => "Not signed in"
  | notFound => "Not found"
  | compile m => "Compile error: " ++ m
  | runtime m => "Runtime error: " ++ m
  | contractViolation breach => "Contract violation: " ++ breach.message
  | timeout => "Script exceeded its deadline"
  | persistence m => "Persistence error: " ++ m
  | config m => "Config error: " ++ m
  | internal m => "Internal error: " ++ m

/-- The status of the answer to a client. -/
def status : Failure → Nat
  | notSignedIn => 401
  | validation _ => 400
  | notFound => 404
  | compile _ | runtime _ | contractViolation _ => 422
  | timeout => 504
  | persistence _ | config _ | internal _ => 500

/-- Whether the host is to blame, and not the script or the client. -/
def isFault : Failure → Bool
  | persistence _ | internal _ => true
  | _ => false

end Failure

end LedgerReports
