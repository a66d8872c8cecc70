import LedgerReports.Failure

/-!
# Reports

A report is a script with a name, kept for a user.
-/

namespace LedgerReports

/-- A report. Number and owner are given by the service; a client need not send them. -/
structure Report where
  /-- The number of the report. -/
  id : Int := 0
  /-- The user who owns it. -/
  owner : Int := 0
  /-- The name. -/
  name : String
  /-- The script. -/
  source : String
deriving DecidableEq, Repr

namespace Report

/-- The number of bytes from which on a script is too long. -/
def sourceLimit : Nat := 65536

/-- Refuses a report whose script is too long. -/
def validate (r : Report) : Except Failure Unit :=
  if sourceLimit ≤ r.source.utf8ByteSize then
    .error (.validation
      s!"script source is {r.source.utf8ByteSize} bytes, limit is {sourceLimit - 1}")
  else
    .ok ()

end Report

end LedgerReports
