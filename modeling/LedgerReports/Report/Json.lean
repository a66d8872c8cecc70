import LedgerReports.Json.Numeral
import LedgerReports.Json.Parser
import LedgerReports.Json.Printer
import LedgerReports.Report.Basic

/-!
# Reports in JSON

Number and owner of a report may be left out, since the service gives them anyway; then they are zero.
-/

namespace LedgerReports

/-- The integer of 64 bits that the value is. -/
def Json.toInt64? : Json → Option Int
  | number n => n.toInt64?
  | _ => none

namespace Report

/-- A report as a JSON value. -/
def toJson (r : Report) : Json :=
  .ofFields [("id", .ofInt r.id), ("ownerUserId", .ofInt r.owner), ("name", .ofText r.name),
    ("scriptSource", .ofText r.source)]

/-- A number that is zero if it is left out. -/
def numberField? (members : List (Option String × Json)) (name : String) : Option Int :=
  if Json.hasField members name then (Json.field? members name).bind Json.toInt64? else some 0

/-- The report that a JSON value is. -/
def ofJson? : Json → Option Report
  | .object members => do
    unless Json.wellNamed members do none
    return { id := ← numberField? members "id"
             owner := ← numberField? members "ownerUserId"
             name := ← (← Json.field? members "name").toText?
             source := ← (← Json.field? members "scriptSource").toText? }
  | .array [id, owner, name, source] => do
    return { id := ← id.toInt64?, owner := ← owner.toInt64?, name := ← name.toText?,
             source := ← source.toText? }
  | _ => none

/-- Several reports as a JSON value. -/
def listToJson (reports : List Report) : Json :=
  .ofFields [("reports", .array (reports.map toJson))]

end Report

end LedgerReports
