import LedgerReports.Json.Numeral
import LedgerReports.Json.Parser
import LedgerReports.Json.Printer
import LedgerReports.Report.Json
import LedgerReports.Tabulation.Basic
import Std.Data.TreeMap

/-!
# Tabulations in JSON

A tabulation is an object with its texts, labels and series, the series being objects by name. A tree
that is nested too deeply is written, but not read.
-/

namespace LedgerReports

namespace Series

mutual

/-- A series as a JSON value. -/
def toJson : Series → Json
  | mk values series =>
    .ofFields [("values", .array (values.toList.map Json.ofFloat)), ("series", listToJson series)]

/-- Series by name as a JSON value. -/
def listToJson (series : List (String × Series)) : Json := .object (membersOf series)

/-- Series by name as members of an object. -/
def membersOf : List (String × Series) → List (Option String × Json)
  | [] => []
  | (name, s) :: rest => (some name, s.toJson) :: membersOf rest

end

/-- The float that a JSON value is. -/
def floatOfJson? : Json → Option Float
  | .number n => n.toFloat?
  | _ => none

/-- Named things in the order of the names; of several with one name the last one counts. -/
def sorted {α : Type} (named : List (String × α)) : List (String × α) :=
  (named.foldl (fun t (name, a) => t.insert name a) (∅ : Std.TreeMap String α)).toList

/-- Named things that the members of an object are. -/
def namedOfJson? {α : Type} (read : Json → Option α) : Json → Option (List (String × α))
  | .object members => do
    let named ← members.mapM fun (name, v) => do return (← name, ← read v)
    return sorted named
  | _ => none

/-- The series that a JSON value is; `room` is how deeply it may be nested. A series takes up two
levels, one for itself and one for its parts. -/
def ofJson? : (room : Nat) → Json → Option Series
  | 0, _ | 1, _ => none
  | room + 2, v => do
    match ← v.fields? ["values", "series"] with
    | [values, series] =>
      let values ← (← values.toList?).mapM floatOfJson?
      return mk values.toArray (← namedOfJson? (ofJson? room) series)
    | _ => none

end Series

namespace Tabulation

/-- A tabulation as a JSON value. -/
def toJson (t : Tabulation) : Json :=
  .ofFields [("reportId", .ofInt t.reportId), ("title", .ofText t.title),
    ("subtitle", .ofText t.subtitle), ("units", .ofText t.units),
    ("labels", .array (t.labels.toList.map Json.ofText)),
    ("series", Series.listToJson t.series)]

/-- How deeply a JSON value may be nested. -/
def maxNesting : Nat := 127

/-- The tabulation that a JSON value is. -/
def ofJson? (v : Json) : Option Tabulation := do
  match ← v.fields? ["reportId", "title", "subtitle", "units", "labels", "series"] with
  | [reportId, title, subtitle, units, labels, series] =>
    let labels ← (← labels.toList?).mapM Json.toText?
    return { reportId := ← reportId.toInt64?
             title := ← title.toText?
             subtitle := ← subtitle.toText?
             units := ← units.toText?
             labels := labels.toArray
             -- the tabulation and the object of its series take up a level each
             series := ← Series.namedOfJson? (Series.ofJson? (maxNesting - 2)) series }
  | _ => none

end Tabulation

end LedgerReports
