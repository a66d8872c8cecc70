import LedgerReports.Calendar.Arithmetic
import LedgerReports.Calendar.Text

/-!
# Days that cannot be given

The day that is asked for may not exist, its text may not be that of a day, and arithmetic may lead
beyond the calendar. Here the three are reported as a `Problem`.
-/

namespace LedgerReports.Date

/-- Why a day cannot be given. -/
inductive Problem where
  /-- There is no such day. -/
  | noSuchDay (year : Int) (month day : Nat)
  /-- The text is not that of a day. -/
  | unreadable (text : String)
  /-- The day lies beyond the calendar. -/
  | outOfRange
deriving DecidableEq, Repr

/-- The text for a problem. -/
def Problem.message : Problem → String
  | noSuchDay year month day => s!"{year}-{month}-{day} is not a valid date"
  | unreadable text => s!"'{text}' is not a YYYY-MM-DD date"
  | outOfRange => "date arithmetic out of range"

/-- The day with a year, a month and a number in the month. -/
def ask (year : Int) (month day : Nat) : Except Problem Date :=
  match ofYMD? year month day with
  | some d => .ok d
  | none => .error (.noSuchDay year month day)

/-- The day that a text is. -/
def askText (text : String) : Except Problem Date :=
  match parse text with
  | .ok d => .ok d
  | .error _ => .error (.unreadable text)

/-- The outcome of arithmetic. -/
def orOutOfRange : Option Date → Except Problem Date
  | some d => .ok d
  | none => .error .outOfRange

end LedgerReports.Date
