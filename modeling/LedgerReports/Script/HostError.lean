/-!
# Errors of the host

When a function of the host fails, the script gets an object that stands for the error. The object
shows a text; the cause behind it is kept apart.
-/

namespace LedgerReports.Script

/-- Which argument of a call is meant. The object of a method counts as its first argument. -/
inductive ArgumentPosition where
  /-- The object of the method. -/
  | self
  /-- The argument with this number. -/
  | index (n : Nat)
deriving DecidableEq, Repr

/-- Why a function of the host fails. -/
inductive HostError where
  /-- The operation fails, for this reason. -/
  | runtime (text : String)
  /-- There is not enough memory. -/
  | outOfMemory
  /-- A value cannot be converted. -/
  | conversion (source target : String) (note : Option String)
  /-- An object is of another kind. -/
  | wrongKind
  /-- An argument cannot be used; a method tells its name. -/
  | badArgument (position : ArgumentPosition) (method : Option String) (cause : HostError)
deriving DecidableEq, Repr

namespace HostError

/-- The text shown for an error. -/
def message : HostError → String
  | runtime text => "runtime error: " ++ text
  | outOfMemory => "memory error: not enough memory"
  | conversion source target note =>
    s!"error converting Lua {source} to {target}" ++ (note.map (s!" ({·})")).getD ""
  | wrongKind => "userdata is not expected type"
  | badArgument position method cause =>
    let which :=
      match position with
      | .self => " `self`"
      | .index n => s!" #{n}"
    "bad argument" ++ which ++ (method.map (s!" to `{·}`")).getD "" ++ ": " ++ cause.message

/-- The error of a script that reaches the host and comes back. -/
def deadline : HostError := runtime "report script exceeded its deadline"

end HostError

end LedgerReports.Script
