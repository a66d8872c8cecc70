import LedgerReports.Number.Decimal
import LedgerReports.Sandbox
import LedgerReports.Settings.Document

/-!
# Settings

Settings have defaults, which a document may replace, and the environment may replace both. Scalars
are converted freely: a numeric text is taken for a number, and a number or truth value for a text.
-/

namespace LedgerReports

/-- The settings of the service. -/
structure Settings where
  /-- The file of the database. -/
  database : String := "tabulate.db"
  /-- The address to listen at. -/
  listen : String := "127.0.0.1:8080"
  /-- How long a script may take, in seconds. -/
  scriptTimeoutSecs : Nat := 30
  /-- How much memory a script may use, in units of 2^20 bytes. -/
  memoryLimitMb : Nat := 64
  /-- The number of instructions between two looks at the deadline. -/
  instructionCheckInterval : Nat := 1000
deriving DecidableEq, Repr

namespace Settings

/-- The limits for scripts. -/
def limits (s : Settings) : Limits where
  timeout := s.scriptTimeoutSecs * 1000
  memory := s.memoryLimitMb * 1024 * 1024
  interval := max 1 s.instructionCheckInterval

/-! ### Conversion -/

/-- The text of a float: as few digits as read back, and never an exponent. -/
def floatText (x : Float) : String :=
  match Binary64.decode x with
  | none => if x.isNaN then "NaN" else if x < 0.0 then "-inf" else "inf"
  | some parts =>
    let sign := if parts.negative then ['-'] else []
    if parts.mantissa = 0 then String.ofList (sign ++ ['0'])
    else
      let d := Decimal.shortest parts
      let figures := Text.digits d.digits
      let magnitude :=
        if 0 ≤ d.exponent then figures ++ List.replicate d.exponent.toNat '0'
        else
          let places := (-d.exponent).toNat
          let figures := Text.padStart (places + 1) '0' figures
          figures.take (figures.length - places) ++ '.' :: figures.drop (figures.length - places)
      String.ofList (sign ++ magnitude)

/-- The text that an entry is taken for. -/
def Entry.toText? : Entry → Option String
  | text s => some s
  | integer n => some (toString n)
  | float x => some (floatText x)
  | bool b => some (if b then "true" else "false")
  | list _ | table .. => none

/-- The words that are taken for the numbers one and zero. -/
def numberWords : List (String × Nat) :=
  [("true", 1), ("on", 1), ("yes", 1), ("false", 0), ("off", 0), ("no", 0)]

/-- The greatest number of 64 bits. -/
def maxNumber : Nat := 2 ^ 64 - 1

/-- The natural number of 64 bits that a text is taken for. -/
def numberOfText? (s : String) : Option Nat :=
  match numberWords.lookup s.toLower with
  | some n => some n
  | none =>
    let figures :=
      match s.toList with
      | '+' :: rest => rest
      | cs => cs
    let n := Text.digitsValue figures
    if figures.isEmpty || !figures.all Text.isDigit || maxNumber < n then none else some n

/-- The natural number of 64 bits nearest to a float. -/
def numberOfFloat (x : Float) : Nat :=
  match Binary64.decode x.round with
  | some parts => min maxNumber parts.truncate.toNat
  | none => if x.isNaN ∨ x < 0.0 then 0 else maxNumber

/-- The natural number of 64 bits that an entry is taken for. -/
def Entry.toNumber? : Entry → Option Nat
  | text s => numberOfText? s
  | integer n => if 0 ≤ n then some n.toNat else none
  | float x => some (numberOfFloat x)
  | bool b => some (if b then 1 else 0)
  | list _ | table .. => none

/-! ### Loading -/

/-- The document that settings are read from. -/
inductive DocumentSource where
  /-- There is none. -/
  | absent
  /-- One was asked for, but is not there. -/
  | missing
  /-- There is one with this text. -/
  | given (text : String)

/-- What the names of the settings begin with in the environment. -/
def environmentPrefix : String := "tabulate_"

/-- The settings that the environment gives. -/
def environmentEntries (environment : List (String × String)) : List (String × Entry) :=
  environment.filterMap fun (name, value) =>
    let name := name.toLower
    if environmentPrefix.toList.isPrefixOf name.toList then
      some (String.ofList (name.toList.drop environmentPrefix.length), .text value)
    else none

/-- The settings that entries give, the first entry with a name being the one that counts. -/
def ofEntries? (entries : List (String × Entry)) : Option Settings := do
  let read {α : Type} (name : String) (convert : Entry → Option α) (default : α) : Option α :=
    match entries.lookup name with
    | some e => convert e
    | none => some default
  let default : Settings := {}
  return { database := ← read "database" Entry.toText? default.database
           listen := ← read "listen" Entry.toText? default.listen
           scriptTimeoutSecs := ← read "script_timeout_secs" Entry.toNumber?
             default.scriptTimeoutSecs
           memoryLimitMb := ← read "memory_limit_mb" Entry.toNumber? default.memoryLimitMb
           -- only 32 bits are kept
           instructionCheckInterval := (← read "instruction_check_interval" Entry.toNumber?
             default.instructionCheckInterval) % 2 ^ 32 }

/-- Loads the settings. -/
def load (source : DocumentSource) (environment : List (String × String)) :
    Except Failure Settings := do
  let entries : List (String × Entry) ←
    match source with
    | .absent => pure []
    | .missing => throw (.config "settings document not found")
    | .given text =>
      match Document.parse? text with
      | some entries => pure entries
      | none => throw (.config "malformed settings document")
  match ofEntries? (environmentEntries environment ++ entries) with
  | some s => return s
  | none => throw (.config "a setting has a value of the wrong kind")

end Settings

end LedgerReports
