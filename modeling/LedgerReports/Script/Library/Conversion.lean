import LedgerReports.Script.Library.Arguments

/-!
# Conversions for the host

How the functions of the host read values of a script. They are more lenient than the script's own
functions: a float is cut off to an integer, and a numeric text is taken for a number. What cannot be
read is an error of the host, which tells the type of the value.
-/

namespace LedgerReports.Script

namespace Value

/-- The note that a value is no number and cannot be read as one. -/
def notNumeric : String := "expected number or string coercible to number"

/-- The integer that a number is cut off to, if it is finite. -/
def truncate? : Number → Option Int
  | .integer n => some n.toInt
  | .float x => (Binary64.decode x).map (·.truncate)
  | .nan _ => none

/-- Reads an integer from `lo` to `hi`; `target` names the type in errors. -/
def asInteger (target : String) (lo hi : Int) (v : Value) : Except HostError Int :=
  match v.toNumber? with
  | none => .error (.conversion v.exactTypeName target (some notNumeric))
  | some n =>
    match truncate? n with
    | some i =>
      if lo ≤ i ∧ i ≤ hi then .ok i
      else .error (.conversion v.exactTypeName target (some "out of range"))
    | none => .error (.conversion v.exactTypeName target (some "out of range"))

/-- Reads an integer of 64 bits. -/
def asInt64 : Value → Except HostError Int := asInteger "i64" (-2 ^ 63) (2 ^ 63 - 1)

/-- Reads an integer of 32 bits. -/
def asInt32 : Value → Except HostError Int := asInteger "i32" (-2 ^ 31) (2 ^ 31 - 1)

/-- Reads a natural number of 32 bits. -/
def asNat32 : Value → Except HostError Int := asInteger "u32" 0 (2 ^ 32 - 1)

/-- Reads a float. -/
def asFloat (v : Value) : Except HostError Float :=
  match v.toNumber? with
  | some n => .ok n.toFloat
  | none => .error (.conversion v.exactTypeName "f64" (some notNumeric))

/-- The note that a value is neither a string nor a number. -/
def notTextual : String := "expected string or number"

/-- Reads a string of bytes. -/
def asBytes (v : Value) : Except HostError ByteArray :=
  match v.toBytes? with
  | some bytes => .ok bytes
  | none => .error (.conversion v.exactTypeName "string" (some notTextual))

/-- Reads a text. -/
def asText (v : Value) : Except HostError String :=
  match v.toBytes? with
  | none => .error (.conversion v.exactTypeName "String" (some notTextual))
  | some bytes =>
    match Utf8.decode bytes with
    | .ok text => .ok text
    | .error e => .error (.conversion "string" "String" (some e.message))

/-- Reads a table. -/
def asTable (v : Value) : Except HostError Nat :=
  match v with
  | table id => .ok id
  | v => .error (.conversion v.exactTypeName "table" none)

/-- Reads what may be missing. -/
def asOptional {α : Type} (read : Value → Except HostError α) (v : Value) :
    Except HostError (Option α) :=
  if v.isNil then .ok none else some <$> read v

/-- Reads an object of the host that `select` accepts. -/
def asObject {α : Type} (select : HostObject → Option α) (v : Value) : Except HostError α :=
  match v with
  | object _ o =>
    match select o with
    | some a => .ok a
    | none => .error .wrongKind
  | v => .error (.conversion v.typeName "userdata" none)

/-- Reads a day. -/
def asDate : Value → Except HostError Date := asObject fun
  | .date d => some d
  | _ => none

/-- Reads a balance. -/
def asBalance : Value → Except HostError Balance := asObject fun
  | .balance b => some b
  | _ => none

/-- The integer nearest to a float among those of 64 bits. -/
def saturate (n : Int) : Int := max (-2 ^ 63) (min n (2 ^ 63 - 1))

/-- Reads a reference: a number without a fraction, or an object that has one. -/
def asReference (noun : String) (select : HostObject → Option Int) (v : Value) :
    Except HostError Int :=
  let refuse : Except HostError Int :=
    .error (.runtime s!"expected {noun}, got {v.exactTypeName}")
  match v with
  | number (.integer n) => .ok n.toInt
  | number (.float x) =>
    match Binary64.toInt? x with
    | some n => .ok (saturate n)
    | none => refuse
  | object _ o =>
    match select o with
    | some id => .ok id
    | none => .error .wrongKind
  | _ => refuse

/-- Reads an account by its number or as an object. -/
def asAccountId : Value → Except HostError Int :=
  asReference "an account or account id" fun
    | .account a => some a.id
    | _ => none

/-- Reads a security by its number or as an object. -/
def asSecurityId : Value → Except HostError Int :=
  asReference "a security or security id" fun
    | .security s => some s.id
    | _ => none

end Value

/-- The result of a conversion outside of the arguments. -/
def converted {α : Type} : Except HostError α → ScriptM α
  | .ok a => return a
  | .error e => raiseHost e

/-- Reads an argument, counted from 0. -/
def Call.read {α : Type} (c : Call) (i : Nat) (convert : Value → Except HostError α) : ScriptM α :=
  match convert (c.arg i) with
  | .ok a => return a
  | .error e => raiseHost (.badArgument (.index (i + 1)) none e)

/-- The error of the host that a raised value becomes when it reaches the host. -/
def HostError.ofRaised (c : Call) (e : Value) : ScriptM HostError := do
  match e with
  | .object _ (.failure cause) => return cause
  | e =>
    let text := Utf8.decodeLossy ((← c.actor.text? e).getD ByteArray.empty)
    return if text == Script.outOfMemory then .outOfMemory else .runtime text

/-- Runs something on behalf of the host; what is raised becomes an error of the host. -/
def Call.throughHost {α : Type} (c : Call) (x : ScriptM α) : ScriptM α :=
  tryCatch x fun e => do raiseHost (← HostError.ofRaised c e)

end LedgerReports.Script
