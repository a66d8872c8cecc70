import LedgerReports.Script.Run

/-!
# The machine at the start

`Machine.fresh` is a machine with the built-in functions in their places: the basic ones are global
variables, the others elements of tables. `Machine.start` has also run the prelude and has the
functions of the host.

The prelude takes away what could reach files, and puts `load`, `pcall` and `xpcall` behind functions
of its own: only source text is loaded, and an error that is caught is raised again once the deadline
has passed.
-/

namespace LedgerReports.Script

/-- The basic functions by name. -/
def BaseFunction.named : List (String × BaseFunction) :=
  [("assert", assert), ("collectgarbage", collectGarbage), ("error", error),
    ("getmetatable", getMetatable), ("ipairs", ipairs), ("load", load), ("next", next),
    ("pairs", pairs), ("pcall", protectedCall), ("rawequal", rawEqual), ("rawget", rawGet),
    ("rawlen", rawLen), ("rawset", rawSet), ("select", select), ("setmetatable", setMetatable),
    ("tonumber", toNumber), ("tostring", toString), ("type", type), ("warn", warn),
    ("xpcall", handledCall)]

/-- The functions on strings by name. -/
def StringFunction.named : List (String × StringFunction) :=
  [("byte", byte), ("char", char), ("dump", dump), ("find", find), ("format", format),
    ("gmatch", gmatch), ("gsub", gsub), ("len", len), ("lower", lower), ("match", .match),
    ("pack", pack), ("packsize", packSize), ("rep", rep), ("reverse", reverse), ("sub", sub),
    ("unpack", unpack), ("upper", upper)]

/-- The functions on tables by name. -/
def TableFunction.named : List (String × TableFunction) :=
  [("concat", concat), ("insert", insert), ("move", move), ("pack", pack), ("remove", remove),
    ("sort", sort), ("unpack", unpack)]

/-- The functions on numbers by name. -/
def MathFunction.named : List (String × MathFunction) :=
  [("abs", abs), ("acos", acos), ("asin", asin), ("atan", atan), ("ceil", ceil), ("cos", cos),
    ("cosh", cosh), ("deg", deg), ("exp", exp), ("floor", floor), ("fmod", fmod),
    ("frexp", frexp), ("ldexp", ldexp), ("log", log), ("log10", log10), ("max", max),
    ("min", min), ("modf", modf), ("pow", pow), ("rad", rad), ("random", random),
    ("randomseed", randomSeed), ("sin", sin), ("sinh", sinh), ("sqrt", sqrt), ("tan", tan),
    ("tanh", tanh), ("tointeger", toInteger), ("type", type), ("ult", ult)]

/-- The operators of strings. -/
def StringOperator.all : List StringOperator := [add, sub, mul, mod, pow, div, floorDiv, neg]

namespace HostFunction

/-- The functions of the host by module and name. -/
def named : List (String × List (String × HostFunction)) :=
  [("accounts", [("all", accountsAll), ("get", accountsGet)]),
    ("securities", [("all", securitiesAll), ("get", securitiesGet), ("default", securitiesDefault)]),
    ("balances", [("at", balancesAt), ("between", balancesBetween)]),
    ("prices", [("at", pricesAt)]),
    ("date", [("new", dateNew), ("parse", dateParse), ("today", dateToday)]),
    ("tabulation", [("new", tabulationNew)])]

end HostFunction

namespace Table

/-- A table of named values. -/
def ofNamed (values : List (String × Value)) : Table :=
  values.foldl (fun t (name, v) => t.set (.ofText name) v) {}

end Table

namespace Machine

/-- The number of the table of functions on strings. -/
def strings : Nat := 5

/-- The number of the table of functions on tables. -/
def sequences : Nat := 6

/-- The number of the table of functions on numbers. -/
def mathematics : Nat := 7

/-- The modules by name. -/
def modules : List (String × Value) :=
  [("_G", .table globals), ("package", .table package), ("string", .table strings),
    ("table", .table sequences), ("math", .table mathematics)]

/-- The values that are no functions in the table of functions on numbers. -/
def constants : List (String × Value) :=
  [("pi", .ofFloat Number.pi), ("huge", .ofFloat (1.0 / 0.0)), ("maxinteger", .ofInt (2 ^ 63 - 1)),
    ("mininteger", .ofInt (-2 ^ 63))]

/-- A list of functions as named values. -/
def functions {α : Type} (f : α → Builtin) (named : List (String × α)) : List (String × Value) :=
  named.map fun (name, x) => (name, .builtin (f x))

/-- A machine with the built-in functions in their places. -/
def fresh : Machine :=
  let searchers : Nat := 8
  { tables :=
      #[Table.ofNamed (functions .base BaseFunction.named ++ modules
          ++ [("require", .builtin (.package .require)), ("_VERSION", .ofText "Lua 5.4")]),
        Table.ofNamed modules,
        {},
        Table.ofNamed (("__index", .table strings)
          :: StringOperator.all.map fun op => (op.event, .builtin (.stringOperator op))),
        Table.ofNamed [("loaded", .table loaded), ("preload", .table preloaded),
          ("searchers", .table searchers), ("path", .ofText ""), ("cpath", .ofText ""),
          ("config", .ofText "/\n;\n?\n!\n-\n"),
          ("searchpath", .builtin (.package .searchPath))],
        Table.ofNamed (functions .string StringFunction.named),
        Table.ofNamed (functions .table TableFunction.named),
        Table.ofNamed (functions .math MathFunction.named ++ constants),
        { items := #[.builtin (.package .searchPreloaded)] }] }

/-- The source text of the prelude. -/
def preludeText : String := String.intercalate "\n"
  ["",
    "local check = ...",
    "dofile, loadfile = nil, nil",
    "package.path, package.cpath, package.loadlib = \"\", \"\", nil",
    "package.searchers = \x7b package.searchers[1] \x7d",
    "",
    "local raw_load, raw_pcall, raw_xpcall = load, pcall, xpcall",
    "local function rethrow(ok, ...)",
    "    if not ok then check() end",
    "    return ok, ...",
    "end",
    "load = function(chunk, name, mode, env)",
    "    return raw_load(chunk, name, \"t\", env)",
    "end",
    "pcall = function(f, ...)",
    "    return rethrow(raw_pcall(f, ...))",
    "end",
    "xpcall = function(f, handler, ...)",
    "    return rethrow(raw_xpcall(f, handler, ...))",
    "end",
    ""]

/-- A ledger without anything in it. -/
def emptyLedger : Ledger.View := ({} : Store).view default

end Machine

/-- A closure of a program, whose global variables are those of the machine. -/
def newProgram (program : Program) : ScriptM Value := do
  let box ← newBox (.table Machine.globals)
  return .closure (← newId) { program, number := 0, upvalues := #[box] }

/-- Runs the prelude. -/
def runPrelude : ScriptM Unit := do
  match Program.parse? "prelude" Machine.preludeText.toUTF8 with
  | some program =>
    discard (call (← newProgram program) #[.builtin (.host .deadlineCheck)])
  | none => return ()

/-- Puts the functions of the host in their places. -/
def installHost : ScriptM Unit := do
  HostFunction.named.forM fun (name, functions) => do
    let module ← newTable (Table.ofNamed (Machine.functions .host functions))
    putRaw Machine.globals (.ofText name) module
  putRaw Machine.globals (.ofText "print") (.builtin (.host .print))

/-- The machine as a run is to find it: its steps have not been counted yet, and nothing has been
noted. -/
def Outcome.reset {α : Type} : Outcome α → Machine
  | .ok _ m => { m with steps := 0, allocated := 0, journal := [] }
  | .error _ m => { m with journal := [] }

theorem Outcome.journal_reset {α : Type} (r : Outcome α) : r.reset.journal = [] := by
  cases r <;> rfl

/-- The machine that every run starts with. -/
def Machine.start : Machine :=
  let setting : Setting := { ledger := Machine.emptyLedger }
  Outcome.reset (((do runPrelude; installHost : ScriptM Unit).run setting).run Machine.fresh)

/-- A run starts with nothing noted. -/
theorem Machine.journal_start : Machine.start.journal = [] := by
  rw [Machine.start]
  exact Outcome.journal_reset _

end LedgerReports.Script
