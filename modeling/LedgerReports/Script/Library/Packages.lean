import LedgerReports.Script.Library.Arguments

/-!
# Modules

A module is loaded once, by a function that one of the searchers finds, and is kept in the table of
loaded modules. There are no files, so the only searcher looks among the functions that the script
itself has put into `package.preload`.
-/

namespace LedgerReports.Script

namespace PackageFunction

/-- Asks the searchers for a function that loads the module, from number `i` on: the function and
what the searcher says with it. -/
def findLoader (c : Call) (name : ByteArray) (searchers : Table) :
    (fuel i : Nat) → (why : String) → ScriptM (Value × Value)
  | 0, _, why => c.raise s!"module '{Utf8.decodeLossy name}' not found:{why}"
  | fuel + 1, i, why => do
    match searchers.getInteger (Int64.ofInt i) with
    | .nil => c.raise s!"module '{Utf8.decodeLossy name}' not found:{why}"
    | searcher =>
      let results ← c.call searcher #[.string name]
      let loader := results.getD 0 .nil
      if loader.isFunction then return (loader, results.getD 1 .nil)
      else
        match loader.toBytes? with
        | some text =>
          findLoader c name searchers fuel (i + 1) (why ++ "\n\t" ++ Utf8.decodeLossy text)
        | none => findLoader c name searchers fuel (i + 1) why

/-- The most searchers that are asked. -/
def maxSearchers : Nat := 1000000

/-- Gives a module, which is loaded if it is not there yet. -/
def requireCall (c : Call) : ScriptM (Array Value) := do
  let name ← c.bytesArg 0
  let key := Value.string name
  let loaded := Value.table Machine.loaded
  let found ← c.actor.index loaded key none
  if found.truthy then return one found
  let searchers ← c.actor.index (.table Machine.package) (.ofText "searchers") none
  let .table searchers := searchers | c.raise "'package.searchers' must be a table"
  let (loader, data) ← findLoader c name (← getTable searchers) maxSearchers 1 ""
  let module ← c.actor.callForOne loader #[key, data]
  unless module.isNil do c.actor.setIndex loaded key module none
  match ← c.actor.index loaded key none with
  | .nil =>
    c.actor.setIndex loaded key (.bool true) none
    return #[.bool true, data]
  | module => return #[module, data]

/-- Looks among the functions that the script has provided. -/
def searchPreloadedCall (c : Call) : ScriptM (Array Value) := do
  let name ← c.bytesArg 0
  match ← c.actor.index (.table Machine.preloaded) (.string name) none with
  | .nil => return one (.ofText s!"no field package.preload['{Utf8.decodeLossy name}']")
  | loader => return #[loader, .ofText ":preload:"]

/-- Says which files a path stands for; there are none. -/
def searchPathCall (c : Call) : ScriptM (Array Value) := do
  let text (bytes : ByteArray) : String := Utf8.decodeLossy bytes
  let name := text (← c.bytesArg 0)
  let path := text (← c.bytesArg 1)
  let separator := text (← c.optional 2 ".".toUTF8 c.bytesArg)
  let replacement := text (← c.optional 3 "/".toUTF8 c.bytesArg)
  let name := if separator.isEmpty then name else name.replace separator replacement
  let files := (path.replace "?" name).replace ";" "'\n\tno file '"
  return #[.nil, .ofText s!"no file '{files}'"]

/-- Runs a function of the module of modules. -/
def run (f : PackageFunction) (c : Call) : ScriptM (Array Value) := do
  match f with
  | require => requireCall c
  | searchPath => searchPathCall c
  | searchPreloaded => searchPreloadedCall c

end PackageFunction

end LedgerReports.Script
