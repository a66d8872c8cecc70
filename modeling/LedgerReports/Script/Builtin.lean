/-!
# Built-in functions

The functions that scripts find ready-made, by library. What they do is defined library by library;
here they are only told apart. The functions of the host are the whole of what a script can do
beyond computing.
-/

namespace LedgerReports.Script

/-- The basic functions. -/
inductive BaseFunction where
  | assert | collectGarbage | error | getMetatable | ipairs | ipairsStep | load | next | pairs
  | protectedCall | rawEqual | rawGet | rawLen | rawSet | select | setMetatable | toNumber
  | toString | type | warn | handledCall
deriving DecidableEq, Hashable, Repr

/-- The functions on strings. -/
inductive StringFunction where
  | byte | char | dump | find | format | gmatch | gsub | len | lower | match | pack | packSize
  | rep | reverse | sub | unpack | upper
deriving DecidableEq, Hashable, Repr

/-- The functions on tables. -/
inductive TableFunction where
  | concat | insert | move | pack | remove | sort | unpack
deriving DecidableEq, Hashable, Repr

/-- The functions on numbers. -/
inductive MathFunction where
  | abs | acos | asin | atan | ceil | cos | cosh | deg | exp | floor | fmod | frexp | ldexp | log
  | log10 | max | min | modf | pow | rad | random | randomSeed | sin | sinh | sqrt | tan | tanh
  | toInteger | type | ult
deriving DecidableEq, Hashable, Repr

/-- The functions that load modules. -/
inductive PackageFunction where
  | require | searchPath | searchPreloaded
deriving DecidableEq, Hashable, Repr

/-- The operators that strings have, given as functions. -/
inductive StringOperator where
  | add | sub | mul | mod | pow | div | floorDiv | neg
deriving DecidableEq, Hashable, Repr

/-- The kinds of objects that the host hands out. -/
inductive HostKind where
  | date | account | security | price | balance | tabulation | series
deriving DecidableEq, Hashable, Repr

/-- The methods of objects of the host. -/
inductive HostMethod where
  | addDays | addMonths | addYears | endOfMonth
  | tabulationLabel | tabulationSeries
  | seriesSet | seriesPush | seriesSeries
deriving DecidableEq, Hashable, Repr

/-- The operators of objects of the host. -/
inductive HostOperator where
  | index | newIndex | add | sub | neg | eq | lt | le | toString
deriving DecidableEq, Hashable, Repr

/-- The functions of the host. -/
inductive HostFunction where
  | accountsAll | accountsGet
  | securitiesAll | securitiesGet | securitiesDefault
  | balancesAt | balancesBetween
  | pricesAt
  | dateNew | dateParse | dateToday
  | tabulationNew
  | print
  /-- Fails once the deadline has passed. -/
  | deadlineCheck
  /-- A method. -/
  | method (m : HostMethod)
  /-- An operator of the objects of a kind. -/
  | operator (kind : HostKind) (op : HostOperator)
  /-- Gives the text of an error. -/
  | failureText
deriving DecidableEq, Hashable, Repr

/-- A built-in function. -/
inductive Builtin where
  | base (f : BaseFunction)
  | string (f : StringFunction)
  | table (f : TableFunction)
  | math (f : MathFunction)
  | package (f : PackageFunction)
  | stringOperator (f : StringOperator)
  | host (f : HostFunction)
  /-- Goes on with the walk through matches that has this number. -/
  | matches (cursor : Nat)
deriving DecidableEq, Hashable, Repr

end LedgerReports.Script
