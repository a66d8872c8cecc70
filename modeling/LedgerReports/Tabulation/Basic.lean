/-!
# Tabulations

What a report yields: a titled and labelled tree of named series of numbers, ready to be drawn.
-/

namespace LedgerReports

/-- A series of numbers with the series below it, in the order of their names. -/
inductive Series where
  /-- The values of the series, and the series below it by name. -/
  | mk (values : Array Float) (series : List (String × Series))

namespace Series

/-- The values of a series. -/
def values : Series → Array Float
  | mk values _ => values

/-- The series below a series, in the order of their names. -/
def series : Series → List (String × Series)
  | mk _ series => series

instance : Inhabited Series := ⟨mk #[] []⟩

mutual

/-- How many levels of series there are, this one included. -/
def depth : Series → Nat
  | mk _ series => depthOfList series + 1

/-- How many levels of series there are in a list of them. -/
def depthOfList : List (String × Series) → Nat
  | [] => 0
  | (_, s) :: rest => max s.depth (depthOfList rest)

end

end Series

/-- The result of a report. -/
structure Tabulation where
  /-- The report that yielded it. -/
  reportId : Int := 0
  /-- The title. -/
  title : String := ""
  /-- The line below the title. -/
  subtitle : String := ""
  /-- What the numbers count. -/
  units : String := ""
  /-- What the points of each series are called. -/
  labels : Array String := #[]
  /-- The top-level series, in the order of their names. -/
  series : List (String × Series) := []

instance : Inhabited Tabulation := ⟨{}⟩

end LedgerReports
