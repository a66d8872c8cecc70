import LedgerReports.Proofs.Tabulation.Desk

/-!
# Tabulations as plain trees

What the operations on tabulations *mean* can be said without nodes and
numbers. A tabulation is a tree, a series is given by its **path**, the names
that lead to it from the top, and every operation is a change of the tree at
a path. A handle is then nothing but a tabulation and a path, so that two
handles with one path are the same thing by definition, and nothing has to
be said about sharing.

`Plan` is this reading. It knows no failure and no budget: it is run on the
commands that succeed.
-/

namespace LedgerReports

/-! ## Arrays with entries set -/

/-- The array with entry `i` set to `x`. It has all the entries it had, and
where entries are missing before `i` they are `fill`. -/
def setEntry {α : Type} (a : Array α) (i : Nat) (x fill : α) : Array α :=
  Array.ofFn fun j : Fin (max a.size (i + 1)) => if j = i then x else a.getD j fill

theorem size_setEntry {α : Type} (a : Array α) (i : Nat) (x fill : α) :
    (setEntry a i x fill).size = max a.size (i + 1) := Array.size_ofFn

theorem getElem_setEntry {α : Type} (a : Array α) (i : Nat) (x fill : α) {j : Nat}
    (hj : j < (setEntry a i x fill).size) :
    (setEntry a i x fill)[j] = if j = i then x else a.getD j fill :=
  Array.getElem_ofFn hj

/-- What is put at a position is set as an entry. -/
theorem Workbench.put_eq_setEntry {α : Type} (a : Array α) (position : Nat) (x fill : α) :
    put a position x fill = setEntry a position x fill := by
  refine Array.ext ((size_put _ _ _ _).trans (size_setEntry _ _ _ _).symm) fun i hi hi' => ?_
  refine Option.some.inj ?_
  rw [← Array.getElem?_eq_getElem, getElem?_put, getElem_setEntry, Array.getD_eq_getD_getElem?]
  rw [size_put] at hi
  by_cases hposition : i = position
  · rw [if_pos hposition, if_pos hposition]
  · rw [if_neg hposition, if_neg hposition]
    by_cases hsize : i < a.size
    · rw [if_pos hsize, Array.getElem?_eq_getElem hsize, Option.getD_some]
    · rw [if_neg hsize, if_pos (by omega), Array.getElem?_eq_none (by omega), Option.getD_none]

/-- To put something after the last is to push it. -/
theorem Workbench.put_size {α : Type} (a : Array α) (x fill : α) :
    put a a.size x fill = a.push x := by
  refine Array.ext_getElem? fun i => ?_
  rw [getElem?_put, Array.getElem?_push]
  by_cases hi : i = a.size
  · rw [if_pos hi, if_pos hi]
  · rw [if_neg hi, if_neg hi]
    by_cases hlt : i < a.size
    · rw [if_pos hlt]
    · rw [if_neg hlt, if_neg hlt, Array.getElem?_eq_none (by omega)]

/-! ## Trees and paths -/

namespace Series

/-- The series at a path below a series. -/
def at? : List String → Series → Option Series
  | [], s => some s
  | name :: path, s => (s.series.lookup name).bind (at? path)

/-- Changes the series at a path below a series, if there is one. -/
def modifyAt (f : Series → Series) : List String → Series → Series
  | [], s => f s
  | name :: path, s =>
    .mk s.values
      (s.series.map fun (n, t) => if n = name then (n, modifyAt f path t) else (n, t))

/-- Changes the values of a series, and not the series below it. -/
def modifyValues (g : Array Float → Array Float) (s : Series) : Series :=
  .mk (g s.values) s.series

/-- Puts a new name into a list of named things in the order of names. -/
def insertNamed {α : Type} (name : String) (x : α) : List (String × α) → List (String × α)
  | [] => [(name, x)]
  | (n, y) :: rest =>
    if compare n name = .lt then (n, y) :: insertNamed name x rest
    else (name, x) :: (n, y) :: rest

/-- The series with an empty series below it that has a name, unless it has
one with that name already. -/
def addChild (name : String) (s : Series) : Series :=
  match s.series.lookup name with
  | some _ => s
  | none => .mk s.values (insertNamed name default s.series)

theorem at?_cons_mk (name : String) (path : List String) (values : Array Float)
    (series : List (String × Series)) :
    at? (name :: path) (.mk values series) = (series.lookup name).bind (at? path) := rfl

theorem modifyAt_cons_mk (f : Series → Series) (name : String) (path : List String)
    (values : Array Float) (series : List (String × Series)) :
    modifyAt f (name :: path) (.mk values series)
      = .mk values
        (series.map fun (n, t) => if n = name then (n, modifyAt f path t) else (n, t)) := rfl

theorem addChild_of_lookup_eq_some {name : String} {s t : Series}
    (h : s.series.lookup name = some t) : addChild name s = s := by
  rw [addChild, h]

theorem addChild_of_lookup_eq_none {name : String} {s : Series}
    (h : s.series.lookup name = none) :
    addChild name s = .mk s.values (insertNamed name default s.series) := by
  rw [addChild, h]

/-- What is below a series after a change depends on what was below it, if
this is so for the change. -/
theorem series_modifyAt {f : Series → Series}
    (hf : ∀ s s', s.series = s'.series → (f s).series = (f s').series) {s s' : Series}
    (h : s.series = s'.series) (path : List String) :
    (modifyAt f path s).series = (modifyAt f path s').series := by
  cases path with
  | nil => exact hf s s' h
  | cons name path =>
    unfold modifyAt
    rw [h]
    rfl

theorem series_addChild {name : String} (s s' : Series) (h : s.series = s'.series) :
    (addChild name s).series = (addChild name s').series := by
  unfold addChild
  rw [h]
  split
  · exact h
  · rfl

theorem at?_append (path path' : List String) (s : Series) :
    at? (path ++ path') s = (at? path s).bind (at? path') := by
  induction path generalizing s with
  | nil => rfl
  | cons name path ih =>
    show (s.series.lookup name).bind (at? (path ++ path')) = _
    rw [at?, Option.bind_assoc, funext ih]

end Series

namespace Tabulation

/-- A tabulation as one series that has the top-level series below it. -/
def tree (t : Tabulation) : Series := .mk #[] t.series

/-- Changes the series at a path of a tabulation. -/
def modifyAt (f : Series → Series) (path : List String) (t : Tabulation) : Tabulation :=
  { t with series := (t.tree.modifyAt f path).series }

/-- Replaces a text of a tabulation. -/
def replace (field : TextField) (text : String) (t : Tabulation) : Tabulation :=
  match field with
  | .title => { t with title := text }
  | .subtitle => { t with subtitle := text }
  | .units => { t with units := text }

end Tabulation

/-! ## Plans -/

/-- The tabulations of a run as trees, with the handles that the script
holds. -/
structure Plan where
  /-- The tabulations. -/
  tabulations : List Tabulation := []
  /-- For each handle of a series its tabulation and its path. -/
  series : List (Nat × List String) := []

namespace Plan

variable {ε : Type}

/-- The tabulation and the path below which a series is asked for. -/
def path? (plan : Plan) : Place → Option (Nat × List String)
  | .top tabulation => some (tabulation, [])
  | .below handle => plan.series[handle]?

/-- Changes a tabulation. -/
def modify (plan : Plan) (tabulation : Nat) (f : Tabulation → Tabulation) : Plan :=
  { plan with tabulations := plan.tabulations.modify tabulation f }

/-- Changes the values of the series that a handle stands for. -/
def modifyValues (plan : Plan) (handle : Nat) (g : Array Float → Array Float) : Plan :=
  match plan.series[handle]? with
  | some (tabulation, path) => plan.modify tabulation (.modifyAt (.modifyValues g) path)
  | none => plan

/-- The values of the series at a path of a tabulation. -/
def valuesAt (plan : Plan) (tabulation : Nat) (path : List String) : Option (Array Float) := do
  let t ← plan.tabulations[tabulation]?
  let s ← t.tree.at? path
  return s.values

/-- The plan after a command. Indices count from 1. -/
def perform (plan : Plan) : Command ε → Plan
  | .begin => { plan with tabulations := plan.tabulations ++ [{}] }
  | .setText field tabulation bytes =>
    plan.modify tabulation (.replace field (Utf8.decodeLossy bytes))
  | .setLabels tabulation labels =>
    plan.modify tabulation fun t =>
      { t with labels := ((labels.filterMap Except.toOption).map Utf8.decodeLossy).toArray }
  | .setLabel tabulation index bytes =>
    plan.modify tabulation fun t =>
      { t with labels := setEntry t.labels (index.toNat - 1) (Utf8.decodeLossy bytes) "" }
  | .series place name =>
    match plan.path? place with
    | some (tabulation, path) =>
      { tabulations := plan.tabulations.modify tabulation
          (.modifyAt (.addChild (Utf8.decodeLossy name)) path)
        series := plan.series ++ [(tabulation, path ++ [Utf8.decodeLossy name])] }
    | none => plan
  | .setValue handle index value =>
    plan.modifyValues handle fun values => setEntry values (index.toNat - 1) value 0.0
  | .pushValue handle value => plan.modifyValues handle fun values => values.push value

/-- The plan after some commands. -/
def after (plan : Plan) (commands : List (Command ε)) : Plan := commands.foldl perform plan

end Plan

end LedgerReports
