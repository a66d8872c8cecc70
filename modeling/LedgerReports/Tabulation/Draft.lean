import LedgerReports.Tabulation.Basic
import LedgerReports.Text.Utf8
import Std.Data.TreeMap

/-!
# Drafts of tabulations

While a script builds tabulations, each is a `Draft`: its texts and labels, and a list of nodes of
which the first is the root. A node knows its children by name and number, and a new child always
gets the next number. So several references to one node see each other's changes, and a node once
made stays where it is.

All drafts of a run lie on one `Workbench` and share one budget. What is charged is never given
back, not even when the operation fails later on; apart from that a failed operation changes
nothing. `Draft.finish` folds the nodes into a tree.
-/

namespace LedgerReports

namespace Draft

/-- The greatest index of a label or value. -/
def maxPoints : Nat := 100000

/-- The greatest number of bytes of a title, label or name. -/
def maxText : Nat := 4096

/-- A node: the values of a series and the numbers of the series below it. -/
structure Node where
  /-- The values. -/
  values : Array Float := #[]
  /-- The numbers of the child nodes, by name. -/
  children : Std.TreeMap String Nat := ∅

instance : Inhabited Node := ⟨{}⟩

/-- The number of the root node, which holds the top-level series. -/
def root : Nat := 0

end Draft

/-- A tabulation under construction. -/
structure Draft where
  /-- The title. -/
  title : String := ""
  /-- The line below the title. -/
  subtitle : String := ""
  /-- What the numbers count. -/
  units : String := ""
  /-- The labels. -/
  labels : Array String := #[]
  /-- The nodes; the first is the root. -/
  nodes : Array Draft.Node := #[{}]

instance : Inhabited Draft := ⟨{}⟩

/-- What the tabulations of a run may use up together. -/
inductive Resource where
  /-- Series, with one for each tabulation. -/
  | series
  /-- Values and labels. -/
  | cells
  /-- Bytes of titles, labels and names. -/
  | text
deriving DecidableEq, Repr

/-- How much of a resource a run may use. -/
def Resource.limit : Resource → Nat
  | series => 10000
  | cells => 1000000
  | text => 16 * 1024 * 1024

/-- The words for a resource in an error. -/
def Resource.description : Resource → String
  | series => "series"
  | cells => "values and labels"
  | text => "bytes of text"

/-- How much of each resource a run has used. -/
structure Budget where
  /-- The series used. -/
  series : Nat := 0
  /-- The values and labels used. -/
  cells : Nat := 0
  /-- The bytes of text used. -/
  text : Nat := 0
deriving DecidableEq, Repr

/-- How much of a resource has been used. -/
def Budget.spent (b : Budget) : Resource → Nat
  | .series => b.series
  | .cells => b.cells
  | .text => b.text

/-- The budget once `total` of a resource has been used. -/
def Budget.withSpent (b : Budget) (r : Resource) (total : Nat) : Budget :=
  match r with
  | .series => { b with series := total }
  | .cells => { b with cells := total }
  | .text => { b with text := total }

/-- Why a tabulation cannot be built further. -/
inductive DraftError where
  /-- A text has too many bytes. -/
  | textTooLong
  /-- A value is no finite number. -/
  | notFinite (value : Float)
  /-- An index is not one of a label or value. -/
  | indexOutside (index : Int)
  /-- There are too many labels. -/
  | tooManyLabels
  /-- A resource is used up. -/
  | exhausted (resource : Resource)

/-- The text for a float that is not finite. -/
def DraftError.infinite (value : Float) : String :=
  if value.isNaN then "NaN" else if value < 0.0 then "-inf" else "inf"

/-- The text shown for an error. -/
def DraftError.message : DraftError → String
  | textTooLong => s!"text longer than {Draft.maxText} bytes"
  | notFinite value => "series values must be finite numbers, got " ++ infinite value
  | indexOutside index => s!"index {index} is outside 1..={Draft.maxPoints}"
  | tooManyLabels => s!"a tabulation may hold at most {Draft.maxPoints} labels"
  | exhausted resource => s!"a report may hold at most {resource.limit} {resource.description}"

/-- All drafts of a run, with their budget. -/
structure Workbench where
  /-- What has been used up. -/
  budget : Budget := {}
  /-- The drafts, in the order in which they were begun. -/
  drafts : Array Draft := #[]

instance : Inhabited Workbench := ⟨{}⟩

/-- An operation on the drafts of a run. When it fails, what it did before stays done. -/
abbrev DraftM := EStateM DraftError Workbench

namespace Workbench

/-- Uses up some of a resource. -/
def charge (r : Resource) (amount : Nat) : DraftM Unit := do
  let total := (← get).budget.spent r + amount
  if r.limit < total then throw (.exhausted r)
  modify fun w => { w with budget := w.budget.withSpent r total }

/-- The draft with a number. -/
def draft (w : Workbench) (id : Nat) : Draft := w.drafts.getD id default

/-- Changes a draft. -/
def modifyDraft (id : Nat) (f : Draft → Draft) : DraftM Unit :=
  modify fun w => { w with drafts := w.drafts.modify id f }

/-- Begins a draft. -/
def begin : DraftM Nat := do
  charge .series 1
  let id := (← get).drafts.size
  modify fun w => { w with drafts := w.drafts.push {} }
  return id

/-- The text that the bytes of a script are kept as. -/
def readText (bytes : ByteArray) : DraftM String :=
  if Draft.maxText < bytes.size then throw .textTooLong else return Utf8.decodeLossy bytes

/-- Reads a text that is about to be stored, and charges its bytes. -/
def keepText (bytes : ByteArray) : DraftM String := do
  let text ← readText bytes
  charge .text text.utf8ByteSize
  return text

/-- Sets the title of a draft. -/
def setTitle (id : Nat) (bytes : ByteArray) : DraftM Unit := do
  let text ← keepText bytes
  modifyDraft id fun d => { d with title := text }

/-- Sets the line below the title. -/
def setSubtitle (id : Nat) (bytes : ByteArray) : DraftM Unit := do
  let text ← keepText bytes
  modifyDraft id fun d => { d with subtitle := text }

/-- Sets what the numbers count. -/
def setUnits (id : Nat) (bytes : ByteArray) : DraftM Unit := do
  let text ← keepText bytes
  modifyDraft id fun d => { d with units := text }

/-- The position that a 1-based index selects. -/
def slot (index : Int) : DraftM Nat :=
  if 1 ≤ index ∧ index ≤ Draft.maxPoints then return (index - 1).toNat
  else throw (.indexOutside index)

/-- Adds a label to those that will replace the labels of a draft. -/
def keepLabel (kept : Array String) (bytes : ByteArray) : DraftM (Array String) := do
  let text ← keepText bytes
  charge .cells 1
  return kept.push text

/-- Fails if there is no room for another label. -/
def checkLabelCount (kept : Array String) : DraftM Unit :=
  if kept.size = Draft.maxPoints then throw .tooManyLabels else return ()

/-- Adds labels, one after the other, to those that will replace the labels of a draft. One that
cannot be read ends this, and is given back. -/
def keepLabels {ε : Type} :
    List (Except ε ByteArray) → Array String → DraftM (Except ε (Array String))
  | [], kept => return .ok kept
  | label :: rest, kept => do
    -- the count is looked at before the label is
    checkLabelCount kept
    match label with
    | .ok bytes => keepLabels rest (← keepLabel kept bytes)
    | .error e => return .error e

/-- Replaces the labels of a draft, unless one of the new ones cannot be read. -/
def setLabels {ε : Type} (id : Nat) (labels : List (Except ε ByteArray)) :
    DraftM (Except ε Unit) := do
  match ← keepLabels labels #[] with
  | .ok labels =>
    modifyDraft id fun d => { d with labels }
    return .ok ()
  | .error e => return .error e

/-- An array with at least `size` elements, filled up with `fill`. -/
def extend {α : Type} (a : Array α) (size : Nat) (fill : α) : Array α :=
  a ++ Array.replicate (size - a.size) fill

/-- An array with an element put at a position; missing elements before it are filled up. -/
def put {α : Type} (a : Array α) (position : Nat) (x fill : α) : Array α :=
  (extend a (position + 1) fill).setIfInBounds position x

/-- Charges the cells that an array of some size grows by when an element is put at a position. -/
def chargeGrowth (size position : Nat) : DraftM Unit :=
  if size ≤ position then charge .cells (position + 1 - size) else return ()

/-- Sets one label of a draft; labels before it that are missing become empty. -/
def setLabel (id : Nat) (index : Int) (bytes : ByteArray) : DraftM Unit := do
  let slot ← slot index
  let text ← keepText bytes
  chargeGrowth ((← get).draft id).labels.size slot
  modifyDraft id fun d => { d with labels := put d.labels slot text "" }

/-- The node with a number. -/
def node (w : Workbench) (id number : Nat) : Draft.Node := (w.draft id).nodes.getD number default

/-- The number of the child with a name, which is made if there is none yet. -/
def child (id parent : Nat) (bytes : ByteArray) : DraftM Nat := do
  let name ← readText bytes
  match ((← get).node id parent).children[name]? with
  | some number => return number
  | none =>
    charge .series 1
    charge .text name.utf8ByteSize
    let number := ((← get).draft id).nodes.size
    modifyDraft id fun d =>
      let nodes := d.nodes.modify parent fun n =>
        { n with children := n.children.insert name number }
      { d with nodes := nodes.push {} }
    return number

/-- Sets one value of a series; values before it that are missing become zero. -/
def setValue (id number : Nat) (index : Int) (value : Float) : DraftM Unit := do
  unless value.isFinite do throw (.notFinite value)
  let slot ← slot index
  chargeGrowth ((← get).node id number).values.size slot
  modifyDraft id fun d =>
    { d with
      nodes := d.nodes.modify number fun n => { n with values := put n.values slot value 0.0 } }

/-- Adds a value at the end of a series. -/
def pushValue (id number : Nat) (value : Float) : DraftM Unit := do
  let size := ((← get).node id number).values.size
  setValue id number (size + 1) value

end Workbench

namespace Draft

/-- The series of all nodes, the last node first. A node's children have greater numbers, so their
series are there when they are asked for. -/
def foldNodes (nodes : Array Node) : Array Series :=
  nodes.foldr
    (fun node built =>
      let children := node.children.toList.filterMap fun (name, number) =>
        built[nodes.size - 1 - number]?.map fun s => (name, s)
      built.push (.mk node.values children))
    #[]

/-- The tabulation that a draft has become. -/
def finish (d : Draft) : Tabulation where
  title := d.title
  subtitle := d.subtitle
  units := d.units
  labels := d.labels
  series := ((foldNodes d.nodes).back?.getD default).series

end Draft

end LedgerReports
