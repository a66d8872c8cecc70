import LedgerReports.Proofs.Tabulation.Workbench

/-!
# Everything a script can do to its tabulations

A script never sees a draft. It holds *handles*: one for each tabulation it
has begun, and one for each series it has asked for. A series asked for
twice has two handles, and a handle stays valid whatever is done through
the others.

A `Desk` is the workbench of a run together with the handles that have been
handed out, and a `Command` is one operation through a handle. A run is any
list of commands, so handles may be used in any interleaving. A command that
fails leaves the budget as charged and is otherwise as if it had not been
given; that is what the operations themselves do, and the desk adds nothing
to it.

`tabulation.new` with options is `Command.begin` followed by the
assignments of the options, up to the first that fails (`Desk.create`).
They are commands of their own because an option may be computed when it is
asked for, by a function of the script that works on other tabulations
meanwhile.
-/

namespace LedgerReports

/-- A text of a tabulation that a script can set. -/
inductive TextField where
  /-- The title. -/
  | title
  /-- The line below the title. -/
  | subtitle
  /-- What the numbers count. -/
  | units
deriving DecidableEq, Repr

namespace TextField

/-- Sets the text of a draft. -/
def assign : TextField → Nat → ByteArray → DraftM Unit
  | title => Workbench.setTitle
  | subtitle => Workbench.setSubtitle
  | units => Workbench.setUnits

/-- The draft with another text. -/
def replace (field : TextField) (text : String) (d : Draft) : Draft :=
  match field with
  | title => { d with title := text }
  | subtitle => { d with subtitle := text }
  | units => { d with units := text }

end TextField

/-- Where a series is asked for. Tabulations and series are given by the
numbers of their handles, from 0 in the order in which they were handed
out. -/
inductive Place where
  /-- At the top of a tabulation. -/
  | top (tabulation : Nat)
  /-- Below a series. -/
  | below (handle : Nat)
deriving DecidableEq, Repr

/-- An operation of a script on its tabulations; `ε` says why a label cannot
be read. -/
inductive Command (ε : Type) where
  /-- Begins a tabulation. -/
  | begin
  /-- Sets a text of a tabulation. -/
  | setText (field : TextField) (tabulation : Nat) (bytes : ByteArray)
  /-- Replaces the labels of a tabulation. -/
  | setLabels (tabulation : Nat) (labels : List (Except ε ByteArray))
  /-- Sets one label of a tabulation. -/
  | setLabel (tabulation : Nat) (index : Int) (bytes : ByteArray)
  /-- Asks for a series by its name. -/
  | series (place : Place) (name : ByteArray)
  /-- Sets one value of a series. -/
  | setValue (handle : Nat) (index : Int) (value : Float)
  /-- Adds a value at the end of a series. -/
  | pushValue (handle : Nat) (value : Float)

/-- The drafts of a run, and the handles that the script holds. The handle of
a tabulation is the number of its draft. -/
structure Desk where
  /-- The drafts, with their budget. -/
  bench : Workbench := {}
  /-- For each handle of a series its draft and its node. -/
  series : List (Nat × Nat) := []

namespace Desk

variable {ε α : Type}

/-- The draft and the node below which a series is asked for. -/
def node? (desk : Desk) : Place → Option (Nat × Nat)
  | .top tabulation =>
    if tabulation < desk.bench.drafts.size then some (tabulation, Draft.root) else none
  | .below handle => desk.series[handle]?

/-- Does something to a tabulation that has been begun; otherwise fails. -/
def onDraft (desk : Desk) (tabulation : Nat) (act : Desk × Bool) : Desk × Bool :=
  if tabulation < desk.bench.drafts.size then act else (desk, false)

/-- Does something to a node, if there is one; otherwise fails. -/
def onNode (desk : Desk) (node : Option (Nat × Nat)) (act : Nat → Nat → Desk × Bool) :
    Desk × Bool :=
  match node with
  | some (id, number) => act id number
  | none => (desk, false)

/-- The desk after an operation that may hand out handles, and whether it
succeeded. -/
def attempt (desk : Desk) (x : DraftM α) (handles : α → List (Nat × Nat)) : Desk × Bool :=
  match x.run desk.bench with
  | .ok a bench => ({ bench, series := desk.series ++ handles a }, true)
  | .error _ bench => ({ desk with bench }, false)

/-- The desk after the labels of a draft have been assigned. -/
def attemptLabels (desk : Desk) (id : Nat) (labels : List (Except ε ByteArray)) :
    Desk × Bool :=
  match (Workbench.setLabels id labels).run desk.bench with
  | .ok (.ok ()) bench => ({ desk with bench }, true)
  | .ok (.error _) bench => ({ desk with bench }, false)
  | .error _ bench => ({ desk with bench }, false)

/-- Performs a command, and tells whether it succeeded. A handle that has not
been handed out does nothing. -/
def perform (desk : Desk) : Command ε → Desk × Bool
  | .begin => desk.attempt Workbench.begin fun _ => []
  | .setText field id bytes =>
    desk.onDraft id (desk.attempt (field.assign id bytes) fun _ => [])
  | .setLabels id labels => desk.onDraft id (desk.attemptLabels id labels)
  | .setLabel id index bytes =>
    desk.onDraft id (desk.attempt (Workbench.setLabel id index bytes) fun _ => [])
  | .series place name =>
    desk.onNode (desk.node? place) fun id parent =>
      desk.attempt (Workbench.child id parent name) fun number => [(id, number)]
  | .setValue handle index value =>
    desk.onNode desk.series[handle]? fun id number =>
      desk.attempt (Workbench.setValue id number index value) fun _ => []
  | .pushValue handle value =>
    desk.onNode desk.series[handle]? fun id number =>
      desk.attempt (Workbench.pushValue id number value) fun _ => []

/-- The desk after some commands. -/
def after (desk : Desk) (commands : List (Command ε)) : Desk :=
  commands.foldl (fun desk command => (desk.perform command).1) desk

theorem after_append (desk : Desk) (commands more : List (Command ε)) :
    desk.after (commands ++ more) = (desk.after commands).after more := List.foldl_append

/-- Those of some commands that succeed, when all are given. -/
def succeeding (desk : Desk) : List (Command ε) → List (Command ε)
  | [] => []
  | command :: rest =>
    if (desk.perform command).2 then command :: (desk.perform command).1.succeeding rest
    else (desk.perform command).1.succeeding rest

/-! ## New tabulations with options -/

/-- The options of a new tabulation. -/
structure Options (ε : Type) where
  /-- The title. -/
  title : Option ByteArray := none
  /-- The line below the title. -/
  subtitle : Option ByteArray := none
  /-- What the numbers count. -/
  units : Option ByteArray := none
  /-- The labels. -/
  labels : Option (List (Except ε ByteArray)) := none

/-- The assignments by which a tabulation is set up. -/
def Options.commands (options : Options ε) (tabulation : Nat) : List (Command ε) :=
  (options.title.map fun bytes => .setText .title tabulation bytes).toList
    ++ (options.subtitle.map fun bytes => .setText .subtitle tabulation bytes).toList
    ++ (options.units.map fun bytes => .setText .units tabulation bytes).toList
    ++ (options.labels.map fun labels => .setLabels tabulation labels).toList

/-- The desk after some commands, of which the first that fails is the last. -/
def afterUntil (desk : Desk) : List (Command ε) → Desk
  | [] => desk
  | command :: rest =>
    if (desk.perform command).2 then (desk.perform command).1.afterUntil rest
    else (desk.perform command).1

/-- Begins a tabulation and sets it up. When an option cannot be kept, the
tabulation is abandoned as it is. -/
def create (desk : Desk) (options : Options ε) : Desk :=
  desk.afterUntil (.begin :: options.commands desk.bench.drafts.size)

theorem afterUntil_eq_after (desk : Desk) (commands : List (Command ε)) :
    ∃ given, given <+: commands ∧ desk.afterUntil commands = desk.after given := by
  induction commands generalizing desk with
  | nil => exact ⟨[], List.prefix_refl _, rfl⟩
  | cons command rest ih =>
    rw [afterUntil]
    split
    case isTrue =>
      obtain ⟨given, hfirst, heq⟩ := ih (desk.perform command).1
      exact ⟨command :: given, List.prefix_cons_inj _ |>.mpr hfirst, heq⟩
    case isFalse => exact ⟨[command], List.prefix_append [command] rest, rfl⟩

/-- A new tabulation with options is a run of commands like any other. -/
theorem create_eq_after (desk : Desk) (options : Options ε) :
    ∃ given : List (Command ε),
      given <+: .begin :: options.commands desk.bench.drafts.size
        ∧ desk.create options = desk.after given :=
  desk.afterUntil_eq_after _

/-! ## What a command can do -/

/-- **What a successful command does.** The workbench `v` in between has been
charged, and how much is known; the last desk differs from it by the change
of one draft, or by a new one. -/
inductive Effect (desk : Desk) : Command ε → Desk → Prop where
  /-- A new draft is the last. -/
  | begin (v : Workbench) (paid : v = desk.bench.spend .series 1)
      (charged : Workbench.Charged desk.bench v) :
      Effect desk .begin { desk with bench := { v with drafts := v.drafts.push {} } }
  /-- A text is stored as it was read. -/
  | setText (field : TextField) (id : Nat) (bytes : ByteArray) (v : Workbench)
      (held : id < desk.bench.drafts.size)
      (paid : v = desk.bench.spend .text (Utf8.decodeLossy bytes).utf8ByteSize)
      (charged : Workbench.Charged desk.bench v) :
      Effect desk (.setText field id bytes)
        { desk with bench := v.change id (field.replace (Utf8.decodeLossy bytes)) }
  /-- Labels are stored when all have been read. -/
  | setLabels (id : Nat) (given : List ByteArray) (kept : Array String) (v : Workbench)
      (held : id < desk.bench.drafts.size)
      (read : kept = (given.map Utf8.decodeLossy).toArray)
      (few : kept.size ≤ Draft.maxPoints)
      (paid_text : v.budget.spent .text = desk.bench.budget.spent .text + Workbench.bytesOf kept)
      (paid_cells : v.budget.spent .cells = desk.bench.budget.spent .cells + kept.size)
      (charged : Workbench.Charged desk.bench v) :
      Effect desk (.setLabels id (given.map .ok))
        { desk with bench := v.change id fun d => { d with labels := kept } }
  /-- A label is put at its position. -/
  | setLabel (id position : Nat) (bytes : ByteArray) (v : Workbench)
      (held : id < desk.bench.drafts.size)
      (low : position < Draft.maxPoints)
      (paid : v = (desk.bench.spend .text (Utf8.decodeLossy bytes).utf8ByteSize).spend .cells
        (position + 1 - (desk.bench.draft id).labels.size))
      (charged : Workbench.Charged desk.bench v) :
      Effect desk (.setLabel id (position + 1) bytes)
        { desk with bench := v.change id (Workbench.withLabel position (Utf8.decodeLossy bytes)) }
  /-- A series that is there gets another handle. -/
  | found (place : Place) (name : ByteArray) (id parent number : Nat)
      (asked : desk.node? place = some (id, parent))
      (there : (desk.bench.node id parent).children[Utf8.decodeLossy name]? = some number) :
      Effect desk (.series place name) { desk with series := desk.series ++ [(id, number)] }
  /-- A series that is not there becomes the last node. -/
  | made (place : Place) (name : ByteArray) (id parent number : Nat) (v : Workbench)
      (asked : desk.node? place = some (id, parent))
      (fresh : (desk.bench.node id parent).children[Utf8.decodeLossy name]? = none)
      (last : number = (desk.bench.draft id).nodes.size)
      (paid : v = (desk.bench.spend .series 1).spend .text (Utf8.decodeLossy name).utf8ByteSize)
      (charged : Workbench.Charged desk.bench v) :
      Effect desk (.series place name)
        { bench := v.change id (Workbench.withChild parent (Utf8.decodeLossy name))
          series := desk.series ++ [(id, number)] }
  /-- A finite value is put at its position. -/
  | setValue (handle id number position : Nat) (value : Float) (v : Workbench)
      (held : desk.series[handle]? = some (id, number))
      (low : position < Draft.maxPoints)
      (finite : value.isFinite)
      (paid : v = desk.bench.spend .cells
        (position + 1 - (desk.bench.node id number).values.size))
      (charged : Workbench.Charged desk.bench v) :
      Effect desk (.setValue handle (position + 1) value)
        { desk with bench := v.change id (Workbench.withValue number position value) }
  /-- A finite value is put after the last. -/
  | pushValue (handle id number position : Nat) (value : Float) (v : Workbench)
      (held : desk.series[handle]? = some (id, number))
      (last : position = (desk.bench.node id number).values.size)
      (low : position < Draft.maxPoints)
      (finite : value.isFinite)
      (paid : v = desk.bench.spend .cells
        (position + 1 - (desk.bench.node id number).values.size))
      (charged : Workbench.Charged desk.bench v) :
      Effect desk (.pushValue handle value)
        { desk with bench := v.change id (Workbench.withValue number position value) }

/-- What a failed command leaves: more may have been used up, and that is
all. -/
structure Unmoved (desk desk' : Desk) : Prop where
  /-- The drafts are as before. -/
  charged : Workbench.Charged desk.bench desk'.bench
  /-- No handle has been handed out. -/
  series : desk'.series = desk.series

theorem Unmoved.refl (desk : Desk) : Unmoved desk desk := ⟨.refl _, rfl⟩

/-- The two ways in which a command can end. -/
def Ends (desk : Desk) (command : Command ε) (result : Desk × Bool) : Prop :=
  (result.2 = false ∧ Unmoved desk result.1) ∨ (result.2 = true ∧ Effect desk command result.1)

theorem ends_of_attempt {desk : Desk} {command : Command ε} {x : DraftM α}
    {handles : α → List (Nat × Nat)} (hfail : Workbench.FailsGently x)
    (hok : ∀ a bench, x.run desk.bench = .ok a bench →
      Effect desk command { bench, series := desk.series ++ handles a }) :
    Ends desk command (desk.attempt x handles) := by
  unfold attempt
  cases h : x.run desk.bench with
  | ok a bench => exact .inr ⟨rfl, hok a bench h⟩
  | error e bench => exact .inl ⟨rfl, hfail _ _ _ h, rfl⟩

theorem ends_of_attemptLabels {desk : Desk} {id : Nat} (held : id < desk.bench.drafts.size)
    (labels : List (Except ε ByteArray)) :
    Ends desk (.setLabels id labels) (desk.attemptLabels id labels) := by
  unfold attemptLabels
  cases h : (Workbench.setLabels id labels).run desk.bench with
  | error e bench => exact .inl ⟨rfl, Workbench.failsGently_setLabels id labels _ _ _ h, rfl⟩
  | ok outcome bench =>
    cases outcome with
    | error e => exact .inl ⟨rfl, Workbench.charged_of_setLabels_eq_error h, rfl⟩
    | ok _ =>
      obtain ⟨given, kept, v, rfl, hkept, hsize, hcharged, htext, hcells, rfl⟩ :=
        Workbench.setLabels_eq_ok h
      exact .inr ⟨rfl, .setLabels id given kept v held hkept hsize htext hcells hcharged⟩

theorem failsGently_assign (field : TextField) (id : Nat) (bytes : ByteArray) :
    Workbench.FailsGently (field.assign id bytes) := by
  cases field with
  | title => exact Workbench.failsGently_setTitle id bytes
  | subtitle => exact Workbench.failsGently_setSubtitle id bytes
  | units => exact Workbench.failsGently_setUnits id bytes

theorem assign_eq (field : TextField) (id : Nat) (bytes : ByteArray) :
    field.assign id bytes
      = (do Workbench.modifyDraft id (field.replace (← Workbench.keepText bytes))) := by
  cases field <;> rfl

theorem ends_onDraft {desk : Desk} {command : Command ε} {tabulation : Nat} {act : Desk × Bool}
    (h : tabulation < desk.bench.drafts.size → Ends desk command act) :
    Ends desk command (desk.onDraft tabulation act) := by
  unfold onDraft
  split
  case isTrue hlt => exact h hlt
  case isFalse => exact .inl ⟨rfl, .refl desk⟩

theorem ends_onNode {desk : Desk} {command : Command ε} {node : Option (Nat × Nat)}
    {act : Nat → Nat → Desk × Bool}
    (h : ∀ id number, node = some (id, number) → Ends desk command (act id number)) :
    Ends desk command (desk.onNode node act) := by
  unfold onNode
  split
  case h_1 id number => exact h id number rfl
  case h_2 => exact .inl ⟨rfl, .refl desk⟩

/-- **A command either fails and changes nothing but the budget, or it
succeeds and does what it should.** -/
theorem perform_ends (desk : Desk) (command : Command ε) :
    Ends desk command (desk.perform command) := by
  cases command with
  | begin =>
    refine ends_of_attempt Workbench.failsGently_begin fun a bench h => ?_
    obtain ⟨hcharged, -, rfl⟩ := Workbench.begin_eq_ok h
    rw [List.append_nil]
    exact .begin _ rfl hcharged
  | setText field id bytes =>
    refine ends_onDraft fun hlt => ?_
    refine ends_of_attempt (failsGently_assign field id bytes) fun a bench h => ?_
    rw [assign_eq] at h
    obtain ⟨hcharged, rfl⟩ := Workbench.keepText_modify_eq_ok h
    rw [List.append_nil]
    exact .setText field id bytes _ hlt rfl hcharged
  | setLabels id labels => exact ends_onDraft fun hlt => ends_of_attemptLabels hlt labels
  | setLabel id index bytes =>
    refine ends_onDraft fun hlt => ?_
    refine ends_of_attempt (Workbench.failsGently_setLabel id index bytes) fun a bench h => ?_
    obtain ⟨position, v, rfl, hlow, hpaid, hcharged, rfl⟩ := Workbench.setLabel_eq_ok h
    rw [List.append_nil]
    exact .setLabel id position bytes v hlt hlow hpaid hcharged
  | series place name =>
    refine ends_onNode fun id parent hasked => ?_
    refine ends_of_attempt (Workbench.failsGently_child id parent name) fun number bench h => ?_
    obtain ⟨hthere, rfl⟩ | ⟨v, hfresh, hlast, hpaid, hcharged, rfl⟩ := Workbench.child_eq_ok h
    · exact .found place name id parent number hasked hthere
    · exact .made place name id parent number v hasked hfresh hlast hpaid hcharged
  | setValue handle index value =>
    refine ends_onNode fun id number hheld => ?_
    refine ends_of_attempt (Workbench.failsGently_setValue id number index value)
      fun a bench h => ?_
    obtain ⟨position, v, rfl, hlow, hfinite, hpaid, hcharged, rfl⟩ := Workbench.setValue_eq_ok h
    rw [List.append_nil]
    exact .setValue handle id number position value v hheld hlow hfinite hpaid hcharged
  | pushValue handle value =>
    refine ends_onNode fun id number hheld => ?_
    refine ends_of_attempt (Workbench.failsGently_pushValue id number value)
      fun a bench h => ?_
    obtain ⟨position, v, hindex, hlow, hfinite, hpaid, hcharged, rfl⟩ :=
      Workbench.setValue_eq_ok (Workbench.pushValue_eq_ok h)
    obtain rfl : position = (desk.bench.node id number).values.size := by omega
    rw [List.append_nil]
    exact .pushValue handle id number _ value v hheld rfl hlow hfinite hpaid hcharged

end Desk

end LedgerReports
