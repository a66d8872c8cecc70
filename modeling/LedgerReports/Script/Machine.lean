import LedgerReports.Failure
import LedgerReports.Deadline
import LedgerReports.Number.Random
import LedgerReports.Pattern.Cursor
import LedgerReports.Script.Table
import LedgerReports.Store.Query
import LedgerReports.Tabulation.Draft

/-!
# The machine

A script runs on a `Machine`, which holds everything that can change: tables, boxes, the drafts of
tabulations, the count of steps. What stays the same during a run is the `Setting`; its ledger view
is all that a script can learn about the store.

A step of a run is a `ScriptM` action. It may raise a value as an error, and what it has done before
stays done.

The journal notes what the run has seen of the outside: that the deadline had passed, and which
faults of the host there were. By its type a step takes nothing out of the journal, and it notes no
fault that the ledger has not answered with. So a step can do with a machine what it likes, except
for the journal: there are two ways to add to it, `noteDeadline` and `consult`.
-/

namespace LedgerReports.Script

/-- The conditions of a run. -/
structure Setting where
  /-- When the run has to stop. -/
  deadline : Deadline := .never
  /-- The number of instructions between two looks at the deadline. -/
  interval : Nat := 1000
  /-- The number of bytes that the script may hold; `0` for no limit. -/
  memoryLimit : Nat := 0
  /-- The number of bytes that a replacement may yield. -/
  maxReplaced : Nat := 0
  /-- What the script can ask about the ledger. -/
  ledger : Ledger.View
  /-- The day on which the run takes place. -/
  today : Date := .epoch

/-- What a run notes of the outside. -/
inductive Event where
  /-- The deadline had passed. -/
  | deadlinePassed
  /-- The host was at fault. -/
  | fault (f : Failure)

/-- Whether the event is that the deadline had passed. -/
def Event.isDeadline : Event → Bool
  | deadlinePassed => true
  | fault _ => false

/-- The fault that the event is of, if it is of one. -/
def Event.fault? : Event → Option Failure
  | deadlinePassed => none
  | fault f => some f

/-- Whether an event can be noted when this is the ledger: a fault has to be the answer to a
question. -/
def Event.IsDue (ledger : Ledger.View) : Event → Prop
  | deadlinePassed => True
  | fault f => f.isFault = true ∧ ledger.Gives f

theorem Event.IsDue.ofAnswer {ledger : Ledger.View} {α : Type} {question : Ledger.Question α}
    {f : Failure} (h : ledger.answer question = .error f) (hf : f.isFault = true) :
    Event.IsDue ledger (.fault f) :=
  ⟨hf, α, question, h⟩

/-- What has been noted, the last event first. -/
abbrev Journal := List Event

namespace Journal

/-- Whether it was noted that the deadline had passed. -/
def deadlinePassed (j : Journal) : Bool := j.any Event.isDeadline

/-- The fault that was noted first. -/
def firstFault? (j : Journal) : Option Failure := j.reverse.findSome? Event.fault?

/-- Whether a journal is what comes of another one while events of the ledger are noted. -/
def Continues (new : Journal) (ledger : Ledger.View) (old : Journal) : Prop :=
  ∃ events : List Event, new = events ++ old ∧ ∀ e ∈ events, e.IsDue ledger

theorem Continues.refl {ledger : Ledger.View} (j : Journal) : j.Continues ledger j :=
  ⟨[], rfl, fun _ h => nomatch h⟩

theorem Continues.trans {ledger : Ledger.View} {j₁ j₂ j₃ : Journal} (h : j₃.Continues ledger j₂)
    (h' : j₂.Continues ledger j₁) : j₃.Continues ledger j₁ := by
  obtain ⟨later, rfl, hlater⟩ := h
  obtain ⟨earlier, rfl, hearlier⟩ := h'
  refine ⟨later ++ earlier, (List.append_assoc ..).symm, fun e he => ?_⟩
  exact (List.mem_append.mp he).elim (hlater e) (hearlier e)

theorem Continues.note {ledger : Ledger.View} {e : Event} (h : e.IsDue ledger) (j : Journal) :
    Continues (e :: j) ledger j := by
  refine ⟨[e], rfl, fun e' he => ?_⟩
  rw [List.mem_singleton.mp he]
  exact h

end Journal

/-- A walk through the matches of a pattern, as an iterator keeps it. -/
structure MatchWalk where
  /-- The subject. -/
  subject : ByteArray
  /-- The pattern. -/
  pattern : Pattern
  /-- Where the walk stands. -/
  cursor : Pattern.Cursor

/-- The state of a run. -/
structure Machine where
  /-- The number of instructions executed. -/
  steps : Nat := 0
  /-- The number of live bytes when they were last counted, and of those asked for since then. -/
  allocated : Nat := 0
  /-- The number of bytes from which on the live ones are counted anew. -/
  threshold : Nat := 0
  /-- The tables by number. -/
  tables : Array Table := #[]
  /-- The boxes by number. -/
  boxes : Array Value := #[]
  /-- The walks through matches by number. -/
  walks : Array MatchWalk := #[]
  /-- The values to be closed, the last one at the end; `nil` where there is nothing to close. -/
  closing : Array Value := #[]
  /-- The number for the next closure or object. -/
  nextId : Nat := 0
  /-- The state of the random numbers. -/
  random : Random := default
  /-- The drafts of tabulations. -/
  workbench : Workbench := {}
  /-- What was noted of the outside. -/
  journal : Journal := []

instance : Inhabited Machine := ⟨{}⟩

namespace Machine

/-- The number of the table of global variables. -/
def globals : Nat := 0

/-- The number of the table of loaded modules. -/
def loaded : Nat := 1

/-- The number of the table of functions that load modules. -/
def preloaded : Nat := 2

/-- The number of the metatable of strings. -/
def stringMeta : Nat := 3

/-- The number of the table of the module of modules. -/
def package : Nat := 4

/-- The table with a number. -/
def table (m : Machine) (id : Nat) : Table := m.tables.getD id {}

end Machine

/-! ### Steps -/

/-- What comes of a step: a value or an error, and the machine afterwards. -/
abbrev Outcome (α : Type) := EStateM.Result Value Machine α

/-- The machine after a step. -/
def Outcome.machine {α : Type} : Outcome α → Machine
  | .ok _ m => m
  | .error _ m => m

@[simp] theorem Outcome.machine_ok {α : Type} (a : α) (m : Machine) :
    Outcome.machine (.ok a m) = m := rfl

@[simp] theorem Outcome.machine_error {α : Type} (e : Value) (m : Machine) :
    Outcome.machine (.error e m : Outcome α) = m := rfl

/-- A step of a run. The journal is continued. -/
def ScriptM (α : Type) : Type :=
  (setting : Setting) → (m : Machine) →
    { r : Outcome α // r.machine.journal.Continues setting.ledger m.journal }

namespace ScriptM

variable {α β : Type}

/-- What a step does under some conditions. -/
@[inline] def run (x : ScriptM α) (setting : Setting) : EStateM Value Machine α :=
  fun m => (x setting m).1

/-- The journal after a step continues the one before it. -/
theorem continues (x : ScriptM α) (setting : Setting) (m : Machine) :
    (Outcome.machine (x.run setting m)).journal.Continues setting.ledger m.journal :=
  (x setting m).2

@[ext] theorem ext {x y : ScriptM α} (h : ∀ setting m, x.run setting m = y.run setting m) :
    x = y :=
  funext fun setting => funext fun m => Subtype.ext (h setting m)

instance : CoeFun (ScriptM α) fun _ => Setting → EStateM Value Machine α := ⟨run⟩

/-- The step that only gives a value. -/
@[always_inline, inline] protected def pure (a : α) : ScriptM α :=
  fun _ m => ⟨.ok a m, .refl _⟩

/-- The step that only raises an error. -/
@[always_inline, inline] protected def throw (e : Value) : ScriptM α :=
  fun _ m => ⟨.error e m, .refl _⟩

/-- One step and then another one, which depends on the value of the first. -/
@[always_inline, inline] protected def bind (x : ScriptM α) (f : α → ScriptM β) : ScriptM β :=
  fun setting m =>
    match x setting m with
    | ⟨.ok a m, h⟩ =>
      let r := f a setting m
      ⟨r.1, r.2.trans h⟩
    | ⟨.error e m, h⟩ => ⟨.error e m, h⟩

/-- A step and, if it raises an error, another one. -/
@[always_inline, inline] protected def tryCatch (x : ScriptM α) (handle : Value → ScriptM α) :
    ScriptM α :=
  fun setting m =>
    match x setting m with
    | ⟨.ok a m, h⟩ => ⟨.ok a m, h⟩
    | ⟨.error e m, h⟩ =>
      let r := handle e setting m
      ⟨r.1, r.2.trans h⟩

/-- The step that changes the machine but for its journal. -/
@[always_inline, inline] protected def modifyGet (f : Machine → α × Machine) : ScriptM α :=
  fun _ m =>
    let journal := m.journal
    match f m with
    | (a, m) => ⟨.ok a { m with journal }, .refl _⟩

/-- A step under other conditions, but with the same ledger. -/
@[always_inline, inline] protected def withSetting (f : Setting → Setting) (x : ScriptM α) :
    ScriptM α :=
  fun setting m => x { f setting with ledger := setting.ledger } m

instance : Monad ScriptM where
  pure := ScriptM.pure
  bind := ScriptM.bind

instance : MonadExceptOf Value ScriptM where
  throw := ScriptM.throw
  tryCatch := ScriptM.tryCatch

instance : MonadReaderOf Setting ScriptM where
  read := fun setting m => ⟨.ok setting m, .refl _⟩

instance : MonadWithReaderOf Setting ScriptM where
  withReader := ScriptM.withSetting

/-- The machine as the state of a run. Its journal is not set with the rest of it. -/
instance : MonadStateOf Machine ScriptM where
  get := fun _ m => ⟨.ok m m, .refl _⟩
  set m := ScriptM.modifyGet fun _ => ((), m)
  modifyGet := ScriptM.modifyGet

instance : Inhabited (ScriptM α) := ⟨ScriptM.throw .nil⟩

section Run

variable (setting : Setting) (m : Machine)

@[simp] theorem run_pure (a : α) : (pure a : ScriptM α).run setting m = .ok a m := rfl

@[simp] theorem run_throw (e : Value) : (throw e : ScriptM α).run setting m = .error e m := rfl

theorem run_bind (x : ScriptM α) (f : α → ScriptM β) :
    (x >>= f).run setting m =
      match x.run setting m with
      | .ok a m => (f a).run setting m
      | .error e m => .error e m := by
  change (ScriptM.bind x f setting m).1 = _
  unfold ScriptM.bind run
  cases x setting m with
  | mk r h => cases r <;> rfl

theorem run_tryCatch (x : ScriptM α) (handle : Value → ScriptM α) :
    (tryCatch x handle).run setting m =
      match x.run setting m with
      | .ok a m => .ok a m
      | .error e m => (handle e).run setting m := by
  change (ScriptM.tryCatch x handle setting m).1 = _
  unfold ScriptM.tryCatch run
  cases x setting m with
  | mk r h => cases r <;> rfl

@[simp] theorem run_withReader (f : Setting → Setting) (x : ScriptM α) :
    (withReader f x : ScriptM α).run setting m
      = x.run { f setting with ledger := setting.ledger } m := rfl

@[simp] theorem run_read : (readThe Setting : ScriptM Setting).run setting m = .ok setting m := rfl

@[simp] theorem run_get : (getThe Machine : ScriptM Machine).run setting m = .ok m m := rfl

@[simp] theorem run_modify (f : Machine → Machine) :
    (modifyThe Machine f : ScriptM PUnit).run setting m
      = .ok () { f m with journal := m.journal } := rfl

end Run

instance : LawfulMonad ScriptM :=
  have id_map {α : Type} (x : ScriptM α) : id <$> x = x := by
    ext setting m
    change (x >>= pure).run setting m = _
    rw [run_bind]
    cases x.run setting m <;> rfl
  have bind_assoc {α β γ : Type} (x : ScriptM α) (f : α → ScriptM β) (g : β → ScriptM γ) :
      x >>= f >>= g = x >>= fun a => f a >>= g := by
    ext setting m
    rw [run_bind, run_bind, run_bind]
    cases x.run setting m with
    | ok a m => exact (run_bind ..).symm
    | error e m => rfl
  .mk' ScriptM id_map (fun _ _ => rfl) bind_assoc

end ScriptM

/-- Notes that the deadline has passed. -/
def noteDeadline : ScriptM Unit :=
  fun _ m =>
    ⟨.ok () { m with journal := .deadlinePassed :: m.journal },
      .note (e := .deadlinePassed) trivial _⟩

/-- Asks the ledger. A fault in its answer is noted. -/
def consult {α : Type} (question : Ledger.Question α) : ScriptM (Except Failure α) :=
  fun setting m =>
    match h : setting.ledger.answer question with
    | .ok a => ⟨.ok (.ok a) m, .refl _⟩
    | .error f =>
      if hf : f.isFault = true then
        ⟨.ok (.error f) { m with journal := .fault f :: m.journal }, .note (.ofAnswer h hf) _⟩
      else
        ⟨.ok (.error f) m, .refl _⟩

theorem run_noteDeadline (setting : Setting) (m : Machine) :
    noteDeadline.run setting m = .ok () { m with journal := .deadlinePassed :: m.journal } := rfl

section Consult

variable {α : Type} {question : Ledger.Question α} {setting : Setting} (m : Machine)

theorem run_consult_of_ok {a : α} (h : setting.ledger.answer question = .ok a) :
    (consult question).run setting m = .ok (.ok a) m := by
  change (consult question setting m).1 = _
  unfold consult
  split <;> simp_all

theorem run_consult_of_fault {f : Failure} (h : setting.ledger.answer question = .error f)
    (hf : f.isFault = true) :
    (consult question).run setting m
      = .ok (.error f) { m with journal := .fault f :: m.journal } := by
  change (consult question setting m).1 = _
  unfold consult
  split <;> simp_all

theorem run_consult_of_not_fault {f : Failure} (h : setting.ledger.answer question = .error f)
    (hf : f.isFault = false) : (consult question).run setting m = .ok (.error f) m := by
  change (consult question setting m).1 = _
  unfold consult
  split <;> simp_all

end Consult

attribute [irreducible] ScriptM

/-! ### Frames -/

/-- A function that is being run. -/
structure Frame where
  /-- The closure. -/
  closure : Closure
  /-- Its function. -/
  function : Prototype
  /-- The number of the next instruction. -/
  pc : Nat := 0
  /-- The slots. -/
  locals : Array Value
  /-- The numbers of the boxes of the slots that have one. -/
  boxes : Array Nat := #[]
  /-- The operands. -/
  stack : Array Value := #[]
  /-- The values that the next instruction takes up. -/
  pending : Array Value := #[]
  /-- The additional arguments. -/
  varargs : Array Value := #[]
  /-- How many values were to be closed when the function was called. -/
  base : Nat := 0
  /-- How many values the caller wants. -/
  want : Want := .all

/-- The line that is being run. -/
def Frame.line (f : Frame) : Nat := f.function.lines.getD (f.pc - 1) 0

/-- The position that is being run, as it stands before an error. -/
def Frame.position (f : Frame) : String := s!"{f.closure.program.name}:{f.line}: "

/-- The functions that wait for the one that is being run. -/
inductive Stack where
  /-- Nothing waits. -/
  | bottom
  /-- A built-in function waits. -/
  | builtin (below : Stack)
  /-- Functions of scripts wait, the innermost first. -/
  | frames (inner : List Frame) (below : Stack)

/-- The frame at a level, if there is a function of a script there; level 0 is the innermost. -/
def Stack.frame? : Stack → Nat → Option Frame
  | bottom, _ => none
  | builtin _, 0 => none
  | builtin below, level + 1 => below.frame? level
  | frames inner below, level =>
    match inner[level]? with
    | some f => some f
    | none => below.frame? (level - inner.length)

/-- The position that is being run at a level; empty if it is not known. -/
def Stack.position (s : Stack) (level : Nat) : String := ((s.frame? level).map (·.position)).getD ""

/-- A call of a built-in function. -/
structure Call where
  /-- The function that is called. -/
  function : Builtin
  /-- The arguments. -/
  args : Array Value
  /-- What waits for it: level 0 is the caller. -/
  stack : Stack
  /-- How the caller names it. -/
  origin : Option Origin
  /-- Calls a value, for which a stack waits. -/
  callWith : Stack → Value → Array Value → ScriptM (Array Value)

/-- Calls a value from a built-in function. -/
def Call.call (c : Call) (f : Value) (args : Array Value) : ScriptM (Array Value) :=
  c.callWith (.builtin c.stack) f args

/-! ### Raising errors -/

/-- Raises a text without a position. -/
def raiseText {α : Type} (text : String) : ScriptM α := throw (Value.ofText text)

/-- A number for a new closure or object. -/
def newId : ScriptM Nat := do
  let id := (← getThe Machine).nextId
  modifyThe Machine fun m => { m with nextId := id + 1 }
  return id

/-- A new object of the host. -/
def newObject (o : HostObject) : ScriptM Value := return .object (← newId) o

/-- Raises an error of the host. -/
def raiseHost {α : Type} (e : HostError) : ScriptM α := do throw (← newObject (.failure e))

/-- Raises an error with the position of the caller of a built-in function. -/
def Call.raise {α : Type} (c : Call) (text : String) : ScriptM α :=
  raiseText (c.stack.position 0 ++ text)

/-- The text of the error that is raised when memory runs out. -/
def outOfMemory : String := "not enough memory"

/-! ### The outside -/

/-- Whether the deadline has passed. What has once been noted stays true. -/
def isLate : ScriptM Bool := do
  let m ← getThe Machine
  if m.journal.deadlinePassed then return true
  else if (← readThe Setting).deadline.passed m.steps then
    noteDeadline
    return true
  else
    return false

/-- Fails if the deadline has passed. -/
def checkDeadline : ScriptM Unit := do
  if ← isLate then raiseHost .deadline

/-- Asks the ledger, and fails if it cannot answer. -/
def ask {α : Type} (question : Ledger.Question α) : ScriptM α := do
  match ← consult question with
  | .ok a => return a
  | .error f => raiseHost (.runtime f.message)

/-! ### Memory -/

/-- Asks for some bytes. More than the limit at once are refused. -/
def allocate (bytes : Nat) : ScriptM Unit := do
  let limit := (← readThe Setting).memoryLimit
  if 0 < limit ∧ limit < bytes then raiseText outOfMemory
  modifyThe Machine fun m => { m with allocated := m.allocated + bytes }

/-- A new string. -/
def newString (bytes : ByteArray) : ScriptM Value := do
  allocate (bytes.size + 24)
  return .string bytes

/-- The table with a number. -/
def getTable (id : Nat) : ScriptM Table := return (← getThe Machine).table id

/-- Makes a table. -/
def newTable (t : Table) : ScriptM Value := do
  allocate t.weight
  let id := (← getThe Machine).tables.size
  modifyThe Machine fun m => { m with tables := m.tables.push t }
  return .table id

/-- Sets an element of a table. The key is neither `nil` nor no number. -/
def putRaw (id : Nat) (key value : Value) : ScriptM Unit := do
  let before := ((← getThe Machine).table id).weight
  modifyThe Machine fun m => { m with tables := m.tables.modify id fun t => t.set key value }
  let after := ((← getThe Machine).table id).weight
  if before < after then allocate (after - before)

/-- Makes a table of the values of a sequence. -/
def newSequence (values : Array Value) : ScriptM Value := newTable { items := values }

/-- Makes a box. -/
def newBox (v : Value) : ScriptM Nat := do
  let id := (← getThe Machine).boxes.size
  modifyThe Machine fun m => { m with boxes := m.boxes.push v, allocated := m.allocated + 40 }
  return id

/-- The value in a box. -/
def getBox (id : Nat) : ScriptM Value := return (← getThe Machine).boxes.getD id .nil

/-- Sets the value in a box. -/
def setBox (id : Nat) (v : Value) : ScriptM Unit :=
  modifyThe Machine fun m => { m with boxes := m.boxes.setIfInBounds id v }

/-- Runs an operation on the drafts of tabulations. -/
def onWorkbench {α : Type} (op : DraftM α) : ScriptM α := do
  let bench := (← getThe Machine).workbench
  modifyThe Machine fun m => { m with workbench := {} }
  match op.run bench with
  | .ok a bench =>
    modifyThe Machine fun m => { m with workbench := bench }
    return a
  | .error e bench =>
    modifyThe Machine fun m => { m with workbench := bench }
    raiseHost (.runtime e.message)

end LedgerReports.Script
