import LedgerReports.Proofs.Script.Journal
import LedgerReports.Proofs.Script.Lateness
import LedgerReports.Proofs.Tabulation.Handles
import Mathlib

/-!
# Operations on tabulations that fail

A script may catch an error and go on, so what an operation has left when it
fails is there to be seen. Nothing of it is in a tabulation. An operation of the
host reads its arguments first, which does nothing to the workbench
(`KeepsWorkbench`); then it does one thing on the workbench, which leaves the
drafts as they are if it fails; and what comes after that does not fail. So an
operation that fails has used something up at most (`FailsGently`), for whichever
reason it fails.

A new tabulation is different, since its options may be computed by functions of
the script, which may change other tabulations. What matters is that the script
gets a handle only if all options have been kept (`Begins`), and that nothing but
such functions touches the other drafts (`keepsDraft_tabulationNew`). A tabulation
without a handle is never seen again (`NeverShown`).
-/

namespace LedgerReports.Script

variable {α β : Type}

/-! ## Steps that leave the drafts alone -/

/-- **A step leaves the workbench as it is**, whatever comes of the step. -/
def KeepsWorkbench (x : ScriptM α) : Prop :=
  ∀ setting m, (x.after setting m).workbench = m.workbench

/-- **A step leaves the drafts as they are if it fails**: more has been used up, and that is all. -/
def FailsGently (x : ScriptM α) : Prop :=
  ∀ setting m v m', x.run setting m = .error v m' → Workbench.Charged m.workbench m'.workbench

/-- A step gives a value. -/
def GivesValue (x : ScriptM α) : Prop := ∀ setting m, ∃ a m', x.run setting m = .ok a m'

section Rules

variable {x : ScriptM α} {f : α → ScriptM β}

theorem keepsWorkbench_pure (a : α) : KeepsWorkbench (pure a : ScriptM α) := by
  intro setting m
  rw [ScriptM.after_of_ok (ScriptM.run_pure setting m a)]

theorem keepsWorkbench_get : KeepsWorkbench (getThe Machine : ScriptM Machine) := by
  intro setting m
  rw [ScriptM.after_of_ok (ScriptM.run_get setting m)]

theorem keepsWorkbench_raiseText (text : String) :
    KeepsWorkbench (raiseText text : ScriptM α) := by
  intro setting m
  rw [raiseText, ScriptM.after_of_error (ScriptM.run_throw setting m _)]

theorem keepsWorkbench_raiseHost (e : HostError) : KeepsWorkbench (raiseHost e : ScriptM α) := by
  intro setting m
  rw [ScriptM.after_of_error (run_raiseHost e setting m)]

theorem KeepsWorkbench.bind (hx : KeepsWorkbench x) (hf : ∀ a, KeepsWorkbench (f a)) :
    KeepsWorkbench (x >>= f) := by
  intro setting m
  have hkeeps : (x >>= f).Keeps setting fun m' => m'.workbench = m.workbench :=
    .bind (fun m' hm' => (hx setting m').trans hm') fun a m' hm' => (hf a setting m').trans hm'
  exact hkeeps m rfl

theorem KeepsWorkbench.failsGently (hx : KeepsWorkbench x) : FailsGently x := by
  intro setting m v m' h
  have hkeeps := hx setting m
  rw [ScriptM.after_of_error h] at hkeeps
  rw [hkeeps]
  exact .refl _

/-- What is done before an operation leaves the workbench as it is. -/
theorem KeepsWorkbench.bind_failsGently (hx : KeepsWorkbench x) (hf : ∀ a, FailsGently (f a)) :
    FailsGently (x >>= f) := by
  intro setting m v m' h
  have hkeeps := hx setting m
  rw [ScriptM.run_bind] at h
  cases hrun : x.run setting m with
  | ok a m₁ =>
    rw [ScriptM.after_of_ok hrun] at hkeeps
    rw [hrun] at h
    exact hkeeps ▸ hf a setting m₁ v m' h
  | error e m₁ =>
    rw [hrun] at h
    cases h
    exact hx.failsGently setting m v m' hrun

/-- What is done after an operation does not fail. -/
theorem FailsGently.bind_givesValue (hx : FailsGently x) (hf : ∀ a, GivesValue (f a)) :
    FailsGently (x >>= f) := by
  intro setting m v m' h
  rw [ScriptM.run_bind] at h
  cases hrun : x.run setting m with
  | ok a m₁ =>
    obtain ⟨b, m₂, hvalue⟩ := hf a setting m₁
    rw [hrun] at h
    dsimp only at h
    rw [hvalue] at h
    cases h
  | error e m₁ =>
    rw [hrun] at h
    cases h
    exact hx setting m v m' hrun

theorem givesValue_pure (a : α) : GivesValue (pure a : ScriptM α) :=
  fun setting m => ⟨a, m, ScriptM.run_pure setting m a⟩

theorem run_newObject (o : HostObject) (setting : Setting) (m : Machine) :
    (newObject o).run setting m = .ok (.object m.nextId o) { m with nextId := m.nextId + 1 } := by
  simp only [newObject, newId, ScriptM.run_bind, ScriptM.run_get, ScriptM.run_modify,
    ScriptM.run_pure]

theorem givesValue_newObject (o : HostObject) : GivesValue (newObject o) :=
  fun setting m => ⟨_, _, run_newObject o setting m⟩

theorem GivesValue.bind (hx : GivesValue x) (hf : ∀ a, GivesValue (f a)) :
    GivesValue (x >>= f) := by
  intro setting m
  obtain ⟨a, m₁, hrun⟩ := hx setting m
  rw [ScriptM.run_bind, hrun]
  exact hf a setting m₁

end Rules

/-! ## Operations on the workbench -/

section Workbench

variable {setting : Setting} {m : Machine}

/-- An operation on the workbench of a machine. -/
theorem run_onWorkbench (op : DraftM α) (setting : Setting) (m : Machine) :
    (onWorkbench op).run setting m
      = match op.run m.workbench with
        | .ok a bench => .ok a { m with workbench := bench }
        | .error e bench =>
          (raiseHost (.runtime e.message)).run setting { m with workbench := bench } := by
  simp only [onWorkbench, ScriptM.run_bind, ScriptM.run_get, ScriptM.run_modify]
  cases op.run m.workbench with
  | ok a bench => simp only [ScriptM.run_bind, ScriptM.run_modify, ScriptM.run_pure]
  | error e bench => simp only [ScriptM.run_bind, ScriptM.run_modify]

theorem failsGently_onWorkbench {op : DraftM α} (h : Workbench.FailsGently op) :
    FailsGently (onWorkbench op) := by
  intro setting m v m' hrun
  rw [run_onWorkbench] at hrun
  cases hop : op.run m.workbench with
  | ok a bench =>
    rw [hop] at hrun
    cases hrun
  | error e bench =>
    rw [hop] at hrun
    dsimp only at hrun
    rw [run_raiseHost] at hrun
    cases hrun
    exact h _ _ _ hop

theorem keepsWorkbench_converted (x : Except HostError α) : KeepsWorkbench (converted x) := by
  cases x with
  | ok a => exact keepsWorkbench_pure a
  | error e => exact keepsWorkbench_raiseHost e

theorem keepsWorkbench_getTable (id : Nat) : KeepsWorkbench (getTable id) :=
  keepsWorkbench_get.bind fun _ => keepsWorkbench_pure _

/-- **Labels are replaced when all of them have been read.** Also one that cannot be read leaves the
drafts as they are, although those before it have been charged. -/
theorem failsGently_setLabels (draft table : Nat) : FailsGently (setLabels draft table) := by
  refine (keepsWorkbench_getTable table).bind_failsGently fun t => ?_
  intro setting m v m' hrun
  rw [ScriptM.run_bind, run_onWorkbench] at hrun
  cases hop : (Workbench.setLabels draft
      ((t.leading (Draft.maxPoints + 1)).map Value.asBytes)).run m.workbench with
  | error e bench =>
    rw [hop] at hrun
    dsimp only at hrun
    rw [run_raiseHost] at hrun
    cases hrun
    exact Workbench.failsGently_setLabels _ _ _ _ _ hop
  | ok outcome bench =>
    rw [hop] at hrun
    dsimp only at hrun
    cases outcome with
    | ok _ =>
      rw [converted, ScriptM.run_pure] at hrun
      cases hrun
    | error e =>
      rw [converted, run_raiseHost] at hrun
      cases hrun
      exact Workbench.charged_of_setLabels_eq_error hop

end Workbench

/-! ## The operations of the host -/

/-- Whether a function of the host is an operation on a tabulation: a method of one or of a series
of it, or the assignment of a field. -/
def HostFunction.changesTabulation : HostFunction → Bool
  | method m => m.kind == .tabulation || m.kind == .series
  | operator .tabulation .newIndex => true
  | _ => false

section Operations

variable {c : Call}

theorem keepsWorkbench_readFor (c : Call) (method : String) (i : Nat)
    (convert : Value → Except HostError α) : KeepsWorkbench (c.readFor method i convert) := by
  unfold Call.readFor
  split
  · exact keepsWorkbench_pure _
  · exact keepsWorkbench_raiseHost _

theorem keepsWorkbench_metatable? (v : Value) : KeepsWorkbench (metatable? v) := by
  unfold metatable?
  split
  · exact (keepsWorkbench_getTable _).bind fun _ => keepsWorkbench_pure _
  · exact keepsWorkbench_pure _
  · exact keepsWorkbench_pure _

theorem keepsWorkbench_metamethod (v : Value) (event : String) :
    KeepsWorkbench (metamethod v event) := by
  unfold metamethod
  split
  · split
    · exact keepsWorkbench_pure _
    · exact keepsWorkbench_pure _
  · refine (keepsWorkbench_metatable? _).bind fun metatable => ?_
    split
    · exact (keepsWorkbench_getTable _).bind fun _ => keepsWorkbench_pure _
    · exact keepsWorkbench_pure _

theorem keepsWorkbench_shownTypeName (v : Value) : KeepsWorkbench (shownTypeName v) := by
  unfold shownTypeName
  split
  · exact keepsWorkbench_pure _
  · refine (keepsWorkbench_metamethod _ _).bind fun name => ?_
    split <;> exact keepsWorkbench_pure _
  · exact keepsWorkbench_pure _

theorem failsGently_method {m : HostMethod}
    (hm : (HostFunction.method m).changesTabulation = true) (c : Call) : FailsGently (m.run c) := by
  have hread {α : Type} (i : Nat) (convert : Value → Except HostError α) :
      KeepsWorkbench (c.readFor m.fullName i convert) :=
    keepsWorkbench_readFor c m.fullName i convert
  unfold HostMethod.run
  cases m with
  | addDays => cases hm
  | addMonths => cases hm
  | addYears => cases hm
  | endOfMonth => cases hm
  | tabulationLabel =>
    refine (hread 0 _).bind_failsGently fun draft => (hread 1 _).bind_failsGently fun index =>
      (hread 2 _).bind_failsGently fun bytes => ?_
    have hset := failsGently_onWorkbench (Workbench.failsGently_setLabel draft index bytes)
    exact hset.bind_givesValue fun _ => givesValue_pure _
  | tabulationSeries =>
    refine (hread 0 _).bind_failsGently fun draft => (hread 1 _).bind_failsGently fun name => ?_
    have hchild := failsGently_onWorkbench (Workbench.failsGently_child draft Draft.root name)
    exact hchild.bind_givesValue fun _ => (givesValue_newObject _).bind fun _ => givesValue_pure _
  | seriesSet =>
    refine (hread 0 _).bind_failsGently fun (draft, node) =>
      (hread 1 _).bind_failsGently fun index => (hread 2 _).bind_failsGently fun value => ?_
    have hset := failsGently_onWorkbench (Workbench.failsGently_setValue draft node index value)
    exact hset.bind_givesValue fun _ => givesValue_pure _
  | seriesPush =>
    refine (hread 0 _).bind_failsGently fun (draft, node) =>
      (hread 1 _).bind_failsGently fun value => ?_
    have hpush := failsGently_onWorkbench (Workbench.failsGently_pushValue draft node value)
    exact hpush.bind_givesValue fun _ => givesValue_pure _
  | seriesSeries =>
    refine (hread 0 _).bind_failsGently fun (draft, parent) =>
      (hread 1 _).bind_failsGently fun name => ?_
    have hchild := failsGently_onWorkbench (Workbench.failsGently_child draft parent name)
    exact hchild.bind_givesValue fun _ => (givesValue_newObject _).bind fun _ => givesValue_pure _

theorem failsGently_setTabulationField (c : Call) (draft : Nat) (name : String) :
    FailsGently (setTabulationField c draft name) := by
  unfold setTabulationField
  dsimp only
  split
  · exact (keepsWorkbench_readFor _ _ _ _).bind_failsGently fun bytes =>
      failsGently_onWorkbench (Workbench.failsGently_setTitle draft bytes)
  · exact (keepsWorkbench_readFor _ _ _ _).bind_failsGently fun bytes =>
      failsGently_onWorkbench (Workbench.failsGently_setSubtitle draft bytes)
  · exact (keepsWorkbench_readFor _ _ _ _).bind_failsGently fun bytes =>
      failsGently_onWorkbench (Workbench.failsGently_setUnits draft bytes)
  · exact (keepsWorkbench_readFor _ _ _ _).bind_failsGently fun table =>
      failsGently_setLabels draft table
  · exact (keepsWorkbench_raiseText _).failsGently

theorem failsGently_newIndex (c : Call) :
    FailsGently (HostOperator.run .newIndex .tabulation c) := by
  refine (keepsWorkbench_readFor _ _ _ _).bind_failsGently fun o => ?_
  cases o with
  | tabulation draft =>
    dsimp only
    split
    · exact (failsGently_setTabulationField c draft _).bind_givesValue fun _ => givesValue_pure _
    · split
      · exact (keepsWorkbench_raiseText _).failsGently
      · exact (keepsWorkbench_shownTypeName _).bind_failsGently fun _ =>
          (keepsWorkbench_raiseText _).failsGently
  | date d => exact ((keepsWorkbench_pure _).bind fun _ => keepsWorkbench_pure _).failsGently
  | balance b => exact ((keepsWorkbench_pure _).bind fun _ => keepsWorkbench_pure _).failsGently
  | _ => exact (keepsWorkbench_pure _).failsGently

/-- **An operation on a tabulation leaves the drafts as they are if it fails.** -/
theorem failsGently_run {f : HostFunction} (hf : f.changesTabulation = true) (c : Call) :
    FailsGently (f.run c) := by
  cases f with
  | method m => exact failsGently_method hf c
  | operator kind op =>
    unfold HostFunction.changesTabulation at hf
    split at hf
    case h_1 heq => cases heq
    case h_2 heq =>
      cases heq
      exact failsGently_newIndex c
    case h_3 => cases hf
  | _ => cases hf

end Operations

/-! ## New tabulations -/

/-- Sets up a new tabulation, if there are options. -/
def setUp (c : Call) (draft : Nat) : Option Nat → ScriptM Unit
  | some options => configure c draft options
  | none => pure ()

theorem tabulationNew_eq (c : Call) :
    HostFunction.tabulationNew.run c = (do
      let options ← c.read 0 (Value.asOptional Value.asTable)
      let draft ← onWorkbench Workbench.begin
      setUp c draft options
      return one (← newObject (.tabulation draft))) := by
  unfold HostFunction.run
  dsimp only
  refine bind_congr fun options => bind_congr fun draft => ?_
  cases options with
  | some options => rfl
  | none => rw [setUp, pure_bind]

/-- **What comes of a new tabulation**: a handle if every option has been kept, and otherwise an
error and no handle. -/
inductive Begins (c : Call) (setting : Setting) (m : Machine) : Outcome (Array Value) → Prop where
  /-- The argument is no table. -/
  | unread (e : HostError) (v : Value) (m' : Machine)
      (read : Value.asOptional Value.asTable (c.arg 0) = .error e)
      (kept : m'.workbench = m.workbench) :
      Begins c setting m (.error v m')
  /-- There is no room for another tabulation. -/
  | exhausted (v : Value) (m' : Machine) (charged : Workbench.Charged m.workbench m'.workbench) :
      Begins c setting m (.error v m')
  /-- An option cannot be had or kept. -/
  | abandoned (options : Option Nat) (bench : Workbench) (v : Value) (m' : Machine)
      (read : Value.asOptional Value.asTable (c.arg 0) = .ok options)
      (begun : Workbench.begin.run m.workbench = .ok m.workbench.drafts.size bench)
      (failed : (setUp c m.workbench.drafts.size options).run setting { m with workbench := bench }
        = .error v m') :
      Begins c setting m (.error v m')
  /-- All options have been kept. -/
  | given (options : Option Nat) (bench : Workbench) (m' : Machine)
      (read : Value.asOptional Value.asTable (c.arg 0) = .ok options)
      (begun : Workbench.begin.run m.workbench = .ok m.workbench.drafts.size bench)
      (kept : (setUp c m.workbench.drafts.size options).run setting { m with workbench := bench }
        = .ok () m') :
      Begins c setting m (.ok (one (.object m'.nextId (.tabulation m.workbench.drafts.size)))
        { m' with nextId := m'.nextId + 1 })

theorem begins_tabulationNew (c : Call) (setting : Setting) (m : Machine) :
    Begins c setting m ((HostFunction.tabulationNew.run c).run setting m) := by
  rw [tabulationNew_eq, ScriptM.run_bind, Call.read]
  cases hread : Value.asOptional Value.asTable (c.arg 0) with
  | error e =>
    dsimp only
    rw [run_raiseHost]
    exact .unread e _ _ hread rfl
  | ok options =>
    dsimp only
    rw [ScriptM.run_pure]
    dsimp only
    rw [ScriptM.run_bind, run_onWorkbench]
    cases hbegin : Workbench.begin.run m.workbench with
    | error e bench =>
      dsimp only
      rw [run_raiseHost]
      exact .exhausted _ _ (Workbench.failsGently_begin _ _ _ hbegin)
    | ok draft bench =>
      obtain ⟨-, rfl, -⟩ := Workbench.begin_eq_ok hbegin
      dsimp only
      rw [ScriptM.run_bind]
      cases hset : (setUp c m.workbench.drafts.size options).run setting
          { m with workbench := bench } with
      | error v m' => exact .abandoned options bench v m' hread hbegin hset
      | ok _ m' =>
        dsimp only
        rw [ScriptM.run_bind, run_newObject]
        dsimp only
        rw [ScriptM.run_pure]
        exact .given options bench m' hread hbegin hset

/-- **A step leaves a draft as it is**, whatever comes of the step. -/
def KeepsDraft (id : Nat) (x : ScriptM α) : Prop :=
  ∀ setting d, x.Keeps setting fun m => m.workbench.drafts[id]? = some d

section KeepsDraft

variable {x : ScriptM α} {f : α → ScriptM β} {id draft : Nat}

theorem KeepsWorkbench.keepsDraft (hx : KeepsWorkbench x) (id : Nat) : KeepsDraft id x := by
  intro setting d m hd
  rw [hx setting m]
  exact hd

theorem KeepsDraft.bind (hx : KeepsDraft id x) (hf : ∀ a, KeepsDraft id (f a)) :
    KeepsDraft id (x >>= f) :=
  fun setting d => .bind (hx setting d) fun a => hf a setting d

/-- An operation on the workbench leaves a draft as it is if it does so when it succeeds. -/
theorem keepsDraft_onWorkbench {op : DraftM α} (hfail : Workbench.FailsGently op)
    (hok : ∀ w a w', op.run w = .ok a w' → w'.drafts[id]? = w.drafts[id]?) :
    KeepsDraft id (onWorkbench op) := by
  intro setting d m hd
  rw [ScriptM.after, run_onWorkbench]
  cases hop : op.run m.workbench with
  | ok a bench => exact (hok _ _ _ hop).trans hd
  | error e bench =>
    dsimp only
    rw [run_raiseHost]
    show bench.drafts[id]? = some d
    rw [(hfail _ _ _ hop).drafts, hd]

theorem keepsDraft_assign (field : TextField) (hne : id ≠ draft) (bytes : ByteArray) :
    KeepsDraft id (onWorkbench (field.assign draft bytes)) := by
  refine keepsDraft_onWorkbench (Desk.failsGently_assign field draft bytes) fun w a w' h => ?_
  rw [Desk.assign_eq] at h
  obtain ⟨hcharged, rfl⟩ := Workbench.keepText_modify_eq_ok h
  rw [Workbench.getElem?_change_of_ne _ hne, hcharged.drafts]

theorem keepsDraft_setLabels (hne : id ≠ draft) (table : Nat) :
    KeepsDraft id (setLabels draft table) := by
  refine ((keepsWorkbench_getTable table).keepsDraft id).bind fun t => ?_
  refine KeepsDraft.bind ?_ fun outcome => (keepsWorkbench_converted outcome).keepsDraft id
  refine keepsDraft_onWorkbench (Workbench.failsGently_setLabels _ _) fun w outcome w' h => ?_
  cases outcome with
  | error e => rw [(Workbench.charged_of_setLabels_eq_error h).drafts]
  | ok _ =>
    obtain ⟨given, kept, v, -, -, -, hcharged, -, -, rfl⟩ := Workbench.setLabels_eq_ok h
    rw [Workbench.getElem?_change_of_ne _ hne, hcharged.drafts]

/-- A text is assigned if there is one, and then something else is done. -/
theorem keepsDraft_assign_then (field : TextField) (hne : id ≠ draft)
    (bytes? : Option ByteArray) {next : ScriptM Unit} (hnext : KeepsDraft id next) :
    KeepsDraft id (match bytes? with
      | some bytes => do
        onWorkbench (field.assign draft bytes)
        next
      | _ => next) := by
  cases bytes? with
  | some bytes => exact (keepsDraft_assign field hne bytes).bind fun _ => hnext
  | none => exact hnext

/-- Setting up a tabulation leaves another draft as it is if reading the options does. -/
theorem keepsDraft_configure {c : Call} {options : Nat}
    (hread : ∀ name, KeepsDraft id (tabulationOption c options name)) (hne : id ≠ draft) :
    KeepsDraft id (configure c draft options) := by
  have hconverted {α : Type} (name : String) (convert : Value → Except HostError (Option α)) :
      KeepsDraft id (do converted (convert (← tabulationOption c options name))) :=
    (hread name).bind fun _ => (keepsWorkbench_converted _).keepsDraft id
  refine (hconverted "title" _).bind fun title => keepsDraft_assign_then .title hne title ?_
  refine (hconverted "subtitle" _).bind fun subtitle =>
    keepsDraft_assign_then .subtitle hne subtitle ?_
  refine (hconverted "units" _).bind fun units => keepsDraft_assign_then .units hne units ?_
  refine (hread "labels").bind fun v =>
    ((keepsWorkbench_converted _).keepsDraft id).bind fun labels => ?_
  cases labels with
  | some labels => exact keepsDraft_setLabels hne labels
  | none => exact (keepsWorkbench_pure ()).keepsDraft id

/-- **A new tabulation leaves an earlier draft as it is if reading the options does**, whether all
options can be kept or not. -/
theorem keepsDraft_tabulationNew {c : Call}
    (hread : ∀ options name, KeepsDraft id (tabulationOption c options name)) :
    KeepsDraft id (HostFunction.tabulationNew.run c) := by
  intro setting d m hd
  have hlt := (Array.getElem?_eq_some_iff.mp hd).1
  have hset (options : Option Nat) : KeepsDraft id (setUp c m.workbench.drafts.size options) := by
    cases options with
    | some options => exact keepsDraft_configure (hread options) (Nat.ne_of_lt hlt)
    | none => exact (keepsWorkbench_pure ()).keepsDraft id
  have hbegun {n : Nat} {bench : Workbench} (h : Workbench.begin.run m.workbench = .ok n bench) :
      bench.drafts[id]? = some d := by
    obtain ⟨-, -, rfl⟩ := Workbench.begin_eq_ok h
    rw [Array.getElem?_push, if_neg (Nat.ne_of_lt hlt), hd]
  have hbegins := begins_tabulationNew c setting m
  rw [ScriptM.after]
  generalize (HostFunction.tabulationNew.run c).run setting m = outcome at hbegins
  cases hbegins with
  | unread e v m' read kept => exact (congrArg (fun w => w.drafts[id]?) kept).trans hd
  | exhausted v m' charged => exact (congrArg (fun drafts => drafts[id]?) charged.drafts).trans hd
  | abandoned options bench v m' read begun failed =>
    have hafter := hset options setting d { m with workbench := bench } (hbegun begun)
    rw [ScriptM.after_of_error failed] at hafter
    exact hafter
  | given options bench m' read begun kept =>
    have hafter := hset options setting d { m with workbench := bench } (hbegun begun)
    rw [ScriptM.after_of_ok kept] at hafter
    exact hafter

end KeepsDraft

/-! ## Failures -/

/-- **More has been used up, within the limits, and that is all.** -/
structure OnlySpent (w w' : Workbench) : Prop where
  /-- All drafts are as before. -/
  drafts : w'.drafts = w.drafts
  /-- No counter has gone down. -/
  spent_le : ∀ r, w.budget.spent r ≤ w'.budget.spent r
  /-- No counter is above its limit. -/
  spent_le_limit : ∀ r, w'.budget.spent r ≤ r.limit

theorem onlySpent_of_charged {w w' : Workbench} (hw : w.Sound) (h : Workbench.Charged w w') :
    OnlySpent w w' :=
  ⟨h.drafts, h.spent_le, h.within hw.within⟩

/-- **What fails on a desk changes nothing that can be seen.** -/
structure FailsUnseen (ε : Type) (desk : Desk) : Prop where
  /-- A command through the handles that fails hands out no handle either. -/
  command : ∀ command : Command ε, (desk.perform command).2 = false →
    OnlySpent desk.bench (desk.perform command).1.bench
      ∧ (desk.perform command).1.series = desk.series
  /-- So it is with the operations of the host, whatever they are called with. -/
  operation : ∀ f : HostFunction, f.changesTabulation = true → ∀ c setting m v m',
    m.workbench = desk.bench → (f.run c).run setting m = .error v m' →
      OnlySpent desk.bench m'.workbench
  /-- The script gets a handle of a new tabulation only if all options have been kept. -/
  new : ∀ c setting m, Begins c setting m ((HostFunction.tabulationNew.run c).run setting m)
  /-- A new tabulation leaves the others alone, apart from what reading the options does. -/
  others : ∀ c id, (∀ options name, KeepsDraft id (tabulationOption c options name)) →
    KeepsDraft id (HostFunction.tabulationNew.run c)

/-- **Nothing of a tabulation is ever shown**: whatever is done, nobody gets a handle of it, and
what the script can present would be the same with any other draft in its place. -/
def NeverShown (ε : Type) (h : Holding) (id : Nat) : Prop :=
  ∀ deeds : List (Deed ε), (h.after deeds).Lost id
    ∧ ∀ d, ((h.after deeds).withDraft id d).results = (h.after deeds).results

theorem neverShown_of_lost {ε : Type} {h : Holding} {id : Nat} (hlost : h.Lost id) :
    NeverShown ε h id := by
  intro deeds
  have hafter := (hlost.after deeds).1
  exact ⟨hafter, Holding.results_withDraft hafter.given⟩

/-- **A failing operation on tabulations changes nothing visible**, after any commands. After any
deeds, a tabulation of which an option cannot be kept or had is never shown, and all drafts are as
before. -/
theorem failed_operations_change_nothing {ε : Type} (commands : List (Command ε))
    (deeds : List (Deed ε)) :
    FailsUnseen ε (Desk.after {} commands)
      ∧ ∀ id ∈ (Holding.after {} deeds).pending, ∀ deed : Deed ε, deed.setsUp? = some id →
        ((Holding.after {} deeds).perform deed).2 = false →
          OnlySpent (Holding.after {} deeds).desk.bench
              ((Holding.after {} deeds).perform deed).1.desk.bench
            ∧ NeverShown ε ((Holding.after {} deeds).perform deed).1 id := by
  refine ⟨?_, fun id hid deed hdeed hfailed => ?_⟩
  · have hsound : (Desk.after {} commands).bench.Sound :=
      Desk.sound_after Workbench.sound_empty commands
    refine ⟨fun command hfailed => ?_, fun f hf c setting m v m' hm hrun => ?_,
      begins_tabulationNew, fun c id => keepsDraft_tabulationNew⟩
    · obtain ⟨-, hunmoved⟩ | ⟨hdone, -⟩ := (Desk.after {} commands).perform_ends command
      · exact ⟨onlySpent_of_charged hsound hunmoved.charged, hunmoved.series⟩
      · exact absurd (hdone.symm.trans hfailed) (by decide)
    · rw [← hm] at hsound ⊢
      exact onlySpent_of_charged hsound (failsGently_run hf c setting m v m' hrun)
  · obtain ⟨given, hgiven⟩ := Holding.exists_desk_after {} deeds
    have hsound : (Holding.after {} deeds).desk.bench.Sound := by
      rw [hgiven]
      exact Desk.sound_after Workbench.sound_empty given
    obtain ⟨hlost, hcharged⟩ :=
      (Holding.apart_empty.after deeds).lost_of_setsUp? hid hdeed hfailed
    exact ⟨onlySpent_of_charged hsound hcharged, neverShown_of_lost hlost⟩

/-- Labels of which the second is no string: the first is charged and not kept, and a tabulation
that was to begin with such labels is never shown. -/
theorem failed_operations_change_nothing_labels :
    let desk := Desk.after {} [.begin, .setLabels 0 [.ok "a".toUTF8], (.begin : Command Unit)]
    let failed := desk.perform (.setLabels 0 [.ok "bc".toUTF8, .error ()])
    desk.bench.budget = ⟨2, 1, 1⟩ ∧ failed.2 = false ∧ failed.1.bench.budget = ⟨2, 2, 3⟩
      ∧ failed.1.bench.drafts = desk.bench.drafts
      ∧ NeverShown Unit ((Holding.after {} [(.begin : Deed Unit)]).perform
        (.setUp 0 (.labels [.ok "bc".toUTF8, .error ()]))).1 0 := by
  intro desk failed
  obtain ⟨hdesk, hpending⟩ := failed_operations_change_nothing
    [.begin, .setLabels 0 [.ok "a".toUTF8], (.begin : Command Unit)] [(.begin : Deed Unit)]
  have hfailed : failed.2 = false := by decide +kernel
  have hunseen := hpending 0 (by decide +kernel) (.setUp 0 (.labels [.ok "bc".toUTF8, .error ()]))
    rfl (by decide +kernel)
  exact ⟨by decide +kernel, hfailed, by decide +kernel, (hdesk.command _ hfailed).1.drafts,
    hunseen.2⟩

end LedgerReports.Script
