import LedgerReports.Proofs.Script.Questions
import LedgerReports.Sandbox

/-!
# How the run of a report is judged

A run of a report can go wrong in several ways at once: the script catches
an error of the host and goes on with wrong numbers, or it raises one of its
own after the time was up. `execute_classified` says which of them the owner
is told about. What the script itself came to is told apart by `Ends`, and
counts only if nothing was noted of the outside: first comes the deadline,
then the first fault of the host.

Two things are behind this. The run of a source text is always a result, and
never an error that passes through to the host (`runSource_ends`): whatever a
script raises is turned into a text, by which nothing more can go wrong. And
no note gets lost, wherever in the run it was taken
(`SeesDeadline.deadlinePassed`, `Takes.noted_of_hits`).
-/

namespace LedgerReports.Sandbox

open Script

section Source

variable {setting : Setting} {source : String} {start : Machine}

/-! ## What a script comes to -/

/-- The step that runs a program, up to its end. -/
def topLevel (program : Program) : ScriptM (Array Value) := do call (← newProgram program) #[]

/-- **The entry point is found**: the source text is well formed, its program
runs to its end, and `entry` is the function that it has defined then. -/
inductive Enters (setting : Setting) (source : String) (start : Machine) (entry : Value)
    (m : Machine) : Prop where
  /-- The source text is that of a program, which ends on the machine `m₁`. -/
  | intro {program : Program} {values : Array Value} {m₁ : Machine}
      (hparse : Program.parse? chunkName source.toUTF8 = some program)
      (htop : (topLevel program).run setting start = .ok values m₁)
      (hentry : findEntryPoint.run setting m₁ = .ok (.ok entry) m)

/-- **What a script comes to**, begun on a machine, and the machine at the end,
when only the script is looked at. -/
inductive Ends (setting : Setting) (source : String) (start : Machine) :
    Except Failure Tabulation → Machine → Prop where
  /-- The source text is not well formed. -/
  | malformed (hparse : Program.parse? chunkName source.toUTF8 = none) :
      Ends setting source start (.error (.compile "syntax error")) start
  /-- The program raises an error. -/
  | programRaises {program : Program} {e : Value} {m last : Machine} {text : String}
      (hparse : Program.parse? chunkName source.toUTF8 = some program)
      (htop : (topLevel program).run setting start = .error e m)
      (htext : (errorText e).run setting m = .ok text last) :
      Ends setting source start (.error (.runtime text)) last
  /-- There is no entry point. -/
  | noEntryPoint {program : Program} {values : Array Value} {m last : Machine}
      (hparse : Program.parse? chunkName source.toUTF8 = some program)
      (htop : (topLevel program).run setting start = .ok values m)
      (hentry : findEntryPoint.run setting m
        = .ok (.error (.contractViolation .missingEntryPoint)) last) :
      Ends setting source start (.error (.contractViolation .missingEntryPoint)) last
  /-- The entry point raises an error. -/
  | entryRaises {entry e : Value} {m m₁ last : Machine} {text : String}
      (henter : Enters setting source start entry m)
      (hcall : (call entry #[]).run setting m = .error e m₁)
      (htext : (errorText e).run setting m₁ = .ok text last) :
      Ends setting source start (.error (.runtime text)) last
  /-- The entry point does not return exactly one value. -/
  | wrongCount {entry : Value} {values : Array Value} {m last : Machine}
      (henter : Enters setting source start entry m)
      (hcall : (call entry #[]).run setting m = .ok values last) (hcount : values.size ≠ 1) :
      Ends setting source start (.error (.contractViolation (.returnCount values.size))) last
  /-- The entry point returns no object of the host. -/
  | noHandle {entry v : Value} {m last : Machine} (henter : Enters setting source start entry m)
      (hcall : (call entry #[]).run setting m = .ok #[v] last)
      (hobject : ∀ id o, v = .object id o → ∃ e, o = .failure e) :
      Ends setting source start (.error (.contractViolation .notAHandle)) last
  /-- The entry point returns an object of the host that is no tabulation. -/
  | wrongHandle {entry : Value} {id : Nat} {o : HostObject} {m last : Machine}
      (henter : Enters setting source start entry m)
      (hcall : (call entry #[]).run setting m = .ok #[.object id o] last)
      (hfailure : ∀ e, o ≠ .failure e) (htabulation : ∀ draft, o ≠ .tabulation draft) :
      Ends setting source start (.error (.contractViolation .wrongHandle)) last
  /-- The entry point returns a tabulation. -/
  | tabulates {entry : Value} {id draft : Nat} {m last : Machine}
      (henter : Enters setting source start entry m)
      (hcall : (call entry #[]).run setting m = .ok #[.object id (.tabulation draft)] last) :
      Ends setting source start (.ok (last.workbench.draft draft).finish) last

/-! ## A script always comes to something -/

/-- A step that is tried has a result if what is done about an error has one. -/
theorem run_tryCatch_eq_ok {α : Type} (x : ScriptM α) {handle : Value → ScriptM α}
    (hhandle : ∀ e m, ∃ a m', (handle e).run setting m = .ok a m') (m : Machine) :
    ∃ a m', (tryCatch x handle).run setting m = .ok a m' := by
  rw [ScriptM.run_tryCatch]
  cases x.run setting m with
  | ok a m' => exact ⟨a, m', rfl⟩
  | error e m' => exact hhandle e m'

/-- There is a text for every error. -/
theorem errorText_eq_ok (setting : Setting) (m : Machine) (e : Value) :
    ∃ text last, (errorText e).run setting m = .ok text last := by
  unfold errorText
  split
  · exact ⟨_, _, ScriptM.run_pure ..⟩
  · exact ⟨_, _, ScriptM.run_pure ..⟩
  · exact ⟨_, _, ScriptM.run_pure ..⟩
  · exact run_tryCatch_eq_ok _ (fun _ m => ⟨_, _, ScriptM.run_pure setting m _⟩) m

section Guarded

variable {α : Type} {x : ScriptM α} {m m₁ : Machine}

theorem run_guarded_of_ok {a : α} (h : x.run setting m = .ok a m₁) :
    (guarded x).run setting m = .ok (.ok a) m₁ := by
  rw [guarded, ScriptM.run_tryCatch, ScriptM.run_bind, h]
  rfl

theorem run_guarded_of_error {e : Value} {text : String} {last : Machine}
    (h : x.run setting m = .error e m₁) (htext : (errorText e).run setting m₁ = .ok text last) :
    (guarded x).run setting m = .ok (.error (.runtime text)) last := by
  rw [guarded, ScriptM.run_tryCatch, ScriptM.run_bind, h]
  simp only [ScriptM.run_bind, htext, ScriptM.run_pure]

end Guarded

/-- The entry point is a function, or it is missing. -/
theorem run_findEntryPoint (setting : Setting) (m : Machine) :
    ∃ last, (∃ entry, entry.isFunction = true ∧ findEntryPoint.run setting m = .ok (.ok entry) last)
      ∨ findEntryPoint.run setting m = .ok (.error (.contractViolation .missingEntryPoint)) last := by
  obtain ⟨found, last, hfound⟩ := run_tryCatch_eq_ok
    (Actor.index ⟨callAt maxNesting .bottom, none⟩ (.table Machine.globals) (.ofText entryPoint) none)
    (fun _ m => ⟨Value.nil, m, ScriptM.run_pure setting m _⟩) m
  rw [findEntryPoint, ScriptM.run_bind, hfound]
  cases hfunction : found.isFunction with
  | true => exact ⟨last, .inl ⟨found, hfunction, by simp [hfunction]⟩⟩
  | false => exact ⟨last, .inr (by simp [hfunction])⟩

/-- What the entry point has returned is judged without an error. -/
theorem accept_ends {entry : Value} {values : Array Value} {m last : Machine}
    (henter : Enters setting source start entry m)
    (hcall : (call entry #[]).run setting m = .ok values last) :
    ∃ own, (accept values).run setting last = .ok own last ∧ Ends setting source start own last := by
  obtain ⟨values⟩ := values
  unfold accept
  split
  · rename_i id draft hvalues
    cases hvalues
    refine ⟨_, ?_, .tabulates henter hcall⟩
    rw [ScriptM.run_bind, ScriptM.run_get]
    exact ScriptM.run_pure ..
  · rename_i id e hvalues
    cases hvalues
    refine ⟨_, ScriptM.run_pure .., .noHandle henter hcall fun _ _ h => ?_⟩
    cases h
    exact ⟨e, rfl⟩
  · rename_i id o htabulation hfailure hvalues
    cases hvalues
    refine ⟨_, ScriptM.run_pure .., .wrongHandle henter hcall ?_ ?_⟩
    · rintro e rfl
      exact hfailure e rfl
    · rintro draft rfl
      exact htabulation draft rfl
  · rename_i v _ _ hobject hvalues
    cases hvalues
    exact ⟨_, ScriptM.run_pure .., .noHandle henter hcall fun id o h => (hobject id o h).elim⟩
  · rename_i hone
    refine ⟨_, ScriptM.run_pure .., .wrongCount henter hcall fun hcount => ?_⟩
    obtain ⟨v, rfl⟩ := List.length_eq_one_iff.mp hcount
    exact hone v rfl

/-- **The run of a source text is always a result.** -/
theorem runSource_ends (setting : Setting) (source : String) (start : Machine) :
    ∃ own last, (runSource source).run setting start = .ok own last
      ∧ Ends setting source start own last := by
  unfold runSource
  cases hparse : Program.parse? chunkName source.toUTF8 with
  | none => exact ⟨_, _, ScriptM.run_pure .., .malformed hparse⟩
  | some program =>
    show ∃ own last, (runProgram program).run setting start = .ok own last ∧ _
    rw [runProgram, ScriptM.run_bind]
    cases htop : (topLevel program).run setting start with
    | error e m =>
      obtain ⟨text, last, htext⟩ := errorText_eq_ok setting m e
      have hguarded := run_guarded_of_error htop htext
      rw [topLevel] at hguarded
      rw [hguarded]
      exact ⟨_, _, ScriptM.run_pure .., .programRaises hparse htop htext⟩
    | ok values m =>
      have hguarded := run_guarded_of_ok htop
      rw [topLevel] at hguarded
      simp only [hguarded, ScriptM.run_bind]
      obtain ⟨m₁, ⟨entry, -, hentry⟩ | hentry⟩ := run_findEntryPoint setting m
      · have henter : Enters setting source start entry m₁ := ⟨hparse, htop, hentry⟩
        simp only [hentry, ScriptM.run_bind]
        cases hcall : (call entry #[]).run setting m₁ with
        | error e m₂ =>
          obtain ⟨text, last, htext⟩ := errorText_eq_ok setting m₂ e
          rw [run_guarded_of_error hcall htext]
          exact ⟨_, _, ScriptM.run_pure .., .entryRaises henter hcall htext⟩
        | ok values last =>
          obtain ⟨own, hown, hends⟩ := accept_ends henter hcall
          rw [run_guarded_of_ok hcall]
          exact ⟨own, last, hown, hends⟩
      · rw [hentry]
        exact ⟨_, _, ScriptM.run_pure .., .noEntryPoint hparse htop hentry⟩

/-! ## What is noted during a run -/

/-- **The notes of a run are complete**: `Runs setting source start own last`
says that the script comes to `own` on the machine `last`, and that the
journal of `last` knows what the run has met with. -/
structure Runs (setting : Setting) (source : String) (start : Machine)
    (own : Except Failure Tabulation) (last : Machine) : Prop where
  /-- What the script comes to. -/
  ends : Ends setting source start own last
  /-- That the deadline has passed is known if this was seen anywhere. -/
  late : SeesDeadline setting (runSource source) start → last.journal.deadlinePassed = true
  /-- The first fault is that of the first call that hit one, unless it was already late. -/
  hits : ∀ {f : HostFunction} {c : Call} {m : Machine} {e : Failure},
    Takes setting (runSource source) start (f.run c) m → f.Hits c setting.ledger e →
      m.journal.firstFault? = none →
        last.journal.deadlinePassed = true ∨ last.journal.firstFault? = some e
  /-- The first fault is a fault, and the ledger has answered with it. -/
  due : ∀ {e : Failure}, last.journal.firstFault? = some e →
    e.isFault = true ∧ setting.ledger.Gives e

/-- A run that begins with nothing noted has complete notes. -/
theorem runs_of_journal_eq_nil (setting : Setting) (source : String)
    (hstart : start.journal = []) :
    ∃ own last, (runSource source).run setting start = .ok own last
      ∧ Runs setting source start own last := by
  obtain ⟨own, last, hrun, hends⟩ := runSource_ends setting source start
  have hlast : (runSource source).after setting start = last := by rw [ScriptM.after, hrun]; rfl
  refine ⟨own, last, hrun, hends, fun hlate => ?_, fun htakes hits hfirst => ?_, fun hfirst => ?_⟩
  · rw [← hlast]
    exact hlate.deadlinePassed
  · rw [← hlast]
    exact (htakes.noted_of_hits hits hfirst).imp_left SeesDeadline.deadlinePassed
  · have hcontinues := (runSource source).continues setting start
    rw [hrun, hstart] at hcontinues
    exact hcontinues.isFault_of_firstFault? hfirst

end Source

/-! ## The judgement -/

/-- **What the owner of a report is told** about a run that came to `own` on the
machine `last`: the first of four that applies. -/
inductive Judged (report : Report) (own : Except Failure Tabulation) (last : Machine) :
    Except Failure Tabulation → Prop where
  /-- The deadline has passed. -/
  | late (hlate : last.journal.deadlinePassed = true) : Judged report own last (.error .timeout)
  /-- The host was at fault. -/
  | faulty {e : Failure} (hlate : last.journal.deadlinePassed = false)
      (hfault : last.journal.firstFault? = some e) : Judged report own last (.error e)
  /-- The script has failed. -/
  | failed {e : Failure} (hlate : last.journal.deadlinePassed = false)
      (hfault : last.journal.firstFault? = none) (hown : own = .error e) :
      Judged report own last (.error e)
  /-- The script has given a tabulation, which belongs to the report. -/
  | tabulated {t : Tabulation} (hlate : last.journal.deadlinePassed = false)
      (hfault : last.journal.firstFault? = none) (hown : own = .ok t) :
      Judged report own last (.ok { t with reportId := report.id })

theorem judged_classify (report : Report) (own : Except Failure Tabulation) (last : Machine) :
    Judged report own last
      ((classify last.journal own).map fun t => { t with reportId := report.id }) := by
  rw [classify]
  cases hlate : last.journal.deadlinePassed with
  | true => exact .late hlate
  | false =>
    cases hfault : last.journal.firstFault? with
    | some e => exact .faulty hlate hfault
    | none =>
      cases own with
      | error e => exact .failed hlate hfault rfl
      | ok t => exact .tabulated hlate hfault rfl

section Execute

variable (limits : Limits) (report : Report) (user : User) (ledger : Ledger.View) (today : Date)

theorem execute_of_ne (h : report.owner ≠ user.id) :
    execute limits report user ledger today = .error .notFound := by
  rw [execute, if_neg h]
  rfl

theorem execute_of_long (h : report.owner = user.id) (hlong : 65536 ≤ report.source.utf8ByteSize) :
    ∃ message, execute limits report user ledger today = .error (.validation message) := by
  obtain ⟨message, hmessage⟩ : ∃ message, report.validate = .error (.validation message) :=
    ⟨_, if_pos hlong⟩
  refine ⟨message, ?_⟩
  rw [execute, if_pos h, hmessage]
  rfl

theorem execute_of_short (h : report.owner = user.id)
    (hshort : report.source.utf8ByteSize < 65536) :
    execute limits report user ledger today
      = (run (setting limits ledger today) report.source).map
          fun t => { t with reportId := report.id } := by
  have hvalid : report.validate = .ok () := if_neg (Nat.not_le.mpr hshort)
  rw [execute, if_pos h, hvalid]
  show (run (setting limits ledger today) report.source >>= _) = _
  cases run (setting limits ledger today) report.source <;> rfl

/-- **How the run of a report is judged.** A report of somebody else is not
found, and one whose script is too long is refused. Any other one is run.
The owner is told that it took too long if this was seen anywhere in the
run; if not, of the first fault that a call of the host hit; if there was
none, how the script failed; and else gets the tabulation. It does not
matter which errors the script has caught and what it has returned after
that. A tabulation is what the handle that the entry point returned holds
at the end, and the entry point has returned nothing besides. -/
theorem execute_classified :
    (report.owner ≠ user.id → execute limits report user ledger today = .error .notFound)
    ∧ (report.owner = user.id → 65536 ≤ report.source.utf8ByteSize →
        ∃ message, execute limits report user ledger today = .error (.validation message))
    ∧ (report.owner = user.id → report.source.utf8ByteSize < 65536 →
        ∃ own last, Runs (setting limits ledger today) report.source Machine.start own last
          ∧ Judged report own last (execute limits report user ledger today))
    ∧ ∀ t, execute limits report user ledger today = .ok t →
        ∃ entry id draft m last,
          Enters (setting limits ledger today) report.source Machine.start entry m
          ∧ (call entry #[]).run (setting limits ledger today) m
              = .ok #[.object id (.tabulation draft)] last
          ∧ ¬ SeesDeadline (setting limits ledger today) (runSource report.source) Machine.start
          ∧ last.journal.firstFault? = none
          ∧ t = { (last.workbench.draft draft).finish with reportId := report.id } := by
  have hruns (h : report.owner = user.id) (hshort : report.source.utf8ByteSize < 65536) :
      ∃ own last, Runs (setting limits ledger today) report.source Machine.start own last
        ∧ Judged report own last (execute limits report user ledger today) := by
    obtain ⟨own, last, hrun, hruns⟩ :=
      runs_of_journal_eq_nil (setting limits ledger today) report.source Machine.journal_start
    refine ⟨own, last, hruns, ?_⟩
    rw [execute_of_short limits report user ledger today h hshort, run, EStateM.run, hrun]
    exact judged_classify report own last
  refine ⟨execute_of_ne limits report user ledger today,
    execute_of_long limits report user ledger today, hruns, fun t ht => ?_⟩
  by_cases h : report.owner = user.id
  · by_cases hshort : report.source.utf8ByteSize < 65536
    · obtain ⟨own, last, hruns, hjudged⟩ := hruns h hshort
      rw [ht] at hjudged
      cases hjudged with
      | tabulated hlate hfault hown =>
        have hends := hruns.ends
        rw [hown] at hends
        cases hends with
        | tabulates henter hcall =>
          refine ⟨_, _, _, _, last, henter, hcall, fun hsees => ?_, hfault, rfl⟩
          rw [hruns.late hsees] at hlate
          cases hlate
    · obtain ⟨message, hlong⟩ :=
        execute_of_long limits report user ledger today h (Nat.not_lt.mp hshort)
      rw [ht] at hlong
      cases hlong
  · rw [execute_of_ne limits report user ledger today h] at ht
    cases ht

end Execute

end LedgerReports.Sandbox
