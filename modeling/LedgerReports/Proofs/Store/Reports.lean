import LedgerReports.Service
import Mathlib.Data.List.Basic
import Mathlib.Logic.Function.Basic

/-!
# The reports of all users as a map

The service keeps the reports of all users in one table, and answers a user
through statements that name the owner along with the number of a report. To
a user this is to look like something simpler: a `Shelf`, which has at most
one entry for a number, with an owner, a name and a script. `Shelf.Answers`
says which calls a shelf answers how, and what becomes of it. Nothing in it
speaks of tables, and of the numbers for new reports it only says that they
are free.

`reports_refine_shelf` says that the service answers every sequence of calls
as a shelf does, whichever users make them and in whatever order. What is
carried along such a sequence is that the rows of the table are the entries
of the shelf, in ascending order of their numbers (`Store.Shelves`): a number
then stands for one row only, so the statements, which look for all rows of an
owner with a number, change one entry; and the number after the greatest one
is free.
-/

namespace LedgerReports

/-! ## Calls -/

/-- What a user can ask for about reports. -/
inductive ReportCall where
  /-- Keeping a new report. -/
  | create (draft : Report)
  /-- A report. -/
  | read (id : Int)
  /-- All reports of the user. -/
  | list
  /-- Replacing a report. -/
  | update (id : Int) (replacement : Report)
  /-- Deleting a report. -/
  | delete (id : Int)

/-- What a call can give. -/
inductive ReportAnswer where
  /-- A report. -/
  | report (r : Report)
  /-- Some reports. -/
  | reports (rs : List Report)
  /-- Nothing. -/
  | done
deriving DecidableEq

/-- What the service does about a call of a user. -/
def ReportCall.run (user : User) : ReportCall → StoreM ReportAnswer
  | create draft => do return .report (← Service.createReport user draft)
  | read id => do return .report (← Service.report user id)
  | list => do return .reports (← Service.reports user)
  | update id replacement => do return .report (← Service.updateReport user id replacement)
  | delete id => do
    Service.deleteReport user id
    return .done

/-- The answers of the service to calls of users, one after the other, and the store
afterwards. -/
def Service.answerAll :
    List (User × ReportCall) → Store → List (Except Failure ReportAnswer) × Store
  | [], s => ([], s)
  | (user, call) :: calls, s =>
    let result := transact (call.run user) s
    let rest := answerAll calls result.2
    (result.1 :: rest.1, rest.2)

/-! ## Shelves -/

/-- What a shelf has for a number. -/
structure Shelf.Entry where
  /-- The user who owns the report. -/
  owner : Int
  /-- The name. -/
  name : String
  /-- The script. -/
  source : String

/-- The entry that is a report with a number. -/
def Shelf.Entry.report (e : Shelf.Entry) (id : Int) : Report := ⟨id, e.owner, e.name, e.source⟩

/-- A report without its number. -/
def Report.entry (r : Report) : Shelf.Entry := ⟨r.owner, r.name, r.source⟩

/-- **A shelf**: at most one entry for each number. -/
abbrev Shelf := Int → Option Shelf.Entry

/-- The calls that are about an existing report, with its number. A replacement has to be
valid. -/
inductive ReportCall.IsAbout : ReportCall → Int → Prop where
  /-- A call for a report. -/
  | read (id : Int) : IsAbout (.read id) id
  /-- A call that replaces a report. -/
  | update {id : Int} {r : Report} (hid : r.id = id) (hshort : r.source.utf8ByteSize < 65536) :
      IsAbout (.update id r) id
  /-- A call that deletes a report. -/
  | delete (id : Int) : IsAbout (.delete id) id

open Function in
/-- **What a shelf answers** to a call of a user, and what it is afterwards. -/
inductive Shelf.Answers (shelf : Shelf) (user : User) :
    ReportCall → Except Failure ReportAnswer → Shelf → Prop where
  /-- A new report gets a number that is free. It is the user's, whatever the draft says. -/
  | created {draft : Report} {id : Int} {e : Entry} (he : e = ⟨user.id, draft.name, draft.source⟩)
      (hshort : draft.source.utf8ByteSize < 65536) (hfree : shelf id = none) :
      Answers shelf user (.create draft) (.ok (.report (e.report id))) (update shelf id (some e))
  /-- The script of a new report is too long. -/
  | tooLong {draft : Report} (hlong : 65536 ≤ draft.source.utf8ByteSize) :
      Answers shelf user (.create draft)
        (.error (.validation
          s!"script source is {draft.source.utf8ByteSize} bytes, limit is {65535}")) shelf
  /-- A report of the user is shown. -/
  | shown {id : Int} {e : Entry} (hid : shelf id = some e) (howner : e.owner = user.id) :
      Answers shelf user (.read id) (.ok (.report (e.report id))) shelf
  /-- All reports of the user are listed in the order of their numbers, and no others. -/
  | listed {rs : List Report} (hascending : rs.Pairwise (·.id < ·.id))
      (hmem : ∀ r, r ∈ rs ↔ shelf r.id = some r.entry ∧ r.owner = user.id) :
      Answers shelf user .list (.ok (.reports rs)) shelf
  /-- Name and script of a report of the user are replaced. -/
  | updated {id : Int} {r : Report} {e e' : Entry} (hshelf : shelf id = some e)
      (howner : e.owner = user.id) (hid : r.id = id) (hshort : r.source.utf8ByteSize < 65536)
      (he' : e' = { e with name := r.name, source := r.source }) :
      Answers shelf user (.update id r) (.ok (.report (e'.report id))) (update shelf id (some e'))
  /-- A replacement is for another number. -/
  | mismatched {id : Int} {r : Report} (hid : r.id ≠ id) :
      Answers shelf user (.update id r)
        (.error (.validation s!"report id {r.id} in body does not match {id}")) shelf
  /-- The script of a replacement is too long. -/
  | updateTooLong {id : Int} {r : Report} (hid : r.id = id)
      (hlong : 65536 ≤ r.source.utf8ByteSize) :
      Answers shelf user (.update id r)
        (.error (.validation
          s!"script source is {r.source.utf8ByteSize} bytes, limit is {65535}")) shelf
  /-- A report of the user is deleted. -/
  | deleted {id : Int} {e : Entry} (hid : shelf id = some e) (howner : e.owner = user.id) :
      Answers shelf user (.delete id) (.ok .done) (update shelf id none)
  /-- A report is not there, or it is somebody else's. -/
  | notFound {call : ReportCall} {id : Int} (hcall : call.IsAbout id)
      (hforeign : ∀ e, shelf id = some e → e.owner ≠ user.id) :
      Answers shelf user call (.error .notFound) shelf

/-- The answers of a shelf to calls of users, one after the other. -/
inductive Shelf.AnswersAll :
    Shelf → List (User × ReportCall) → List (Except Failure ReportAnswer) → Shelf → Prop where
  /-- There are no calls. -/
  | nil (shelf : Shelf) : AnswersAll shelf [] [] shelf
  /-- A call is answered, and then the others. -/
  | cons {shelf shelf' shelf'' : Shelf} {user : User} {call : ReportCall}
      {calls : List (User × ReportCall)} {answer : Except Failure ReportAnswer}
      {answers : List (Except Failure ReportAnswer)}
      (h : Answers shelf user call answer shelf') (hrest : AnswersAll shelf' calls answers shelf'') :
      AnswersAll shelf ((user, call) :: calls) (answer :: answers) shelf''

/-! ## The table of reports is a shelf -/

/-- A store with other reports. -/
def Store.withReports (s : Store) (rows : List Report) : Store := { s with reports := rows }

/-- **The reports of a store are those of a shelf**, in the order of their numbers. -/
structure Store.Shelves (s : Store) (shelf : Shelf) : Prop where
  /-- The rows are the entries. -/
  mem_iff : ∀ r, r ∈ s.reports ↔ shelf r.id = some r.entry
  /-- The numbers ascend. -/
  ascending : s.reports.Pairwise (·.id < ·.id)

/-- A store without reports has an empty shelf. -/
theorem Store.shelves_of_reports_eq_nil {s : Store} (h : s.reports = []) :
    s.Shelves fun _ => none := by
  refine ⟨fun r => ?_, ?_⟩
  · rw [h]
    simp
  · rw [h]
    exact .nil

theorem Shelf.Entry.eq_entry_iff {e : Shelf.Entry} {r : Report} {id : Int} :
    e.report id = r ↔ id = r.id ∧ e = r.entry := by
  cases e
  cases r
  simp [Shelf.Entry.report, Report.entry]

section Table

variable {s : Store} {shelf : Shelf}

theorem le_foldl_max (ids : List Int) (n : Int) : n ≤ ids.foldl max n := by
  induction ids generalizing n with
  | nil => exact Int.le_refl n
  | cons id ids ih => exact Int.le_trans (Int.le_max_left n id) (ih _)

theorem le_foldl_max_of_mem {ids : List Int} {id : Int} (h : id ∈ ids) (n : Int) :
    id ≤ ids.foldl max n := by
  induction ids generalizing n with
  | nil => cases h
  | cons id' ids ih =>
    rcases List.mem_cons.mp h with rfl | h
    · exact Int.le_trans (Int.le_max_right n id) (le_foldl_max ids _)
    · exact ih h _

/-- The number of a new row is greater than those of all others. -/
theorem Store.lt_nextId_of_mem {ids : List Int} {id : Int} (h : id ∈ ids) : id < Store.nextId ids :=
  Int.lt_add_one_iff.mpr (le_foldl_max_of_mem h 0)

theorem Store.lt_nextId {rs : List Report} {r : Report} (h : r ∈ rs) :
    r.id < Store.nextId (rs.map (·.id)) :=
  Store.lt_nextId_of_mem (List.mem_map_of_mem h)

namespace Store.Shelves

theorem report?_eq_some {owner id : Int} {r : Report} (h : s.Shelves shelf)
    (hr : s.report? owner id = some r) : shelf id = some r.entry ∧ r.id = id ∧ r.owner = owner := by
  have hmem := List.mem_of_find?_eq_some hr
  have hfound := List.find?_some hr
  rw [Bool.and_eq_true, beq_iff_eq, beq_iff_eq] at hfound
  obtain ⟨howner, rfl⟩ := hfound
  exact ⟨(h.mem_iff r).mp hmem, rfl, howner⟩

theorem owner_ne {owner id : Int} (h : s.Shelves shelf) (hnone : s.report? owner id = none)
    (e : Shelf.Entry) (he : shelf id = some e) : e.owner ≠ owner := by
  rintro rfl
  have hmem : e.report id ∈ s.reports := (h.mem_iff _).mpr he
  refine List.find?_eq_none.mp hnone _ hmem ?_
  rw [Bool.and_eq_true, beq_iff_eq, beq_iff_eq]
  exact ⟨rfl, rfl⟩

/-- The number of a new row is free. -/
theorem nextId_free (h : s.Shelves shelf) : shelf (Store.nextId (s.reports.map (·.id))) = none := by
  rw [Option.eq_none_iff_forall_ne_some]
  intro e he
  have hmem : e.report _ ∈ s.reports := (h.mem_iff (e.report _)).mpr he
  exact Int.lt_irrefl _ (Store.lt_nextId hmem)

/-- A row put at the end, with the next number, is put on the shelf. -/
theorem insert (h : s.Shelves shelf) (e : Shelf.Entry) {id : Int}
    (hid : id = Store.nextId (s.reports.map (·.id))) :
    Store.Shelves (s.withReports (s.reports ++ [e.report id]))
      (Function.update shelf id (some e)) := by
  have hfree : shelf id = none := hid ▸ h.nextId_free
  refine ⟨fun r => ?_, ?_⟩
  · show r ∈ s.reports ++ [e.report id] ↔ _
    rw [List.mem_append, List.mem_singleton, h.mem_iff]
    by_cases hr : r.id = id
    · rw [hr, hfree, Function.update_self, eq_comm (a := r), Shelf.Entry.eq_entry_iff]
      simp [hr]
    · rw [Function.update_of_ne hr, eq_comm (a := r), Shelf.Entry.eq_entry_iff]
      simp [Ne.symm hr]
  · refine List.pairwise_append.mpr ⟨h.ascending, List.pairwise_singleton .., fun r hr r' hr' => ?_⟩
    rw [List.mem_singleton.mp hr']
    exact hid ▸ Store.lt_nextId hr

/-- There is one row for a number. -/
theorem eq_report {id : Int} {e : Shelf.Entry} {r : Report} (h : s.Shelves shelf)
    (he : shelf id = some e) (hr : r ∈ s.reports) (hid : r.id = id) : r = e.report id := by
  refine (Shelf.Entry.eq_entry_iff.mpr ⟨hid.symm, ?_⟩).symm
  rw [← hid, (h.mem_iff r).mp hr] at he
  injection he with he
  exact he.symm

/-- The row of a number, replaced by another one with that number, is
replaced on the shelf. -/
theorem replace (h : s.Shelves shelf) {id : Int} {e e' : Shelf.Entry} (he : shelf id = some e)
    {f : Report → Report} (hself : f (e.report id) = e'.report id)
    (hother : ∀ r, r.id ≠ id → f r = r) :
    Store.Shelves (s.withReports (s.reports.map f)) (Function.update shelf id (some e')) := by
  have hf (r : Report) (hr : r ∈ s.reports) :
      (r.id = id ∧ f r = e'.report id) ∨ (r.id ≠ id ∧ f r = r) := by
    by_cases hid : r.id = id
    · exact .inl ⟨hid, h.eq_report he hr hid ▸ hself⟩
    · exact .inr ⟨hid, hother r hid⟩
  have hid (r : Report) (hr : r ∈ s.reports) : (f r).id = r.id := by
    obtain ⟨hid, hfr⟩ | ⟨-, hfr⟩ := hf r hr
    · rw [hfr, hid, Shelf.Entry.report]
    · rw [hfr]
  refine ⟨fun r => ?_, ?_⟩
  · show r ∈ s.reports.map f ↔ _
    rw [List.mem_map]
    constructor
    · rintro ⟨q, hq, rfl⟩
      obtain ⟨-, hfq⟩ | ⟨hne, hfq⟩ := hf q hq
      · rw [hfq]
        exact Function.update_self ..
      · rw [hfq, Function.update_of_ne hne]
        exact (h.mem_iff q).mp hq
    · intro hr
      by_cases hid : r.id = id
      · rw [hid, Function.update_self, Option.some_inj] at hr
        exact ⟨e.report id, (h.mem_iff _).mpr he,
          hself.trans (Shelf.Entry.eq_entry_iff.mpr ⟨hid.symm, hr⟩)⟩
      · rw [Function.update_of_ne hid] at hr
        exact ⟨r, (h.mem_iff r).mpr hr, hother r hid⟩
  · refine List.pairwise_map.mpr (h.ascending.imp_of_mem fun ha hb hlt => ?_)
    rw [hid _ ha, hid _ hb]
    exact hlt

/-- The rows of one number, taken away, are taken from the shelf. -/
theorem remove (h : s.Shelves shelf) {id : Int} {p : Report → Bool}
    (hp : ∀ r ∈ s.reports, p r = true ↔ r.id ≠ id) :
    Store.Shelves (s.withReports (s.reports.filter p)) (Function.update shelf id none) := by
  refine ⟨fun r => ?_, h.ascending.filter p⟩
  show r ∈ s.reports.filter p ↔ _
  rw [List.mem_filter]
  by_cases hr : r.id = id
  · rw [hr, Function.update_self]
    refine ⟨fun ⟨hmem, hpr⟩ => absurd hr ((hp r hmem).mp hpr), fun h => ?_⟩
    cases h
  · rw [Function.update_of_ne hr, ← h.mem_iff]
    exact ⟨fun ⟨hmem, _⟩ => hmem, fun hmem => ⟨hmem, (hp r hmem).mpr hr⟩⟩

end Store.Shelves

end Table

/-! ## What the service does -/

section Runs

theorem Report.validate_of_short {r : Report} (h : r.source.utf8ByteSize < 65536) :
    r.validate = .ok () :=
  if_neg (Nat.not_le.mpr h)

theorem Report.validate_of_long {r : Report} (h : 65536 ≤ r.source.utf8ByteSize) :
    r.validate = .error (.validation
      s!"script source is {r.source.utf8ByteSize} bytes, limit is {65535}") :=
  if_pos h

variable {s : Store} {user : User} {id : Int}

theorem transact_of_ok {α : Type} {step : StoreM α} {a : α} {s' : Store}
    (h : step.run s = .ok (a, s')) : Service.transact step s = (.ok a, s') := by
  rw [Service.transact, h]

theorem transact_of_error {α : Type} {step : StoreM α} {f : Failure}
    (h : step.run s = .error f) : Service.transact step s = (.error f, s) := by
  rw [Service.transact, h]

/-- The reports of a user with one of them replaced. -/
def replaceReport (r old : Report) : Report :=
  if old.owner == r.owner && old.id == r.id then { old with name := r.name, source := r.source }
  else old

theorem replaceReport_owner (r old : Report) : (replaceReport r old).owner = old.owner := by
  rw [replaceReport]
  split <;> rfl

theorem replaceReport_id (r old : Report) : (replaceReport r old).id = old.id := by
  rw [replaceReport]
  split <;> rfl

theorem replaceReport_of_owner_ne {r old : Report} (h : old.owner ≠ r.owner) :
    replaceReport r old = old := by
  rw [replaceReport, beq_eq_false_iff_ne.mpr h]
  rfl

theorem replaceReport_of_id_ne {r old : Report} (h : old.id ≠ r.id) :
    replaceReport r old = old := by
  rw [replaceReport, beq_eq_false_iff_ne.mpr h, Bool.and_false]
  rfl

/-- Whether a report is another one than that of a user with a number. -/
def isOther (user : User) (id : Int) (r : Report) : Bool := !(r.owner == user.id && r.id == id)

theorem run_insertReport {r : Report} (huser : s.hasUser r.owner = true) :
    (Store.insertReport r).run s = .ok (Store.nextId (s.reports.map (·.id)),
      s.withReports (s.reports ++ [r.entry.report (Store.nextId (s.reports.map (·.id)))])) := by
  have hcheck : (Store.checkReference (s.hasUser r.owner)).run s = pure ((), s) := by
    rw [huser]
    rfl
  rw [Store.insertReport, StateT.run_bind, StateT.run_get, pure_bind, StateT.run_bind, hcheck]
  rfl

theorem run_createReport {draft r : Report} (huser : s.hasUser user.id = true)
    (hvalid : draft.validate = .ok ())
    (hr : r = ⟨Store.nextId (s.reports.map (·.id)), user.id, draft.name, draft.source⟩) :
    (Service.createReport user draft).run s
      = .ok (r, s.withReports (s.reports ++ [r])) := by
  have hlift : (liftM draft.validate : StoreM Unit).run s = pure ((), s) := by
    rw [hvalid]
    rfl
  have hinsert := run_insertReport (r := { draft with owner := user.id }) huser
  rw [Service.createReport, StateT.run_bind, hlift, pure_bind, StateT.run_bind, hinsert, hr]
  rfl

theorem run_createReport_of_invalid {draft : Report} {f : Failure}
    (h : draft.validate = .error f) : (Service.createReport user draft).run s = .error f := by
  have hlift : (liftM draft.validate : StoreM Unit).run s = .error f := by
    rw [h]
    rfl
  rw [Service.createReport, StateT.run_bind, hlift]
  rfl

theorem run_report (s : Store) (user : User) (id : Int) :
    (Service.report user id).run s
      = match s.report? user.id id with
        | some r => .ok (r, s)
        | none => .error .notFound := by
  rw [Service.report, StateT.run_bind, StateT.run_get, pure_bind]
  cases s.report? user.id id <;> rfl

theorem run_updateReport (s : Store) (user : User) {r : Report} (hid : r.id = id)
    (hvalid : r.validate = .ok ()) :
    (Service.updateReport user id r).run s
      = match s.report? user.id id with
        | some _ => .ok ({ r with owner := user.id },
            s.withReports (s.reports.map (replaceReport { r with owner := user.id })))
        | none => .error .notFound := by
  have hlift : (liftM r.validate : StoreM Unit).run s = pure ((), s) := by
    rw [hvalid]
    rfl
  have hupdate : (Store.updateReport { r with owner := user.id }).run s
      = pure ((s.report? user.id r.id).isSome,
          s.withReports (s.reports.map (replaceReport { r with owner := user.id }))) := rfl
  rw [Service.updateReport, if_pos hid, StateT.run_bind, hlift, pure_bind, StateT.run_bind,
    hupdate, pure_bind, hid]
  cases s.report? user.id id <;> rfl

theorem run_updateReport_of_ne {r : Report} (hid : r.id ≠ id) :
    (Service.updateReport user id r).run s
      = .error (.validation s!"report id {r.id} in body does not match {id}") := by
  rw [Service.updateReport, if_neg hid]
  rfl

theorem run_updateReport_of_invalid {r : Report} {f : Failure} (hid : r.id = id)
    (h : r.validate = .error f) : (Service.updateReport user id r).run s = .error f := by
  have hlift : (liftM r.validate : StoreM Unit).run s = .error f := by
    rw [h]
    rfl
  rw [Service.updateReport, if_pos hid, StateT.run_bind, hlift]
  rfl

theorem run_deleteReport (s : Store) (user : User) (id : Int) :
    (Service.deleteReport user id).run s
      = match s.report? user.id id with
        | some _ => .ok ((), s.withReports (s.reports.filter (isOther user id)))
        | none => .error .notFound := by
  have hdelete : (Store.deleteReport user.id id).run s
      = pure ((s.report? user.id id).isSome,
          s.withReports (s.reports.filter (isOther user id))) := rfl
  rw [Service.deleteReport, StateT.run_bind, hdelete, pure_bind]
  cases s.report? user.id id <;> rfl

end Runs

/-! ## The service answers as a shelf -/

section Calls

variable {s : Store} {shelf shelf' : Shelf} {user : User} {id : Int}

open Service (transact)

/-- **One call is answered as a shelf answers it**: `Refines s shelf user call` says
that the answer is one of the shelf, that the store keeps the shelf as it is
afterwards, and that nothing else of the store has changed. -/
def Refines (s : Store) (shelf : Shelf) (user : User) (call : ReportCall) : Prop :=
  ∃ shelf' rows,
    shelf.Answers user call (transact (call.run user) s).1 shelf'
      ∧ (transact (call.run user) s).2 = s.withReports rows
      ∧ Store.Shelves (s.withReports rows) shelf'

/-- A call that succeeds. -/
theorem refines_of_ok {α : Type} {step : StoreM α} {f : α → ReportAnswer} {a : α}
    {call : ReportCall} {rows : List Report}
    (hcall : call.run user = step >>= fun a => pure (f a))
    (hrun : step.run s = .ok (a, s.withReports rows))
    (hanswer : shelf.Answers user call (.ok (f a)) shelf')
    (hrows : Store.Shelves (s.withReports rows) shelf') : Refines s shelf user call := by
  have h : transact (call.run user) s = (.ok (f a), s.withReports rows) := by
    rw [transact, hcall, StateT.run_bind, hrun]
    rfl
  refine ⟨shelf', rows, ?_, ?_, hrows⟩
  · rw [h]
    exact hanswer
  · rw [h]

/-- A call that fails. -/
theorem refines_of_error {α : Type} {step : StoreM α} {f : α → ReportAnswer} {e : Failure}
    {call : ReportCall} (hcall : call.run user = step >>= fun a => pure (f a))
    (hrun : step.run s = .error e) (hanswer : shelf.Answers user call (.error e) shelf)
    (h : s.Shelves shelf) : Refines s shelf user call := by
  have htransact : transact (call.run user) s = (.error e, s) := by
    rw [transact, hcall, StateT.run_bind, hrun]
    rfl
  refine ⟨shelf, s.reports, ?_, ?_, h⟩
  · rw [htransact]
    exact hanswer
  · rw [htransact]
    rfl

theorem refines_create (h : s.Shelves shelf) (huser : s.hasUser user.id = true) (draft : Report) :
    Refines s shelf user (.create draft) := by
  by_cases hshort : draft.source.utf8ByteSize < 65536
  · exact refines_of_ok rfl (run_createReport huser (Report.validate_of_short hshort) rfl)
      (.created rfl hshort h.nextId_free) (h.insert ⟨user.id, draft.name, draft.source⟩ rfl)
  · have hlong := Nat.not_lt.mp hshort
    exact refines_of_error rfl (run_createReport_of_invalid (Report.validate_of_long hlong))
      (.tooLong hlong) h

theorem refines_read (h : s.Shelves shelf) (id : Int) : Refines s shelf user (.read id) := by
  have hrun := run_report s user id
  cases hfound : s.report? user.id id with
  | none =>
    rw [hfound] at hrun
    exact refines_of_error rfl hrun (.notFound (.read id) (h.owner_ne hfound)) h
  | some r =>
    rw [hfound] at hrun
    obtain ⟨hshelf, rfl, howner⟩ := h.report?_eq_some hfound
    exact refines_of_ok rfl hrun (.shown hshelf howner) h

theorem refines_list (h : s.Shelves shelf) : Refines s shelf user .list := by
  have hrun : (Service.reports user).run s = .ok (s.reportsOf user.id, s) := rfl
  refine refines_of_ok rfl hrun (.listed (h.ascending.filter _) fun r => ?_) h
  rw [Store.reportsOf, List.mem_filter, h.mem_iff, beq_iff_eq]

/-- An entry of the user, found under a number, is replaced by name and
script of a report. -/
theorem refines_update_of_found {r : Report} {e : Shelf.Entry} (h : s.Shelves shelf)
    (hshelf : shelf id = some e) (howner : e.owner = user.id) (hid : r.id = id)
    (hshort : r.source.utf8ByteSize < 65536)
    (hrun : (Service.updateReport user id r).run s
      = .ok ({ r with owner := user.id },
          s.withReports (s.reports.map (replaceReport { r with owner := user.id })))) :
    Refines s shelf user (.update id r) := by
  obtain ⟨e', he'⟩ : ∃ e' : Shelf.Entry, e' = { e with name := r.name, source := r.source } :=
    ⟨_, rfl⟩
  have hanswer : { r with owner := user.id } = e'.report id := by
    rw [Shelf.Entry.report, he', howner, ← hid]
  have hself : replaceReport { r with owner := user.id } (e.report id) = e'.report id := by
    rw [he']
    refine if_pos ?_
    rw [Bool.and_eq_true, beq_iff_eq, beq_iff_eq]
    exact ⟨howner, hid.symm⟩
  refine refines_of_ok (f := .report) rfl hrun ?_ (h.replace hshelf hself fun q hq => ?_)
  · rw [hanswer]
    exact .updated hshelf howner hid hshort he'
  · refine if_neg fun hsame => hq ?_
    rw [Bool.and_eq_true, beq_iff_eq, beq_iff_eq] at hsame
    exact hsame.2.trans hid

theorem refines_update (h : s.Shelves shelf) (id : Int) (r : Report) :
    Refines s shelf user (.update id r) := by
  by_cases hid : r.id = id
  · by_cases hshort : r.source.utf8ByteSize < 65536
    · have hrun := run_updateReport s user hid (Report.validate_of_short hshort)
      cases hfound : s.report? user.id id with
      | none =>
        rw [hfound] at hrun
        exact refines_of_error rfl hrun (.notFound (.update hid hshort) (h.owner_ne hfound)) h
      | some old =>
        rw [hfound] at hrun
        obtain ⟨hshelf, -, howner⟩ := h.report?_eq_some hfound
        exact refines_update_of_found h hshelf howner hid hshort hrun
    · have hlong := Nat.not_lt.mp hshort
      exact refines_of_error rfl
        (run_updateReport_of_invalid hid (Report.validate_of_long hlong))
        (.updateTooLong hid hlong) h
  · exact refines_of_error rfl (run_updateReport_of_ne hid) (.mismatched hid) h

theorem refines_delete (h : s.Shelves shelf) (id : Int) : Refines s shelf user (.delete id) := by
  have hcall : (ReportCall.delete id).run user
      = Service.deleteReport user id >>= fun _ => pure ReportAnswer.done := rfl
  have hrun := run_deleteReport s user id
  cases hfound : s.report? user.id id with
  | none =>
    rw [hfound] at hrun
    exact refines_of_error hcall hrun (.notFound (.delete id) (h.owner_ne hfound)) h
  | some r =>
    rw [hfound] at hrun
    obtain ⟨hshelf, -, howner⟩ := h.report?_eq_some hfound
    refine refines_of_ok hcall hrun (.deleted hshelf howner) (h.remove fun q hq => ?_)
    rw [isOther, Bool.not_eq_true', Bool.and_eq_false_iff, beq_eq_false_iff_ne, beq_eq_false_iff_ne]
    -- a row with this number is the user's, so it cannot be spared for its owner
    refine ⟨fun hne hid => ?_, Or.inr⟩
    have hq := h.eq_report hshelf hq hid
    rcases hne with hne | hne
    · rw [hq] at hne
      exact hne howner
    · exact hne hid

/-- **A call is answered as a shelf answers it.** -/
theorem refines_call (h : s.Shelves shelf) (huser : s.hasUser user.id = true) (call : ReportCall) :
    Refines s shelf user call := by
  cases call with
  | create draft => exact refines_create h huser draft
  | read id => exact refines_read h id
  | list => exact refines_list h
  | update id r => exact refines_update h id r
  | delete id => exact refines_delete h id

/-- **The reports of all users are a map.** The service answers every
sequence of calls of users as a shelf does that had the same reports when
it began. It shows every user the user's own reports only, with what was
last written; a call about a report of somebody else or about none is
answered alike, and changes nothing; and the number and the owner of a
report never change. Of the rest of the store nothing changes. -/
theorem reports_refine_shelf (h : s.Shelves shelf) (calls : List (User × ReportCall))
    (husers : ∀ c ∈ calls, s.hasUser c.1.id = true) :
    ∃ shelf' rows,
      shelf.AnswersAll calls (Service.answerAll calls s).1 shelf'
        ∧ (Service.answerAll calls s).2 = s.withReports rows
        ∧ Store.Shelves (s.withReports rows) shelf' := by
  induction calls generalizing s shelf with
  | nil => exact ⟨shelf, s.reports, .nil shelf, rfl, h⟩
  | cons c calls ih =>
    obtain ⟨user, call⟩ := c
    obtain ⟨shelf₁, rows₁, hanswer, hstore, hrows₁⟩ :=
      refines_call h (husers _ List.mem_cons_self) call
    obtain ⟨shelf', rows, hanswers, hend, hrows⟩ :=
      ih hrows₁ fun c hc => husers c (List.mem_cons_of_mem _ hc)
    refine ⟨shelf', rows, ?_, ?_, hrows⟩
    · rw [← hstore] at hanswers
      exact .cons hanswer hanswers
    · rw [← hstore] at hend
      rw [Service.answerAll, hend, hstore]
      rfl

/-- A report that is somebody else's is not found, and a new one is the
user's whatever the draft says. -/
theorem reports_refine_shelf_two_users :
    let ann : User := ⟨1, "ann", 1⟩
    let bob : User := ⟨2, "bob", 1⟩
    let s : Store := { users := [ann, bob] }
    let calls : List (User × ReportCall) :=
      [(ann, .create ⟨7, 2, "net worth", "x"⟩), (bob, .read 1),
        (bob, .update 1 ⟨1, 2, "mine", "y"⟩), (ann, .update 1 ⟨1, 2, "worth", "z"⟩),
        (bob, .delete 1), (ann, .list)]
    (Service.answerAll calls s).1
        = [.ok (.report ⟨1, 1, "net worth", "x"⟩), .error .notFound, .error .notFound,
            .ok (.report ⟨1, 1, "worth", "z"⟩), .error .notFound,
            .ok (.reports [⟨1, 1, "worth", "z"⟩])]
      ∧ ∃ (shelf' : Shelf) (rows : List Report),
          Shelf.AnswersAll (fun _ => none) calls (Service.answerAll calls s).1 shelf'
            ∧ (Service.answerAll calls s).2 = s.withReports rows
            ∧ Store.Shelves (s.withReports rows) shelf' :=
  ⟨by decide, reports_refine_shelf (Store.shelves_of_reports_eq_nil rfl) _ (by decide)⟩

end Calls

end LedgerReports
