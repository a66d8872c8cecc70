import LedgerReports.Proofs.Store.Reports
import Mathlib.Data.List.Induction
import Mathlib.Data.List.Nodup

/-!
# Numbers of deleted reports

A client that keeps the number of a report may come back after the report was
deleted. Then nothing should be found under the number, at that time and at
any later one.

The table gives a new report the number after the greatest one that it holds,
and so the number of a deleted report is given out a second time if the report
was the last one (`deleted_number_given_again`). What holds is that this is
the only way: `deleted_stays_missing_iff` says that under the number of a
deleted report nothing is ever found, by any user and with any call, exactly
in those runs in which no report is kept at a time when the number is the next
one. It is not the next one while there is a report with a greater number
(`nextReportId_ne_of_le`).

The argument carries through a run that the number is free (`Store.Free`). A
call keeps it free unless it takes it, and a call that names a free number is
refused.
-/

namespace LedgerReports

/-! ## Calls and runs -/

/-- What a user can ask the service for. -/
inductive UserCall where
  /-- A call about the reports that are kept. -/
  | reports (call : ReportCall)
  /-- Running a report. -/
  | tabulate (id : Int)

/-- What a call of a user can give. -/
inductive UserAnswer where
  /-- What a call about reports gives. -/
  | reports (answer : ReportAnswer)
  /-- A tabulation. -/
  | tabulation (t : Tabulation)

/-- What the service does about a call of a user. -/
def UserCall.run (service : Service) (user : User) : UserCall → StoreM UserAnswer
  | reports call => do return .reports (← call.run user)
  | tabulate id => do return .tabulation (← service.tabulate user id)

/-- The calls that name a report by its number. -/
inductive UserCall.Names : UserCall → Int → Prop where
  /-- A call for a report. -/
  | read (id : Int) : Names (.reports (.read id)) id
  /-- A call that replaces a report by whatever. -/
  | update (id : Int) (replacement : Report) : Names (.reports (.update id replacement)) id
  /-- A call that deletes a report. -/
  | delete (id : Int) : Names (.reports (.delete id)) id
  /-- A call that runs a report. -/
  | tabulate (id : Int) : Names (.tabulate id) id

/-- **A call is refused**: nothing is found, or what was sent along is no good. -/
inductive Refused {α : Type} : Except Failure α → Prop where
  /-- Nothing is found. -/
  | notFound : Refused (.error .notFound)
  /-- What was sent along is no good. -/
  | validation (message : String) : Refused (.error (.validation message))

namespace Service

/-- What becomes of a call of a user: the answer, and the store afterwards. -/
def answer (service : Service) (s : Store) (c : User × UserCall) :
    Except Failure UserAnswer × Store :=
  transact (c.2.run service c.1) s

/-- The store after some calls of users. -/
def after (service : Service) (calls : List (User × UserCall)) (s : Store) : Store :=
  calls.foldl (fun s c => (service.answer s c).2) s

theorem after_concat (service : Service) (calls : List (User × UserCall)) (c : User × UserCall)
    (s : Store) :
    service.after (calls ++ [c]) s = (service.answer (service.after calls s) c).2 := by
  rw [after, List.foldl_append]
  rfl

end Service

/-! ## Free numbers -/

/-- Whether no report has a number. -/
def Store.Free (s : Store) (id : Int) : Prop := ∀ r ∈ s.reports, r.id ≠ id

/-- The number that the next report gets. -/
def Store.nextReportId (s : Store) : Int := Store.nextId (s.reports.map (·.id))

section Steps

variable {s : Store} {user : User} {id : Int} {service : Service} {α β : Type}

theorem report?_eq_none_of_free (h : s.Free id) (owner : Int) : s.report? owner id = none := by
  refine List.find?_eq_none.mpr fun r hr => ?_
  rw [beq_eq_false_iff_ne.mpr (h r hr), Bool.and_false]
  exact Bool.false_ne_true

/-- Once a report is deleted, its number is free. -/
theorem free_of_deleted {s' : Store} (hkeys : (s.reports.map (·.id)).Nodup)
    (h : Service.transact (Service.deleteReport user id) s = (.ok (), s')) : s'.Free id := by
  rw [Service.transact, run_deleteReport] at h
  cases hfound : s.report? user.id id with
  | none =>
    rw [hfound] at h
    cases h
  | some old =>
    rw [hfound] at h
    cases h
    intro r hr hid
    obtain ⟨hmem, hother⟩ := List.mem_filter.mp hr
    have hold := List.mem_of_find?_eq_some hfound
    have hfits := List.find?_some hfound
    rw [Bool.and_eq_true, beq_iff_eq, beq_iff_eq] at hfits
    -- there is one row for a number, so the remaining one would be the deleted one
    have hsame : r = old := List.inj_on_of_nodup_map hkeys hmem hold (hid.trans hfits.2.symm)
    rw [isOther, hsame, hfits.1, hfits.2, beq_self_eq_true, beq_self_eq_true] at hother
    cases hother

/-- What is made of the result of a step is made after it. -/
theorem transact_bind_pure (step : StoreM α) (f : α → β) (s : Store) :
    Service.transact (step >>= fun a => pure (f a)) s
      = ((Service.transact step s).1.map f, (Service.transact step s).2) := by
  unfold Service.transact
  rw [StateT.run_bind]
  cases step.run s <;> rfl

theorem Refused.map {result : Except Failure α} (h : Refused result) (f : α → β) :
    Refused (result.map f) := by
  cases h with
  | notFound => exact .notFound
  | validation message => exact .validation message

/-- A step whose result is handed on, and what it does to the store. -/
theorem answer_reports (s : Store) (user : User) (call : ReportCall) :
    service.answer s (user, .reports call)
      = ((Service.transact (call.run user) s).1.map .reports,
          (Service.transact (call.run user) s).2) :=
  transact_bind_pure (call.run user) UserAnswer.reports s

/-- A replacement is refused, or there is a report of the user to be replaced. -/
theorem updateReport_cases (s : Store) (user : User) (id : Int) (r : Report) :
    (∃ f, (Service.updateReport user id r).run s = .error f
        ∧ Refused (.error f : Except Failure Report))
      ∨ ∃ old r', s.report? user.id id = some old
          ∧ (Service.updateReport user id r).run s = .ok (r',
              s.withReports (s.reports.map (replaceReport { r with owner := user.id }))) := by
  by_cases hid : r.id = id
  case neg => exact .inl ⟨_, run_updateReport_of_ne hid, .validation _⟩
  by_cases hshort : r.source.utf8ByteSize < 65536
  · have hrun := run_updateReport s user hid (Report.validate_of_short hshort)
    cases hfound : s.report? user.id id with
    | none =>
      rw [hfound] at hrun
      exact .inl ⟨_, hrun, .notFound⟩
    | some old =>
      rw [hfound] at hrun
      exact .inr ⟨old, _, rfl, hrun⟩
  · have hlong := Report.validate_of_long (Nat.not_lt.mp hshort)
    exact .inl ⟨_, run_updateReport_of_invalid hid hlong, .validation _⟩

/-- **A call that names a free number is refused**, whoever makes it. -/
theorem refused_of_free {call : UserCall} (hfree : s.Free id) (h : call.Names id) (user : User) :
    Refused (service.answer s (user, call)).1 := by
  have hmissing := report?_eq_none_of_free hfree user.id
  cases h with
  | read =>
    have hrun := run_report s user id
    rw [hmissing] at hrun
    rw [answer_reports, ReportCall.run, transact_bind_pure, transact_of_error hrun]
    exact .notFound
  | update id r =>
    obtain ⟨f, hrun, hrefused⟩ | ⟨old, -, hfound, -⟩ := updateReport_cases s user id r
    · rw [answer_reports, ReportCall.run, transact_bind_pure, transact_of_error hrun]
      exact (hrefused.map ReportAnswer.report).map UserAnswer.reports
    · rw [hmissing] at hfound
      cases hfound
  | delete =>
    have hrun := run_deleteReport s user id
    rw [hmissing] at hrun
    have hcall : (ReportCall.delete id).run user
        = Service.deleteReport user id >>= fun _ => pure ReportAnswer.done := rfl
    rw [answer_reports, hcall, transact_bind_pure, transact_of_error hrun]
    exact .notFound
  | tabulate =>
    have hrun : (service.tabulate user id).run s = .error .notFound := by
      rw [Service.tabulate, StateT.run_bind, StateT.run_get, pure_bind, hmissing]
      rfl
    rw [Service.answer, UserCall.run, transact_bind_pure, transact_of_error hrun]
    exact .notFound

/-- A new report is refused, or it is the last one of the table and has the next number. -/
theorem createReport_cases (s : Store) (user : User) (draft : Report) :
    (∃ f, (Service.createReport user draft).run s = .error f)
      ∨ ∃ r : Report, r = ⟨s.nextReportId, user.id, draft.name, draft.source⟩
          ∧ (Service.createReport user draft).run s
              = .ok (r, s.withReports (s.reports ++ [r])) := by
  cases hvalid : draft.validate with
  | error f => exact .inl ⟨f, run_createReport_of_invalid hvalid⟩
  | ok valid =>
    cases huser : s.hasUser user.id with
    | true => exact .inr ⟨_, rfl, run_createReport huser hvalid rfl⟩
    | false =>
      have hlift : (liftM draft.validate : StoreM Unit).run s = pure ((), s) := by
        rw [hvalid]
        rfl
      have hinsert : (Store.insertReport { draft with owner := user.id }).run s
          = .error Store.brokenReference := by
        rw [Store.insertReport, StateT.run_bind, StateT.run_get, pure_bind, huser]
        rfl
      refine .inl ⟨Store.brokenReference, ?_⟩
      rw [Service.createReport, StateT.run_bind, hlift, pure_bind, StateT.run_bind, hinsert]
      rfl

/-- Running a report leaves the store as it is. -/
theorem tabulate_leaves (service : Service) (user : User) (id : Int) (s : Store) :
    (Service.transact (service.tabulate user id) s).2 = s := by
  rw [Service.transact, Service.tabulate, StateT.run_bind, StateT.run_get, pure_bind]
  cases s.report? user.id id with
  | none => rfl
  | some r =>
    cases h : Sandbox.execute service.limits r user (s.view user) service.today with
    | error f =>
      simp only [h]
      rfl
    | ok t =>
      simp only [h]
      rfl

/-- **A call keeps a number free** unless it takes it for a new report. -/
theorem free_answer (hfree : s.Free id) (c : User × UserCall)
    (h : ∀ draft r, c.2 = .reports (.create draft) →
      (service.answer s c).1 = .ok (.reports (.report r)) → s.nextReportId ≠ id) :
    (service.answer s c).2.Free id := by
  obtain ⟨user, call⟩ := c
  cases call with
  | tabulate n =>
    rw [Service.answer, UserCall.run, transact_bind_pure, tabulate_leaves]
    exact hfree
  | reports call =>
    cases call with
    | create draft =>
      obtain ⟨f, hrun⟩ | ⟨new, hnew, hrun⟩ := createReport_cases s user draft
      · rw [answer_reports, ReportCall.run, transact_bind_pure, transact_of_error hrun]
        exact hfree
      · have hanswer : service.answer s (user, .reports (.create draft))
            = (.ok (.reports (.report new)), s.withReports (s.reports ++ [new])) := by
          rw [answer_reports, ReportCall.run, transact_bind_pure, transact_of_ok hrun]
          rfl
        have hid : new.id = s.nextReportId := by rw [hnew]
        rw [hanswer]
        intro q hq
        obtain hq | hq := List.mem_append.mp hq
        · exact hfree q hq
        · rw [List.mem_singleton.mp hq, hid]
          exact h draft new rfl (by rw [hanswer])
    | read n =>
      rw [answer_reports, ReportCall.run, transact_bind_pure, Service.transact, run_report]
      cases s.report? user.id n <;> exact hfree
    | list => exact hfree
    | update n r =>
      rw [answer_reports, ReportCall.run, transact_bind_pure]
      obtain ⟨f, hrun, -⟩ | ⟨old, r', -, hrun⟩ := updateReport_cases s user n r
      · rw [transact_of_error hrun]
        exact hfree
      · rw [transact_of_ok hrun]
        intro q hq
        obtain ⟨row, hrow, rfl⟩ := List.mem_map.mp hq
        rw [replaceReport_id]
        exact hfree row hrow
    | delete n =>
      have hcall : (ReportCall.delete n).run user
          = Service.deleteReport user n >>= fun _ => pure ReportAnswer.done := rfl
      rw [answer_reports, hcall, transact_bind_pure, Service.transact, run_deleteReport]
      cases s.report? user.id n with
      | none => exact hfree
      | some old => exact fun q hq => hfree q (List.mem_filter.mp hq).1

/-- A report that was kept just now is found, since no older one has its number. -/
theorem report?_of_created {draft r : Report}
    (h : r = ⟨s.nextReportId, user.id, draft.name, draft.source⟩) :
    (s.withReports (s.reports ++ [r])).report? user.id r.id = some r := by
  have hfree : s.Free r.id := by
    intro row hrow
    rw [h]
    exact Int.ne_of_lt (Store.lt_nextId hrow)
  have hnone : s.reports.find? (fun row => row.owner == user.id && row.id == r.id) = none :=
    report?_eq_none_of_free hfree user.id
  have howner : r.owner = user.id := by rw [h]
  show (s.reports ++ [r]).find? _ = some r
  rw [List.find?_append, hnone, Option.none_or, List.find?_singleton, howner, beq_self_eq_true,
    beq_self_eq_true]
  rfl

/-- A report that was kept just now is shown to its owner. -/
theorem shown_of_created {draft r : Report}
    (h : (service.answer s (user, .reports (.create draft))).1 = .ok (.reports (.report r))) :
    ∃ r', (service.answer (service.answer s (user, .reports (.create draft))).2
      (user, .reports (.read s.nextReportId))).1 = .ok (.reports (.report r')) := by
  obtain ⟨f, hrun⟩ | ⟨new, hnew, hrun⟩ := createReport_cases s user draft
  · rw [answer_reports, ReportCall.run, transact_bind_pure, transact_of_error hrun] at h
    cases h
  · have hid : new.id = s.nextReportId := by rw [hnew]
    have hread := run_report (s.withReports (s.reports ++ [new])) user new.id
    rw [report?_of_created hnew, hid] at hread
    refine ⟨new, ?_⟩
    rw [answer_reports s, ReportCall.run, transact_bind_pure, transact_of_ok hrun, answer_reports,
      ReportCall.run, transact_bind_pure, transact_of_ok hread]
    rfl

end Steps

/-! ## The next number is what matters -/

section Runs

variable {s s' : Store} {user : User} {id : Int}

/-- A number is not the next one while there is a report with it or with a greater one. -/
theorem nextReportId_ne_of_le {r : Report} (h : r ∈ s.reports) (hid : id ≤ r.id) :
    s.nextReportId ≠ id :=
  Int.ne_of_gt (Int.lt_of_le_of_lt hid (Store.lt_nextId h))

/-- A free number stays free along a run in which no report takes it. -/
theorem free_after (service : Service) (hfree : s.Free id) (calls : List (User × UserCall))
    (h : ∀ before user draft r, before ++ [(user, .reports (.create draft))] <+: calls →
      (service.answer (service.after before s) (user, .reports (.create draft))).1
          = .ok (.reports (.report r)) →
        (service.after before s).nextReportId ≠ id) :
    (service.after calls s).Free id := by
  induction calls using List.reverseRecOn with
  | nil => exact hfree
  | append_singleton calls c ih =>
    rw [Service.after_concat]
    refine free_answer (ih fun before user draft r hbefore => ?_) c fun draft r hc => ?_
    · exact h before user draft r (hbefore.trans (List.prefix_append _ _))
    · obtain ⟨user, call⟩ := c
      cases hc
      exact h calls user draft r (List.prefix_refl _)

/-- **When the number of a deleted report stays without one.** After a report
was deleted, users make calls. At all times every call of any user that names
the number is refused if, and only if, no report is kept at a time when the
number is the next one, which is when the greatest number in the table is the
one before it. -/
theorem deleted_stays_missing_iff (service : Service) (hkeys : (s.reports.map (·.id)).Nodup)
    (hdelete : Service.transact (Service.deleteReport user id) s = (.ok (), s'))
    (calls : List (User × UserCall)) :
    (∀ before, before <+: calls → ∀ asker call, call.Names id →
        Refused (service.answer (service.after before s') (asker, call)).1)
      ↔ ∀ before author draft r, before ++ [(author, .reports (.create draft))] <+: calls →
          (service.answer (service.after before s') (author, .reports (.create draft))).1
              = .ok (.reports (.report r)) →
            (service.after before s').nextReportId ≠ id := by
  constructor
  · intro h before author draft r hbefore hcreated hnext
    obtain ⟨r', hshown⟩ := shown_of_created hcreated
    have hrefused := h _ hbefore author _ (.read id)
    rw [Service.after_concat, ← hnext, hshown] at hrefused
    cases hrefused
  · intro h before hbefore asker call hnames
    refine refused_of_free (free_after service (free_of_deleted hkeys hdelete) before ?_) hnames
      asker
    exact fun before' author draft r hearlier => h before' author draft r (hearlier.trans hbefore)

/-- The number of a report that was not the last one stays without a report while
the last one is there. -/
theorem deleted_stays_missing_iff_last_kept :
    let ann : User := ⟨1, "ann", 1⟩
    let bob : User := ⟨2, "bob", 1⟩
    let s : Store := { users := [ann, bob], reports := [⟨1, 1, "a", "x"⟩, ⟨2, 2, "b", "y"⟩] }
    let s' : Store := s.withReports [⟨2, 2, "b", "y"⟩]
    let calls : List (User × UserCall) := [(bob, .reports (.create ⟨0, 0, "c", "z"⟩))]
    (s.reports.map (·.id)).Nodup
      ∧ Service.transact (Service.deleteReport ann 1) s = (.ok (), s')
      ∧ ∀ before, before <+: calls → ∀ asker call, call.Names 1 →
          Refused (Service.answer {} (Service.after {} before s') (asker, call)).1 := by
  intro ann bob s s' calls
  have hkeys : (s.reports.map (·.id)).Nodup := by decide
  have hdelete : Service.transact (Service.deleteReport ann 1) s = (.ok (), s') := rfl
  refine ⟨hkeys, hdelete, (deleted_stays_missing_iff {} hkeys hdelete calls).mpr ?_⟩
  intro before author draft r hbefore _
  have hlength := hbefore.length_le
  rw [List.length_append] at hlength
  have hnil : before = [] :=
    List.eq_nil_of_length_eq_zero (Nat.le_zero.mp (Nat.le_of_succ_le_succ hlength))
  rw [hnil]
  exact nextReportId_ne_of_le (r := ⟨2, 2, "b", "y"⟩) List.mem_cons_self (by decide)

/-- **The number of a deleted report is given again**: ann deletes her only
report, and bob's new one is found under its number. -/
theorem deleted_number_given_again :
    let ann : User := ⟨1, "ann", 1⟩
    let bob : User := ⟨2, "bob", 1⟩
    let s : Store := { users := [ann, bob], reports := [⟨1, 1, "a", "x"⟩] }
    let s' : Store := s.withReports []
    let calls : List (User × UserCall) := [(bob, .reports (.create ⟨0, 0, "b", "y"⟩))]
    Service.transact (Service.deleteReport ann 1) s = (.ok (), s')
      ∧ (Service.answer {} (Service.after {} calls s') (bob, .reports (.read 1))).1
          = .ok (.reports (.report ⟨1, 2, "b", "y"⟩))
      ∧ ¬ ∀ asker call, call.Names 1 →
          Refused (Service.answer {} (Service.after {} calls s') (asker, call)).1 := by
  intro ann bob s s' calls
  have hshown : (Service.answer {} (Service.after {} calls s') (bob, .reports (.read 1))).1
      = .ok (.reports (.report ⟨1, 2, "b", "y"⟩)) := rfl
  refine ⟨rfl, hshown, fun h => ?_⟩
  have hrefused := h bob _ (.read 1)
  rw [hshown] at hrefused
  cases hrefused

end Runs

end LedgerReports
