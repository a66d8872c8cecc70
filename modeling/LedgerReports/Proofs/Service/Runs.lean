import LedgerReports.Proofs.Service.Atomicity

/-!
# Runs of operations

A service is used by one operation after the other. `Service.Reaches` says which
tables can be kept in the end. It goes through every run, and through all that the
database may refuse on the way, so through all the ways in which operations fail.
Which operations a run is made of can be restricted; for an errand, that is a
matter of the requests that it makes (`Errand.OnlyAsks`).

What holds of the tables all through a run is shown for single steps. Every
operation but an errand changes the reports only, and an errand is a sequence of
requests, each of which can fail and leave a part of its rows. So it is enough to
look at other reports, and at one request (`Service.Reaches.keeps`). A request
keeps what each of its changes keeps (`Request.pends_keeps`), unless the reason
lies in what it has checked before.
-/

namespace LedgerReports

open Connection (outcome transaction Pends)
open Service (transact)

/-- **An operation leads from some tables to others**, with something refused on the way or not. -/
def Operation.Leads {α : Type} (service : Service) (op : Operation α) (s s' : Store) : Prop :=
  ∃ refusals result refusals',
    outcome (op.perform service) ⟨s, none, refusals⟩ = (result, ⟨s', none, refusals'⟩)

/-- **The tables that operations of a kind lead to**, performed one after the other. -/
inductive Service.Reaches (service : Service) (Allowed : {α : Type} → Operation α → Prop)
    (s : Store) : Store → Prop where
  /-- Nothing is performed. -/
  | start : Reaches service @Allowed s s
  /-- One more operation is performed. -/
  | perform {t t' : Store} {α : Type} {op : Operation α} (h : Reaches service @Allowed s t)
      (hop : Allowed op) (hleads : op.Leads service t t') : Reaches service @Allowed s t'

/-- **An errand only makes requests of a kind**, however they end. -/
def Errand.OnlyAsks (Allowed : {β : Type} → Request β → Prop) {α : Type} : Errand α → Prop
  | done _ => True
  | ask q next => Allowed q ∧ ∀ answer, (next answer).OnlyAsks Allowed

section Steps

variable {service : Service} {α : Type} {s s' t : Store} {Inv : Store → Prop}

/-- An operation that is atomic leads to the same tables, or to those with its changes. -/
theorem Operation.Leads.cases {op : Operation α} (h : op.Leads service s s')
    (hatomic : ∀ refusals, op.Atomic service s refusals) :
    s' = s ∨ ∃ a changes, op.Writes s a changes ∧ s' = s.applyAll changes := by
  obtain ⟨refusals, result, refusals', hrun⟩ := h
  obtain ⟨result₁, s₁, refusals₁, hrun₁, hfailed, hdone, -, -⟩ := hatomic refusals
  rw [hrun] at hrun₁
  cases hrun₁
  cases result with
  | error f => exact .inl (hfailed f rfl)
  | ok a => exact .inr ⟨a, hdone a rfl⟩

/-! ## Requests and errands -/

theorem Store.applyAll_keeps {changes : List Change}
    (h : ∀ c ∈ changes, ∀ t, Inv t → Inv (t.apply c)) (hs : Inv s) : Inv (s.applyAll changes) := by
  induction changes generalizing s with
  | nil => exact hs
  | cons c changes ih =>
    obtain ⟨hc, hchanges⟩ := List.forall_mem_cons.mp h
    exact ih hchanges (hc s hs)

/-- **A request keeps what each of its changes keeps**, if it fails after some of them, too. -/
theorem Request.pends_keeps {q : Request α}
    (h : ∀ s a c, c ∈ q.writes s a → ∀ t, Inv t → Inv (t.apply c)) :
    Pends q.run fun s _ s' => Inv s → Inv s' := by
  refine q.pends.mono fun s result s' hends hs => ?_
  cases hends with
  | answered hstep =>
    rw [applyAll_writes_of_step hstep]
    exact Store.applyAll_keeps (h s _) hs
  | failed hleaves =>
    cases hleaves with
    | nothing => exact hs
    | @first a _ _ _ hwrites =>
      refine Store.applyAll_keeps (fun c hc => h s a c ?_) hs
      rw [hwrites]
      exact List.mem_append_left _ hc

/-- **An errand keeps what its requests keep.** -/
theorem Errand.pends_keeps {Allowed : {β : Type} → Request β → Prop} {errand : Errand α}
    (h : errand.OnlyAsks Allowed)
    (hrequest : ∀ {β : Type} (q : Request β), Allowed q → Pends q.run fun s _ s' => Inv s → Inv s') :
    Pends errand.run fun s _ s' => Inv s → Inv s' := by
  induction errand with
  | done result =>
    refine (Pends.liftM result).mono fun s result' s' h hs => ?_
    rw [h.2]
    exact hs
  | ask q next ih =>
    refine ((hrequest q h.1).lift_run.bind fun answer => ih answer (h.2 answer)).mono
      fun s result s' hends hs => ?_
    cases hends with
    | failed hends =>
      obtain ⟨answer, hanswer, -⟩ := hends
      cases hanswer
    | answered hends hnext =>
      obtain ⟨answer, -, hkeeps⟩ := hends
      exact hnext (hkeeps hs)

theorem Errand.onlyAsks_true (errand : Errand α) : errand.OnlyAsks fun _ => True := by
  induction errand with
  | done result => trivial
  | ask q next ih => exact ⟨trivial, ih⟩

/-- An errand is rolled back, or its changes are kept. -/
theorem Errand.keeps_of_leads {errand : Errand α}
    (hpends : Pends errand.run fun s _ s' => Inv s → Inv s')
    (h : (Operation.withTables errand).Leads service s s') (hs : Inv s) : Inv s' := by
  obtain ⟨refusals, result, refusals', hrun⟩ := h
  obtain ⟨result₁, s₁, refusals₁, hrun₁, hends⟩ := Connection.outcome_transaction hpends s refusals
  rw [Operation.perform, hrun₁] at hrun
  cases hrun
  obtain ⟨f, -, rfl⟩ | ⟨a, -, hkeeps⟩ := hends
  · exact hs
  · exact hkeeps hs

/-- An errand of one request does what the request does. -/
theorem Errand.transact_step_ask_done (q : Request α) (s : Store) :
    transact (Errand.ask q .done).step s = transact q.step s := by
  have hrun : (Errand.ask q .done).step.run s
      = (Errand.done (transact q.step s).1).step.run (transact q.step s).2 := rfl
  rw [transact, hrun]
  cases hstep : q.step.run s with
  | error f =>
    rw [transact_of_error hstep]
    rfl
  | ok result =>
    rw [transact_of_ok hstep]
    rfl

/-- Where nothing is refused, a request leads to what it makes of the tables. -/
theorem Request.leads (service : Service) (q : Request α) (s : Store) :
    (Operation.withTables (.ask q .done)).Leads service s (transact q.step s).2 := by
  obtain ⟨s', hrun, hend⟩ := Errand.outcome_undisturbed (.ask q .done) s s
  refine ⟨[], (transact q.step s).1, [], ?_⟩
  rw [Operation.perform, Connection.outcome_transaction_undisturbed hrun hend,
    Errand.transact_step_ask_done]

/-! ## Operations -/

/-- **An operation keeps what does not depend on the reports and what single requests keep.** -/
theorem Operation.Leads.keeps {op : Operation α} (h : op.Leads service s s')
    (hreports : ∀ t rows, Inv t → Inv (t.withReports rows))
    (hrequest : ∀ {β : Type} (q : Request β), Pends q.run fun s _ s' => Inv s → Inv s')
    (hs : Inv s) : Inv s' := by
  -- an operation that is no errand changes the reports, or nothing
  have hother (hatomic : ∀ refusals, op.Atomic service s refusals)
      (hchanges : ∀ a changes, op.Writes s a changes →
        ∃ rows, s.applyAll changes = s.withReports rows) : Inv s' := by
    obtain rfl | ⟨a, changes, hwrites, rfl⟩ := h.cases hatomic
    · exact hs
    · obtain ⟨rows, hrows⟩ := hchanges a changes hwrites
      rw [hrows]
      exact hreports s rows hs
  cases op with
  | createReport user draft =>
    refine hother (atomic_createReport service user draft) fun a changes hwrites => ?_
    rw [hwrites.2]
    exact ⟨_, rfl⟩
  | report user id =>
    refine hother (atomic_report service user id) fun a changes hwrites => ?_
    rw [(IsReading.report user id).eq_nil hwrites]
    exact ⟨s.reports, rfl⟩
  | reports user =>
    refine hother (atomic_reports service user) fun a changes hwrites => ?_
    rw [(IsReading.reports user).eq_nil hwrites]
    exact ⟨s.reports, rfl⟩
  | updateReport user id replacement =>
    refine hother (atomic_updateReport service user id replacement) fun a changes hwrites => ?_
    rw [hwrites.2]
    exact ⟨_, rfl⟩
  | deleteReport user id =>
    refine hother (atomic_deleteReport service user id) fun a changes hwrites => ?_
    have hchanges : changes = [.removeReport user.id id] := hwrites
    rw [hchanges]
    exact ⟨_, rfl⟩
  | userForSession secret =>
    refine hother (atomic_userForSession service secret) fun a changes hwrites => ?_
    rw [(IsReading.userForSession secret).eq_nil hwrites]
    exact ⟨s.reports, rfl⟩
  | tabulate user id =>
    refine hother (atomic_tabulate service user id) fun a changes hwrites => ?_
    rw [(IsReading.tabulate user id).eq_nil hwrites]
    exact ⟨s.reports, rfl⟩
  | withTables errand =>
    exact Errand.keeps_of_leads
      (Errand.pends_keeps errand.onlyAsks_true fun q _ => hrequest q) h hs

/-- **A run keeps what does not depend on the reports and what single requests keep.** -/
theorem Service.Reaches.keeps {Allowed : {α : Type} → Operation α → Prop}
    (h : service.Reaches @Allowed s t) (hreports : ∀ t rows, Inv t → Inv (t.withReports rows))
    (hrequest : ∀ {β : Type} (q : Request β), Pends q.run fun s _ s' => Inv s → Inv s')
    (hs : Inv s) : Inv t := by
  induction h with
  | start => exact hs
  | perform _ _ hleads ih => exact hleads.keeps hreports hrequest ih

/-- A run can go on with a request that is answered. -/
theorem Service.Reaches.ask {Allowed : {α : Type} → Operation α → Prop} {q : Request α} {a : α}
    (h : service.Reaches @Allowed s t) (hop : Allowed (.withTables (.ask q .done)))
    (hstep : q.step.run t = .ok (a, s')) : service.Reaches @Allowed s s' := by
  have hleads := q.leads service t
  rw [transact_of_ok hstep] at hleads
  exact h.perform hop hleads

end Steps

end LedgerReports
