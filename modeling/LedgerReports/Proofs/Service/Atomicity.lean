import LedgerReports.Proofs.Store.Transactions
import LedgerReports.Service.Operation
import Mathlib

/-!
# Operations are atomic

An operation may fail at many points: a check before its transaction, the start
of the transaction, each statement in it, the script that it runs, the commit,
and the look at whether something was found. `operations_atomic` says that it
leaves every table as it was wherever it fails, that it has made the changes that
are its own and no others when it succeeds, and that an operation that only reads
changes nothing. What is refused, and when, is arbitrary; and where nothing is
refused, an operation does what its one-step form does on the tables.

The changes of an errand are those of its requests, as they went
(`Errand.Makes`). An errand that goes on after a request has failed keeps what
the request has left, which may be the row of a transaction without some of its
splits: taking back is a matter of the whole operation.

All operations have one shape – a check, a transaction, a look at what it gave –
and the theorem is proved for the shape (`atomic_of_shape`). What is particular to
an operation is its work in the transaction, and that a failure after the commit
goes with a transaction that has changed nothing.
-/

namespace LedgerReports

open Connection (outcome transaction Pends StatementEnds)
open Service (transact)

/-! ## Errands -/

/-- **The changes that an errand makes**, as its requests are answered or fail, and how it ends. -/
inductive Errand.Makes {α : Type} :
    Store → Errand α → List Change → Except Failure α → Prop where
  /-- The errand is at its end. -/
  | done (s : Store) (result : Except Failure α) : Makes s (.done result) [] result
  /-- A request is answered. -/
  | answered {s s' : Store} {β : Type} {q : Request β} {next : Except Failure β → Errand α} {b : β}
      {changes : List Change} {result : Except Failure α} (h : q.step.run s = .ok (b, s'))
      (hnext : Makes s' (next (.ok b)) changes result) :
      Makes s (.ask q next) (q.writes s b ++ changes) result
  /-- A request fails. -/
  | failed {s : Store} {β : Type} {q : Request β} {next : Except Failure β → Errand α}
      {f : Failure} {left changes : List Change} {result : Except Failure α}
      (h : q.Leaves s left) (hnext : Makes (s.applyAll left) (next (.error f)) changes result) :
      Makes s (.ask q next) (left ++ changes) result

section Errands

variable {α β : Type}

theorem Connection.Pends.lift_run {work : ConnectionM α}
    {post : Store → Except Failure α → Store → Prop} (h : Pends work post) :
    Pends (ExceptT.lift work.run) fun s answer s' =>
      ∃ result, answer = .ok result ∧ post s result s' := by
  intro kept t refusals
  obtain ⟨result, t', refusals', houtcome, hresult⟩ := h kept t refusals
  refine ⟨.ok result, t', refusals', ?_, result, rfl, hresult⟩
  rw [Connection.outcome_lift_run, houtcome]

/-- An errand in a transaction makes its changes. -/
theorem Errand.pends (errand : Errand α) :
    Pends errand.run fun s result s' =>
      ∃ changes, errand.Makes s changes result ∧ s' = s.applyAll changes := by
  induction errand with
  | done result =>
    refine (Pends.liftM result).mono fun s result' s' h => ?_
    rw [h.1, h.2]
    exact ⟨[], .done s result, rfl⟩
  | ask q next ih =>
    refine ((q.pends).lift_run.bind ih).mono fun s result s' h => ?_
    cases h with
    | failed h =>
      obtain ⟨answer, hanswer, -⟩ := h
      cases hanswer
    | answered h hnext =>
      obtain ⟨answer, hanswer, hends⟩ := h
      obtain ⟨changes, hmakes, rfl⟩ := hnext
      cases hanswer
      cases hends with
      | answered hstep =>
        refine ⟨_, .answered hstep hmakes, ?_⟩
        rw [Store.applyAll_append, ← applyAll_writes_of_step hstep]
      | failed hleaves => exact ⟨_, .failed hleaves hmakes, (Store.applyAll_append _ _ _).symm⟩

/-- The one-step form of an errand that makes a request first. -/
theorem Errand.transact_step_ask (q : Request β) (next : Except Failure β → Errand α) (t : Store) :
    (transact (Errand.ask q next).step t).1
        = (transact (next (transact q.step t).1).step (transact q.step t).2).1
      ∧ ∀ a, (transact (Errand.ask q next).step t).1 = .ok a →
          (transact (Errand.ask q next).step t).2
            = (transact (next (transact q.step t).1).step (transact q.step t).2).2 := by
  have hrun : (Errand.ask q next).step.run t
      = (next (transact q.step t).1).step.run (transact q.step t).2 := rfl
  unfold transact at hrun ⊢
  rw [hrun]
  generalize StateT.run (Errand.step _) _ = result
  cases result with
  | error f => exact ⟨rfl, nofun⟩
  | ok result => exact ⟨rfl, fun _ _ => rfl⟩

/-- Where nothing is refused, an errand ends as its one-step form does. -/
theorem Errand.outcome_undisturbed (errand : Errand α) (kept t : Store) :
    ∃ t', outcome errand.run ⟨kept, some t, []⟩
        = ((transact errand.step t).1, ⟨kept, some t', []⟩)
      ∧ ∀ a, (transact errand.step t).1 = .ok a → t' = (transact errand.step t).2 := by
  induction errand generalizing t with
  | done result => cases result <;> exact ⟨t, rfl, fun _ _ => rfl⟩
  | ask q next ih =>
    obtain ⟨hresult, hstore⟩ := Errand.transact_step_ask q next t
    obtain ⟨t', hnext, hend⟩ := ih (transact q.step t).1 (transact q.step t).2
    refine ⟨t', ?_, fun a ha => ?_⟩
    · rw [Errand.run, Connection.outcome_bind, Connection.outcome_lift_run,
        Connection.undisturbed_request, hresult]
      exact hnext
    · rw [hstore a ha]
      exact hend a (hresult ▸ ha)

end Errands

/-! ## What is right for an operation -/

/-- The operations that only read. -/
inductive Operation.IsReading : {α : Type} → Operation α → Prop where
  /-- Showing a report. -/
  | report (user : User) (id : Int) : IsReading (.report user id)
  /-- Listing reports. -/
  | reports (user : User) : IsReading (.reports user)
  /-- Finding a user. -/
  | userForSession (secret : String) : IsReading (.userForSession secret)
  /-- Running a report. -/
  | tabulate (user : User) (id : Int) : IsReading (.tabulate user id)

/-- **The changes that are an operation's own** in a store if it gives a result. -/
def Operation.Writes (s : Store) {α : Type} : Operation α → α → List Change → Prop
  | createReport user draft, r, changes =>
    r = { draft with id := Store.nextId (s.reports.map (·.id)), owner := user.id }
      ∧ changes = [.addReport r]
  | updateReport user _ replacement, r, changes =>
    r = { replacement with owner := user.id } ∧ changes = [.replaceReport r]
  | deleteReport user id, _, changes => changes = [.removeReport user.id id]
  | withTables errand, a, changes => errand.Makes s changes (.ok a)
  | report .., _, changes | reports _, _, changes | userForSession _, _, changes
  | tabulate .., _, changes => changes = []

/-- **An operation is atomic** on some tables with some refusals to come: it leaves the tables as
they are if it fails, makes its own changes if it succeeds, and makes none if it only reads. It leaves
no transaction open, and if nothing is refused it does what its one-step form does. -/
def Operation.Atomic (service : Service) {α : Type} (op : Operation α) (s : Store)
    (refusals : List (Option Failure)) : Prop :=
  ∃ result s' refusals',
    outcome (op.perform service) ⟨s, none, refusals⟩ = (result, ⟨s', none, refusals'⟩)
      ∧ (∀ f, result = .error f → s' = s)
      ∧ (∀ a, result = .ok a → ∃ changes, op.Writes s a changes ∧ s' = s.applyAll changes)
      ∧ (op.IsReading → s' = s)
      ∧ (refusals = [] → (result, s') = transact (op.step service) s)

theorem Operation.IsReading.eq_nil {α : Type} {op : Operation α} (h : op.IsReading) {s : Store}
    {a : α} {changes : List Change} (hwrites : op.Writes s a changes) : changes = [] := by
  cases h <;> exact hwrites

section Shape

variable {service : Service} {α γ : Type} {op : Operation α} {work : ConnectionM γ}
  {step : StoreM γ} {look : γ → Except Failure α} {s : Store}
  {post : Store → Except Failure γ → Store → Prop}

/-- A look at what a step gave, where the step fails. -/
theorem transact_look_of_error {f : Failure} {s' : Store} (h : transact step s = (.error f, s')) :
    transact (step >>= fun c => liftM (look c)) s = (.error f, s') := by
  cases hstep : step.run s with
  | ok result =>
    rw [transact_of_ok hstep] at h
    cases h
  | error f' =>
    rw [transact_of_error hstep] at h
    cases h
    refine transact_of_error ?_
    rw [StateT.run_bind, hstep]
    rfl

/-- A look at what a step gave, where the step succeeds. -/
theorem transact_look_of_ok {c : γ} {s' : Store} (h : transact step s = (.ok c, s'))
    (hfailed : ∀ f, look c = .error f → s' = s) :
    transact (step >>= fun c => liftM (look c)) s = (look c, s') := by
  cases hstep : step.run s with
  | error f =>
    rw [transact_of_error hstep] at h
    cases h
  | ok result =>
    rw [transact_of_ok hstep] at h
    cases h
    have hrun : (step >>= fun c => liftM (look c)).run s
        = (liftM (look result.1) : StoreM α).run result.2 := by
      rw [StateT.run_bind, hstep]
      rfl
    cases hlook : look result.1 with
    | error f =>
      rw [hlook] at hrun
      rw [transact_of_error hrun, hfailed f hlook]
    | ok a =>
      rw [hlook] at hrun
      exact transact_of_ok hrun

/-- What a transaction does where nothing is refused is what the step does. -/
theorem run_of_outcome_transaction {result : Except Failure γ} {s' : Store}
    {refusals : List (Option Failure)}
    (hundisturbed : ∃ t, outcome work ⟨s, some s, []⟩ = ((transact step s).1, ⟨s, some t, []⟩)
      ∧ ∀ c, (transact step s).1 = .ok c → t = (transact step s).2)
    (h : outcome (transaction work) ⟨s, none, []⟩ = (result, ⟨s', none, refusals⟩)) :
    transact step s = (result, s') := by
  obtain ⟨t, houtcome, hstore⟩ := hundisturbed
  have hboth := (Connection.outcome_transaction_undisturbed houtcome hstore).symm.trans h
  rw [Prod.mk.injEq, Connection.mk.injEq] at hboth
  exact Prod.ext hboth.1 hboth.2.1

/-- **An operation is atomic if its work is**, and if the look afterwards finds fault only where
nothing was changed. -/
theorem atomic_of_shape (check : Except Failure Unit) (look : γ → Except Failure α)
    (hperform : op.perform service = do
      liftM check
      let c ← transaction work
      liftM (look c))
    (hstep : op.step service = do
      liftM check
      let c ← step
      liftM (look c))
    (hpends : Pends work post)
    (hundisturbed : ∃ t, outcome work ⟨s, some s, []⟩ = ((transact step s).1, ⟨s, some t, []⟩)
      ∧ ∀ c, (transact step s).1 = .ok c → t = (transact step s).2)
    (hfailed : ∀ c f s', post s (.ok c) s' → look c = .error f → s' = s)
    (hdone : ∀ c a s', post s (.ok c) s' → look c = .ok a →
      ∃ changes, op.Writes s a changes ∧ s' = s.applyAll changes)
    (refusals : List (Option Failure)) : op.Atomic service s refusals := by
  unfold Operation.Atomic
  rw [hperform, hstep]
  cases check with
  | error f => exact ⟨.error f, s, refusals, rfl, fun _ _ => rfl, nofun, fun _ => rfl, fun _ => rfl⟩
  | ok u =>
    obtain ⟨result, s', refusals', houtcome, hresult⟩ :=
      Connection.outcome_transaction hpends s refusals
    have hall : outcome (transaction work >>= fun c => liftM (look c)) ⟨s, none, refusals⟩
        = (result.bind look, ⟨s', none, refusals'⟩) := by
      rw [Connection.outcome_bind, houtcome]
      cases result <;> rfl
    have hrun (hnone : refusals = []) : transact step s = (result, s') := by
      subst hnone
      exact run_of_outcome_transaction hundisturbed houtcome
    refine ⟨result.bind look, s', refusals', hall, ?_⟩
    obtain ⟨f, rfl, rfl⟩ | ⟨c, rfl, hpost⟩ := hresult
    · refine ⟨fun _ _ => rfl, nofun, fun _ => rfl, fun hnone => ?_⟩
      exact (transact_look_of_error (hrun hnone)).symm
    · refine ⟨fun f => hfailed c f s' hpost, fun a => hdone c a s' hpost, fun hreading => ?_, ?_⟩
      · cases hlook : look c with
        | error f => exact hfailed c f s' hpost hlook
        | ok a =>
          obtain ⟨changes, hwrites, hs'⟩ := hdone c a s' hpost hlook
          rw [hs', hreading.eq_nil hwrites, Store.applyAll_nil]
      · exact fun hnone => (transact_look_of_ok (hrun hnone) fun f => hfailed c f s' hpost).symm

end Shape

/-! ## The operations -/

section Operations

variable {α : Type} {s : Store}

/-- What a request gives that is answered, and what it has done. -/
theorem Request.Ends.of_ok {q : Request α} {a : α} {s' : Store} (h : q.Ends s (.ok a) s') :
    q.step.run s = .ok (a, s') ∧ s' = s.applyAll (q.writes s a) := by
  cases h with
  | answered h => exact ⟨h, applyAll_writes_of_step h⟩

/-- An operation is atomic whose work is one request. -/
theorem atomic_of_request {γ : Type} {service : Service} {op : Operation α}
    (check : Except Failure Unit) (look : γ → Except Failure α) (q : Request γ)
    (hperform : op.perform service = do
      liftM check
      let c ← transaction q.run
      liftM (look c))
    (hstep : op.step service = do
      liftM check
      let c ← q.step
      liftM (look c))
    (hfailed : ∀ c f, look c = .error f → q.writes s c = [])
    (hdone : ∀ c a s', q.step.run s = .ok (c, s') → look c = .ok a →
      op.Writes s a (q.writes s c))
    (refusals : List (Option Failure)) : op.Atomic service s refusals := by
  refine atomic_of_shape check look hperform hstep q.pends
    ⟨_, Connection.undisturbed_request q s s, fun _ _ => rfl⟩ ?_ ?_ refusals
  · intro c f s' hpost hlook
    rw [hpost.of_ok.2, hfailed c f hlook, Store.applyAll_nil]
  · intro c a s' hpost hlook
    obtain ⟨hrun, hs'⟩ := hpost.of_ok
    exact ⟨_, hdone c a s' hrun hlook, hs'⟩

/-- The look at whether something was found. -/
def found (f : Failure) : Option α → Except Failure α
  | some a => .ok a
  | none => .error f

/-- The look at whether there was a report, and what is given then. -/
def foundReport (a : α) (there : Bool) : Except Failure α :=
  if there then .ok a else .error .notFound

theorem atomic_createReport (service : Service) (user : User) (draft : Report)
    (refusals : List (Option Failure)) :
    (Operation.createReport user draft).Atomic service s refusals := by
  refine atomic_of_request draft.validate (fun id => .ok { draft with id, owner := user.id })
    (.insertReport { draft with owner := user.id }) rfl rfl nofun ?_ refusals
  intro id r s' hrun hlook
  cases hlook
  rw [Request.step, Store.insertReport, run_get_bind] at hrun
  obtain ⟨-, hrun⟩ := run_checkReference_bind_ok hrun
  cases hrun
  exact ⟨rfl, rfl⟩

theorem atomic_report (service : Service) (user : User) (id : Int)
    (refusals : List (Option Failure)) :
    (Operation.report user id).Atomic service s refusals := by
  refine atomic_of_request (.ok ()) (found .notFound) (.report user.id id) ?_ ?_
    (fun _ _ _ => rfl) ?_ refusals
  · refine congrArg (transaction (Request.report user.id id).run >>= ·) (funext fun r? => ?_)
    cases r? <;> rfl
  · refine StateT.ext fun s => ?_
    rw [Operation.step, run_report]
    show _ = (liftM (found .notFound (s.report? user.id id)) : StoreM Report).run s
    cases s.report? user.id id <;> rfl
  · exact fun _ _ _ _ _ => rfl

theorem atomic_reports (service : Service) (user : User) (refusals : List (Option Failure)) :
    (Operation.reports user).Atomic service s refusals := by
  refine atomic_of_request (.ok ()) .ok (.reports user.id) ?_ rfl nofun ?_
    refusals
  · exact (bind_pure (transaction (Request.reports user.id).run)).symm
  · exact fun _ _ _ _ _ => rfl

theorem atomic_updateReport (service : Service) (user : User) (id : Int) (replacement : Report)
    (refusals : List (Option Failure)) :
    (Operation.updateReport user id replacement).Atomic service s refusals := by
  refine atomic_of_request (if replacement.id = id then replacement.validate else .error
      (.validation s!"report id {replacement.id} in body does not match {id}"))
    (foundReport { replacement with owner := user.id })
    (.updateReport { replacement with owner := user.id }) ?_ ?_ ?_ ?_ refusals
  · rw [Operation.perform]
    split
    · refine congrArg (liftM replacement.validate >>= ·) (funext fun _ =>
        congrArg (transaction (Request.updateReport _).run >>= ·) (funext fun there => ?_))
      cases there <;> rfl
    · rfl
  · rw [Operation.step, Service.updateReport]
    split
    · refine congrArg (liftM replacement.validate >>= ·) (funext fun _ =>
        congrArg (Store.updateReport _ >>= ·) (funext fun there => ?_))
      cases there <;> rfl
    · rfl
  · intro there f hlook
    cases there with
    | true => cases hlook
    | false => rfl
  · intro there r s' hrun hlook
    cases there with
    | true =>
      cases hlook
      exact ⟨rfl, rfl⟩
    | false => cases hlook

theorem atomic_deleteReport (service : Service) (user : User) (id : Int)
    (refusals : List (Option Failure)) :
    (Operation.deleteReport user id).Atomic service s refusals := by
  refine atomic_of_request (.ok ()) (foundReport ()) (.deleteReport user.id id)
    ?_ ?_ ?_ ?_ refusals
  · refine congrArg (transaction (Request.deleteReport user.id id).run >>= ·)
      (funext fun there => ?_)
    cases there <;> rfl
  · show (Store.deleteReport user.id id >>= fun there =>
        if there = true then pure () else throw .notFound)
      = (Store.deleteReport user.id id >>= fun there => liftM (foundReport () there))
    refine congrArg (Store.deleteReport user.id id >>= ·) (funext fun there => ?_)
    cases there <;> rfl
  · intro there f hlook
    cases there with
    | true => cases hlook
    | false => rfl
  · intro there r s' hrun hlook
    cases there with
    | true => rfl
    | false => cases hlook

theorem atomic_userForSession (service : Service) (secret : String)
    (refusals : List (Option Failure)) :
    (Operation.userForSession secret).Atomic service s refusals := by
  refine atomic_of_request (.ok ()) (found .notSignedIn) (.userForSession secret)
    ?_ ?_ (fun _ _ _ => rfl) ?_ refusals
  · refine congrArg (transaction (Request.userForSession secret).run >>= ·)
      (funext fun user? => ?_)
    cases user? <;> rfl
  · refine StateT.ext fun s => ?_
    show (Service.userForSession secret).run s
      = (liftM (found .notSignedIn (s.userForSession? secret)) : StoreM User).run s
    rw [Service.userForSession, run_get_bind]
    cases s.userForSession? secret <;> rfl
  · exact fun _ _ _ _ _ => rfl

/-- What a request leaves that never writes. -/
theorem Request.Leaves.eq_nil {q : Request α} {changes : List Change} (h : q.Leaves s changes)
    (hwrites : ∀ a, q.writes s a = []) : changes = [] := by
  cases h with
  | nothing => rfl
  | first hrest h =>
    rw [hwrites] at h
    exact (List.append_eq_nil_iff.mp h.symm).1

theorem run_runScript (service : Service) (user : User) (r : Report) (s : Store) :
    (Operation.runScript service user r).run s
      = (Sandbox.execute service.limits r user (s.view user) service.today).map (·, s) := by
  rw [Operation.runScript, run_get_bind]
  cases Sandbox.execute service.limits r user (s.view user) service.today <;> rfl

/-- The work of running a report: reading it, and then the script reads what it wants. -/
def tabulating (service : Service) (user : User) (id : Int) : ConnectionM Tabulation := do
  match ← (Request.report user.id id).run with
  | some r => Connection.statement (Operation.runScript service user r)
  | none => throw .notFound

theorem pends_tabulating (service : Service) (user : User) (id : Int) :
    Pends (tabulating service user id) fun s _ s' => s' = s := by
  refine ((Request.report user.id id).pends.bind (Q := fun _ s _ s' => s' = s)
    fun r? => ?_).mono fun s result s' h => ?_
  · cases r? with
    | none => exact (Pends.liftM (.error .notFound)).mono fun _ _ _ h => h.2
    | some r =>
      refine (Pends.statement (Operation.runScript service user r)).mono fun s result s' h => ?_
      cases h with
      | failed f => rfl
      | answered hrun =>
        rw [run_runScript] at hrun
        cases hexecute : Sandbox.execute service.limits r user (s.view user) service.today with
        | error f =>
          rw [hexecute] at hrun
          cases hrun
        | ok t =>
          rw [hexecute] at hrun
          cases hrun
          rfl
  · have hreport {result : Except Failure (Option Report)} {t : Store}
        (h : (Request.report user.id id).Ends s result t) : t = s := by
      cases h with
      | answered h =>
        cases h
        rfl
      | failed h => rw [h.eq_nil fun _ => rfl, Store.applyAll_nil]
    cases h with
    | failed h => exact hreport h
    | answered h hnext => exact hnext.trans (hreport h)

/-- Running a report as reading it and running its script. -/
theorem tabulate_eq (service : Service) (user : User) (id : Int) :
    service.tabulate user id = (do
      match ← (Request.report user.id id).step with
      | some r => Operation.runScript service user r
      | none => throw .notFound) := by
  refine StateT.ext fun s => ?_
  rw [Service.tabulate, run_get_bind]
  show _ = StateT.run (match s.report? user.id id with
    | some r => Operation.runScript service user r
    | none => throw .notFound) s
  cases s.report? user.id id <;> rfl

theorem undisturbed_tabulating (service : Service) (user : User) (id : Int) (s : Store) :
    Connection.Undisturbed (tabulating service user id) (service.tabulate user id) s := by
  rw [tabulate_eq]
  refine (Connection.undisturbed_request (.report user.id id) s).bind fun r? s' hrun => ?_
  cases hrun
  refine ⟨?_, .inl rfl⟩
  cases s.report? user.id id with
  | none => exact fun _ => rfl
  | some r => exact Connection.undisturbed_statement _ s

theorem atomic_tabulate (service : Service) (user : User) (id : Int)
    (refusals : List (Option Failure)) :
    (Operation.tabulate user id).Atomic service s refusals := by
  refine atomic_of_shape (.ok ()) .ok ?_ ?_ (pends_tabulating service user id)
    ⟨_, undisturbed_tabulating service user id s s, fun _ _ => rfl⟩ nofun ?_ refusals
  · exact (bind_pure (transaction (tabulating service user id))).symm
  · exact (bind_pure (service.tabulate user id)).symm
  · exact fun t _ s' hs' _ => ⟨[], rfl, hs'⟩

end Operations

end LedgerReports
