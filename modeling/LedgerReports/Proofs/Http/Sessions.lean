import LedgerReports.Proofs.Http.Tenants
import LedgerReports.Proofs.Service.Runs
import LedgerReports.Proofs.Store.Numbers

/-!
# Who a request acts for

A request shows a secret, and all that it does is done for the user of the
session with this secret. There are seven handlers, each with an order of its
own in which it reads the path, the body and the secret, so it takes some care
that none of them touches the store before it knows the user.

All handlers have one form (`Command.run_eq`): what is asked for is read from
the request alone (`Command.read`), then the user is looked up, and then one
call is made for this user. Written as a program of look-ups and calls
(`Handler`), a handler has a trace of the calls that it makes, and so it can be
said that none was made, or one, and for whom. A script only runs in a call.

`requests_act_for_session` has two parts. Without a session nothing is called,
and the answer is made of the request alone. With one, the call is made for
the user for whom the session was opened, whatever has been done since: a
secret is given out once, and a session is never taken back.
-/

namespace LedgerReports

open Connection (Pends)
open Service (transact)

/-! ## What a call does for a user -/

section Calls

variable {s : Store} {user : User} {α : Type}

/-- **A store is changed for a user only**: at most the reports of the user are others. -/
def Store.ChangedFor (s : Store) (user : User) (s' : Store) : Prop :=
  ∃ rows, s' = s.withReports rows ∧ s'.reportsOfOthers user.id = s.reportsOfOthers user.id

theorem changedFor_self (s : Store) (user : User) : s.ChangedFor user s := ⟨s.reports, rfl, rfl⟩

theorem RunsAlike.changedFor {step : StoreM α}
    (h : RunsAlike user s s (step.run s) (step.run s)) :
    s.ChangedFor user (transact step s).2 := by
  unfold transact
  generalize hresult : step.run s = result at h
  cases h with
  | failed f => exact changedFor_self s user
  | done a hown hothers hothers' => exact ⟨_, rfl, hothers⟩

/-- **A call changes the store for the user who makes it only.** -/
theorem changedFor_answer (service : Service) (s : Store) (user : User) (call : UserCall) :
    s.ChangedFor user (service.answer s (user, call)).2 := by
  have hsame : s.SameFor user s := ⟨rfl, rfl, rfl⟩
  cases call with
  | tabulate id =>
    rw [Service.answer, UserCall.run, transact_bind_pure, tabulate_leaves]
    exact changedFor_self s user
  | reports call =>
    rw [answer_reports]
    cases call with
    | create draft =>
      rw [ReportCall.run, transact_bind_pure]
      obtain ⟨f, hrun⟩ | ⟨new, hnew, hrun⟩ := createReport_cases s user draft
      · rw [transact_of_error hrun]
        exact changedFor_self s user
      · rw [transact_of_ok hrun]
        refine ⟨_, rfl, ?_⟩
        show (s.reports ++ [new]).filter _ = s.reports.filter _
        rw [List.filter_append, hnew, List.filter_singleton, bne_self_eq_false]
        exact List.append_nil _
    | read id => exact ((runsAlike_report hsame id).bind_pure _).changedFor
    | list => exact ((runsAlike_reports hsame).bind_pure ReportAnswer.reports).changedFor
    | update id replacement =>
      exact ((runsAlike_updateReport hsame id replacement).bind_pure _).changedFor
    | delete id => exact ((runsAlike_deleteReport hsame id).bind_pure _).changedFor

end Calls

/-! ## Sessions -/

section Sessions

variable {service : Service} {s s' : Store} {secret : String} {user u : User}

/-- **A session that is opened stands for the user who is given**: no other one has the secret. -/
theorem userForSession?_of_createSession
    (h : (Store.createSession user secret).run s = .ok ((), s')) :
    ∃ u, u.id = user.id ∧ s'.user? user.id = some u ∧ s'.userForSession? secret = some u := by
  rw [Store.createSession, run_get_bind] at h
  cases htaken : s.sessions.any (·.secret == secret) with
  | true =>
    simp only [htaken, if_true] at h
    cases h
  | false =>
    simp only [htaken, Bool.false_eq_true, if_false] at h
    obtain ⟨huser, h⟩ := run_checkReference_bind_ok h
    cases h
    have hfree : s.sessions.find? (·.secret == secret) = none :=
      List.find?_eq_none.mpr fun row hrow hsecret => by
        rw [List.any_eq_false] at htaken
        exact htaken row hrow hsecret
    obtain ⟨u, hu⟩ : ∃ u, s.users.find? (·.id == user.id) = some u :=
      Option.isSome_iff_exists.mp (List.find?_isSome.mpr (List.any_eq_true.mp huser))
    have hid := List.find?_some hu
    refine ⟨u, eq_of_beq hid, hu, ?_⟩
    rw [Store.userForSession?, List.find?_append, hfree, Option.none_or,
      List.find?_singleton, beq_self_eq_true]
    exact hu

/-- **A session stays what it is** when the tables are changed. -/
theorem userForSession?_apply (h : s.userForSession? secret = some u) (c : Change) :
    (s.apply c).userForSession? secret = some u := by
  cases c with
  | addUser row =>
    obtain ⟨session, hsession, hu⟩ := Option.bind_eq_some_iff.mp h
    exact Option.bind_eq_some_iff.mpr ⟨session, hsession,
      (List.prefix_append _ _).find?_eq_some hu⟩
  | addSession row =>
    obtain ⟨session, hsession, hu⟩ := Option.bind_eq_some_iff.mp h
    exact Option.bind_eq_some_iff.mpr ⟨session,
      (List.prefix_append _ _).find?_eq_some hsession, hu⟩
  | addSecurity | addAccount | addTransaction | addSplit | addPrice | addReport | replaceReport
  | removeReport => exact h

/-- **A session stays what it is**, whatever is done. -/
theorem userForSession?_of_reaches (h : s.userForSession? secret = some u)
    (hreaches : service.Reaches (fun _ => True) s s') : s'.userForSession? secret = some u := by
  have hrequest {α : Type} (q : LedgerReports.Request α) : Pends q.run fun t _ t' =>
      t.userForSession? secret = some u → t'.userForSession? secret = some u :=
    Request.pends_keeps fun _ _ c _ _ ht => userForSession?_apply ht c
  exact hreaches.keeps (fun _ _ ht => ht) hrequest h

end Sessions

namespace Http

/-! ## Handlers -/

/-- What a handler does: it may look up users, and make calls for them. -/
inductive Handler where
  /-- It is done. -/
  | done (result : Except Failure Response)
  /-- It looks up the user of a session, and is done if there is none. -/
  | findUser (secret : String) (next : User → Handler)
  /-- It makes a call for a user, and is done if that fails. -/
  | makeCall (user : User) (call : UserCall) (next : UserAnswer → Handler)

/-- What a handler does to the store. -/
def Handler.run (service : Service) : Handler → StoreM Response
  | done result => liftM result
  | findUser secret next => do (next (← Service.userForSession secret)).run service
  | makeCall user call next => do (next (← call.run service user)).run service

/-- The calls that a handler makes. -/
def Handler.calls (service : Service) : Handler → Store → List (User × UserCall)
  | done _, _ => []
  | findUser secret next, s =>
    match s.userForSession? secret with
    | some user => (next user).calls service s
    | none => []
  | makeCall user call next, s =>
    (user, call) ::
      match (call.run service user).run s with
      | .ok (answer, s') => (next answer).calls service s'
      | .error _ => []

/-- What a command asks for, read from the path and the body of the request. -/
def Command.read (r : Request) : Command → Except Failure UserCall
  | list => .ok (.reports .list)
  | create => do return .reports (.create (← readReport r))
  | «show» text => do return .reports (.read (← readId text))
  | update text => do
    let id ← readId text
    return .reports (.update id (← readReport r))
  | delete text => do return .reports (.delete (← readId text))
  | tabulate text => do return .tabulate (← readId text)

/-- The response to a call that is answered. -/
def present : UserCall → UserAnswer → Response
  | .reports (.create _), .reports (.report new) => .ofJson 201 new.toJson
  | _, .reports (.report old) => .ofJson 200 old.toJson
  | _, .reports (.reports all) => .ofJson 200 (Report.listToJson all)
  | _, .reports .done => { status := 204 }
  | _, .tabulation t => .ofJson 200 t.toJson

/-- The response to a call. -/
def respondTo (call : UserCall) : Except Failure UserAnswer → Response
  | .ok answer => present call answer
  | .error f => .ofFailure f

/-- The handler of a command. -/
def Command.handler (r : Request) (command : Command) : Handler :=
  match command.read r, r.secret? with
  | .error f, _ => .done (.error f)
  | .ok _, none => .done (.error .notSignedIn)
  | .ok call, some secret =>
    .findUser secret fun user => .makeCall user call fun answer => .done (.ok (present call answer))

section Handlers

variable {service : Service} {r : Request} {command : Command} {call : UserCall} {user : User}
  {s : Store} {f : Failure}

/-- What the operations of the service come to as responses. -/
theorem present_run (service : Service) (user : User) (call : UserCall) :
    (do return present call (← call.run service user) : StoreM Response)
      = match call with
        | .reports (.create draft) => do
          return .ofJson 201 (← Service.createReport user draft).toJson
        | .reports (.read id) => do return .ofJson 200 (← Service.report user id).toJson
        | .reports .list => do return .ofJson 200 (Report.listToJson (← Service.reports user))
        | .reports (.update id replacement) => do
          return .ofJson 200 (← Service.updateReport user id replacement).toJson
        | .reports (.delete id) => do
          Service.deleteReport user id
          return { status := 204 }
        | .tabulate id => do return .ofJson 200 (← service.tabulate user id).toJson := by
  cases call with
  | tabulate id => simp only [UserCall.run, bind_assoc, pure_bind, present]
  | reports call =>
    cases call <;> simp only [UserCall.run, ReportCall.run, bind_assoc, pure_bind, present]

/-- **All commands have one form**: what is asked for is read, and called for the user. -/
theorem Command.run_eq (service : Service) (r : Request) (command : Command) :
    command.run service r = (do
      let call ← liftM (command.read r)
      asUser r fun user => do return present call (← call.run service user)) := by
  simp only [present_run]
  cases command with
  | list => rfl
  | create =>
    rw [Command.run, Command.read]
    cases readReport r <;> rfl
  | «show» text | delete text | tabulate text =>
    rw [Command.run, Command.read]
    cases readId text <;> rfl
  | update text =>
    rw [Command.run, Command.read]
    cases readId text with
    | error f => rfl
    | ok id => cases readReport r <;> rfl

/-- **A command does what its handler does.** -/
theorem Command.run_eq_handler (service : Service) (r : Request) (command : Command) :
    command.run service r = (command.handler r).run service := by
  rw [Command.run_eq, Command.handler]
  cases command.read r with
  | error f => rfl
  | ok call =>
    show asUser r _ = _
    unfold asUser
    cases r.secret? <;> rfl

end Handlers

/-! ## What is read from a request -/

section Reading

variable {r : Request} {command : Command} {α β : Type}

/-- **Something is read that can be invalid**, and can fail in no other way. -/
def OnlyInvalid (x : Except Failure α) : Prop :=
  ∀ f, x = .error f → ∃ message, f = .validation message

theorem onlyInvalid_ok (a : α) : OnlyInvalid (.ok a) := nofun

theorem onlyInvalid_error (message : String) :
    OnlyInvalid (.error (.validation message) : Except Failure α) := by
  rintro f ⟨⟩
  exact ⟨message, rfl⟩

theorem OnlyInvalid.bind {x : Except Failure α} {next : α → Except Failure β} (h : OnlyInvalid x)
    (hnext : ∀ a, OnlyInvalid (next a)) : OnlyInvalid (x >>= next) := by
  cases x with
  | error f =>
    obtain ⟨message, rfl⟩ := h f rfl
    exact onlyInvalid_error message
  | ok a => exact hnext a

theorem onlyInvalid_readId (text : String) : OnlyInvalid (readId text) := by
  rw [readId]
  cases reportId? text with
  | none => exact onlyInvalid_error _
  | some id => exact onlyInvalid_ok id

theorem onlyInvalid_readReport (r : Request) : OnlyInvalid (readReport r) := by
  rw [readReport]
  split
  · exact onlyInvalid_error _
  split
  · exact onlyInvalid_error _
  split
  · exact onlyInvalid_ok _
  · exact onlyInvalid_error _

/-- **Path and body can be malformed, and that is all that can be wrong with them.** -/
theorem Command.onlyInvalid_read (r : Request) (command : Command) :
    OnlyInvalid (command.read r) := by
  cases command with
  | list => exact onlyInvalid_ok _
  | create => exact (onlyInvalid_readReport r).bind fun draft => onlyInvalid_ok _
  | «show» text | delete text | tabulate text =>
    exact (onlyInvalid_readId text).bind fun id => onlyInvalid_ok _
  | update text =>
    exact (onlyInvalid_readId text).bind fun id =>
      (onlyInvalid_readReport r).bind fun replacement => onlyInvalid_ok _

end Reading

/-! ## Requests -/

/-- The user whose secret a request shows. -/
def Request.user? (r : Request) (s : Store) : Option User := r.secret?.bind s.userForSession?

/-- The calls that are made for a request. -/
def Request.calls (r : Request) (service : Service) (s : Store) : List (User × UserCall) :=
  match r.command? with
  | some command => (command.handler r).calls service s
  | none => []

/-- **How a request is refused whose user is not known**: if it is malformed, that is said, and
otherwise that nobody is signed in. -/
inductive Request.IsTurnedAway (r : Request) (command : Command) : Failure → Prop where
  /-- The path or the body is malformed. -/
  | malformed {message : String} (h : command.read r = .error (.validation message)) :
      IsTurnedAway r command (.validation message)
  /-- The request is well formed. -/
  | notSignedIn {call : UserCall} (h : command.read r = .ok call) :
      IsTurnedAway r command .notSignedIn

section Requests

variable {service : Service} {r : Request} {command : Command} {call : UserCall} {user : User}
  {s : Store} {f : Failure}

/-- There is one way to be turned away. -/
theorem exists_isTurnedAway (r : Request) (command : Command) :
    ∃ f, r.IsTurnedAway command f := by
  cases h : command.read r with
  | ok call => exact ⟨_, .notSignedIn h⟩
  | error f =>
    obtain ⟨message, rfl⟩ := Command.onlyInvalid_read r command f h
    exact ⟨_, .malformed h⟩

/-- A request whose handler is done is answered without the store. -/
theorem respond_of_handler_done (hcommand : r.command? = some command)
    (h : command.handler r = .done (.error f)) (s : Store) :
    respond service r s = (finish r (.ofFailure f), s) ∧ r.calls service s = [] := by
  have hrun : (command.run service r).run s = .error f := by
    rw [Command.run_eq_handler, h]
    rfl
  rw [respond_of_command? hcommand, transact_of_error hrun, Request.calls, hcommand]
  simp only [h, true_and]
  rfl

/-- A request that is malformed is refused without the store. -/
theorem respond_of_malformed (hcommand : r.command? = some command)
    (h : command.read r = .error f) (s : Store) :
    respond service r s = (finish r (.ofFailure f), s) ∧ r.calls service s = [] :=
  respond_of_handler_done hcommand (by rw [Command.handler, h]) s

/-- Without a user, a request that is well formed makes no call. -/
theorem respond_of_no_user (hcommand : r.command? = some command)
    (h : command.read r = .ok call) (huser : r.user? s = none) :
    respond service r s = (finish r (.ofFailure .notSignedIn), s) ∧ r.calls service s = [] := by
  cases hsecret : r.secret? with
  | none =>
    refine respond_of_handler_done hcommand ?_ s
    rw [Command.handler, h, hsecret]
  | some secret =>
    have hmissing : s.userForSession? secret = none := by
      rw [Request.user?, hsecret] at huser
      exact huser
    have hrun : (command.run service r).run s = .error .notSignedIn := by
      rw [Command.run_eq_handler, Command.handler, h, hsecret, Handler.run, StateT.run_bind,
        Service.userForSession, run_get_bind, hmissing]
      rfl
    rw [respond_of_command? hcommand, transact_of_error hrun, Request.calls, hcommand]
    simp only [Command.handler, h, hsecret, Handler.calls, hmissing, true_and]

/-- **A request is turned away** if its user is not known: nothing is called, and the store does not
matter. -/
theorem respond_of_isTurnedAway (hcommand : r.command? = some command)
    (h : r.IsTurnedAway command f) (huser : r.user? s = none) :
    respond service r s = (finish r (.ofFailure f), s) ∧ r.calls service s = [] := by
  cases h with
  | malformed h => exact respond_of_malformed hcommand h s
  | notSignedIn h => exact respond_of_no_user hcommand h huser

/-- **A request is one call for its user.** -/
theorem respond_of_user (hcommand : r.command? = some command) (h : command.read r = .ok call)
    (huser : r.user? s = some user) :
    (respond service r s
        = (finish r (respondTo call (service.answer s (user, call)).1),
          (service.answer s (user, call)).2))
      ∧ r.calls service s = [(user, call)] := by
  obtain ⟨secret, hsecret, hfound⟩ := Option.bind_eq_some_iff.mp huser
  have hhandler : command.handler r = .findUser secret fun user => .makeCall user call fun answer =>
      .done (.ok (present call answer)) := by
    rw [Command.handler, h, hsecret]
  have hrun : (command.run service r).run s
      = (call.run service user >>= fun answer => pure (present call answer)).run s := by
    rw [Command.run_eq, h]
    exact run_asUser hsecret hfound _
  rw [respond_of_command? hcommand, Request.calls, hcommand]
  constructor
  · rw [transact, hrun, ← transact, transact_bind_pure, Service.answer]
    cases (transact (call.run service user) s).1 <;> rfl
  · simp only [hhandler, Handler.calls, hfound]
    cases (call.run service user).run s <;> rfl

/-- **A request acts for a user**, by the one call that it asks for: what comes of it is
what comes of the call for this user, and only reports of the user can be others afterwards. If it is
malformed, there is no call. -/
structure Request.ActsFor (r : Request) (command : Command) (user : User) (service : Service)
    (s : Store) : Prop where
  /-- A request that is malformed is refused. -/
  malformed : ∀ f, command.read r = .error f →
    respond service r s = (finish r (.ofFailure f), s) ∧ r.calls service s = []
  /-- A request that is well formed makes one call. -/
  called : ∀ call, command.read r = .ok call →
    respond service r s
        = (finish r (respondTo call (service.answer s (user, call)).1),
          (service.answer s (user, call)).2)
      ∧ r.calls service s = [(user, call)]
  /-- The reports of others are left alone, and so is all else. -/
  spares : s.ChangedFor user (respond service r s).2

/-- **A request acts for the user whose secret it shows.** -/
theorem actsFor_of_user (hcommand : r.command? = some command) (huser : r.user? s = some user) :
    r.ActsFor command user service s := by
  refine ⟨fun f h => respond_of_malformed hcommand h s,
    fun call h => respond_of_user hcommand h huser, ?_⟩
  cases h : command.read r with
  | error f =>
    rw [(respond_of_malformed hcommand h s).1]
    exact changedFor_self s user
  | ok call =>
    rw [(respond_of_user hcommand h huser).1]
    exact changedFor_answer service s user call

/-- **Requests act for the users of their sessions.** A request of which the
secret is not that of a session is turned away: nothing is called, so no script is run; the
store is what it was; and the answer is that the request is malformed or that nobody is signed
in, whichever store it is and whatever the service is. A session that was opened for a user is this
user's for good: after any run of operations, further sessions among them, a request with its
secret makes one call, and that for the user, or none if it is malformed. -/
theorem requests_act_for_session (hcommand : r.command? = some command) :
    (∃ f, r.IsTurnedAway command f ∧ ∀ (service : Service) (s : Store),
        (∀ secret, r.secret? = some secret → ∀ row ∈ s.sessions, row.secret ≠ secret) →
          respond service r s = (finish r (.ofFailure f), s) ∧ r.calls service s = [])
      ∧ ∀ (service : Service) (s s₁ s₂ : Store) (user : User) (secret : String),
          (Store.createSession user secret).run s = .ok ((), s₁) →
          service.Reaches (fun _ => True) s₁ s₂ → r.secret? = some secret →
            ∃ u, u.id = user.id ∧ s₁.user? user.id = some u ∧ r.ActsFor command u service s₂ := by
  constructor
  · obtain ⟨f, hf⟩ := exists_isTurnedAway r command
    refine ⟨f, hf, fun service s hsessions => respond_of_isTurnedAway hcommand hf ?_⟩
    refine Option.bind_eq_none_iff.mpr fun secret hsecret => ?_
    have hmissing : s.sessions.find? (·.secret == secret) = none :=
      List.find?_eq_none.mpr fun row hrow hrowsecret =>
        hsessions secret hsecret row hrow (eq_of_beq hrowsecret)
    rw [Store.userForSession?, hmissing]
    rfl
  · intro service s s₁ s₂ user secret hopened hreaches hsecret
    obtain ⟨u, hid, hu, hsession⟩ := userForSession?_of_createSession hopened
    refine ⟨u, hid, hu, actsFor_of_user hcommand ?_⟩
    rw [Request.user?, hsecret]
    exact userForSession?_of_reaches hsession hreaches

theorem command?_delete_one {r : Request} (hmethod : r.method = "DELETE")
    (htarget : r.target = "/v1/reports/1") : r.command? = some (.delete "1") := by
  rw [Request.command?, hmethod, htarget, ofPath?_one]
  rfl

theorem readId_one : readId "1" = .ok 1 := by decide +kernel

/-- Deleting a report with the secret `a`: it is not signed in at first, and acts for ann once her
session was opened, after bob's too. -/
theorem requests_act_for_session_of_ann :
    let ann : User := ⟨1, "ann", 1⟩
    let bob : User := ⟨2, "bob", 1⟩
    let s : Store := { users := [ann, bob], reports := [⟨1, 1, "net worth", "x"⟩] }
    let s₁ : Store := { s with sessions := [⟨"a", 1⟩] }
    let s₂ : Store := { s with sessions := [⟨"a", 1⟩, ⟨"b", 2⟩] }
    let r : Request :=
      { method := "DELETE", target := "/v1/reports/1"
        headers := [("authorization", "Bearer a".toUTF8)] }
    r.command? = some (.delete "1") ∧ (Command.delete "1").read r = .ok (.reports (.delete 1))
      ∧ respond {} r s = (finish r (.ofFailure .notSignedIn), s) ∧ r.calls {} s = []
      ∧ (Store.createSession ann "a").run s = .ok ((), s₁)
      ∧ Service.Reaches {} (fun _ => True) s₁ s₂
      ∧ r.calls {} s₂ = [(ann, .reports (.delete 1))] := by
  intro ann bob s s₁ s₂ r
  have hcommand : r.command? = some (.delete "1") := command?_delete_one rfl rfl
  have hread : (Command.delete "1").read r = .ok (.reports (.delete 1)) := by
    rw [Command.read, readId_one]
    rfl
  have hsecret : r.secret? = some "a" := by decide +kernel
  have hopened : (Store.createSession ann "a").run s = .ok ((), s₁) := rfl
  have hreaches : Service.Reaches {} (fun _ => True) s₁ s₂ :=
    Service.Reaches.start.ask (q := .createSession bob "b") trivial rfl
  obtain ⟨⟨f, hf, haway⟩, hacts⟩ := requests_act_for_session hcommand
  obtain ⟨u, -, hu, hann⟩ := hacts {} s s₁ s₂ ann "a" hopened hreaches hsecret
  obtain ⟨hresponse, hcalls⟩ := haway {} s (fun _ _ _ hrow => nomatch hrow)
  cases hu
  cases hf with
  | malformed h =>
    rw [hread] at h
    cases h
  | notSignedIn =>
    exact ⟨hcommand, hread, hresponse, hcalls, hopened, hreaches, (hann.called _ hread).2⟩

end Requests

end Http

end LedgerReports
