import LedgerReports.Http.Router
import LedgerReports.Proofs.Store.Reports

/-!
# What a user learns about the reports of others

All reports are in one table, and their numbers are given out one after the
other, so a user can guess the number of a report of somebody else and put it
into a request. What comes back must not tell whether there is such a report.

The statement is about two runs. Two stores are the same for a user
(`Store.SameFor`) if they hold the same users, the same sessions and the same
reports of this user; all else may differ. `foreign_reports_indistinguishable`
says that every request of this user about existing reports is answered alike
over both, whatever stands in its path and its body, that the stores are the
same for the user afterwards, and that it has left the reports of others alone
in both. So what is checked before the row is looked for does not depend on the
rows, and what is checked afterwards depends on the user's rows only.

Keeping a new report is not such a request: its number shows how many there
are. Nor is running a report, which reads the ledger.
-/

namespace LedgerReports

/-! ## Stores that are the same for a user -/

namespace Store

/-- The reports of all but one owner. -/
def reportsOfOthers (s : Store) (owner : Int) : List Report := s.reports.filter (·.owner != owner)

/-- **Two stores are the same for a user**, as far as the user's reports go. -/
structure SameFor (user : User) (s t : Store) : Prop where
  /-- The users. -/
  users : s.users = t.users
  /-- The sessions. -/
  sessions : s.sessions = t.sessions
  /-- The reports of the user. -/
  reports : s.reportsOf user.id = t.reportsOf user.id

section Rows

variable {s t : Store} {user : User}

theorem report?_eq_find?_reportsOf (s : Store) (owner id : Int) :
    s.report? owner id = (s.reportsOf owner).find? (·.id == id) := by
  rw [report?, reportsOf, List.find?_filter]
  refine congrArg (List.find? · s.reports) (funext fun r => ?_)
  rw [Bool.decide_and, Bool.decide_eq_true, Bool.decide_eq_true]

theorem SameFor.report?_eq (h : SameFor user s t) (id : Int) :
    s.report? user.id id = t.report? user.id id := by
  rw [report?_eq_find?_reportsOf, report?_eq_find?_reportsOf, h.reports]

theorem SameFor.userForSession?_eq (h : SameFor user s t) (secret : String) :
    s.userForSession? secret = t.userForSession? secret := by
  rw [userForSession?, userForSession?, h.sessions]
  unfold user?
  rw [h.users]

/-- Without the reports of a number that is not the user's, a store is the same
for the user. -/
theorem SameFor.of_missing {id : Int} (h : s.report? user.id id = none) :
    SameFor user s (s.withReports (s.reports.filter (·.id != id))) := by
  refine ⟨rfl, rfl, ?_⟩
  show s.reports.filter _ = (s.reports.filter _).filter _
  rw [List.filter_filter]
  refine List.filter_congr fun r hr => ?_
  have hother := List.find?_eq_none.mp h r hr
  cases howner : r.owner == user.id with
  | false => rfl
  | true =>
    rw [howner, Bool.true_and] at hother
    rw [Bool.true_and, bne, Bool.eq_false_iff.mpr hother]
    rfl

end Rows

end Store

open Store (SameFor)

/-! ## Runs that are alike -/

/-- **Two runs are alike to a user**: they fail for the same cause, or give the
same and leave the same reports of the user; and those of others stay. -/
inductive RunsAlike (user : User) (s t : Store) {α : Type} :
    Except Failure (α × Store) → Except Failure (α × Store) → Prop where
  /-- Both fail. -/
  | failed (f : Failure) : RunsAlike user s t (.error f) (.error f)
  /-- Both give the same. -/
  | done (a : α) {rows rows' : List Report}
      (hown : SameFor user (s.withReports rows) (t.withReports rows'))
      (hothers : (s.withReports rows).reportsOfOthers user.id = s.reportsOfOthers user.id)
      (hothers' : (t.withReports rows').reportsOfOthers user.id = t.reportsOfOthers user.id) :
      RunsAlike user s t (.ok (a, s.withReports rows)) (.ok (a, t.withReports rows'))

section Runs

variable {s t : Store} {user : User} {α β : Type}

namespace RunsAlike

/-- A result that does not change the stores. -/
theorem unchanged (h : SameFor user s t) (a : α) :
    RunsAlike user s t (.ok (a, s.withReports s.reports)) (.ok (a, t.withReports t.reports)) :=
  .done a h rfl rfl

/-- What is made of the result does not matter. -/
theorem bind_pure {step : StoreM α} (h : RunsAlike user s t (step.run s) (step.run t))
    (f : α → β) :
    RunsAlike user s t ((step >>= fun a => pure (f a)).run s)
      ((step >>= fun a => pure (f a)).run t) := by
  rw [StateT.run_bind, StateT.run_bind]
  generalize step.run s = result at h
  generalize step.run t = result' at h
  cases h with
  | failed f => exact .failed f
  | done a hown hothers hothers' => exact .done _ hown hothers hothers'

/-- What is checked before the stores are looked at comes out alike. -/
theorem bind_read {e : Except Failure α} {next : α → StoreM β}
    (h : ∀ a, e = .ok a → RunsAlike user s t ((next a).run s) ((next a).run t)) :
    RunsAlike user s t (((liftM e : StoreM α) >>= next).run s)
      (((liftM e : StoreM α) >>= next).run t) := by
  cases e with
  | error f => exact .failed f
  | ok a => exact h a rfl

end RunsAlike

/-! ### The operations -/

/-- The reports of one owner, changed, leave those of the others. -/
theorem filter_owner_ne_map {owner : Int} {f : Report → Report}
    (howner : ∀ r, (f r).owner = r.owner) (hother : ∀ r, r.owner ≠ owner → f r = r)
    (rows : List Report) :
    (rows.map f).filter (·.owner != owner) = rows.filter (·.owner != owner) := by
  rw [List.filter_map]
  refine (List.map_congr_left fun r hr => ?_).trans ((List.map_id _).trans ?_)
  · rw [List.mem_filter] at hr
    rw [hother r (by simpa [howner] using hr.2), id]
  · refine List.filter_congr fun r _ => ?_
    rw [Function.comp_apply, howner]

theorem runsAlike_report (h : SameFor user s t) (id : Int) :
    RunsAlike user s t ((Service.report user id).run s) ((Service.report user id).run t) := by
  rw [run_report, run_report, ← h.report?_eq]
  cases s.report? user.id id with
  | none => exact .failed _
  | some r => exact .unchanged h r

theorem runsAlike_reports (h : SameFor user s t) :
    RunsAlike user s t ((Service.reports user).run s) ((Service.reports user).run t) := by
  have ht : (Service.reports user).run t = .ok (s.reportsOf user.id, t) := by
    rw [h.reports]
    rfl
  rw [ht]
  exact .unchanged h _

theorem runsAlike_updateReport (h : SameFor user s t) (id : Int) (r : Report) :
    RunsAlike user s t ((Service.updateReport user id r).run s)
      ((Service.updateReport user id r).run t) := by
  by_cases hid : r.id = id
  case neg =>
    rw [run_updateReport_of_ne hid, run_updateReport_of_ne hid]
    exact .failed _
  cases hvalid : r.validate with
  | error f =>
    rw [run_updateReport_of_invalid hid hvalid, run_updateReport_of_invalid hid hvalid]
    exact .failed f
  | ok valid =>
    rw [run_updateReport s user hid hvalid, run_updateReport t user hid hvalid, ← h.report?_eq]
    cases s.report? user.id id with
    | none => exact .failed _
    | some old =>
      have hother (old : Report) (hold : old.owner ≠ user.id) :
          replaceReport { r with owner := user.id } old = old :=
        replaceReport_of_owner_ne hold
      have hothers := filter_owner_ne_map (replaceReport_owner _) hother
      refine .done _ ⟨h.users, h.sessions, ?_⟩ (hothers s.reports) (hothers t.reports)
      have hown (rows : List Report) :
          (rows.map (replaceReport { r with owner := user.id })).filter (·.owner == user.id)
            = (rows.filter (·.owner == user.id)).map
                (replaceReport { r with owner := user.id }) := by
        rw [List.filter_map]
        refine congrArg _ (List.filter_congr fun old _ => ?_)
        rw [Function.comp_apply, replaceReport_owner]
      show (s.reports.map _).filter _ = (t.reports.map _).filter _
      rw [hown, hown]
      exact congrArg _ h.reports

theorem runsAlike_deleteReport (h : SameFor user s t) (id : Int) :
    RunsAlike user s t ((Service.deleteReport user id).run s)
      ((Service.deleteReport user id).run t) := by
  rw [run_deleteReport, run_deleteReport, ← h.report?_eq]
  cases s.report? user.id id with
  | none => exact .failed _
  | some old =>
    have hothers (rows : List Report) :
        (rows.filter (isOther user id)).filter (·.owner != user.id)
          = rows.filter (·.owner != user.id) := by
      rw [List.filter_filter]
      refine List.filter_congr fun r _ => ?_
      rw [isOther, bne]
      cases r.owner == user.id <;> rfl
    refine .done () ⟨h.users, h.sessions, ?_⟩ (hothers s.reports) (hothers t.reports)
    have hown (rows : List Report) :
        (rows.filter (isOther user id)).filter (·.owner == user.id)
          = (rows.filter (·.owner == user.id)).filter (isOther user id) := by
      rw [List.filter_filter, List.filter_filter]
      exact List.filter_congr fun r _ => Bool.and_comm ..
    show (s.reports.filter _).filter _ = (t.reports.filter _).filter _
    rw [hown, hown]
    exact congrArg _ h.reports

end Runs

/-! ## Requests -/

namespace Http

/-- What a request asks for, if it leads anywhere. -/
def Request.command? (r : Request) : Option Command :=
  (Route.ofPath? (pathOf r.target)).bind (·.command? r.method)

/-- The commands about reports that are there: listing them, and showing, replacing or deleting
the one that the path names. -/
inductive Command.IsAboutReports : Command → Prop where
  /-- All reports. -/
  | list : IsAboutReports .list
  /-- A report. -/
  | show (id : String) : IsAboutReports (.show id)
  /-- Replacing a report. -/
  | update (id : String) : IsAboutReports (.update id)
  /-- Deleting a report. -/
  | delete (id : String) : IsAboutReports (.delete id)

section Respond

variable {service : Service} {r : Request} {command : Command} {secret : String} {user : User}
  {s t : Store}

/-- The response that is sent: without a body if only the head is asked for. -/
def finish (r : Request) (response : Response) : Response :=
  { response with
    headers := allowOrigin :: response.headers
    body := if r.method = "HEAD" then "" else response.body }

theorem Route.command?_options (route : Route) : route.command? "OPTIONS" = none := by
  cases route <;> rfl

/-- A request that leads somewhere is answered by running its command. -/
theorem respond_of_command? (h : r.command? = some command) (s : Store) :
    respond service r s
      = match Service.transact (command.run service r) s with
        | (.ok response, s) => (finish r response, s)
        | (.error f, s) => (finish r (.ofFailure f), s) := by
  obtain ⟨route, hroute, hcommand⟩ := Option.bind_eq_some_iff.mp h
  have hmethod : r.method ≠ "OPTIONS" := by
    intro hmethod
    rw [hmethod, Route.command?_options] at hcommand
    cases hcommand
  unfold respond
  simp only [if_neg hmethod, hroute, hcommand]
  obtain ⟨result, s'⟩ := Service.transact (command.run service r) s
  cases result <;> rfl

/-- Work for the user who asks is the work for the user of the session. -/
theorem run_asUser (hsecret : r.secret? = some secret)
    (huser : s.userForSession? secret = some user) (work : User → StoreM Response) :
    (asUser r work).run s = (work user).run s := by
  have hsession : (Service.userForSession secret).run s = .ok (user, s) := by
    rw [Service.userForSession, StateT.run_bind, StateT.run_get, pure_bind]
    simp only [huser]
    rfl
  unfold asUser
  simp only [hsecret]
  rw [StateT.run_bind, hsession]
  rfl

/-- The work for the user who asks is alike if the work for the user of the session is. -/
theorem runsAlike_asUser (hsecret : r.secret? = some secret)
    (huser : s.userForSession? secret = some user) (h : SameFor user s t)
    {work : User → StoreM Response}
    (hwork : RunsAlike user s t ((work user).run s) ((work user).run t)) :
    RunsAlike user s t ((asUser r work).run s) ((asUser r work).run t) := by
  rw [run_asUser hsecret huser, run_asUser hsecret (h.userForSession?_eq secret ▸ huser)]
  exact hwork

/-- **A command about reports runs alike** over stores that are the same for the user who asks. -/
theorem runsAlike_command (habout : command.IsAboutReports) (hsecret : r.secret? = some secret)
    (huser : s.userForSession? secret = some user) (h : SameFor user s t) :
    RunsAlike user s t ((command.run service r).run s) ((command.run service r).run t) := by
  cases habout with
  | list => exact runsAlike_asUser hsecret huser h ((runsAlike_reports h).bind_pure _)
  | «show» text =>
    refine .bind_read fun id _ => ?_
    exact runsAlike_asUser hsecret huser h ((runsAlike_report h id).bind_pure _)
  | update text =>
    refine .bind_read fun id _ => .bind_read fun replacement _ => ?_
    exact runsAlike_asUser hsecret huser h
      ((runsAlike_updateReport h id replacement).bind_pure _)
  | delete text =>
    refine .bind_read fun id _ => ?_
    exact runsAlike_asUser hsecret huser h ((runsAlike_deleteReport h id).bind_pure _)

/-- Runs that are alike lead to the same response. -/
theorem respond_alike (hcommand : r.command? = some command) (h : SameFor user s t)
    (hruns : RunsAlike user s t ((command.run service r).run s) ((command.run service r).run t)) :
    (respond service r s).1 = (respond service r t).1
      ∧ SameFor user (respond service r s).2 (respond service r t).2
      ∧ (respond service r s).2.reportsOfOthers user.id = s.reportsOfOthers user.id
      ∧ (respond service r t).2.reportsOfOthers user.id = t.reportsOfOthers user.id := by
  rw [respond_of_command? hcommand, respond_of_command? hcommand]
  unfold Service.transact
  generalize (command.run service r).run s = result at hruns
  generalize (command.run service r).run t = result' at hruns
  cases hruns with
  | failed f => exact ⟨rfl, h, rfl, rfl⟩
  | done a hown hothers hothers' => exact ⟨rfl, hown, hothers, hothers'⟩

/-- **Nobody learns anything about the reports of others.** Over two stores
that are the same for a user, every request with the user's secret for the
list of reports, for a report, for its replacement or its deletion gets the
same response, whatever its path and its body hold. The user's reports are the
same afterwards, and in either store those of others are what they were.
Under a number that none of the user's reports has, the response is the one
over a store where nobody has a report with this number. -/
theorem foreign_reports_indistinguishable (service : Service) (hcommand : r.command? = some command)
    (habout : command.IsAboutReports) (hsecret : r.secret? = some secret)
    (huser : s.userForSession? secret = some user) (h : SameFor user s t) :
    (respond service r s).1 = (respond service r t).1
      ∧ SameFor user (respond service r s).2 (respond service r t).2
      ∧ (respond service r s).2.reportsOfOthers user.id = s.reportsOfOthers user.id
      ∧ (respond service r t).2.reportsOfOthers user.id = t.reportsOfOthers user.id
      ∧ ∀ id, s.report? user.id id = none →
          (respond service r s).1
            = (respond service r (s.withReports (s.reports.filter (·.id != id)))).1 := by
  obtain ⟨hresponse, hown, hothers, hothers'⟩ :=
    respond_alike hcommand h (runsAlike_command habout hsecret huser h)
  refine ⟨hresponse, hown, hothers, hothers', fun id hmissing => ?_⟩
  have hwithout := SameFor.of_missing hmissing
  exact (respond_alike hcommand hwithout (runsAlike_command habout hsecret huser hwithout)).1

theorem ofPath?_one : Route.ofPath? (pathOf "/v1/reports/1") = some (.report "1") := by
  have hpath : pathOf "/v1/reports/1" = "/v1/reports/1" := by decide +kernel
  have hsplit : "/v1/reports/1".splitOn "/" = ["", "v1", "reports", "1"] := by
    rw [String.splitOn, if_neg (by decide)]
    repeat
      rw [String.splitOnAux]
      simp +decide only [if_true, if_false]
  rw [hpath, Route.ofPath?, hsplit]
  rfl

theorem command?_put_one {r : Request} (hmethod : r.method = "PUT")
    (htarget : r.target = "/v1/reports/1") : r.command? = some (.update "1") := by
  rw [Request.command?, hmethod, htarget, ofPath?_one]
  rfl

/-- Whether a report of somebody else is there cannot be told from trying to
replace it. -/
theorem foreign_reports_indistinguishable_put :
    let ann : User := ⟨1, "ann", 1⟩
    let s : Store := { users := [ann, ⟨2, "bob", 1⟩], sessions := [⟨"a", 1⟩, ⟨"b", 2⟩] }
    let t : Store := s.withReports [⟨1, 2, "net worth", "x"⟩]
    let r : Request :=
      { method := "PUT", target := "/v1/reports/1"
        headers :=
          [("authorization", "Bearer a".toUTF8), ("content-type", "application/json".toUTF8)]
        body := "\x7b\"id\":1,\"name\":\"mine\",\"scriptSource\":\"y\"\x7d".toUTF8 }
    r.command? = some (.update "1") ∧ r.secret? = some "a"
      ∧ s.userForSession? "a" = some ann ∧ s.SameFor ann t ∧ t.report? 2 1 ≠ none
      ∧ (respond {} r s).1 = (respond {} r t).1
      ∧ (respond {} r t).2.reportsOfOthers 1 = t.reportsOfOthers 1 := by
  intro ann s t r
  have hcommand : r.command? = some (.update "1") := command?_put_one rfl rfl
  have hsecret : r.secret? = some "a" := by decide +kernel
  have huser : s.userForSession? "a" = some ann := by decide
  have hsame : s.SameFor ann t := ⟨rfl, rfl, rfl⟩
  obtain ⟨hresponse, -, -, hothers, -⟩ :=
    foreign_reports_indistinguishable {} hcommand (.update "1") hsecret huser hsame
  exact ⟨hcommand, hsecret, huser, hsame, by decide, hresponse, hothers⟩

end Respond

end Http

end LedgerReports
