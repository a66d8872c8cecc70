import LedgerReports.Proofs.Http.Sessions
import LedgerReports.Proofs.Json.RoundTrip
import Mathlib.Data.List.Find

/-!
# Scripts come back as they were sent

A script goes a long way before somebody sees it again: it is read from the
JSON of a request, checked, kept, found under its number, and written as JSON
once more. `stored_report_reads_back` says that nothing is lost on this way.
Whatever name and script were sent with a request that was answered with 201,
a client who asks for the number in the answer reads the same name and script,
with whatever characters, and the same text as in that answer.

Three things come together. A report that was written as JSON is read as what
it is (`Response.Shows`), since numerals and texts are. The table finds a
report until a call overwrites it, and that is a call that names it and
succeeds (`report?_answer`); a new report cannot hide behind an older one,
because no older one has its number. And other requests, of whichever
user and with whatever result, can change neither the session nor the report
(`found_after_serve`): a request that fails changes nothing, so it does not
matter whether somebody else has tried to replace the report or to delete it.
-/

namespace LedgerReports

open Service (transact)

/-! ## Reports in JSON -/

namespace Report

variable {r : Report}

theorem writable_toJson (r : Report) : r.toJson.Writable := by
  refine Json.writable_ofFields fun f hf => ?_
  simp only [List.mem_cons, List.not_mem_nil, or_false] at hf
  obtain rfl | rfl | rfl | rfl := hf
  · exact Json.writable_ofInt r.id
  · exact Json.writable_ofInt r.owner
  · exact Json.writable_ofText r.name
  · exact Json.writable_ofText r.source

/-- The fields of a report in JSON. -/
theorem fields?_toJson (r : Report) :
    Json.fields? ["id", "ownerUserId", "name", "scriptSource"] r.toJson
      = some [.ofInt r.id, .ofInt r.owner, .ofText r.name, .ofText r.source] := rfl

/-- A report with numbers of 64 bits is read from its JSON. -/
theorem ofJson?_toJson (hid : -2 ^ 63 ≤ r.id ∧ r.id < 2 ^ 63)
    (howner : -2 ^ 63 ≤ r.owner ∧ r.owner < 2 ^ 63) : ofJson? r.toJson = some r := by
  show ((Numeral.ofInt r.id).toInt64?.bind fun id => (Numeral.ofInt r.owner).toInt64?.bind
    fun owner => some (⟨id, owner, r.name, r.source⟩ : Report)) = some r
  rw [Numeral.toInt64?_ofInt hid.1 hid.2, Numeral.toInt64?_ofInt howner.1 howner.2]
  rfl

end Report

/-! ## What overwrites a report -/

/-- The calls that overwrite a report: replacing and deleting it. -/
inductive UserCall.Overwrites : UserCall → Int → Prop where
  /-- A call that replaces a report by whatever. -/
  | update (id : Int) (replacement : Report) : Overwrites (.reports (.update id replacement)) id
  /-- A call that deletes a report. -/
  | delete (id : Int) : Overwrites (.reports (.delete id)) id

section Overwriting

variable {s : Store} {user : User} {owner id : Int} {r : Report} {service : Service}

/-- Replacing a report leaves those with other numbers. -/
theorem report?_map_replaceReport (h : s.report? owner id = some r) {q : Report} (hq : q.id ≠ id) :
    (s.withReports (s.reports.map (replaceReport q))).report? owner id = some r := by
  have hfits := List.find?_some h
  rw [Bool.and_eq_true, beq_iff_eq, beq_iff_eq] at hfits
  have hkept : replaceReport q r = r := replaceReport_of_id_ne (hfits.2 ▸ hq.symm)
  have hsame : (fun row : Report => row.owner == owner && row.id == id) ∘ replaceReport q
      = fun row => row.owner == owner && row.id == id := by
    funext row
    rw [Function.comp_apply, replaceReport_owner, replaceReport_id]
  show (s.reports.map (replaceReport q)).find? _ = some r
  rw [List.find?_map, hsame]
  exact (congrArg _ h).trans (congrArg some hkept)

/-- Deleting a report leaves those with other numbers. -/
theorem report?_filter_isOther (h : s.report? owner id = some r) {n : Int} (hn : n ≠ id)
    (user : User) :
    (s.withReports (s.reports.filter (isOther user n))).report? owner id = some r := by
  show (s.reports.filter _).find? _ = some r
  rw [List.find?_filter, ← h, Store.report?]
  refine List.find?_congr fun row _ => ?_
  cases hid : row.id == id with
  | false => simp only [Bool.and_false, Bool.false_eq_true, and_false, decide_false]
  | true =>
    have hother : isOther user n row = true := by
      rw [isOther, eq_of_beq hid, beq_eq_false_iff_ne.mpr hn.symm, Bool.and_false]
      rfl
    simp only [hother, Bool.and_true, true_and, Bool.decide_eq_true]

/-- **A report stays** unless a call overwrites it. -/
theorem report?_answer (h : s.report? owner id = some r) {call : UserCall}
    (hspares : ∀ a, (service.answer s (user, call)).1 = .ok a → ¬ call.Overwrites id) :
    (service.answer s (user, call)).2.report? owner id = some r := by
  cases call with
  | tabulate n =>
    rw [Service.answer, UserCall.run, transact_bind_pure, tabulate_leaves]
    exact h
  | reports call =>
    rw [answer_reports] at hspares ⊢
    cases call with
    | create draft =>
      rw [ReportCall.run, transact_bind_pure]
      obtain ⟨f, hrun⟩ | ⟨new, -, hrun⟩ := createReport_cases s user draft
      · rw [transact_of_error hrun]
        exact h
      · rw [transact_of_ok hrun]
        exact (List.prefix_append _ _).find?_eq_some h
    | read n =>
      rw [ReportCall.run, transact_bind_pure, transact, run_report]
      cases s.report? user.id n <;> exact h
    | list => exact h
    | update n q =>
      rw [ReportCall.run, transact_bind_pure] at hspares ⊢
      by_cases hid : q.id = n
      case neg =>
        rw [transact_of_error (run_updateReport_of_ne hid)]
        exact h
      obtain ⟨f, hrun, -⟩ | ⟨old, new, -, hrun⟩ := updateReport_cases s user n q
      · rw [transact_of_error hrun]
        exact h
      · rw [transact_of_ok hrun] at hspares ⊢
        -- the call has succeeded, so it is for another number
        refine report?_map_replaceReport h fun hsame => hspares _ rfl ?_
        have hn : n = id := hid.symm.trans hsame
        rw [hn]
        exact .update id q
    | delete n =>
      have hcall : (ReportCall.delete n).run user
          = Service.deleteReport user n >>= fun _ => pure ReportAnswer.done := rfl
      have hrun := run_deleteReport s user n
      rw [hcall, transact_bind_pure] at hspares ⊢
      cases hfound : s.report? user.id n with
      | none =>
        rw [hfound] at hrun
        rw [transact_of_error hrun]
        exact h
      | some old =>
        rw [hfound] at hrun
        rw [transact_of_ok hrun] at hspares ⊢
        refine report?_filter_isOther h (fun hn => hspares _ rfl ?_) user
        rw [hn]
        exact .delete id

end Overwriting

namespace Http

/-! ## Runs of requests -/

/-- The store after some requests, each with the service at its time. -/
def serve (requests : List (Service × Request)) (s : Store) : Store :=
  requests.foldl (fun s q => (respond q.1 q.2 s).2) s

theorem serve_concat (requests : List (Service × Request)) (q : Service × Request) (s : Store) :
    serve (requests ++ [q]) s = (respond q.1 q.2 (serve requests s)).2 := by
  rw [serve, List.foldl_append]
  rfl

/-- **A request changes the report with a number**: it asks to replace or to delete it, and
succeeds. -/
def Request.Changes (q : Request) (service : Service) (s : Store) (id : Int) : Prop :=
  (respond service q s).1.status < 400
    ∧ ∃ text, readId text = .ok id
      ∧ (q.command? = some (.update text) ∨ q.command? = some (.delete text))

section Requests

variable {service : Service} {q r : Request} {command : Command} {call : UserCall} {user : User}
  {s : Store} {id : Int}

theorem exists_of_read_bind {α β : Type} {x : Except Failure α} {next : α → Except Failure β}
    {b : β} (h : (x >>= next) = .ok b) : ∃ a, x = .ok a ∧ next a = .ok b := by
  cases x with
  | error f => cases h
  | ok a => exact ⟨a, rfl, h⟩

/-- A command that overwrites a report asks to replace or to delete it. -/
theorem Command.eq_of_read_overwrites (hread : command.read q = .ok call)
    (h : call.Overwrites id) :
    ∃ text, readId text = .ok id ∧ (command = .update text ∨ command = .delete text) := by
  cases command with
  | list =>
    cases hread
    cases h
  | create =>
    obtain ⟨draft, -, hcall⟩ := exists_of_read_bind hread
    cases hcall
    cases h
  | «show» text | tabulate text =>
    obtain ⟨n, -, hcall⟩ := exists_of_read_bind hread
    cases hcall
    cases h
  | update text =>
    obtain ⟨n, hid, hread⟩ := exists_of_read_bind hread
    obtain ⟨replacement, -, hcall⟩ := exists_of_read_bind hread
    cases hcall
    cases h
    exact ⟨text, hid, .inl rfl⟩
  | delete text =>
    obtain ⟨n, hid, hcall⟩ := exists_of_read_bind hread
    cases hcall
    cases h
    exact ⟨text, hid, .inr rfl⟩

/-- A request that leads nowhere leaves the store as it is. -/
theorem respond_of_no_command (h : q.command? = none) (s : Store) :
    (respond service q s).2 = s := by
  unfold respond
  by_cases hoptions : q.method = "OPTIONS"
  · simp only [if_pos hoptions]
  · simp only [if_neg hoptions]
    cases hroute : Route.ofPath? (pathOf q.target) with
    | none => rfl
    | some route =>
      have hcommand : route.command? q.method = none := by
        rw [Request.command?, hroute] at h
        exact h
      simp only [hcommand]

/-- **A request is one call for its user**, or it leaves the store as it is. -/
theorem respond_cases (service : Service) (q : Request) (s : Store) :
    (respond service q s).2 = s
      ∨ ∃ command call user, q.command? = some command ∧ command.read q = .ok call
          ∧ respond service q s = (finish q (respondTo call (service.answer s (user, call)).1),
              (service.answer s (user, call)).2) := by
  cases hcommand : q.command? with
  | none => exact .inl (respond_of_no_command hcommand s)
  | some command =>
    cases hread : command.read q with
    | error f =>
      rw [(respond_of_malformed hcommand hread s).1]
      exact .inl rfl
    | ok call =>
      cases huser : q.user? s with
      | none =>
        rw [(respond_of_no_user hcommand hread huser).1]
        exact .inl rfl
      | some user =>
        exact .inr ⟨command, call, user, rfl, hread, (respond_of_user hcommand hread huser).1⟩

theorem status_failure_ge (f : Failure) : 400 ≤ f.status := by
  cases f <;> exact Nat.le_of_ble_eq_true rfl

theorem status_present_lt (call : UserCall) (answer : UserAnswer) :
    (present call answer).status < 400 := by
  unfold present
  split
  · show 201 < 400
    decide
  · show 200 < 400
    decide
  · show 200 < 400
    decide
  · show 204 < 400
    decide
  · show 200 < 400
    decide

/-- **A report stays, and so does the session of its owner**, unless a request changes it. -/
theorem found_after_respond (huser : r.user? s = some user) {stored : Report}
    (hstored : s.report? user.id id = some stored) (hspares : ¬ q.Changes service s id) :
    r.user? (respond service q s).2 = some user
      ∧ (respond service q s).2.report? user.id id = some stored := by
  obtain hsame | ⟨command, call, actor, hcommand, hread, hresponse⟩ := respond_cases service q s
  · rw [hsame]
    exact ⟨huser, hstored⟩
  · have hkept : ∀ a, (service.answer s (actor, call)).1 = .ok a → ¬ call.Overwrites id := by
      intro a ha hover
      refine hspares ⟨?_, ?_⟩
      · rw [hresponse, ha]
        exact status_present_lt call a
      · obtain ⟨text, hid, hasks⟩ := Command.eq_of_read_overwrites hread hover
        rw [hcommand]
        exact ⟨text, hid, hasks.imp (congrArg some) (congrArg some)⟩
    rw [hresponse]
    refine ⟨?_, report?_answer hstored hkept⟩
    obtain ⟨rows, hrows, -⟩ := changedFor_answer service s actor call
    rw [hrows]
    exact huser

/-- **A report stays through a run of requests** none of which changes it. -/
theorem found_after_serve (huser : r.user? s = some user) {stored : Report}
    (hstored : s.report? user.id id = some stored) (requests : List (Service × Request))
    (hspares : ∀ before service q, before ++ [(service, q)] <+: requests →
      ¬ q.Changes service (serve before s) id) :
    r.user? (serve requests s) = some user
      ∧ (serve requests s).report? user.id id = some stored := by
  -- from the end of the run, because what is spared is said of the store before a request
  induction requests using List.reverseRecOn with
  | nil => exact ⟨huser, hstored⟩
  | append_singleton requests q ih =>
    obtain ⟨service, q⟩ := q
    obtain ⟨huser, hstored⟩ := ih fun before service q hbefore =>
      hspares before service q (hbefore.trans (List.prefix_append _ _))
    rw [serve_concat]
    exact found_after_respond huser hstored (hspares requests service q (List.prefix_refl _))

end Requests

/-! ## Numbers in paths -/

section Paths

/-- Where nothing is escaped, nothing is replaced. -/
theorem unescape_eq_self {bytes : List UInt8} (h : Json.code '%' ∉ bytes) :
    unescape bytes = bytes := by
  induction bytes using unescape.induct with
  | case1 | case2 | case3 => rfl
  | case4 | case5 => exact absurd List.mem_cons_self h
  | case6 a b c rest ha ih =>
    rw [unescape, if_neg ha, ih fun hmem => h (List.mem_cons_of_mem _ hmem)]

/-- A part of a path in ASCII, without escapes, stands for itself. -/
theorem decode_unescape (cs : List Char) (hplain : ∀ c ∈ cs, c.toNat < 128 ∧ c ≠ '%') :
    Utf8.decode ⟨(unescape (String.ofList cs).toUTF8.toList).toArray⟩ = .ok (String.ofList cs) := by
  have hbytes : (String.ofList cs).toUTF8.toList = encode cs := by
    rw [toUTF8_ofList, Bytes.toList_eq, List.data_toByteArray]
  have hescape : Json.code '%' ∉ encode cs := by
    rw [encode_of_lt fun c hc => (hplain c hc).1, List.mem_map]
    rintro ⟨c, hc, hcode⟩
    exact Json.code_ne (hplain c hc).1 (by decide) (hplain c hc).2 hcode
  have harray : (encode cs).toByteArray = ⟨(encode cs).toArray⟩ :=
    ByteArray.ext List.data_toByteArray
  rw [hbytes, unescape_eq_self hescape, ← harray, Utf8.decode_encode]

/-- **A number of 64 bits is read from its decimal text.** -/
theorem readId_integer {n : Int} (hmin : -2 ^ 63 ≤ n) (hmax : n < 2 ^ 63) :
    readId (String.ofList (Text.integer n)) = .ok n := by
  have hchars : ∀ c ∈ Text.integer n, c = '-' ∨ Text.isDigit c = true := by
    intro c hc
    rw [Text.integer] at hc
    split at hc
    · obtain rfl | hc := List.mem_cons.mp hc
      · exact .inl rfl
      · exact .inr (isDigit_of_mem_digits hc)
    · exact .inr (isDigit_of_mem_digits hc)
  have hdecoded := decode_unescape (Text.integer n) fun c hc => by
    obtain rfl | hdigit := hchars c hc
    · decide
    · have hbounds := isDigit_iff.mp hdigit
      refine ⟨by omega, ?_⟩
      rintro rfl
      cases hdigit
  have hdigits : (Text.digits n.natAbs).all Text.isDigit = true :=
    List.all_eq_true.mpr fun c hc => isDigit_of_mem_digits hc
  have hsome : (Text.digits n.natAbs).isEmpty = false :=
    List.isEmpty_eq_false_iff.mpr (digits_ne_nil _)
  have hid : reportId? (String.ofList (Text.integer n)) = some n := by
    unfold reportId?
    rw [hdecoded]
    simp only [Except.toOption, Option.bind_eq_bind, Option.bind_some, String.toList_ofList]
    by_cases hnegative : n < 0
    · have hsign : -(n.natAbs : Int) = n := by omega
      rw [Text.integer, if_pos hnegative]
      simp only [hsome, hdigits, Bool.not_true, Bool.or_false, Bool.false_eq_true, if_false,
        digitsValue_digits, if_true, hsign]
      exact if_pos ⟨hmin, hmax⟩
    · have hsign : (n.natAbs : Int) = n := by omega
      rw [Text.integer, if_neg hnegative]
      split
      -- a digit is no sign
      case h_1 rest hrest | h_2 rest hrest =>
        rw [hrest, List.all_cons] at hdigits
        cases hdigits
      case h_3 =>
        simp only [hsome, hdigits, Bool.not_true, Bool.or_false, Bool.false_eq_true, if_false,
          digitsValue_digits, hsign]
        exact if_pos ⟨hmin, hmax⟩
  rw [readId, hid]

end Paths

/-! ## What was sent comes back -/

/-- A request for a new report. -/
def Request.Posts (r : Request) : Prop :=
  r.method = "POST" ∧ Route.ofPath? (pathOf r.target) = some .reports

/-- A request for the report with a number. -/
def Request.Gets (g : Request) (id : Int) : Prop :=
  g.method = "GET"
    ∧ ∃ text, Route.ofPath? (pathOf g.target) = some (.report text) ∧ readId text = .ok id

/-- Whether none of some requests changes the report with a number. -/
def Spares (id : Int) (requests : List (Service × Request)) (s : Store) : Prop :=
  ∀ before service q, before ++ [(service, q)] <+: requests →
    ¬ q.Changes service (serve before s) id

/-- **A response shows a report**: its body is a JSON object with the number, the owner, the name
and the script of the report, each once, and is read as the report. -/
structure Response.Shows (response : Response) (r : Report) : Prop where
  /-- These are the fields. -/
  fields : (Json.parse? response.body.toUTF8).bind
      (Json.fields? ["id", "ownerUserId", "name", "scriptSource"])
    = some [.ofInt r.id, .ofInt r.owner, .ofText r.name, .ofText r.source]
  /-- A report is read, if the numbers have 64 bits. -/
  read : -2 ^ 63 ≤ r.id ∧ r.id < 2 ^ 63 → -2 ^ 63 ≤ r.owner ∧ r.owner < 2 ^ 63 →
    (Json.parse? response.body.toUTF8).bind Report.ofJson? = some r

section Stored

variable {service : Service} {r g : Request} {user : User} {draft stored : Report} {s : Store}
  {id : Int}

theorem shows_of_body {response : Response} (h : response.body = stored.toJson.render) :
    response.Shows stored := by
  have hparse := Json.parse?_render (Report.writable_toJson stored)
  constructor
  · rw [h, hparse]
    exact Report.fields?_toJson stored
  · intro hid howner
    rw [h, hparse]
    exact Report.ofJson?_toJson hid howner

theorem body_finish (h : r.method ≠ "HEAD") (response : Response) :
    (finish r response).body = response.body := if_neg h

/-- A new report that is accepted is kept, and the response has it. -/
theorem stored_of_posts (hposts : r.Posts) (h : (respond service r s).1.status = 201) :
    ∃ user draft stored, r.user? s = some user ∧ readReport r = .ok draft
      ∧ stored = ⟨s.nextReportId, user.id, draft.name, draft.source⟩
      ∧ (respond service r s).1.body = stored.toJson.render
      ∧ (respond service r s).2 = s.withReports (s.reports ++ [stored]) := by
  have hcommand : r.command? = some .create := by
    rw [Request.command?, hposts.2, hposts.1]
    rfl
  have hrefused (f : Failure) : (finish r (.ofFailure f)).status ≠ 201 := by
    have hstatus := status_failure_ge f
    show f.status ≠ 201
    omega
  cases hdraft : readReport r with
  | error f =>
    have hread : Command.create.read r = .error f := by
      rw [Command.read, hdraft]
      rfl
    rw [(respond_of_malformed hcommand hread s).1] at h
    exact absurd h (hrefused f)
  | ok draft =>
    have hread : Command.create.read r = .ok (.reports (.create draft)) := by
      rw [Command.read, hdraft]
      rfl
    cases huser : r.user? s with
    | none =>
      rw [(respond_of_no_user hcommand hread huser).1] at h
      exact absurd h (hrefused _)
    | some user =>
      have hresponse : respond service r s = _ := (respond_of_user hcommand hread huser).1
      rw [answer_reports, ReportCall.run, transact_bind_pure] at hresponse
      obtain ⟨f, hrun⟩ | ⟨stored, hstored, hrun⟩ := createReport_cases s user draft
      · rw [transact_of_error hrun] at hresponse
        rw [hresponse] at h
        exact absurd h (hrefused f)
      · rw [transact_of_ok hrun] at hresponse
        refine ⟨user, draft, stored, rfl, rfl, hstored, ?_, ?_⟩
        · rw [hresponse, body_finish (by rw [hposts.1]; decide)]
          rfl
        · rw [hresponse]

/-- A report that is found is shown. -/
theorem respond_of_gets (service : Service) (hgets : g.Gets id) (huser : g.user? s = some user)
    (hfound : s.report? user.id id = some stored) :
    (respond service g s).1.status = 200 ∧ (respond service g s).1.body = stored.toJson.render := by
  obtain ⟨hmethod, text, hroute, hid⟩ := hgets
  have hcommand : g.command? = some (.show text) := by
    rw [Request.command?, hroute, hmethod]
    rfl
  have hread : (Command.show text).read g = .ok (.reports (.read id)) := by
    rw [Command.read, hid]
    rfl
  have hrun := run_report s user id
  rw [hfound] at hrun
  have hresponse : respond service g s = _ := (respond_of_user hcommand hread huser).1
  rw [answer_reports, ReportCall.run, transact_bind_pure, transact_of_ok hrun] at hresponse
  rw [hresponse, body_finish (by rw [hmethod]; decide)]
  exact ⟨rfl, rfl⟩

/-- **What was sent comes back.** A request for a new report that is answered with 201 was for a
user and had a report in its body. What is kept is the name and the script of this report, under
a number and an owner that do not depend on the body, and the answer shows it. After any
requests, of any users, none of which changes the report, a request for its number with the secret
of the first one is answered with 200, and the answer shows the same report and has the same
body. A path can name the number by its decimal text. -/
theorem stored_report_reads_back (hposts : r.Posts)
    (hcreated : (respond service r s).1.status = 201) :
    ∃ user draft stored, r.user? s = some user ∧ readReport r = .ok draft
      ∧ stored = ⟨s.nextReportId, user.id, draft.name, draft.source⟩
      ∧ (respond service r s).1.Shows stored
      ∧ (stored.id < 2 ^ 63 → readId (String.ofList (Text.integer stored.id)) = .ok stored.id)
      ∧ ∀ requests, Spares stored.id requests (respond service r s).2 →
          ∀ (later : Service) (g : Request), g.Gets stored.id → g.secret? = r.secret? →
            let response := (respond later g (serve requests (respond service r s).2)).1
            response.status = 200 ∧ response.Shows stored
              ∧ response.body = (respond service r s).1.body := by
  obtain ⟨user, draft, stored, huser, hdraft, hstored, hbody, hstore⟩ :=
    stored_of_posts hposts hcreated
  have hpositive : 0 < stored.id := by
    rw [hstored]
    exact Int.lt_add_one_of_le (le_foldl_max _ 0)
  refine ⟨user, draft, stored, huser, hdraft, hstored, shows_of_body hbody,
    fun hfits => readId_integer (by omega) hfits, fun requests hspares later g hgets hsecret => ?_⟩
  have hfound := report?_of_created hstored
  rw [← hstore] at hfound
  have hsession : r.user? (respond service r s).2 = some user := by
    rw [hstore]
    exact huser
  obtain ⟨hlater, hkept⟩ := found_after_serve hsession hfound requests hspares
  have hasks : g.user? (serve requests (respond service r s).2) = some user := by
    rw [Request.user?, hsecret]
    exact hlater
  obtain ⟨hstatus, hshown⟩ := respond_of_gets later hgets hasks hkept
  exact ⟨hstatus, shows_of_body hshown, hshown.trans hbody.symm⟩

theorem ofPath?_reports : Route.ofPath? (pathOf "/v1/reports") = some .reports := by
  have hpath : pathOf "/v1/reports" = "/v1/reports" := by decide +kernel
  have hsplit : "/v1/reports".splitOn "/" = ["", "v1", "reports"] := by
    rw [String.splitOn, if_neg (by decide)]
    repeat
      rw [String.splitOnAux]
      simp +decide only [if_true, if_false]
  rw [hpath, Route.ofPath?, hsplit]
  rfl

theorem spares_singleton {q : Request} (h : ¬ q.Changes service s id) :
    Spares id [(service, q)] s := by
  intro before service' q' hprefix
  cases before with
  | nil =>
    cases (List.cons_prefix_cons.mp hprefix).1
    exact h
  | cons first before =>
    have hlength := hprefix.length_le
    rw [List.length_append, List.length_cons, List.length_singleton, List.length_singleton]
      at hlength
    omega

/-- Ann's report with quotes, a NUL and a backslash comes back, under its own number and owner,
after bob has tried to delete it. -/
theorem stored_report_reads_back_to_ann :
    let ann : User := ⟨1, "ann", 1⟩
    let bob : User := ⟨2, "bob", 1⟩
    let s : Store := { users := [ann, bob], sessions := [⟨"a", 1⟩, ⟨"b", 2⟩] }
    let json : String × ByteArray := ("content-type", "application/json".toUTF8)
    let r : Request :=
      { method := "POST", target := "/v1/reports"
        headers := [("authorization", "Bearer a".toUTF8), json]
        body := ("\x7b\"id\":7,\"ownerUserId\":2,\"name\":\"\\\"net\\\"\","
          ++ "\"scriptSource\":\"\\u0000\\\\ ∑\"\x7d").toUTF8 }
    let q : Request :=
      { method := "DELETE", target := "/v1/reports/1"
        headers := [("authorization", "Bearer b".toUTF8)] }
    let g : Request :=
      { method := "GET", target := "/v1/reports/1"
        headers := [("authorization", "Bearer a".toUTF8)] }
    let stored : Report := ⟨1, 1, "\"net\"", "\x00\\ ∑"⟩
    let service : Service := {}
    r.Posts ∧ (respond service r s).1.status = 201
      ∧ Spares 1 [(service, q)] (respond service r s).2 ∧ g.Gets 1 ∧ g.secret? = r.secret?
      ∧ (respond service g (serve [(service, q)] (respond service r s).2)).1.Shows stored := by
  intro ann bob s json r q g stored service
  have hposts : r.Posts := ⟨rfl, ofPath?_reports⟩
  have hdraft : readReport r = .ok { stored with id := 7, owner := 2 } := by decide +kernel
  have hsecret : r.secret? = some "a" := by decide +kernel
  have hcommand : r.command? = some .create := by
    rw [Request.command?, hposts.2]
    rfl
  have hread : Command.create.read r
      = .ok (.reports (.create { stored with id := 7, owner := 2 })) := by
    rw [Command.read, hdraft]
    rfl
  have huser : r.user? s = some ann := by
    rw [Request.user?, hsecret]
    rfl
  have hcreated : respond service r s
      = (finish r (.ofJson 201 stored.toJson), s.withReports [stored]) :=
    (respond_of_user hcommand hread huser).1
  have hstatus : (respond service r s).1.status = 201 := by
    rw [hcreated]
    rfl
  have hspares : Spares 1 [(service, q)] (respond service r s).2 := by
    refine spares_singleton fun hchanges => ?_
    have hdelete : (Command.delete "1").read q = .ok (.reports (.delete 1)) := by
      rw [Command.read, readId_one]
      rfl
    have hbob : q.user? (s.withReports [stored]) = some bob := by
      have hsecret : q.secret? = some "b" := by decide +kernel
      rw [Request.user?, hsecret]
      rfl
    have hmissing : respond service q (s.withReports [stored])
        = (finish q (.ofFailure .notFound), s.withReports [stored]) :=
      (respond_of_user (command?_delete_one rfl rfl) hdelete hbob).1
    rw [hcreated, Request.Changes, hmissing] at hchanges
    exact absurd hchanges.1 (by decide)
  have hgets : g.Gets 1 := ⟨rfl, "1", ofPath?_one, readId_one⟩
  have hsame : g.secret? = r.secret? := by decide +kernel
  obtain ⟨user, draft, kept, hposter, hsent, hkept, -, -, hshown⟩ :=
    stored_report_reads_back hposts hstatus
  rw [huser] at hposter
  rw [hdraft] at hsent
  cases hposter
  cases hsent
  subst hkept
  exact ⟨hposts, hstatus, hspares, hgets, hsame, (hshown _ hspares service g hgets hsame).2.1⟩

end Stored

end Http

end LedgerReports
