import LedgerReports.Proofs.Sandbox.Classification
import LedgerReports.Proofs.Service.Runs
import Mathlib

/-!
# The scripts that are kept

A script that is kept has less than 65536 bytes. Two operations take scripts in,
and both look at the length before anything else is done, so that a script which
is too long is refused whatever is stored (`outcome_createReport_of_long`,
`outcome_updateReport_of_long`). Errands could write reports without that look;
`Operation.IsChecked` leaves those out. In all tables that the others lead to the
scripts fit, and it follows that the third look at the length, when a report is
run, never finds anything.

That a run is not said to be invalid needs a word on where its failures come
from: from the script, or from the database, which may refuse to go on at any
statement. `Connection.Follows` says that a failure of some work is one of
its one-step form unless something was refused.
-/

namespace LedgerReports

open Connection (outcome statement attempt transaction)

/-! ## Where failures come from -/

namespace Connection

variable {α β : Type} {work : ConnectionM α} {step : StoreM α}

/-- **Some work in a transaction follows a step**: it does what the step does, or it fails as the
step fails, or it fails because something was refused. -/
def Follows (work : ConnectionM α) (step : StoreM α) : Prop :=
  ∀ kept t refusals, ∃ result t' refusals',
    outcome work ⟨kept, some t, refusals⟩ = (result, ⟨kept, some t', refusals'⟩)
      ∧ refusals' ⊆ refusals
      ∧ (∀ a, result = .ok a → step.run t = .ok (a, t'))
      ∧ ∀ f, result = .error f → step.run t = .error f ∨ some f ∈ refusals

/-- What refuses an attempt was to come. -/
theorem outcome_attempt_tail (kept : Store) (pending : Option Store)
    (refusals : List (Option Failure)) :
    outcome attempt ⟨kept, pending, refusals⟩ = (.ok (), ⟨kept, pending, refusals.tail⟩)
      ∨ ∃ f, some f ∈ refusals
        ∧ outcome attempt ⟨kept, pending, refusals⟩
            = (.error f, ⟨kept, pending, refusals.tail⟩) := by
  match refusals with
  | [] => exact .inl rfl
  | none :: _ => exact .inl rfl
  | some f :: _ => exact .inr ⟨f, List.mem_cons_self, rfl⟩

theorem follows_statement (step : StoreM α) : Follows (statement step) step := by
  intro kept t refusals
  rw [statement, outcome_bind]
  obtain hattempt | ⟨f, hf, hattempt⟩ := outcome_attempt_tail kept (some t) refusals
  · rw [hattempt]
    simp only
    rw [outcome_bind, outcome_get]
    simp only [Option.getD_some]
    cases hstep : step.run t with
    | error f =>
      refine ⟨.error f, t, refusals.tail, rfl, (List.tail_sublist refusals).subset, ?_, ?_⟩
      · rintro a ⟨⟩
      · rintro f' ⟨⟩
        exact .inl rfl
    | ok result =>
      obtain ⟨a, t'⟩ := result
      refine ⟨.ok a, t', refusals.tail, rfl, (List.tail_sublist refusals).subset, ?_, ?_⟩
      · rintro a' ⟨⟩
        rfl
      · rintro f ⟨⟩
  · rw [hattempt]
    refine ⟨.error f, t, refusals.tail, rfl, (List.tail_sublist refusals).subset, ?_, ?_⟩
    · rintro a ⟨⟩
    · rintro f' ⟨⟩
      exact .inr hf

theorem follows_throw (f : Failure) : Follows (throw f : ConnectionM α) (throw f) := by
  intro kept t refusals
  refine ⟨.error f, t, refusals, rfl, List.Subset.refl refusals, nofun, ?_⟩
  rintro f' ⟨⟩
  exact .inl rfl

theorem Follows.bind (h : Follows work step) {next : α → ConnectionM β} {nextStep : α → StoreM β}
    (hnext : ∀ a, Follows (next a) (nextStep a)) : Follows (work >>= next) (step >>= nextStep) := by
  intro kept t refusals
  obtain ⟨result, t', refusals', hwork, hsub, hok, herror⟩ := h kept t refusals
  rw [outcome_bind, hwork, StateT.run_bind]
  cases result with
  | error f =>
    refine ⟨.error f, t', refusals', rfl, hsub, nofun, ?_⟩
    rintro f' ⟨⟩
    refine (herror f rfl).imp_left fun hstep => ?_
    rw [hstep]
    rfl
  | ok a =>
    obtain ⟨result, t'', refusals'', hrest, hsub', hok', herror'⟩ := hnext a kept t' refusals'
    rw [hok a rfl]
    exact ⟨result, t'', refusals'', hrest, List.Subset.trans hsub' hsub, hok',
      fun f hf => (herror' f hf).imp_right fun hmem => hsub hmem⟩

/-- **A transaction that follows a step** fails as the step fails, or because something was
refused. -/
theorem Follows.of_transaction_error (h : Follows work step) {s : Store} {f : Failure}
    {refusals : List (Option Failure)}
    (hf : (outcome (transaction work) ⟨s, none, refusals⟩).1 = .error f) :
    step.run s = .error f ∨ some f ∈ refusals := by
  rw [outcome_transaction_eq] at hf
  obtain hbegin | ⟨f', hf', hbegin⟩ := outcome_attempt_tail s none refusals
  case inr =>
    rw [hbegin] at hf
    cases hf
    exact .inr hf'
  obtain ⟨result, t', refusals', hwork, hsub, -, herror⟩ := h s s refusals.tail
  have htail := (List.tail_sublist refusals).subset
  have hwork : outcome work (opened ⟨s, none, refusals.tail⟩) = (result, ⟨s, some t', refusals'⟩) :=
    hwork
  simp only [hbegin, hwork] at hf
  cases result with
  | error f' =>
    cases hf
    exact (herror f rfl).imp_right fun hmem => htail hmem
  | ok a =>
    obtain hcommit | ⟨f', hf', hcommit⟩ := outcome_attempt_tail s (some t') refusals'
    · simp only [hcommit] at hf
      cases hf
    · simp only [hcommit] at hf
      cases hf
      exact .inr (htail (hsub hf'))

end Connection

/-! ## Running a report whose script fits -/

section Tabulate

variable {user : User} {r : Report}

/-- **A run of a script that fits is not invalid.** -/
theorem Sandbox.execute_ne_validation (limits : Limits) (ledger : Ledger.View) (today : Date)
    (hfits : r.source.utf8ByteSize < 65536) (message : String) :
    execute limits r user ledger today ≠ .error (.validation message) := by
  intro hexecute
  by_cases howner : r.owner = user.id
  case neg =>
    rw [execute_of_ne limits r user ledger today howner] at hexecute
    cases hexecute
  obtain ⟨own, last, hrun, hruns⟩ :=
    runs_of_journal_eq_nil (setting limits ledger today) r.source Script.Machine.journal_start
  have hjudged := judged_classify r own last
  rw [execute_of_short limits r user ledger today howner hfits, run, EStateM.run, hrun] at hexecute
  simp only [hexecute] at hjudged
  cases hjudged with
  | faulty hlate hfault => cases (hruns.due hfault).1
  | failed hlate hfault hown =>
    have hends := hruns.ends
    rw [hown] at hends
    cases hends

theorem follows_tabulating (service : Service) (user : User) (id : Int) :
    Connection.Follows (tabulating service user id) (service.tabulate user id) := by
  rw [tabulate_eq]
  refine (Connection.follows_statement (Request.report user.id id).step).bind fun r? => ?_
  cases r? with
  | none => exact Connection.follows_throw .notFound
  | some r => exact Connection.follows_statement _

/-- Running a report of which the script fits is not invalid, unless the database says so. -/
theorem tabulate_ne_validation {service : Service} {s : Store} {id : Int}
    (hr : s.report? user.id id = some r) (hfits : r.source.utf8ByteSize < 65536)
    {refusals : List (Option Failure)} (hrefusals : ∀ f, some f ∈ refusals → f.isFault = true)
    (message : String) :
    (outcome ((Operation.tabulate user id).perform service) ⟨s, none, refusals⟩).1
      ≠ .error (.validation message) := by
  intro hinvalid
  obtain hstep | hrefused := (follows_tabulating service user id).of_transaction_error hinvalid
  · rw [Service.tabulate, run_get_bind, hr] at hstep
    cases hexecute : Sandbox.execute service.limits r user (s.view user) service.today with
    | ok t =>
      simp only [hexecute] at hstep
      cases hstep
    | error f =>
      simp only [hexecute] at hstep
      cases hstep
      exact Sandbox.execute_ne_validation _ _ _ hfits message hexecute
  · cases hrefusals _ hrefused

end Tabulate

/-! ## What is checked when a script is taken in -/

section Operations

variable {service : Service} {α : Type} {s s' : Store} {user : User} {id : Int}

/-- What is said of a script that is too long. -/
def Report.tooLong (r : Report) : Failure :=
  .validation s!"script source is {r.source.utf8ByteSize} bytes, limit is {65535}"

/-- **A script that is too long is not kept**: the connection is not used at all. -/
theorem outcome_createReport_of_long {draft : Report} (h : 65536 ≤ draft.source.utf8ByteSize)
    (c : Connection) :
    outcome ((Operation.createReport user draft).perform service) c
      = (.error draft.tooLong, c) := by
  rw [Operation.perform, Report.validate_of_long h]
  rfl

/-- **A script that is too long replaces none**: the connection is not used at all. -/
theorem outcome_updateReport_of_long {r : Report} (hid : r.id = id)
    (h : 65536 ≤ r.source.utf8ByteSize) (c : Connection) :
    outcome ((Operation.updateReport user id r).perform service) c = (.error r.tooLong, c) := by
  rw [Operation.perform, if_pos hid, Report.validate_of_long h]
  rfl

/-- A report that is not the one that is meant replaces none. -/
theorem outcome_updateReport_of_ne {r : Report} (hid : r.id ≠ id) (c : Connection) :
    outcome ((Operation.updateReport user id r).perform service) c
      = (.error (.validation s!"report id {r.id} in body does not match {id}"), c) := by
  rw [Operation.perform, if_neg hid]
  rfl

/-! ## All that is kept fits -/

/-- A request that writes no script. -/
def Request.WritesNoSource : Request α → Prop
  | insertReport _ | updateReport _ => False
  | _ => True

/-- **An operation that takes scripts in only with a check**: any one, but an errand may not write
scripts itself. -/
def Operation.IsChecked : Operation α → Prop
  | withTables errand => errand.OnlyAsks Request.WritesNoSource
  | _ => True

/-- **The scripts of a store fit.** -/
def Store.SourcesFit (s : Store) : Prop := ∀ r ∈ s.reports, r.source.utf8ByteSize < 65536

theorem Store.SourcesFit.addReport {r : Report} (h : s.SourcesFit)
    (hr : r.source.utf8ByteSize < 65536) : (s.apply (.addReport r)).SourcesFit := by
  intro q hq
  obtain hq | hq := List.mem_append.mp hq
  · exact h q hq
  · rw [List.mem_singleton.mp hq]
    exact hr

theorem Store.SourcesFit.replaceReport {r : Report} (h : s.SourcesFit)
    (hr : r.source.utf8ByteSize < 65536) : (s.apply (.replaceReport r)).SourcesFit := by
  intro q hq
  obtain ⟨old, hold, rfl⟩ := List.mem_map.mp hq
  rw [LedgerReports.replaceReport]
  split
  · exact hr
  · exact h old hold

theorem Store.SourcesFit.removeReport (h : s.SourcesFit) (owner id : Int) :
    (s.apply (.removeReport owner id)).SourcesFit :=
  fun q hq => h q (List.mem_filter.mp hq).1

/-- A request that writes no script keeps them fitting. -/
theorem Request.WritesNoSource.pends {q : Request α} (hq : q.WritesNoSource) :
    Connection.Pends q.run fun s _ s' => s.SourcesFit → s'.SourcesFit := by
  refine Request.pends_keeps fun s a c hc t ht => ?_
  cases q with
  | insertReport | updateReport => cases hq
  | deleteReport owner id =>
    cases a with
    | true =>
      obtain rfl := List.mem_singleton.mp hc
      exact ht.removeReport owner id
    | false => cases hc
  | postTransaction =>
    obtain rfl | hc := List.mem_cons.mp hc
    · exact ht
    · obtain ⟨row, -, rfl⟩ := List.mem_map.mp hc
      exact ht
  | createUser | createSession | createSecurity | createAccount | createPrice =>
    obtain rfl := List.mem_singleton.mp hc
    exact ht
  | findUser | userForSession | report | reports => cases hc

/-- **An operation that checks the scripts keeps them fitting.** -/
theorem Store.SourcesFit.of_leads {op : Operation α} (h : s.SourcesFit) (hop : op.IsChecked)
    (hleads : op.Leads service s s') : s'.SourcesFit := by
  have hreading (hatomic : ∀ refusals, op.Atomic service s refusals) (hr : op.IsReading) :
      s'.SourcesFit := by
    obtain rfl | ⟨a, changes, hwrites, rfl⟩ := hleads.cases hatomic
    · exact h
    · rw [hr.eq_nil hwrites]
      exact h
  cases op with
  | createReport user draft =>
    obtain hfits | hlong := Nat.lt_or_ge draft.source.utf8ByteSize 65536
    case inr =>
      obtain ⟨refusals, result, refusals', hrun⟩ := hleads
      rw [outcome_createReport_of_long hlong] at hrun
      cases hrun
      exact h
    obtain rfl | ⟨r, changes, ⟨rfl, rfl⟩, rfl⟩ :=
      hleads.cases (atomic_createReport service user draft)
    · exact h
    · exact h.addReport hfits
  | updateReport user id r =>
    obtain hfits | hlong := Nat.lt_or_ge r.source.utf8ByteSize 65536
    case inr =>
      obtain ⟨refusals, result, refusals', hrun⟩ := hleads
      by_cases hid : r.id = id
      · rw [outcome_updateReport_of_long hid hlong] at hrun
        cases hrun
        exact h
      · rw [outcome_updateReport_of_ne hid] at hrun
        cases hrun
        exact h
    obtain rfl | ⟨r', changes, ⟨rfl, rfl⟩, rfl⟩ :=
      hleads.cases (atomic_updateReport service user id r)
    · exact h
    · exact h.replaceReport hfits
  | deleteReport user id =>
    obtain rfl | ⟨u, changes, hwrites, rfl⟩ := hleads.cases (atomic_deleteReport service user id)
    · exact h
    · have hchanges : changes = [.removeReport user.id id] := hwrites
      rw [hchanges]
      exact h.removeReport user.id id
  | report user id => exact hreading (atomic_report service user id) (.report user id)
  | reports user => exact hreading (atomic_reports service user) (.reports user)
  | userForSession secret =>
    exact hreading (atomic_userForSession service secret) (.userForSession secret)
  | tabulate user id => exact hreading (atomic_tabulate service user id) (.tabulate user id)
  | withTables errand =>
    exact Errand.keeps_of_leads (Errand.pends_keeps hop fun _ hq => hq.pends) hleads h

/-- **All scripts that a service keeps fit**, begun with empty tables. -/
theorem sourcesFit_of_reaches (h : service.Reaches Operation.IsChecked {} s) : s.SourcesFit := by
  induction h with
  | start => exact fun _ hr => nomatch hr
  | perform _ hop hleads ih => exact ih.of_leads hop hleads

/-- **Every script that is kept fits the limit**, after any run of operations by any users in which
no errand writes a script by itself. So a report that is there is never refused as invalid
when it is run; the failures that the database refuses to go on with are faults. A script that
is too long is refused as invalid, kept or given as a replacement, and whether there is
such a user or such a report is not looked at: the connection is left as it was. -/
theorem stored_sources_fit (h : service.Reaches Operation.IsChecked {} s) :
    (∀ r ∈ s.reports, r.source.utf8ByteSize < 65536)
      ∧ (∀ (user : User) (id : Int) (r : Report), s.report? user.id id = some r →
          ∀ refusals, (∀ f, some f ∈ refusals → f.isFault = true) → ∀ message,
            (outcome ((Operation.tabulate user id).perform service) ⟨s, none, refusals⟩).1
              ≠ .error (.validation message))
      ∧ (∀ (user : User) (draft : Report), 65536 ≤ draft.source.utf8ByteSize → ∀ c,
          outcome ((Operation.createReport user draft).perform service) c
            = (.error draft.tooLong, c))
      ∧ ∀ (user : User) (id : Int) (r : Report), 65536 ≤ r.source.utf8ByteSize →
          (r.id = id → ∀ c, outcome ((Operation.updateReport user id r).perform service) c
            = (.error r.tooLong, c))
          ∧ ∃ message, ∀ c, outcome ((Operation.updateReport user id r).perform service) c
            = (.error (.validation message), c) := by
  have hfits := sourcesFit_of_reaches h
  refine ⟨hfits, fun user id r hr refusals hrefusals => ?_,
    fun user draft hlong => outcome_createReport_of_long hlong, fun user id r hlong =>
      ⟨fun hid => outcome_updateReport_of_long hid hlong, ?_⟩⟩
  · exact tabulate_ne_validation hr (hfits r (List.mem_of_find?_eq_some hr)) hrefusals
  · by_cases hid : r.id = id
    · exact ⟨_, outcome_updateReport_of_long hid hlong⟩
    · exact ⟨_, outcome_updateReport_of_ne hid⟩

/-- Ann keeps a report, replaces its script, runs it, and cannot replace it by one that is too
long. -/
theorem stored_sources_fit_after_update :
    let ann : User := ⟨1, "ann", 1⟩
    let s : Store := { users := [ann], reports := [⟨1, 1, "worth", "y"⟩] }
    let long : Report := ⟨1, 1, "long", String.ofList (List.replicate 65536 'x')⟩
    Service.Reaches {} Operation.IsChecked {} s
      ∧ (∀ r ∈ s.reports, r.source.utf8ByteSize < 65536)
      ∧ (∀ message, (outcome ((Operation.tabulate ann 1).perform {})
          ⟨s, none, [none, none, some (.persistence "disk is full")]⟩).1
            ≠ .error (.validation message))
      ∧ outcome ((Operation.updateReport ann 1 long).perform {}) ⟨s, none, []⟩
          = (.error long.tooLong, ⟨s, none, []⟩) := by
  intro ann s long
  have hann : Service.Reaches {} Operation.IsChecked {} { users := [ann] } :=
    Service.Reaches.start.ask (q := .createUser "ann" 1) ⟨trivial, fun _ => trivial⟩ rfl
  have hcreate : (Operation.createReport ann ⟨7, 2, "net worth", "x"⟩).Leads {} { users := [ann] }
      { users := [ann], reports := [⟨1, 1, "net worth", "x"⟩] } :=
    ⟨[], .ok ⟨1, 1, "net worth", "x"⟩, [], rfl⟩
  have hupdate : (Operation.updateReport ann 1 ⟨1, 2, "worth", "y"⟩).Leads {}
      { users := [ann], reports := [⟨1, 1, "net worth", "x"⟩] } s :=
    ⟨[], .ok ⟨1, 1, "worth", "y"⟩, [], rfl⟩
  have hreaches : Service.Reaches {} Operation.IsChecked {} s :=
    (hann.perform (by trivial) hcreate).perform (by trivial) hupdate
  have hsize (n : Nat) : (String.ofList (List.replicate n 'x')).utf8ByteSize = n := by
    rw [← String.size_toByteArray, String.toByteArray_ofList, List.utf8Encode,
      List.size_toByteArray, List.length_flatMap, List.map_replicate, List.sum_replicate_nat,
      String.length_utf8EncodeChar]
    exact Nat.mul_one n
  obtain ⟨hfits, hvalid, -, hrefused⟩ := stored_sources_fit hreaches
  refine ⟨hreaches, hfits, hvalid ann 1 ⟨1, 1, "worth", "y"⟩ rfl _ ?_,
    (hrefused ann 1 long (Nat.le_of_eq (hsize 65536).symm)).1 rfl _⟩
  simp [Failure.isFault]

end Operations

end LedgerReports
