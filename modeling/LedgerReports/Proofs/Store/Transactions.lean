import LedgerReports.Proofs.Store.Writes
import LedgerReports.Service
import Mathlib

/-!
# Work in a transaction

While a transaction is open, statements change its pending tables and nothing
else. `Pends work post` says this of some work, together with how the work can
end: `post` relates the pending tables before it, its result, and the pending
tables after it, whatever is refused on the way. It goes through sequences
(`Pends.bind`), so each request needs one lemma only: a request that is answered
has done what its one-step form does, and one that fails has left nothing, or
the first of the rows that it was to write (`Request.pends`).

What the work has done comes to the tables that are kept by a commit only. So a
transaction either fails and they are as before, or it succeeds and they are the
pending ones (`outcome_transaction`).

A failure after some statements is not a rollback of the request. Where nothing
is refused the difference does not show (`Request.undisturbed`): the only request
that writes several rows has then checked beforehand that it can.
-/

namespace LedgerReports

open Connection (attempt statement transaction)

namespace Connection

variable {α β : Type}

/-- How a step on a connection ends, and the connection afterwards. -/
def outcome (x : ConnectionM α) (c : Connection) : Except Failure α × Connection := x.run.run c

section Outcomes

variable (c : Connection)

@[simp]
theorem outcome_pure (a : α) : outcome (pure a) c = (.ok a, c) := rfl

@[simp]
theorem outcome_throw (f : Failure) : outcome (throw f : ConnectionM α) c = (.error f, c) := rfl

@[simp]
theorem outcome_liftM (e : Except Failure α) : outcome (liftM e) c = (e, c) := rfl

@[simp]
theorem outcome_get : outcome get c = (.ok c, c) := rfl

@[simp]
theorem outcome_modify (f : Connection → Connection) : outcome (modify f) c = (.ok (), f c) := rfl

theorem outcome_bind (x : ConnectionM α) (f : α → ConnectionM β) :
    outcome (x >>= f) c
      = match outcome x c with
        | (.ok a, c) => outcome (f a) c
        | (.error e, c) => (.error e, c) := by
  unfold outcome
  rw [ExceptT.run_bind, StateT.run_bind]
  generalize x.run.run c = ending
  obtain ⟨result, c'⟩ := ending
  cases result <;> rfl

theorem outcome_tryCatch (x : ConnectionM α) (handle : Failure → ConnectionM α) :
    outcome (tryCatch x handle) c
      = match outcome x c with
        | (.ok a, c) => (.ok a, c)
        | (.error e, c) => outcome (handle e) c := by
  unfold outcome
  rw [ExceptT.run_tryCatch, StateT.run_bind]
  generalize x.run.run c = ending
  obtain ⟨result, c'⟩ := ending
  cases result <;> rfl

/-- The ways through a transaction: it does not begin, its work fails, it is not committed, or it
is. -/
theorem outcome_transaction_eq (work : ConnectionM α) :
    outcome (transaction work) c
      = match outcome attempt c with
        | (.error f, c) => (.error f, c)
        | (.ok _, c) =>
          match outcome work c.opened with
          | (.error f, c) => (.error f, c.dropped)
          | (.ok a, c) =>
            match outcome attempt c with
            | (.error f, c) => (.error f, c.dropped)
            | (.ok _, c) => (.ok a, c.committed) := by
  rw [transaction, outcome_bind]
  obtain ⟨begun, c₁⟩ := outcome attempt c
  cases begun with
  | error f => rfl
  | ok _ =>
    simp only
    rw [outcome_bind, outcome_modify]
    simp only
    rw [outcome_tryCatch, outcome_bind]
    obtain ⟨result, c₂⟩ := outcome work c₁.opened
    cases result with
    | error f => rfl
    | ok a =>
      simp only
      rw [outcome_bind]
      obtain ⟨committed, c₃⟩ := outcome attempt c₂
      cases committed <;> rfl

/-- How a step ends can be seen without failing. -/
theorem outcome_lift_run (x : ConnectionM α) :
    outcome (ExceptT.lift x.run) c = (.ok (outcome x c).1, (outcome x c).2) := rfl

/-- An attempt is let through or refused, and then it is gone. -/
theorem outcome_attempt (kept : Store) (pending : Option Store)
    (refusals : List (Option Failure)) :
    ∃ refusals', outcome attempt ⟨kept, pending, refusals⟩ = (.ok (), ⟨kept, pending, refusals'⟩)
      ∨ ∃ f,
        outcome attempt ⟨kept, pending, refusals⟩ = (.error f, ⟨kept, pending, refusals'⟩) := by
  cases refusals with
  | nil => exact ⟨[], .inl rfl⟩
  | cons refusal refusals =>
    cases refusal with
    | none => exact ⟨refusals, .inl rfl⟩
    | some f => exact ⟨refusals, .inr ⟨f, rfl⟩⟩

theorem outcome_attempt_undisturbed (kept : Store) (pending : Option Store) :
    outcome attempt ⟨kept, pending, []⟩ = (.ok (), ⟨kept, pending, []⟩) := rfl

end Outcomes

/-! ## Pending tables -/

/-- **Work in a transaction changes the pending tables only**, and ends as a condition says that
relates them before, the result, and them afterwards. -/
def Pends (work : ConnectionM α) (post : Store → Except Failure α → Store → Prop) : Prop :=
  ∀ kept t refusals, ∃ result t' refusals',
    outcome work ⟨kept, some t, refusals⟩ = (result, ⟨kept, some t', refusals'⟩)
      ∧ post t result t'

/-- How one statement ends: it was run, or nothing was done. -/
inductive StatementEnds (step : StoreM α) (s : Store) : Except Failure α → Store → Prop where
  /-- It was run. -/
  | answered {a : α} {s' : Store} (h : step.run s = .ok (a, s')) : StatementEnds step s (.ok a) s'
  /-- It failed or was refused. -/
  | failed (f : Failure) : StatementEnds step s (.error f) s

/-- How a sequence ends: with the second work, or with a failure of the first. -/
inductive SequenceEnds (post : Store → Except Failure α → Store → Prop)
    (next : α → Store → Except Failure β → Store → Prop) (s : Store) :
    Except Failure β → Store → Prop where
  /-- The first work succeeds. -/
  | answered {a : α} {t s' : Store} {result : Except Failure β} (h : post s (.ok a) t)
      (hnext : next a t result s') : SequenceEnds post next s result s'
  /-- The first work fails. -/
  | failed {f : Failure} {s' : Store} (h : post s (.error f) s') :
      SequenceEnds post next s (.error f) s'

section Pending

variable {work : ConnectionM α} {post post' : Store → Except Failure α → Store → Prop}

theorem Pends.mono (h : Pends work post) (hpost : ∀ s result s', post s result s' →
    post' s result s') : Pends work post' := by
  intro kept t refusals
  obtain ⟨result, t', refusals', houtcome, hresult⟩ := h kept t refusals
  exact ⟨result, t', refusals', houtcome, hpost _ _ _ hresult⟩

theorem Pends.liftM (e : Except Failure α) :
    Pends (liftM e) fun s result s' => result = e ∧ s' = s :=
  fun _ t refusals => ⟨e, t, refusals, rfl, rfl, rfl⟩

theorem Pends.pure (a : α) :
    Pends (pure a) fun s result s' => result = .ok a ∧ s' = s :=
  Pends.liftM (.ok a)

theorem Pends.bind (h : Pends work post) {next : α → ConnectionM β}
    {Q : α → Store → Except Failure β → Store → Prop} (hnext : ∀ a, Pends (next a) (Q a)) :
    Pends (work >>= next) (SequenceEnds post Q) := by
  intro kept t refusals
  obtain ⟨result, t', refusals', houtcome, hresult⟩ := h kept t refusals
  rw [outcome_bind, houtcome]
  cases result with
  | error f => exact ⟨.error f, t', refusals', rfl, .failed hresult⟩
  | ok a =>
    obtain ⟨result, t'', refusals'', houtcome', hresult'⟩ := hnext a kept t' refusals'
    exact ⟨result, t'', refusals'', houtcome', .answered hresult hresult'⟩

theorem Pends.statement (step : StoreM α) : Pends (statement step) (StatementEnds step) := by
  intro kept t refusals
  obtain ⟨refusals', hattempt | ⟨f, hattempt⟩⟩ := outcome_attempt kept (some t) refusals
  · unfold Connection.statement
    rw [outcome_bind, hattempt]
    simp only
    rw [outcome_bind, outcome_get]
    simp only [Option.getD_some]
    cases hstep : step.run t with
    | error f => exact ⟨.error f, t, refusals', rfl, .failed f⟩
    | ok result =>
      obtain ⟨a, t'⟩ := result
      exact ⟨.ok a, t', refusals', rfl, .answered hstep⟩
  · refine ⟨.error f, t, refusals', ?_, .failed f⟩
    unfold Connection.statement
    rw [outcome_bind, hattempt]

/-- **A transaction is committed or rolled back**: it fails, and the tables are as they were, or it
succeeds, and they are the pending ones of its work. It is not left open. -/
theorem outcome_transaction (h : Pends work post) (s : Store) (refusals : List (Option Failure)) :
    ∃ result s' refusals',
      outcome (transaction work) ⟨s, none, refusals⟩ = (result, ⟨s', none, refusals'⟩)
        ∧ ((∃ f, result = .error f ∧ s' = s) ∨ ∃ a, result = .ok a ∧ post s (.ok a) s') := by
  rw [outcome_transaction_eq]
  obtain ⟨refusals₁, hbegin | ⟨f, hbegin⟩⟩ := outcome_attempt s none refusals
  case inr => exact ⟨.error f, s, refusals₁, by rw [hbegin], .inl ⟨f, rfl, rfl⟩⟩
  obtain ⟨result, t', refusals₂, hwork, hresult⟩ := h s s refusals₁
  have hwork : outcome work (opened ⟨s, none, refusals₁⟩) = (result, ⟨s, some t', refusals₂⟩) :=
    hwork
  simp only [hbegin, hwork]
  cases result with
  | error f => exact ⟨.error f, s, refusals₂, rfl, .inl ⟨f, rfl, rfl⟩⟩
  | ok a =>
    obtain ⟨refusals₃, hcommit | ⟨f, hcommit⟩⟩ := outcome_attempt s (some t') refusals₂
    · simp only [hcommit]
      exact ⟨.ok a, t', refusals₃, rfl, .inr ⟨a, rfl, hresult⟩⟩
    · simp only [hcommit]
      exact ⟨.error f, s, refusals₃, rfl, .inl ⟨f, rfl, rfl⟩⟩

end Pending

/-- Some statements are all run, or the first of them are and then one is not. -/
inductive StatementsEnd {γ : Type} (step : γ → StoreM Unit) (xs : List γ) (s : Store) :
    Except Failure Unit → Store → Prop where
  /-- All are run. -/
  | answered {s' : Store} (h : (xs.forM step).run s = .ok ((), s')) :
      StatementsEnd step xs s (.ok ()) s'
  /-- One of them is not run. -/
  | failed {f : Failure} {s' : Store} {run rest : List γ} (hrest : rest ≠ [])
      (hxs : xs = run ++ rest) (h : (run.forM step).run s = .ok ((), s')) :
      StatementsEnd step xs s (.error f) s'

theorem Pends.forM {γ : Type} (step : γ → StoreM Unit) (xs : List γ) :
    Pends (xs.forM fun x => Connection.statement (step x)) (StatementsEnd step xs) := by
  induction xs with
  | nil => exact fun kept t refusals => ⟨.ok (), t, refusals, rfl, .answered rfl⟩
  | cons x xs ih =>
    rw [List.forM]
    refine ((Pends.statement (step x)).bind fun _ => ih).mono fun s result s' h => ?_
    have hrun {ys : List γ} {t t' : Store} (hx : (step x).run s = .ok ((), t))
        (hys : (ys.forM step).run t = .ok ((), t')) :
        ((x :: ys).forM step).run s = .ok ((), t') := by
      rw [List.forM]
      exact run_bind_ok_iff.mpr ⟨(), t, hx, hys⟩
    cases h with
    | failed h =>
      cases h
      exact .failed (List.cons_ne_nil x xs) (List.nil_append (x :: xs)).symm rfl
    | answered h hnext =>
      cases h with
      | answered hx =>
        cases hnext with
        | answered hxs => exact .answered (hrun hx hxs)
        | failed hrest hxs hrun' =>
          exact .failed hrest (congrArg (x :: ·) hxs) (hrun hx hrun')

end Connection

/-! ## Requests -/

section Requests

open Connection (Pends StatementEnds StatementsEnd outcome)

variable {α : Type} {s s' : Store}

/-- **What a request that failed has left**: nothing, or the first of the rows that it was to write,
but not all of them. -/
inductive Request.Leaves (s : Store) (q : Request α) : List Change → Prop where
  /-- Nothing. -/
  | nothing : Leaves s q []
  /-- The first rows. -/
  | first {a : α} {changes rest : List Change} (hrest : rest ≠ [])
      (h : q.writes s a = changes ++ rest) : Leaves s q changes

/-- **How a request ends.** -/
inductive Request.Ends (q : Request α) (s : Store) : Except Failure α → Store → Prop where
  /-- It is answered, and has done what its one-step form does. -/
  | answered {a : α} {s' : Store} (h : q.step.run s = .ok (a, s')) : Ends q s (.ok a) s'
  /-- It fails. -/
  | failed {f : Failure} {changes : List Change} (h : q.Leaves s changes) :
      Ends q s (.error f) (s.applyAll changes)

theorem Request.pends_of_statement {q : Request α} (h : q.run = Connection.statement q.step) :
    Pends q.run q.Ends := by
  rw [h]
  refine (Pends.statement q.step).mono fun s result s' hends => ?_
  cases hends with
  | answered hrun => exact .answered hrun
  | failed f => exact .failed .nothing

theorem splitRows_append (transactionId first : Int) (splits rest : List (Int × Amount)) :
    splitRows transactionId first (splits ++ rest)
      = splitRows transactionId first splits
        ++ splitRows transactionId (first + splits.length) rest := by
  induction splits generalizing first with
  | nil => simp [splitRows]
  | cons split splits ih =>
    obtain ⟨accountId, amount⟩ := split
    rw [List.cons_append, splitRows, splitRows, ih, List.cons_append, List.length_cons]
    congr 3
    omega

theorem splitRows_ne_nil {transactionId first : Int} {splits : List (Int × Amount)}
    (h : splits ≠ []) : splitRows transactionId first splits ≠ [] := by
  cases splits with
  | nil => exact absurd rfl h
  | cons split splits => exact List.cons_ne_nil _ _

theorem nextSplitId_apply_addTransaction (s : Store) (row : Store.TransactionRow) :
    (s.apply (.addTransaction row)).nextSplitId = s.nextSplitId := rfl

/-- Recording a transaction can leave its row and the rows of the first splits. -/
theorem leaves_first_splits {user : User} {date : Date} {description : String} {id : Int}
    {splits run rest : List (Int × Amount)} (hrest : rest ≠ []) (h : splits = run ++ rest) :
    (Request.postTransaction user date description splits).Leaves s
      (.addTransaction { id, userId := user.id, description, date := date.toText }
        :: (splitRows id s.nextSplitId run).map .addSplit) := by
  have hwrites : (Request.postTransaction user date description splits).writes s id
      = (.addTransaction { id, userId := user.id, description, date := date.toText }
          :: (splitRows id s.nextSplitId run).map .addSplit)
        ++ (splitRows id (s.nextSplitId + run.length) rest).map .addSplit := by
    rw [Request.writes, h, splitRows_append, List.map_append]
    rfl
  exact .first (fun hnil => splitRows_ne_nil hrest (List.map_eq_nil_iff.mp hnil)) hwrites

/-- The statements of a request to record a transaction. -/
theorem pends_postTransaction (user : User) (date : Date) (description : String)
    (splits : List (Int × Amount)) :
    Pends (Request.postTransaction user date description splits).run
      (Request.postTransaction user date description splits).Ends := by
  have hadd (id : Int) :=
    (Pends.forM (fun split => Store.createSplit id split.1 split.2) splits).bind fun _ =>
      Pends.pure id
  have hrecord := (Pends.statement (Store.createTransaction user date description)).bind hadd
  have hall :=
    (Pends.forM (fun split => Store.checkOwner user split.1) splits).bind fun _ => hrecord
  refine hall.mono fun s result s' h => ?_
  cases h with
  | failed h =>
    -- an account is not the user's
    cases h with
    | failed hrest hxs hrun =>
      rw [(eq_of_checkOwners hrun).1]
      exact .failed .nothing
  | answered hchecks hrest =>
    cases hchecks with
    | answered hchecks =>
      obtain ⟨rfl, -⟩ := eq_of_checkOwners hchecks
      cases hrest with
      | failed h =>
        cases h
        exact .failed .nothing
      | answered htransaction hrest =>
        cases htransaction with
        | answered htransaction =>
          have hrow := apply_of_createTransaction htransaction
          cases hrest with
          | failed h =>
            -- a split is not added: the row of the transaction stays, and the splits before it
            cases h with
            | failed hrest hxs hrun =>
              have hsplits := applyAll_of_createSplits hrun
              rw [hrow, nextSplitId_apply_addTransaction, ← Store.applyAll_cons] at hsplits
              rw [hsplits]
              exact .failed (leaves_first_splits hrest hxs)
          | answered hsplits hend =>
            obtain ⟨rfl, rfl⟩ := hend
            cases hsplits with
            | answered hsplits =>
              refine .answered ?_
              rw [Request.step, Store.postTransaction_eq]
              exact run_bind_ok_iff.mpr ⟨_, _, hchecks, run_bind_ok_iff.mpr
                ⟨_, _, htransaction, run_bind_ok_iff.mpr ⟨_, _, hsplits, rfl⟩⟩⟩

theorem pends_userForSession (secret : String) :
    Pends (Request.userForSession secret).run (Request.userForSession secret).Ends := by
  rw [Request.run]
  refine ((Pends.statement _).bind (Q := fun session? s result s' =>
    s' = s ∧ ∀ user?, result = .ok user? →
      user? = session?.bind fun session => s.user? session.userId) fun session? => ?_).mono
      fun s result s' h => ?_
  · cases session? with
    | none =>
      refine (Pends.pure none).mono fun s result s' h => ⟨h.2, fun user? huser => ?_⟩
      rw [h.1] at huser
      cases huser
      rfl
    | some session =>
      refine (Pends.statement _).mono fun s result s' h => ?_
      cases h with
      | answered hrun =>
        cases hrun
        exact ⟨rfl, fun user? huser => by cases huser; rfl⟩
      | failed f => exact ⟨rfl, nofun⟩
  · cases h with
    | failed h =>
      cases h
      exact .failed .nothing
    | answered h hnext =>
      cases h with
      | answered hrun =>
        cases hrun
        obtain ⟨rfl, huser⟩ := hnext
        cases result with
        | error f => exact .failed .nothing
        | ok user? =>
          refine .answered ?_
          rw [huser user? rfl]
          rfl

/-- **A request in a transaction is answered as its one-step form is, or fails** and leaves nothing
or the first of its rows. -/
theorem Request.pends (q : Request α) : Pends q.run q.Ends := by
  cases q with
  | userForSession secret => exact pends_userForSession secret
  | postTransaction user date description splits =>
    exact pends_postTransaction user date description splits
  | _ => exact Request.pends_of_statement rfl

end Requests

/-! ## Where nothing is refused -/

namespace Connection

open Service (transact)

variable {α β : Type} {t : Store}

/-- Where nothing is refused, some work in a transaction does what a step does that does all or
nothing. -/
def Undisturbed (work : ConnectionM α) (step : StoreM α) (t : Store) : Prop :=
  ∀ kept, outcome work ⟨kept, some t, []⟩
    = ((transact step t).1, ⟨kept, some (transact step t).2, []⟩)

theorem undisturbed_statement (step : StoreM α) (t : Store) :
    Undisturbed (statement step) step t := by
  intro kept
  rw [statement, outcome_bind, outcome_attempt_undisturbed]
  simp only
  rw [outcome_bind, outcome_get]
  simp only [Option.getD_some, transact]
  cases step.run t <;> rfl

theorem undisturbed_pure (a : α) (t : Store) : Undisturbed (pure a) (pure a) t := fun _ => rfl

/-- A sequence does all or nothing if the first step changes nothing or the second one succeeds. -/
theorem Undisturbed.bind {work : ConnectionM α} {step : StoreM α} {next : α → ConnectionM β}
    {nextStep : α → StoreM β} (h : Undisturbed work step t)
    (hnext : ∀ a t', step.run t = .ok (a, t') → Undisturbed (next a) (nextStep a) t'
      ∧ (t' = t ∨ ∃ result, (nextStep a).run t' = .ok result)) :
    Undisturbed (work >>= next) (step >>= nextStep) t := by
  intro kept
  rw [outcome_bind, h kept]
  cases hstep : step.run t with
  | error f =>
    have hall : (step >>= nextStep).run t = .error f := by
      rw [StateT.run_bind, hstep]
      rfl
    rw [transact_of_error hstep, transact_of_error hall]
  | ok result =>
    obtain ⟨a, t'⟩ := result
    obtain ⟨hrest, hsafe⟩ := hnext a t' hstep
    have hall : (step >>= nextStep).run t = (nextStep a).run t' := by
      rw [StateT.run_bind, hstep]
      rfl
    rw [transact_of_ok hstep]
    simp only
    rw [hrest kept]
    cases hresult : (nextStep a).run t' with
    | error f =>
      obtain rfl | ⟨result, hsafe⟩ := hsafe
      · rw [transact_of_error hresult, transact_of_error (hall.trans hresult)]
      · rw [hresult] at hsafe
        cases hsafe
    | ok result => rw [transact_of_ok hresult, transact_of_ok (hall.trans hresult)]

/-- Statements that only look change nothing on the way. -/
theorem undisturbed_checkOwners (user : User) (splits : List (Int × Amount)) (t : Store) :
    Undisturbed (splits.forM fun split => statement (Store.checkOwner user split.1))
      (splits.forM fun split => Store.checkOwner user split.1) t := by
  induction splits with
  | nil => exact undisturbed_pure () t
  | cons split splits ih =>
    rw [List.forM, List.forM]
    refine (undisturbed_statement _ t).bind fun u t' hcheck => ?_
    rw [(eq_of_checkOwner hcheck).1]
    exact ⟨ih, .inl rfl⟩

/-- Splits of accounts that are there can be added to a transaction that is there. -/
theorem exists_run_createSplits {transactionId : Int} {splits : List (Int × Amount)}
    (htransaction : t.hasTransaction transactionId = true)
    (haccounts : ∀ split ∈ splits, t.hasAccount split.1 = true) :
    ∃ t', (splits.forM fun split => Store.createSplit transactionId split.1 split.2).run t
      = .ok ((), t') := by
  induction splits generalizing t with
  | nil => exact ⟨t, rfl⟩
  | cons split splits ih =>
    obtain ⟨haccount, hrest⟩ := List.forall_mem_cons.mp haccounts
    have hsplit := run_createSplit t transactionId split.1 split.2
    rw [htransaction, haccount] at hsplit
    obtain ⟨t', hsplits⟩ := ih (t := t.apply (.addSplit _)) htransaction hrest
    refine ⟨t', ?_⟩
    rw [List.forM]
    exact run_bind_ok_iff.mpr ⟨(), _, hsplit, hsplits⟩

theorem undisturbed_createSplits {transactionId : Int} {splits : List (Int × Amount)}
    (htransaction : t.hasTransaction transactionId = true)
    (haccounts : ∀ split ∈ splits, t.hasAccount split.1 = true) :
    Undisturbed
      (splits.forM fun split => statement (Store.createSplit transactionId split.1 split.2))
      (splits.forM fun split => Store.createSplit transactionId split.1 split.2) t := by
  induction splits generalizing t with
  | nil => exact undisturbed_pure () t
  | cons split splits ih =>
    obtain ⟨haccount, hrest⟩ := List.forall_mem_cons.mp haccounts
    rw [List.forM, List.forM]
    refine (undisturbed_statement _ t).bind fun u t' hsplit => ?_
    rw [run_createSplit, htransaction, haccount] at hsplit
    cases hsplit
    obtain ⟨t'', hsplits⟩ := exists_run_createSplits (t := t.apply (.addSplit _)) htransaction hrest
    exact ⟨ih htransaction hrest, .inr ⟨_, hsplits⟩⟩

theorem undisturbed_postTransaction (user : User) (date : Date) (description : String)
    (splits : List (Int × Amount)) (t : Store) :
    Undisturbed (Request.postTransaction user date description splits).run
      (Request.postTransaction user date description splits).step t := by
  rw [Request.step, Store.postTransaction_eq]
  refine (undisturbed_checkOwners user splits t).bind fun u t' hchecks => ?_
  obtain ⟨rfl, haccounts⟩ := eq_of_checkOwners hchecks
  refine ⟨(undisturbed_statement _ t').bind fun id t'' htransaction => ?_, .inl rfl⟩
  -- the accounts are there, and so is the transaction, so that the splits are all added
  have hrow := apply_of_createTransaction htransaction
  have hthere : t''.hasTransaction id = true := by
    rw [hrow]
    exact List.any_eq_true.mpr ⟨_, List.mem_append_right _ List.mem_cons_self, beq_self_eq_true id⟩
  have haccounts : ∀ split ∈ splits, t''.hasAccount split.1 = true := by
    rw [hrow]
    exact haccounts
  obtain ⟨t₃, hsplits⟩ := exists_run_createSplits hthere haccounts
  refine ⟨(undisturbed_createSplits hthere haccounts).bind fun u t₄ _ => ?_, .inr ⟨(id, t₃), ?_⟩⟩
  · exact ⟨undisturbed_pure id t₄, .inr ⟨_, rfl⟩⟩
  · exact run_bind_ok_iff.mpr ⟨(), t₃, hsplits, rfl⟩

theorem undisturbed_userForSession (secret : String) (t : Store) :
    Undisturbed (Request.userForSession secret).run (Request.userForSession secret).step t := by
  intro kept
  have hlook : transact (do return (← get).sessions.find? (·.secret == secret)) t
      = (.ok (t.sessions.find? (·.secret == secret)), t) := rfl
  have hstep : transact (Request.userForSession secret).step t
      = (.ok (t.userForSession? secret), t) := rfl
  rw [Request.run, outcome_bind, undisturbed_statement, hlook, hstep, Store.userForSession?]
  dsimp only
  cases t.sessions.find? (·.secret == secret) with
  | none => rfl
  | some session => exact undisturbed_statement _ t kept

theorem undisturbed_of_statement {q : Request α} (h : q.run = statement q.step) (t : Store) :
    Undisturbed q.run q.step t :=
  h ▸ undisturbed_statement q.step t

/-- **Where nothing is refused, a request does all or nothing.** -/
theorem undisturbed_request (q : Request α) (t : Store) : Undisturbed q.run q.step t := by
  cases q with
  | userForSession secret => exact undisturbed_userForSession secret t
  | postTransaction user date description splits =>
    exact undisturbed_postTransaction user date description splits t
  | _ => exact undisturbed_of_statement rfl t

/-- Where nothing is refused, work that ends like a step does in a transaction what the step
does. -/
theorem outcome_transaction_undisturbed {work : ConnectionM α} {step : StoreM α} {s s' : Store}
    (h : outcome work ⟨s, some s, []⟩ = ((transact step s).1, ⟨s, some s', []⟩))
    (hs' : ∀ a, (transact step s).1 = .ok a → s' = (transact step s).2) :
    outcome (transaction work) ⟨s, none, []⟩
      = ((transact step s).1, ⟨(transact step s).2, none, []⟩) := by
  have hwork : outcome work (opened ⟨s, none, []⟩) = _ := h
  rw [outcome_transaction_eq, outcome_attempt_undisturbed]
  simp only [hwork]
  cases hstep : step.run s with
  | error f =>
    rw [transact_of_error hstep]
    rfl
  | ok result =>
    rw [transact_of_ok hstep] at hs' ⊢
    rw [hs' _ rfl]
    rfl

end Connection

end LedgerReports
