import LedgerReports.Proofs.Store.Reports
import LedgerReports.Store.Request

/-!
# What a request writes

A change of a store is a change of one row, or of the reports that an owner has
under a number (`Change`). `Request.writes` says which changes a request makes
that is answered in some way, in their order; a request for something that is
there makes none. `applyAll_writes_of_step` says that these are all: the store
after the request is the one before with the changes applied.

A request to record a transaction is the only one that makes several changes.
What is behind it is that the splits get numbers in a row (`splitRows`).
-/

namespace LedgerReports

/-- A change of the tables. -/
inductive Change where
  /-- A new user. -/
  | addUser (user : User)
  /-- A new session. -/
  | addSession (row : Store.SessionRow)
  /-- A new security. -/
  | addSecurity (row : Store.SecurityRow)
  /-- A new account. -/
  | addAccount (row : Store.AccountRow)
  /-- A new transaction. -/
  | addTransaction (row : Store.TransactionRow)
  /-- A new split. -/
  | addSplit (row : Store.SplitRow)
  /-- A new price. -/
  | addPrice (row : Store.PriceRow)
  /-- A new report. -/
  | addReport (r : Report)
  /-- Name and source of the report with the number and the owner of this one. -/
  | replaceReport (r : Report)
  /-- The report of an owner with a number, taken away. -/
  | removeReport (owner id : Int)

/-- A store with a change. -/
def Store.apply (s : Store) : Change → Store
  | .addUser user => { s with users := s.users ++ [user] }
  | .addSession row => { s with sessions := s.sessions ++ [row] }
  | .addSecurity row => { s with securities := s.securities ++ [row] }
  | .addAccount row => { s with accounts := s.accounts ++ [row] }
  | .addTransaction row => { s with transactions := s.transactions ++ [row] }
  | .addSplit row => { s with splits := s.splits ++ [row] }
  | .addPrice row => { s with prices := s.prices ++ [row] }
  | .addReport r => { s with reports := s.reports ++ [r] }
  | .replaceReport r => { s with reports := s.reports.map (LedgerReports.replaceReport r) }
  | .removeReport owner id =>
    { s with reports := s.reports.filter fun r => !(r.owner == owner && r.id == id) }

/-- A store with some changes, one after the other. -/
def Store.applyAll (s : Store) (changes : List Change) : Store := changes.foldl Store.apply s

@[simp]
theorem Store.applyAll_nil (s : Store) : s.applyAll [] = s := rfl

@[simp]
theorem Store.applyAll_cons (s : Store) (change : Change) (changes : List Change) :
    s.applyAll (change :: changes) = (s.apply change).applyAll changes := rfl

theorem Store.applyAll_append (s : Store) (changes changes' : List Change) :
    s.applyAll (changes ++ changes') = (s.applyAll changes).applyAll changes' :=
  List.foldl_append

/-- The rows of the splits of a transaction, numbered from some number on. -/
def splitRows (transactionId : Int) : Int → List (Int × Amount) → List Store.SplitRow
  | _, [] => []
  | first, (accountId, amount) :: splits =>
    { id := first, transactionId, accountId, amount := amount.stored }
      :: splitRows transactionId (first + 1) splits

/-- The number of the next split. -/
def Store.nextSplitId (s : Store) : Int := Store.nextId (s.splits.map (·.id))

/-- **The changes that a request makes** in a store if it gives an answer. -/
def Request.writes {α : Type} (s : Store) : Request α → α → List Change
  | createUser .., user => [.addUser user]
  | createSession user secret, _ => [.addSession { secret, userId := user.id }]
  | createSecurity name symbol precision type, id =>
    [.addSecurity { id, name, description := name, symbol, precision, type := type.name }]
  | createAccount user name type securityId parentId, id =>
    [.addAccount { id, userId := user.id, securityId, parentId, name, type := type.name }]
  | postTransaction user date description splits, id =>
    .addTransaction { id, userId := user.id, description, date := date.toText }
      :: (splitRows id s.nextSplitId splits).map .addSplit
  | createPrice securityId currencyId date value, id =>
    [.addPrice { id, securityId, currencyId, date := date.toText, value := value.stored }]
  | insertReport r, id => [.addReport { r with id }]
  | updateReport r, found => if found then [.replaceReport r] else []
  | deleteReport owner id, found => if found then [.removeReport owner id] else []
  | findUser _, _ | userForSession _, _ | report .., _ | reports _, _ => []

/-! ## Runs of the steps -/

section Steps

variable {s s' t : Store} {α β : Type}

/-- A sequence of steps succeeds if both do. -/
theorem run_bind_ok_iff {x : StoreM α} {f : α → StoreM β} {b : β} :
    (x >>= f).run s = .ok (b, s')
      ↔ ∃ a t, x.run s = .ok (a, t) ∧ (f a).run t = .ok (b, s') := by
  rw [StateT.run_bind]
  cases x.run s with
  | error e => exact ⟨nofun, nofun⟩
  | ok result =>
    obtain ⟨a, t⟩ := result
    refine ⟨fun h => ⟨a, t, rfl, h⟩, ?_⟩
    rintro ⟨a', t', h, hf⟩
    cases h
    exact hf

theorem run_get_bind (f : Store → StoreM β) : (get >>= f : StoreM β).run s = (f s).run s := by
  rw [StateT.run_bind, StateT.run_get, pure_bind]

theorem run_checkReference (present : Bool) :
    (Store.checkReference present).run s
      = if present then .ok ((), s) else .error Store.brokenReference := by
  cases present <;> rfl

/-- A reference is checked first. -/
theorem run_checkReference_bind_ok {present : Bool} {f : Unit → StoreM β} {b : β}
    (h : (Store.checkReference present >>= f).run s = .ok (b, s')) :
    present = true ∧ (f ()).run s = .ok (b, s') := by
  obtain ⟨_, t, hcheck, hf⟩ := run_bind_ok_iff.mp h
  rw [run_checkReference] at hcheck
  cases present with
  | true =>
    cases hcheck
    exact ⟨rfl, hf⟩
  | false => cases hcheck

/-! ### Splits -/

theorem nextId_append_nextId (ids : List Int) :
    Store.nextId (ids ++ [Store.nextId ids]) = Store.nextId ids + 1 := by
  unfold Store.nextId
  rw [List.foldl_append, List.foldl_cons, List.foldl_nil]
  omega

theorem run_createSplit (s : Store) (transactionId accountId : Int) (amount : Amount) :
    (Store.createSplit transactionId accountId amount).run s
      = if s.hasTransaction transactionId && s.hasAccount accountId then
          .ok ((), s.apply (.addSplit
            { id := s.nextSplitId, transactionId, accountId, amount := amount.stored }))
        else .error Store.brokenReference := by
  rw [Store.createSplit, run_get_bind, StateT.run_bind, run_checkReference]
  split <;> rfl

theorem nextSplitId_apply_addSplit (s : Store) (row : Store.SplitRow) (h : row.id = s.nextSplitId) :
    (s.apply (.addSplit row)).nextSplitId = s.nextSplitId + 1 := by
  show Store.nextId ((s.splits ++ [row]).map (·.id)) = _
  rw [List.map_append, List.map_singleton, h]
  exact nextId_append_nextId _

/-- The splits of a transaction are the rows that are added. -/
theorem applyAll_of_createSplits {transactionId : Int} {splits : List (Int × Amount)} {u : Unit}
    (h : (splits.forM fun split => Store.createSplit transactionId split.1 split.2).run s
      = .ok (u, s')) :
    s' = s.applyAll ((splitRows transactionId s.nextSplitId splits).map .addSplit) := by
  induction splits generalizing s with
  | nil =>
    cases h
    rfl
  | cons split splits ih =>
    obtain ⟨accountId, amount⟩ := split
    rw [List.forM] at h
    obtain ⟨_, t, hsplit, hrest⟩ := run_bind_ok_iff.mp h
    rw [run_createSplit] at hsplit
    split at hsplit
    · cases hsplit
      have hrest := ih hrest
      rw [nextSplitId_apply_addSplit _ _ rfl] at hrest
      exact hrest
    · cases hsplit

/-- Checking who owns accounts changes nothing. -/
theorem eq_of_checkOwner {user : User} {accountId : Int} {u : Unit}
    (h : (Store.checkOwner user accountId).run s = .ok (u, s')) :
    s' = s ∧ s.hasAccount accountId = true := by
  rw [Store.checkOwner, run_get_bind] at h
  cases hfound : s.accounts.find? (·.id == accountId) with
  | none =>
    simp only [hfound] at h
    cases h
  | some row =>
    have hid := List.find?_some hfound
    refine ⟨?_, List.any_eq_true.mpr ⟨row, List.mem_of_find?_eq_some hfound, hid⟩⟩
    simp only at h
    split at h
    · cases h
      rfl
    · cases h

theorem eq_of_checkOwners {user : User} {splits : List (Int × Amount)} {u : Unit}
    (h : (splits.forM fun split => Store.checkOwner user split.1).run s = .ok (u, s')) :
    s' = s ∧ ∀ split ∈ splits, s.hasAccount split.1 = true := by
  induction splits generalizing s with
  | nil =>
    cases h
    exact ⟨rfl, nofun⟩
  | cons split splits ih =>
    rw [List.forM] at h
    obtain ⟨_, t, hsplit, hrest⟩ := run_bind_ok_iff.mp h
    obtain ⟨rfl, haccount⟩ := eq_of_checkOwner hsplit
    obtain ⟨rfl, haccounts⟩ := ih hrest
    exact ⟨rfl, List.forall_mem_cons.mpr ⟨haccount, haccounts⟩⟩

theorem apply_of_createTransaction {user : User} {date : Date} {description : String} {id : Int}
    (h : (Store.createTransaction user date description).run s = .ok (id, s')) :
    s' = s.apply (.addTransaction { id, userId := user.id, description, date := date.toText }) := by
  rw [Store.createTransaction, run_get_bind] at h
  obtain ⟨-, h⟩ := run_checkReference_bind_ok h
  cases h
  rfl

/-! ### Reports -/

/-- Without a row to replace, nothing is replaced. -/
theorem map_replaceReport_eq_self {r : Report} (h : s.report? r.owner r.id = none) :
    s.reports.map (replaceReport r) = s.reports := by
  refine (List.map_congr_left fun old hold => ?_).trans (List.map_id _)
  exact if_neg (List.find?_eq_none.mp h old hold)

/-- Without a row to take away, nothing is taken away. -/
theorem filter_not_eq_self {owner id : Int} (h : s.report? owner id = none) :
    s.reports.filter (fun r => !(r.owner == owner && r.id == id)) = s.reports := by
  refine List.filter_eq_self.mpr fun r hr => ?_
  rw [Bool.not_eq_true']
  exact Bool.eq_false_iff.mpr (List.find?_eq_none.mp h r hr)

/-- **A request makes the changes that it writes**, and no others. -/
theorem applyAll_writes_of_step {q : Request α} {a : α} (h : q.step.run s = .ok (a, s')) :
    s' = s.applyAll (q.writes s a) := by
  cases q with
  | createUser name defaultCurrency =>
    cases h
    rfl
  | findUser id =>
    cases h
    rfl
  | createSession user secret =>
    rw [Request.step, Store.createSession, run_get_bind] at h
    split at h
    · cases h
    · obtain ⟨-, h⟩ := run_checkReference_bind_ok h
      cases h
      rfl
  | userForSession secret =>
    cases h
    rfl
  | createSecurity name symbol precision type =>
    cases h
    rfl
  | createAccount user name type securityId parentId =>
    rw [Request.step, Store.createAccount, run_get_bind] at h
    obtain ⟨-, h⟩ := run_checkReference_bind_ok h
    obtain ⟨-, h⟩ := run_checkReference_bind_ok h
    obtain ⟨-, h⟩ := run_checkReference_bind_ok h
    cases h
    rfl
  | postTransaction user date description splits =>
    rw [Request.step, Store.postTransaction_eq] at h
    obtain ⟨_, t, hchecks, hrest⟩ := run_bind_ok_iff.mp h
    obtain ⟨id, t', htransaction, hrest⟩ := run_bind_ok_iff.mp hrest
    obtain ⟨_, t'', hsplits, hend⟩ := run_bind_ok_iff.mp hrest
    cases hend
    have hrow := apply_of_createTransaction htransaction
    rw [(eq_of_checkOwners hchecks).1] at hrow
    have hnext : t'.nextSplitId = s.nextSplitId := by
      rw [hrow]
      rfl
    rw [applyAll_of_createSplits hsplits, hnext, hrow]
    rfl
  | createPrice securityId currencyId date value =>
    rw [Request.step, Store.createPrice, run_get_bind] at h
    obtain ⟨-, h⟩ := run_checkReference_bind_ok h
    cases h
    rfl
  | insertReport r =>
    rw [Request.step, Store.insertReport, run_get_bind] at h
    obtain ⟨-, h⟩ := run_checkReference_bind_ok h
    cases h
    rfl
  | report owner id =>
    cases h
    rfl
  | reports owner =>
    cases h
    rfl
  | updateReport r =>
    have hrun : (Store.updateReport r).run s = .ok ((s.report? r.owner r.id).isSome,
        s.withReports (s.reports.map (replaceReport r))) := rfl
    rw [Request.step, hrun] at h
    cases h
    cases hfound : s.report? r.owner r.id with
    | none =>
      rw [map_replaceReport_eq_self hfound]
      rfl
    | some old => rfl
  | deleteReport owner id =>
    have hrun : (Store.deleteReport owner id).run s = .ok ((s.report? owner id).isSome,
        s.withReports (s.reports.filter fun r => !(r.owner == owner && r.id == id))) := rfl
    rw [Request.step, hrun] at h
    cases h
    cases hfound : s.report? owner id with
    | none =>
      rw [filter_not_eq_self hfound]
      rfl
    | some old => rfl

end Steps

end LedgerReports
