import LedgerReports.Proofs.Script.Questions
import LedgerReports.Proofs.Service.Runs
import LedgerReports.Proofs.Store.Isolation
import Mathlib

/-!
# References of the ledger

An account names a user and a security, and a split names a transaction and an
account. The database checks that these rows are there. That the transaction and
the account belong to the same user it does not check, and yet every balance
relies on it: the query looks for the transactions of the user who holds the
account, so a split of somebody else's transaction would silently not count.

`Store.References` says that all of this holds, and `references_hold` that it
does in all tables that a service can come to keep, begun with empty ones. It is
the request to record a transaction that has to see to it, by looking up every
account before it writes the first row. A failure in the middle of the splits, of
which an errand may make nothing, leaves a transaction of which all splits that
are there are in order.

A balance therefore needs no care about missing rows. A script that asks for one
never meets a security that is not there, and the condition on the user of the
transaction leaves out nothing.
-/

namespace LedgerReports

open Connection (outcome statement Pends StatementEnds StatementsEnd)

namespace Store

/-- **The references of the ledger hold.** -/
structure References (s : Store) : Prop where
  /-- The user who holds an account is there. -/
  owner : ∀ a ∈ s.accounts, ∃ u ∈ s.users, u.id = a.userId
  /-- The security of an account is there. -/
  security : ∀ a ∈ s.accounts, ∃ row ∈ s.securities, row.id = a.securityId
  /-- The account of a split is there. -/
  account : ∀ p ∈ s.splits, ∃ a ∈ s.accounts, a.id = p.accountId
  /-- The transaction of a split is there. -/
  transaction : ∀ p ∈ s.splits, ∃ t ∈ s.transactions, t.id = p.transactionId
  /-- The two belong to the same user. -/
  sameOwner : ∀ p ∈ s.splits, ∀ a ∈ s.accounts, ∀ t ∈ s.transactions,
    a.id = p.accountId → t.id = p.transactionId → a.userId = t.userId

/-- **The ledger is sound**: its references hold, and it can be told what they refer to. -/
structure Sound (s : Store) : Prop extends s.References where
  /-- There is one account for a number. -/
  accountIds : (s.accounts.map (·.id)).Nodup
  /-- The kind of a security is known. -/
  readable : ∀ row ∈ s.securities, ∃ type : SecurityType, row.type = type.name

theorem sound_empty : Sound {} :=
  ⟨⟨nofun, nofun, nofun, nofun, nofun⟩, .nil, nofun⟩

/-! ## Changes that keep the ledger sound -/

/-- What a change has to find so that it keeps the ledger sound. -/
def Admits (s : Store) : Change → Prop
  | .addSecurity row => ∃ type : SecurityType, row.type = type.name
  | .addAccount row =>
    (∃ u ∈ s.users, u.id = row.userId)
      ∧ (∃ security ∈ s.securities, security.id = row.securityId)
      ∧ ∀ a ∈ s.accounts, a.id ≠ row.id
  | .addTransaction row => ∀ t ∈ s.transactions, t.id ≠ row.id
  | .addSplit row =>
    (∃ a ∈ s.accounts, a.id = row.accountId)
      ∧ (∃ t ∈ s.transactions, t.id = row.transactionId)
      ∧ ∀ a ∈ s.accounts, ∀ t ∈ s.transactions,
          a.id = row.accountId → t.id = row.transactionId → a.userId = t.userId
  | .addUser _ | .addSession _ | .addPrice _ | .addReport _ | .replaceReport _
  | .removeReport .. => True

section Changes

variable {s : Store}

theorem Sound.withReports (h : s.Sound) (rows : List Report) : (s.withReports rows).Sound :=
  ⟨⟨h.owner, h.security, h.account, h.transaction, h.sameOwner⟩, h.accountIds, h.readable⟩

theorem Sound.addUser (h : s.Sound) (user : User) : (s.apply (.addUser user)).Sound := by
  refine ⟨⟨fun a ha => ?_, h.security, h.account, h.transaction, h.sameOwner⟩, h.accountIds,
    h.readable⟩
  obtain ⟨u, hu, hid⟩ := h.owner a ha
  exact ⟨u, List.mem_append_left _ hu, hid⟩

theorem Sound.addSecurity {row : SecurityRow} (h : s.Sound)
    (hrow : ∃ type : SecurityType, row.type = type.name) :
    (s.apply (.addSecurity row)).Sound := by
  refine ⟨⟨h.owner, fun a ha => ?_, h.account, h.transaction, h.sameOwner⟩, h.accountIds,
    fun q hq => ?_⟩
  · obtain ⟨q, hq, hid⟩ := h.security a ha
    exact ⟨q, List.mem_append_left _ hq, hid⟩
  · obtain hq | hq := List.mem_append.mp hq
    · exact h.readable q hq
    · rw [List.mem_singleton.mp hq]
      exact hrow

theorem Sound.addAccount {row : AccountRow} (h : s.Sound) (hrow : s.Admits (.addAccount row)) :
    (s.apply (.addAccount row)).Sound := by
  obtain ⟨howner, hsecurity, hfresh⟩ := hrow
  refine ⟨⟨fun a ha => ?_, fun a ha => ?_, fun p hp => ?_, h.transaction,
    fun p hp a ha t ht hid => ?_⟩, ?_, h.readable⟩
  · obtain ha | ha := List.mem_append.mp ha
    · exact h.owner a ha
    · rw [List.mem_singleton.mp ha]
      exact howner
  · obtain ha | ha := List.mem_append.mp ha
    · exact h.security a ha
    · rw [List.mem_singleton.mp ha]
      exact hsecurity
  · obtain ⟨a, ha, hid⟩ := h.account p hp
    exact ⟨a, List.mem_append_left _ ha, hid⟩
  · obtain ha | ha := List.mem_append.mp ha
    · exact h.sameOwner p hp a ha t ht hid
    · -- the number is new, so no split names it
      obtain ⟨a', ha', hid'⟩ := h.account p hp
      rw [List.mem_singleton.mp ha] at hid
      exact absurd (hid'.trans hid.symm) (hfresh a' ha')
  · show ((s.accounts ++ [row]).map (·.id)).Nodup
    rw [List.map_append, List.map_singleton]
    refine List.Nodup.append h.accountIds (List.nodup_singleton _)
      (List.disjoint_singleton.mpr fun hid => ?_)
    obtain ⟨a, ha, hid⟩ := List.mem_map.mp hid
    exact hfresh a ha hid

theorem Sound.addTransaction {row : TransactionRow} (h : s.Sound)
    (hfresh : s.Admits (.addTransaction row)) : (s.apply (.addTransaction row)).Sound := by
  refine ⟨⟨h.owner, h.security, h.account, fun p hp => ?_, fun p hp a ha t ht haccount hid => ?_⟩,
    h.accountIds, h.readable⟩
  · obtain ⟨t, ht, hid⟩ := h.transaction p hp
    exact ⟨t, List.mem_append_left _ ht, hid⟩
  · obtain ht | ht := List.mem_append.mp ht
    · exact h.sameOwner p hp a ha t ht haccount hid
    · obtain ⟨t', ht', hid'⟩ := h.transaction p hp
      rw [List.mem_singleton.mp ht] at hid
      exact absurd (hid'.trans hid.symm) (hfresh t' ht')

theorem Sound.addSplit {row : SplitRow} (h : s.Sound) (hrow : s.Admits (.addSplit row)) :
    (s.apply (.addSplit row)).Sound := by
  obtain ⟨haccount, htransaction, hsame⟩ := hrow
  refine ⟨⟨h.owner, h.security, fun p hp => ?_, fun p hp => ?_, fun p hp => ?_⟩, h.accountIds,
    h.readable⟩
  all_goals
    obtain hp | hp := List.mem_append.mp hp
  · exact h.account p hp
  · exact List.mem_singleton.mp hp ▸ haccount
  · exact h.transaction p hp
  · exact List.mem_singleton.mp hp ▸ htransaction
  · exact h.sameOwner p hp
  · exact List.mem_singleton.mp hp ▸ hsame

/-- **A change that finds what it has to find keeps the ledger sound.** -/
theorem Sound.apply {c : Change} (h : s.Sound) (hc : s.Admits c) : (s.apply c).Sound := by
  cases c with
  | addUser user => exact h.addUser user
  | addSecurity row => exact h.addSecurity hc
  | addAccount row => exact h.addAccount hc
  | addTransaction row => exact h.addTransaction hc
  | addSplit row => exact h.addSplit hc
  | addSession row | addPrice row =>
    exact ⟨⟨h.owner, h.security, h.account, h.transaction, h.sameOwner⟩, h.accountIds, h.readable⟩
  | addReport r | replaceReport r | removeReport owner id => exact h.withReports _

end Changes

end Store

/-! ## Requests keep the ledger sound -/

section Requests

variable {α : Type} {s s' : Store} {user : User}

theorem Store.exists_of_hasUser {id : Int} (h : s.hasUser id = true) : ∃ u ∈ s.users, u.id = id := by
  obtain ⟨u, hu, hid⟩ := List.any_eq_true.mp h
  exact ⟨u, hu, eq_of_beq hid⟩

theorem Store.exists_of_hasSecurity {id : Int} (h : s.hasSecurity id = true) :
    ∃ row ∈ s.securities, row.id = id := by
  obtain ⟨row, hrow, hid⟩ := List.any_eq_true.mp h
  exact ⟨row, hrow, eq_of_beq hid⟩

theorem Store.exists_of_hasAccount {id : Int} (h : s.hasAccount id = true) :
    ∃ a ∈ s.accounts, a.id = id := by
  obtain ⟨a, ha, hid⟩ := List.any_eq_true.mp h
  exact ⟨a, ha, eq_of_beq hid⟩

theorem Store.exists_of_hasTransaction {id : Int} (h : s.hasTransaction id = true) :
    ∃ t ∈ s.transactions, t.id = id := by
  obtain ⟨t, ht, hid⟩ := List.any_eq_true.mp h
  exact ⟨t, ht, eq_of_beq hid⟩

/-- A new account has an owner and a security, and a number of its own. -/
theorem Store.admits_of_createAccount {name : String} {type : AccountType} {securityId id : Int}
    {parentId : Option Int}
    (h : (Store.createAccount user name type securityId parentId).run s = .ok (id, s')) :
    ∃ row, s.Admits (.addAccount row) ∧ s' = s.apply (.addAccount row) := by
  rw [Store.createAccount, run_get_bind] at h
  obtain ⟨huser, h⟩ := run_checkReference_bind_ok h
  obtain ⟨hsecurity, h⟩ := run_checkReference_bind_ok h
  obtain ⟨-, h⟩ := run_checkReference_bind_ok h
  cases h
  refine ⟨_, ⟨Store.exists_of_hasUser huser, Store.exists_of_hasSecurity hsecurity,
    fun a ha => ?_⟩, rfl⟩
  exact Int.ne_of_lt (Store.lt_nextId_of_mem (List.mem_map_of_mem ha))

/-! ### Recording a transaction -/

/-- Whether the account of a number is the user's. -/
def Store.Owns (s : Store) (user : User) (accountId : Int) : Prop :=
  (s.accounts.find? (·.id == accountId)).map (·.userId) = some user.id

/-- What is said of an account that is not the user's. -/
def Store.notOwned (user : User) (accountId : Int) : Failure :=
  .validation s!"account {accountId} does not belong to user {user.id}"

theorem Store.run_checkOwner_of_owns {accountId : Int} (h : s.Owns user accountId) :
    (Store.checkOwner user accountId).run s = .ok ((), s) := by
  rw [Store.checkOwner, run_get_bind]
  exact congrArg (StateT.run · s) (if_pos h)

theorem Store.run_checkOwner_of_not_owns {accountId : Int} (h : ¬ s.Owns user accountId) :
    (Store.checkOwner user accountId).run s = .error (Store.notOwned user accountId) := by
  rw [Store.checkOwner, run_get_bind]
  exact congrArg (StateT.run · s) (if_neg h)

/-- Accounts that are found to be the user's are. -/
theorem Store.owns_of_checkOwners {splits : List (Int × Amount)} {u : Unit}
    (h : (splits.forM fun split => Store.checkOwner user split.1).run s = .ok (u, s')) :
    ∀ split ∈ splits, s.Owns user split.1 := by
  induction splits generalizing s with
  | nil => nofun
  | cons split splits ih =>
    rw [List.forM] at h
    obtain ⟨_, t, hsplit, hrest⟩ := run_bind_ok_iff.mp h
    obtain ⟨rfl, -⟩ := eq_of_checkOwner hsplit
    refine List.forall_mem_cons.mpr ⟨?_, ih hrest⟩
    by_contra hforeign
    rw [Store.run_checkOwner_of_not_owns hforeign] at hsplit
    cases hsplit

/-- An account that is not the user's is found among others. -/
theorem Store.run_checkOwners_of_not_owns {splits : List (Int × Amount)}
    (h : ∃ split ∈ splits, ¬ s.Owns user split.1) :
    ∃ accountId, (splits.forM fun split => Store.checkOwner user split.1).run s
      = .error (Store.notOwned user accountId) := by
  induction splits with
  | nil =>
    obtain ⟨split, hsplit, -⟩ := h
    cases hsplit
  | cons split splits ih =>
    rw [List.forM, StateT.run_bind]
    by_cases hsplit : s.Owns user split.1
    · rw [Store.run_checkOwner_of_owns hsplit]
      obtain ⟨foreign, hforeign, hnot⟩ := h
      refine ih ⟨foreign, ?_, hnot⟩
      obtain rfl | hforeign := List.mem_cons.mp hforeign
      · exact absurd hsplit hnot
      · exact hforeign
    · rw [Store.run_checkOwner_of_not_owns hsplit]
      exact ⟨split.1, rfl⟩

/-- If there is one account for a number, the account of a split is the user's. -/
theorem Store.Sound.eq_of_owns {accountId : Int} (h : s.Sound) (howns : s.Owns user accountId) :
    ∀ a ∈ s.accounts, a.id = accountId → a.userId = user.id := by
  intro a ha hid
  obtain ⟨row, hfound, hrow⟩ := Option.map_eq_some_iff.mp howns
  have hfits := List.find?_some hfound
  have hsame : a = row := List.inj_on_of_nodup_map h.accountIds ha
    (List.mem_of_find?_eq_some hfound) (hid.trans (eq_of_beq hfits).symm)
  rw [hsame]
  exact hrow

/-- Splits of accounts of the user can be added to a transaction of the user. -/
theorem Store.Sound.createSplits {transactionId : Int} {splits : List (Int × Amount)} {u : Unit}
    (h : s.Sound) (haccounts : ∀ split ∈ splits, ∀ a ∈ s.accounts, a.id = split.1 →
      a.userId = user.id)
    (htransaction : ∀ t ∈ s.transactions, t.id = transactionId → t.userId = user.id)
    (hrun : (splits.forM fun split => Store.createSplit transactionId split.1 split.2).run s
      = .ok (u, s')) : s'.Sound := by
  induction splits generalizing s with
  | nil =>
    cases hrun
    exact h
  | cons split splits ih =>
    rw [List.forM] at hrun
    obtain ⟨haccount, hrest⟩ := List.forall_mem_cons.mp haccounts
    obtain ⟨_, t, hsplit, hsplits⟩ := run_bind_ok_iff.mp hrun
    rw [run_createSplit] at hsplit
    split at hsplit
    case isFalse => cases hsplit
    case isTrue hthere =>
      cases hsplit
      rw [Bool.and_eq_true] at hthere
      refine ih (h.addSplit ⟨Store.exists_of_hasAccount hthere.2,
        Store.exists_of_hasTransaction hthere.1, ?_⟩) hrest htransaction hsplits
      exact fun a ha t ht hida hidt => (haccount a ha hida).trans (htransaction t ht hidt).symm

/-- A new transaction has a number of its own. -/
theorem Store.Sound.createTransaction {date : Date} {description : String} {id : Int}
    (h : s.Sound) (hrun : (Store.createTransaction user date description).run s = .ok (id, s')) :
    s'.Sound ∧ s'.accounts = s.accounts
      ∧ ∀ t ∈ s'.transactions, t.id = id → t.userId = user.id := by
  rw [Store.createTransaction, run_get_bind] at hrun
  obtain ⟨-, hrun⟩ := run_checkReference_bind_ok hrun
  cases hrun
  have hfresh : ∀ t ∈ s.transactions, t.id ≠ Store.nextId (s.transactions.map (·.id)) :=
    fun t ht => Int.ne_of_lt (Store.lt_nextId_of_mem (List.mem_map_of_mem ht))
  refine ⟨h.addTransaction hfresh, rfl, fun t ht hid => ?_⟩
  obtain ht | ht := List.mem_append.mp ht
  · exact absurd hid (hfresh t ht)
  · rw [List.mem_singleton.mp ht]

/-- **Recording a transaction keeps the ledger sound**, if it fails in the middle, too; and it writes
nothing if one of the accounts is not the user's. -/
theorem pends_postTransaction_sound (user : User) (date : Date) (description : String)
    (splits : List (Int × Amount)) :
    Pends (Request.postTransaction user date description splits).run fun s result s' =>
      (s.Sound → s'.Sound)
        ∧ ((∃ split ∈ splits, ¬ s.Owns user split.1) → s' = s ∧ ∃ f, result = .error f) := by
  have hadd (id : Int) :=
    (Pends.forM (fun split => Store.createSplit id split.1 split.2) splits).bind fun _ =>
      Pends.pure id
  have hrecord := (Pends.statement (Store.createTransaction user date description)).bind hadd
  have hall :=
    (Pends.forM (fun split => Store.checkOwner user split.1) splits).bind fun _ => hrecord
  refine hall.mono fun s result s' h => ?_
  cases h with
  | failed h =>
    cases h with
    | failed _ _ hrun =>
      rw [(eq_of_checkOwners hrun).1]
      exact ⟨id, fun _ => ⟨rfl, _, rfl⟩⟩
  | answered hchecks hrest =>
    cases hchecks with
    | answered hchecks =>
      have howns := Store.owns_of_checkOwners hchecks
      obtain ⟨rfl, -⟩ := eq_of_checkOwners hchecks
      refine ⟨fun hs => ?_, fun ⟨split, hsplit, hforeign⟩ => absurd (howns split hsplit) hforeign⟩
      cases hrest with
      | failed h =>
        cases h
        exact hs
      | answered htransaction hrest =>
        cases htransaction with
        | answered htransaction =>
          obtain ⟨ht, haccounts, hid⟩ := hs.createTransaction htransaction
          have howners (split) (hsplit : split ∈ splits) :=
            haccounts ▸ hs.eq_of_owns (howns split hsplit)
          cases hrest with
          | failed h =>
            cases h with
            | failed _ hxs hrun =>
              refine ht.createSplits (fun split hsplit => howners split ?_) hid hrun
              rw [hxs]
              exact List.mem_append_left _ hsplit
          | answered hsplits hend =>
            obtain ⟨-, rfl⟩ := hend
            cases hsplits with
            | answered hsplits => exact ht.createSplits howners hid hsplits

/-- **A request is refused by the tables**: in a transaction that has them pending, it fails and
leaves them as they are. -/
def Request.IsRefusedBy (q : Request α) (t : Store) : Prop :=
  ∀ kept refusals, ∃ f refusals',
    outcome q.run ⟨kept, some t, refusals⟩ = (.error f, ⟨kept, some t, refusals'⟩)

/-- A transaction on an account that is not the user's writes nothing. -/
theorem postTransaction_isRefusedBy {date : Date} {description : String}
    {splits : List (Int × Amount)} {t : Store} (h : ∃ split ∈ splits, ¬ t.Owns user split.1) :
    (Request.postTransaction user date description splits).IsRefusedBy t := by
  intro kept refusals
  obtain ⟨result, t', refusals', hrun, -, hrefused⟩ :=
    pends_postTransaction_sound user date description splits kept t refusals
  obtain ⟨rfl, f, rfl⟩ := hrefused h
  exact ⟨f, refusals', hrun⟩

/-- Where the database refuses nothing, the account is what is said to be wrong. -/
theorem outcome_postTransaction_of_not_owns {date : Date} {description : String}
    {splits : List (Int × Amount)} {t : Store} (h : ∃ split ∈ splits, ¬ t.Owns user split.1)
    (kept : Store) :
    ∃ accountId, outcome (Request.postTransaction user date description splits).run
      ⟨kept, some t, []⟩ = (.error (Store.notOwned user accountId), ⟨kept, some t, []⟩) := by
  obtain ⟨accountId, hchecks⟩ := Store.run_checkOwners_of_not_owns h
  have hstep : (Request.postTransaction user date description splits).step.run t
      = .error (Store.notOwned user accountId) := by
    rw [Request.step, Store.postTransaction_eq, StateT.run_bind, hchecks]
    rfl
  refine ⟨accountId, ?_⟩
  rw [Connection.undisturbed_request, transact_of_error hstep]

/-- **A request keeps the ledger sound.** -/
theorem Request.pends_sound (q : Request α) : Pends q.run fun s _ s' => s.Sound → s'.Sound := by
  -- a single statement that makes changes which find what they have to find
  have hstatement (hrun : q.run = statement q.step)
      (hsound : ∀ {a s s'}, q.step.run s = .ok (a, s') → s.Sound → s'.Sound) :
      Pends q.run fun s _ s' => s.Sound → s'.Sound := by
    rw [hrun]
    refine (Pends.statement q.step).mono fun s result s' hends hs => ?_
    cases hends with
    | answered h => exact hsound h hs
    | failed f => exact hs
  cases q with
  | createAccount user name type securityId parentId =>
    refine hstatement rfl fun hrun hs => ?_
    obtain ⟨row, hadmits, rfl⟩ := Store.admits_of_createAccount hrun
    exact hs.apply hadmits
  | postTransaction user date description splits =>
    exact (pends_postTransaction_sound user date description splits).mono fun _ _ _ h => h.1
  | createSecurity name symbol precision type =>
    refine hstatement rfl fun hrun hs => ?_
    cases hrun
    exact hs.addSecurity ⟨type, rfl⟩
  | createUser name defaultCurrency =>
    refine hstatement rfl fun hrun hs => ?_
    cases hrun
    exact hs.addUser _
  | createSession | createPrice | insertReport =>
    refine Request.pends_keeps fun s a c hc t ht => ?_
    obtain rfl | hc := List.mem_cons.mp hc
    · exact ht.apply trivial
    · cases hc
  | updateReport r | deleteReport owner id =>
    refine Request.pends_keeps fun s there c hc t ht => ?_
    cases there with
    | true =>
      obtain rfl | hc := List.mem_cons.mp hc
      · exact ht.withReports _
      · cases hc
    | false => cases hc
  | findUser | userForSession | report | reports =>
    exact Request.pends_keeps fun s a c hc => by cases hc

end Requests

/-! ## Balances rely on it -/

section Balances

open Script (HostFunction Call)

variable {α β : Type} {s : Store} {user : User} {period : Period} {id : Int} {account : Account}
  {amount : Amount}

/-! ### What is read in rows

A row that makes no sense is a matter of the database. What is internal is that
a row is missing. -/

/-- **Something is read in rows**: that a row is missing is not what is wrong. -/
def ReadsRows (x : Except Failure α) : Prop := ∀ message, x ≠ .error (.internal message)

theorem readsRows_ok (a : α) : ReadsRows (.ok a) := nofun

theorem ReadsRows.bind {x : Except Failure α} {f : α → Except Failure β} (h : ReadsRows x)
    (hf : ∀ a, ReadsRows (f a)) : ReadsRows (x >>= f) := by
  cases x with
  | error e =>
    intro message he
    cases he
    exact h message rfl
  | ok a => exact hf a

theorem readsRows_mapM {f : α → Except Failure β} (h : ∀ a, ReadsRows (f a)) (rows : List α) :
    ReadsRows (rows.mapM f) := by
  induction rows with
  | nil => exact readsRows_ok []
  | cons row rows ih =>
    rw [List.mapM_cons]
    exact (h row).bind fun b => ih.bind fun bs => readsRows_ok (b :: bs)

theorem readsRows_account (row : Store.AccountRow) : ReadsRows row.read := by
  unfold Store.AccountRow.read
  split <;> nofun

theorem readsRows_amount (column : Nat) (text : String) :
    ReadsRows (Store.readAmount column text) := by
  unfold Store.readAmount
  split <;> nofun

theorem readsRows_account? (s : Store) (user : User) (id : Int) :
    ReadsRows (s.account? user id) := by
  rw [Store.account?]
  cases s.accounts.find? _ with
  | none => exact readsRows_ok none
  | some row =>
    show ReadsRows (some <$> row.read)
    rw [map_eq_pure_bind]
    exact (readsRows_account row).bind fun a => readsRows_ok (some a)

theorem readsRows_balance (s : Store) (user : User) (id : Int) (period : Period) :
    ReadsRows (s.balance user id period) := by
  rw [Store.balance]
  refine (readsRows_account? s user id).bind fun found => ?_
  cases found with
  | none => rintro message ⟨⟩
  | some account =>
    have hsplit (split : Store.SplitRow) := readsRows_amount 0 split.amount
    exact (readsRows_mapM hsplit _).bind fun amounts =>
      readsRows_ok (account, Amount.sum amounts)

/-! ### What the ledger answers about a balance -/

/-- The account of a balance is the one that was asked for. -/
theorem Store.account?_of_balance (h : s.balance user id period = .ok (account, amount)) :
    s.account? user id = .ok (some account) := by
  rw [Store.balance] at h
  cases hfound : s.account? user id with
  | error f =>
    rw [hfound] at h
    cases h
  | ok found =>
    rw [hfound] at h
    cases found with
    | none => cases h
    | some account' =>
      have hbind : (List.mapM (fun split => Store.readAmount 0 split.amount)
          (s.splits.filter fun split => split.accountId == account'.id
            && s.counts user period split) >>= fun amounts =>
              pure (account', Amount.sum amounts)) = Except.ok (account, amount) := h
      cases hamounts : List.mapM (fun split => Store.readAmount 0 split.amount)
          (s.splits.filter fun split => split.accountId == account'.id
            && s.counts user period split) with
      | error f =>
        rw [hamounts] at hbind
        cases hbind
      | ok amounts =>
        rw [hamounts] at hbind
        cases hbind
        rfl

/-- Reading an account keeps its security. -/
theorem Store.AccountRow.securityId_of_read {row : AccountRow} (h : row.read = .ok account) :
    account.securityId = row.securityId := by
  unfold Store.AccountRow.read at h
  split at h
  · cases h
    rfl
  · cases h

/-- **The security of an account is there, and can be read.** -/
theorem Store.Sound.security?_eq (h : s.Sound) (hfound : s.account? user id = .ok (some account)) :
    ∃ security, s.security? account.securityId = .ok (some security) := by
  obtain ⟨row, hrow, hread⟩ := Store.exists_row_of_account? s user hfound
  obtain ⟨known, hknown, hid⟩ := h.security row (List.mem_filter.mp hrow).1
  rw [← Store.AccountRow.securityId_of_read hread] at hid
  obtain ⟨found, hfind⟩ : ∃ found, s.securities.find? (·.id == account.securityId) = some found :=
    Option.isSome_iff_exists.mp (List.find?_isSome.mpr ⟨known, hknown, beq_iff_eq.mpr hid⟩)
  obtain ⟨type, htype⟩ := h.readable found (List.mem_of_find?_eq_some hfind)
  have hname : SecurityType.ofName? found.type = some type := by
    rw [htype]
    cases type <;> rfl
  rw [Store.security?, hfind]
  refine ⟨⟨found.id, found.name, found.description, found.symbol, found.precision, type⟩, ?_⟩
  show some <$> found.read = _
  rw [Store.SecurityRow.read, hname]
  rfl

/-- **A function that asks for a balance meets no missing row.** -/
theorem Store.Sound.not_hits (h : s.Sound) {f : HostFunction} {c : Call}
    (hf : f.WantsBalance c id period) (message : String) :
    ¬ f.Hits c (s.view user) (.internal message) := by
  rintro ⟨-, α, question, hasks, hanswer⟩
  cases hasks with
  | balance hf => exact readsRows_balance s user _ _ message hanswer
  | securityOf hf hbalance =>
    obtain ⟨security, hsecurity⟩ := h.security?_eq (Store.account?_of_balance hbalance)
    have hview : (s.view user).security? = s.security? := rfl
    rw [Ledger.View.answer, hview, hsecurity] at hanswer
    cases hanswer
  | accounts | account | securities | security | defaultCurrency | price => cases hf

/-- **The user of the transaction leaves out nothing.** Of a split of an account of the user it
makes no difference whether transactions of others are looked at, too. -/
theorem Store.References.counts_eq (h : s.References) {a : Store.AccountRow} (ha : a ∈ s.accounts)
    (howner : a.userId = user.id) {split : Store.SplitRow} (hsplit : split ∈ s.splits)
    (hid : split.accountId = a.id) (period : Period) :
    s.counts user period split
      = s.transactions.any fun t => t.id == split.transactionId && Store.includes t.date period := by
  rw [Store.counts, Bool.eq_iff_iff, List.any_eq_true, List.any_eq_true]
  refine exists_congr fun t => and_congr_right fun ht => ?_
  rw [Bool.and_eq_true, Bool.and_eq_true, Bool.and_eq_true, and_assoc, beq_iff_eq, beq_iff_eq]
  refine and_congr_right fun htransaction => and_iff_right ?_
  exact (h.sameOwner split hsplit a ha t ht hid.symm htransaction).symm.trans howner

end Balances

/-! ## What holds in all tables that are kept -/

section Runs

variable {service : Service} {s : Store}

/-- **All tables that a service keeps are sound**, begun with empty ones. -/
theorem sound_of_reaches (h : service.Reaches (fun _ => True) {} s) : s.Sound :=
  h.keeps (fun _ rows ht => ht.withReports rows) (fun q => q.pends_sound) Store.sound_empty

/-- **The references of the ledger hold** in all tables that operations lead to, whatever errands
are among them and wherever they fail. An account has an owner and a security,
a split has an account and a transaction, and these two belong to one user: a
transaction on an account that is missing or somebody else's writes nothing,
and is told so unless the database refuses something first.
So a script that asks for a balance never meets a missing row, and that a
balance looks at transactions of the user only leaves out no split. -/
theorem references_hold (h : service.Reaches (fun _ => True) {} s) :
    s.References
      ∧ (∀ (t : Store) (user : User) (date : Date) (description : String)
          (splits : List (Int × Amount)),
          (∃ split ∈ splits, ∀ a ∈ t.accounts, a.id = split.1 → a.userId ≠ user.id) →
            (Request.postTransaction user date description splits).IsRefusedBy t
              ∧ ∀ kept, ∃ accountId,
                  outcome (Request.postTransaction user date description splits).run
                    ⟨kept, some t, []⟩
                      = (.error (Store.notOwned user accountId), ⟨kept, some t, []⟩))
      ∧ (∀ (user : User) (f : Script.HostFunction) (c : Script.Call) (id : Int) (period : Period),
          f.WantsBalance c id period →
            ∀ message, ¬ f.Hits c (s.view user) (.internal message))
      ∧ ∀ (user : User) (period : Period), ∀ a ∈ s.accounts, a.userId = user.id →
          ∀ split ∈ s.splits, split.accountId = a.id →
            s.counts user period split = s.transactions.any fun t =>
              t.id == split.transactionId && Store.includes t.date period := by
  have hsound := sound_of_reaches h
  refine ⟨hsound.toReferences, fun t user date description splits hforeign => ?_,
    fun user f c id period hf => hsound.not_hits hf,
    fun user period a ha howner split hsplit hid => hsound.counts_eq ha howner hsplit hid period⟩
  have hnot : ∃ split ∈ splits, ¬ t.Owns user split.1 := by
    obtain ⟨split, hsplit, hforeign⟩ := hforeign
    refine ⟨split, hsplit, fun howns => ?_⟩
    obtain ⟨row, hfound, howner⟩ := Option.map_eq_some_iff.mp howns
    have hfits := List.find?_some hfound
    exact hforeign row (List.mem_of_find?_eq_some hfound) (eq_of_beq hfits) howner
  exact ⟨postTransaction_isRefusedBy hnot, outcome_postTransaction_of_not_owns hnot⟩

/-- Bob cannot take from ann's account, to which ann has paid something in. -/
theorem references_hold_for_two_users :
    let ann : User := ⟨1, "ann", 1⟩
    let bob : User := ⟨2, "bob", 1⟩
    let take : Request Int := .postTransaction bob .epoch "take" [(1, .ofInt (-5))]
    let split : Store.SplitRow := ⟨1, 1, 1, (Amount.ofInt 5).stored⟩
    let s : Store :=
      { users := [ann, bob]
        securities := [⟨1, "euro", "euro", "EUR", 2, "currency"⟩]
        accounts := [⟨1, 1, 1, none, "cash", "bank"⟩]
        transactions := [⟨1, 1, "pay", Date.epoch.toText⟩]
        splits := [split] }
    Service.Reaches {} (fun _ => True) {} s ∧ s.References ∧ take.IsRefusedBy s
      ∧ s.counts ann (.upTo .epoch) split
          = s.transactions.any fun t => t.id == 1 && Store.includes t.date (.upTo .epoch) := by
  intro ann bob take split s
  -- the text of the day and of the amount is of no importance here
  have hpay (day : Date) (x : Amount) :
      (Request.postTransaction ann day "pay" [(1, x)]).step.run
          { s with transactions := [], splits := [] }
        = .ok (1, { s with
            transactions := [⟨1, 1, "pay", day.toText⟩], splits := [⟨1, 1, 1, x.stored⟩] }) := rfl
  have hann : Service.Reaches {} (fun _ => True) {} { users := [ann] } :=
    .ask (q := .createUser "ann" 1) .start trivial rfl
  have hbob : Service.Reaches {} (fun _ => True) {} { users := [ann, bob] } :=
    hann.ask (q := .createUser "bob" 1) trivial rfl
  have heuro : Service.Reaches {} (fun _ => True) {}
      { users := [ann, bob], securities := s.securities } :=
    hbob.ask (q := .createSecurity "euro" "EUR" 2 .currency) trivial rfl
  have haccount : Service.Reaches {} (fun _ => True) {}
      { s with transactions := [], splits := [] } :=
    heuro.ask (q := .createAccount ann "cash" .bank 1 none) trivial rfl
  have hreaches : Service.Reaches {} (fun _ => True) {} s :=
    haccount.ask trivial (hpay .epoch (.ofInt 5))
  obtain ⟨hreferences, hposts, -, hcounts⟩ := references_hold hreaches
  have hforeign : ∀ a ∈ s.accounts, a.id = 1 → a.userId ≠ bob.id := by decide
  have hrefused := hposts s bob .epoch "take" [(1, .ofInt (-5))]
    ⟨(1, .ofInt (-5)), List.mem_cons_self, hforeign⟩
  exact ⟨hreaches, hreferences, hrefused.1,
    hcounts ann (.upTo .epoch) _ List.mem_cons_self rfl split List.mem_cons_self rfl⟩

end Runs

end LedgerReports
