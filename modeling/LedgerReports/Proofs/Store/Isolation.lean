import LedgerReports.Sandbox
import LedgerReports.Store.Query
import Mathlib.Data.List.Basic

/-!
# What a user's scripts see of the store

All users share one store, and a script runs on behalf of one of them. It
sees the securities and the prices, which belong to nobody, and of the
rest what belongs to its user: the user's accounts, the user's
transactions, and the splits between the two. Two stores that agree on
these rows may differ in everything else – in what other users hold, have
posted or have written, and in who is signed in.

`view_eq_of_agreesFor` says that such stores answer every query alike,
errors in reading a row included, and so no script and no single call of
the host can tell them apart (`scripts_see_own_rows_only`). The point is
that a query never reads a row before it knows whose row it is: a row of
somebody else that makes no sense is not met.

The row of the user is not compared. It is not read during a run: both
runs are given it.
-/

namespace LedgerReports

namespace Store

/-! ## The rows of a user -/

/-- Whether an account belongs to a user. -/
def AccountRow.isOf (user : User) (row : AccountRow) : Bool := row.userId == user.id

/-- Whether a transaction was made by a user. -/
def TransactionRow.isOf (user : User) (row : TransactionRow) : Bool := row.userId == user.id

/-- Whether a split joins an account and a transaction of a user. -/
def joins (s : Store) (user : User) (split : SplitRow) : Bool :=
  (s.accounts.filter (AccountRow.isOf user)).any (·.id == split.accountId)
    && (s.transactions.filter (TransactionRow.isOf user)).any (·.id == split.transactionId)

/-- **Two stores agree for a user**: they hold the same rows of the
accounts and the transactions of the user and of the splits between these,
and the same securities and prices. -/
structure AgreesFor (user : User) (s t : Store) : Prop where
  /-- The accounts of the user. -/
  accounts : s.accounts.filter (AccountRow.isOf user) = t.accounts.filter (AccountRow.isOf user)
  /-- The transactions of the user. -/
  transactions : s.transactions.filter (TransactionRow.isOf user)
    = t.transactions.filter (TransactionRow.isOf user)
  /-- The splits that join the two. -/
  splits : s.splits.filter (s.joins user) = t.splits.filter (t.joins user)
  /-- The securities of everybody. -/
  securities : s.securities = t.securities
  /-- The prices of everybody. -/
  prices : s.prices = t.prices

section Queries

variable (s : Store) (user : User)

/-! ## Queries read the user's rows only

Each query is written here once more, with the rows of the user in the
place of the table. -/

theorem account?_eq_find?_filter (id : Int) :
    s.account? user id
      = ((s.accounts.filter (AccountRow.isOf user)).find? (·.id == id)).mapM (·.read) := by
  rw [account?, List.find?_filter]
  refine congrArg (Option.mapM _ ∘ (List.find? · s.accounts)) (funext fun a => ?_)
  rw [AccountRow.isOf, Bool.decide_and, Bool.decide_eq_true, Bool.decide_eq_true]

theorem counts_eq_any_filter (period : Period) (split : SplitRow) :
    s.counts user period split
      = (s.transactions.filter (TransactionRow.isOf user)).any fun t =>
          t.id == split.transactionId && includes t.date period := by
  rw [counts, List.any_filter]
  refine congrArg (List.any s.transactions) (funext fun t => ?_)
  rw [TransactionRow.isOf, Bool.and_comm (t.id == _), Bool.and_assoc]

/-- Reading an account keeps its number. -/
theorem AccountRow.id_of_read {row : AccountRow} {a : Account} (h : row.read = .ok a) :
    a.id = row.id := by
  unfold AccountRow.read at h
  split at h
  · cases h
    rfl
  · cases h

/-- The account that is found is read in a row of the user's. -/
theorem exists_row_of_account? {id : Int} {a : Account} (h : s.account? user id = .ok (some a)) :
    ∃ row ∈ s.accounts.filter (AccountRow.isOf user), row.read = .ok a := by
  rw [account?_eq_find?_filter] at h
  cases hrow : (s.accounts.filter (AccountRow.isOf user)).find? (·.id == id) with
  | none =>
    rw [hrow] at h
    cases h
  | some row =>
    rw [hrow] at h
    have hmap : some <$> row.read = .ok (some a) := h
    cases hread : row.read with
    | error f =>
      rw [hread] at hmap
      cases hmap
    | ok b =>
      rw [hread] at hmap
      cases hmap
      exact ⟨row, List.mem_of_find?_eq_some hrow, hread⟩

/-- The account that is found is one of the user's. -/
theorem any_id_of_account? {id : Int} {a : Account} (h : s.account? user id = .ok (some a)) :
    (s.accounts.filter (AccountRow.isOf user)).any (·.id == a.id) = true := by
  obtain ⟨row, hrow, hread⟩ := exists_row_of_account? s user h
  refine List.any_eq_true.mpr ⟨row, hrow, ?_⟩
  rw [AccountRow.id_of_read hread]
  exact beq_self_eq_true _

/-- A split of an account of the user that counts for a period joins this
account with a transaction of the user. -/
theorem joins_of_counts {accountId : Int} {period : Period} {split : SplitRow}
    (haccount : (s.accounts.filter (AccountRow.isOf user)).any (·.id == accountId) = true)
    (h : (split.accountId == accountId && s.counts user period split) = true) :
    s.joins user split = true := by
  rw [Bool.and_eq_true, counts_eq_any_filter] at h
  obtain ⟨hid, hcounts⟩ := h
  rw [joins, Bool.and_eq_true]
  refine ⟨?_, ?_⟩
  · rw [eq_of_beq hid]
    exact haccount
  · obtain ⟨t, ht, hcounts⟩ := List.any_eq_true.mp hcounts
    exact List.any_eq_true.mpr ⟨t, ht, (Bool.and_eq_true_iff.mp hcounts).1⟩

/-- The splits that a balance sums up are among those that join an account
and a transaction of the user. -/
theorem splits_of_balance {accountId : Int} (period : Period)
    (haccount : (s.accounts.filter (AccountRow.isOf user)).any (·.id == accountId) = true) :
    (s.splits.filter fun split => split.accountId == accountId && s.counts user period split)
      = (s.splits.filter (s.joins user)).filter fun split =>
          split.accountId == accountId && s.counts user period split := by
  rw [List.filter_filter]
  refine List.filter_congr (fun split _ => ?_)
  cases h : (split.accountId == accountId && s.counts user period split) with
  | false => rfl
  | true => rw [joins_of_counts s user haccount h, Bool.and_self]

end Queries

/-! ## Stores that agree answer alike -/

section Agree

variable {s t : Store} {user : User}

theorem account?_eq_of_agreesFor (h : AgreesFor user s t) (id : Int) :
    s.account? user id = t.account? user id := by
  rw [account?_eq_find?_filter, account?_eq_find?_filter, h.accounts]

theorem counts_eq_of_agreesFor (h : AgreesFor user s t) (period : Period) :
    s.counts user period = t.counts user period := by
  funext split
  rw [counts_eq_any_filter, counts_eq_any_filter, h.transactions]

theorem balance_eq_of_agreesFor (h : AgreesFor user s t) (accountId : Int)
    (period : Period) : s.balance user accountId period = t.balance user accountId period := by
  unfold balance
  rw [← account?_eq_of_agreesFor h]
  cases haccount : s.account? user accountId with
  | error f => rfl
  | ok account? =>
    cases account? with
    | none => rfl
    | some account =>
      have hs := any_id_of_account? s user haccount
      have ht := any_id_of_account? t user (account?_eq_of_agreesFor h accountId ▸ haccount)
      have hsplits := splits_of_balance s user period hs
      rw [h.splits, counts_eq_of_agreesFor h, ← splits_of_balance t user period ht] at hsplits
      simp only [bind, Except.bind, counts_eq_of_agreesFor h, hsplits]

/-- **Stores that agree for a user answer all the user's queries alike.** -/
theorem view_eq_of_agreesFor (h : AgreesFor user s t) : s.view user = t.view user := by
  have hsecurity : s.security? = t.security? := by
    funext id
    rw [security?, security?, h.securities]
  have hprice : s.closestPrice? = t.closestPrice? := by
    funext securityId currencyId day
    rw [closestPrice?, closestPrice?, h.prices]
  have haccounts : s.accountsOf user = t.accountsOf user :=
    congrArg (List.mapM AccountRow.read) h.accounts
  unfold view
  rw [haccounts, funext (account?_eq_of_agreesFor h), allSecurities, allSecurities,
    h.securities, hsecurity, defaultCurrency, defaultCurrency, hsecurity,
    funext fun id => funext (balance_eq_of_agreesFor h id), hprice]

end Agree

/-! ## Scripts cannot tell such stores apart -/

open Script in
/-- **Two stores look alike to a user**: every report, run for the user,
ends alike, and every function, method and operator of the host, called
with whatever arguments in whatever state of a run, does the same. -/
def LookAlikeFor (user : User) (s t : Store) : Prop :=
  (∀ limits report today,
    Sandbox.execute limits report user (s.view user) today
      = Sandbox.execute limits report user (t.view user) today)
  ∧ ∀ (setting : Setting) (f : HostFunction) (c : Call) (m : Machine),
    f.run c { setting with ledger := s.view user } m
      = f.run c { setting with ledger := t.view user } m

theorem AgreesFor.lookAlikeFor {user : User} {s t : Store} (h : AgreesFor user s t) :
    LookAlikeFor user s t := by
  rw [LookAlikeFor, view_eq_of_agreesFor h]
  exact ⟨fun _ _ _ => rfl, fun _ _ _ _ => rfl⟩

/-- The store without the accounts of a number. -/
def withoutAccount (s : Store) (id : Int) : Store :=
  { s with accounts := s.accounts.filter fun a => a.id != id }

section Foreign

variable {s : Store} {user : User} {id : Int}

/-- Taking away an account that is not the user's takes away none of the
user's rows. -/
theorem agreesFor_withoutAccount (hid : ∀ a ∈ s.accounts, a.id = id → a.userId ≠ user.id) :
    AgreesFor user s (s.withoutAccount id) := by
  have haccounts : (s.withoutAccount id).accounts.filter (AccountRow.isOf user)
      = s.accounts.filter (AccountRow.isOf user) := by
    rw [withoutAccount, List.filter_filter]
    refine List.filter_congr (fun a ha => ?_)
    by_cases hne : a.id = id
    · rw [AccountRow.isOf, beq_eq_false_iff_ne.mpr (hid a ha hne)]
      rfl
    · rw [bne_iff_ne.mpr hne, Bool.and_true]
  have hjoins : (s.withoutAccount id).joins user = s.joins user := by
    funext split
    rw [joins, haccounts]
    rfl
  exact ⟨haccounts.symm, rfl, by rw [hjoins]; rfl, rfl, rfl⟩

/-- An account that is not the user's is not found. -/
theorem account?_eq_none (hid : ∀ a ∈ s.accounts, a.id = id → a.userId ≠ user.id) :
    s.account? user id = .ok none := by
  rw [account?_eq_find?_filter]
  have hnone : (s.accounts.filter (AccountRow.isOf user)).find? (·.id == id) = none := by
    rw [List.find?_eq_none]
    intro a ha hai
    obtain ⟨ha, hown⟩ := List.mem_filter.mp ha
    exact hid a ha (eq_of_beq hai) (eq_of_beq hown)
  rw [hnone]
  rfl

theorem balance_eq_notFound (hid : ∀ a ∈ s.accounts, a.id = id → a.userId ≠ user.id)
    (period : Period) : s.balance user id period = .error .notFound := by
  rw [balance, account?_eq_none hid]
  rfl

end Foreign

/-- **A script sees the rows of its user only.** Two stores that agree for
a user look alike to the user's scripts, whatever else they hold: a report
gives the same tabulation or fails with the same error, and no single call
of the host tells them apart. In particular the number of an account of
somebody else is as good as that of none: the account is not found, its
balance is that of a missing account, and the store looks as it does
without the account. -/
theorem scripts_see_own_rows_only {user : User} {s t : Store} (h : AgreesFor user s t) :
    LookAlikeFor user s t
      ∧ ∀ id, (∀ a ∈ s.accounts, a.id = id → a.userId ≠ user.id) →
          s.account? user id = .ok none
            ∧ (∀ period, s.balance user id period = .error .notFound)
            ∧ LookAlikeFor user s (s.withoutAccount id) :=
  ⟨h.lookAlikeFor, fun _ hid =>
    ⟨account?_eq_none hid, balance_eq_notFound hid,
      (agreesFor_withoutAccount hid).lookAlikeFor⟩⟩

/-- Somebody else's account of no known kind, and a split of it that is no
amount, are not noticed. -/
theorem scripts_see_own_rows_only_unreadable :
    let ann : User := ⟨1, "ann", 1⟩
    let own : Store :=
      { accounts := [⟨1, 1, 1, none, "cash", "bank"⟩]
        transactions := [⟨1, 1, "pay", "2020-01-01"⟩]
        splits := [⟨1, 1, 1, "5"⟩] }
    let shared : Store :=
      { accounts := own.accounts ++ [⟨2, 2, 9, none, "secret", "hoard"⟩]
        transactions := own.transactions ++ [⟨2, 2, "bribe", "2020-01-02"⟩]
        splits := [⟨1, 1, 1, "5"⟩, ⟨2, 2, 2, "much"⟩, ⟨3, 2, 1, "none"⟩] }
    AgreesFor ann own shared ∧ (shared.accountsOf ⟨2, "bob", 1⟩).toOption = none
      ∧ LookAlikeFor ann own shared := by
  have h : AgreesFor ⟨1, "ann", 1⟩
      { accounts := [⟨1, 1, 1, none, "cash", "bank"⟩]
        transactions := [⟨1, 1, "pay", "2020-01-01"⟩]
        splits := [⟨1, 1, 1, "5"⟩] }
      { accounts := [⟨1, 1, 1, none, "cash", "bank"⟩] ++ [⟨2, 2, 9, none, "secret", "hoard"⟩]
        transactions := [⟨1, 1, "pay", "2020-01-01"⟩] ++ [⟨2, 2, "bribe", "2020-01-02"⟩]
        splits := [⟨1, 1, 1, "5"⟩, ⟨2, 2, 2, "much"⟩, ⟨3, 2, 1, "none"⟩] } :=
    ⟨by decide, by decide, by decide, rfl, rfl⟩
  exact ⟨h, by cbv, (scripts_see_own_rows_only h).1⟩

end Store

end LedgerReports
