import LedgerReports.Proofs.Store.References
import Mathlib.Data.List.Forall2

/-!
# What was recorded

The rows of the ledger say in texts what was recorded in amounts and days. To
speak about the latter, a store comes with its history (`Store.History`): the
book of all amounts that were posted and all prices that were recorded, in the
order in which the requests for them were answered, beginning with no tables at
all. Every store that a service comes to keep has a history
(`Service.Reaches.exists_history`). A request to record a transaction that fails
in the middle is no exception: it has done what the request for the splits
before that would have done (`pends_postTransaction_part`).

The rows can be told from the book (`Store.Keeps`, `Store.History.keeps`). A
posting is one split, whose transaction is the only one of its number and has the
day of the posting; a recorded price is one row, and later prices have greater
numbers. This is what a query has to rely on that knows the rows only.
-/

namespace LedgerReports

open Connection (Pends StatementEnds StatementsEnd outcome)

/-- An amount that is posted to an account, in a transaction of a day. -/
structure Posting where
  /-- The account. -/
  accountId : Int
  /-- The day of the transaction. -/
  date : Date
  /-- The amount. -/
  amount : Amount

/-- A price as it is recorded. -/
structure Quote where
  /-- The security. -/
  securityId : Int
  /-- The security that the value is in. -/
  currencyId : Int
  /-- The day. -/
  date : Date
  /-- The value. -/
  value : Amount

/-- **What was recorded**, in this order. -/
structure Book where
  /-- The amounts that were posted. -/
  postings : List Posting := []
  /-- The prices that were recorded. -/
  quotes : List Quote := []

section Books

variable {α : Type}

/-- The amounts that a request posts. -/
def Request.postings : Request α → List Posting
  | .postTransaction _ date _ splits => splits.map fun split => ⟨split.1, date, split.2⟩
  | _ => []

/-- The prices that a request records. -/
def Request.quotes : Request α → List Quote
  | .createPrice securityId currencyId date value => [⟨securityId, currencyId, date, value⟩]
  | _ => []

/-- A book with what a request records at its end. -/
def Book.add (b : Book) (q : Request α) : Book :=
  ⟨b.postings ++ q.postings, b.quotes ++ q.quotes⟩

end Books

/-- **A store has come about by recording what is in a book.** The reports are kept for themselves,
and whatever is done to them makes no difference. -/
inductive Store.History : Store → Book → Prop where
  /-- Nothing has been done. -/
  | empty : History {} {}
  /-- A request was answered. -/
  | request {b : Book} {s s' : Store} {α : Type} {q : Request α} {a : α} (h : History s b)
      (hstep : q.step.run s = .ok (a, s')) : History s' (b.add q)
  /-- The reports are others. -/
  | reports {b : Book} {s : Store} (h : History s b) (rows : List Report) :
      History (s.withReports rows) b

/-! ## Every store has a history -/

section Requests

variable {α : Type} {s s' : Store} {user : User}

/-- Accounts of the user pass the check. -/
theorem Store.run_checkOwners_of_owns {splits : List (Int × Amount)}
    (h : ∀ split ∈ splits, s.Owns user split.1) :
    (splits.forM fun split => Store.checkOwner user split.1).run s = .ok ((), s) := by
  induction splits with
  | nil => rfl
  | cons split splits ih =>
    obtain ⟨hsplit, hsplits⟩ := List.forall_mem_cons.mp h
    rw [List.forM]
    exact run_bind_ok_iff.mpr ⟨(), s, Store.run_checkOwner_of_owns hsplit, ih hsplits⟩

/-- **A request to record a transaction has recorded a part of it**, nothing or the transaction with
the first of its splits. -/
theorem pends_postTransaction_part (user : User) (date : Date) (description : String)
    (splits : List (Int × Amount)) :
    Pends (Request.postTransaction user date description splits).run fun s _ s' =>
      s' = s ∨ ∃ part id, part <+: splits
        ∧ (Request.postTransaction user date description part).step.run s = .ok (id, s') := by
  have hadd (id : Int) :=
    (Pends.forM (fun split => Store.createSplit id split.1 split.2) splits).bind fun _ =>
      Pends.pure id
  have hrecord := (Pends.statement (Store.createTransaction user date description)).bind hadd
  have hall :=
    (Pends.forM (fun split => Store.checkOwner user split.1) splits).bind fun _ => hrecord
  refine hall.mono fun s result s' h => ?_
  cases h with
  | failed h =>
    cases h with
    | failed _ _ hrun => exact .inl (eq_of_checkOwners hrun).1
  | answered hchecks hrest =>
    cases hchecks with
    | answered hchecks =>
      have howns := Store.owns_of_checkOwners hchecks
      rw [(eq_of_checkOwners hchecks).1] at hrest
      cases hrest with
      | failed h =>
        cases h
        exact .inl rfl
      | @answered id t _ _ htransaction hrest =>
        cases htransaction with
        | answered htransaction =>
          -- the accounts of the part are the user's, too
          have hpart {part : List (Int × Amount)} {t' : Store} (hfront : part <+: splits)
              (hsplits : (part.forM fun split => Store.createSplit id split.1 split.2).run t
                = .ok ((), t')) :
              (Request.postTransaction user date description part).step.run s = .ok (id, t') := by
            have hchecks := Store.run_checkOwners_of_owns fun split hsplit =>
              howns split (hfront.subset hsplit)
            rw [Request.step, Store.postTransaction_eq]
            exact run_bind_ok_iff.mpr ⟨_, _, hchecks, run_bind_ok_iff.mpr
              ⟨_, _, htransaction, run_bind_ok_iff.mpr ⟨_, _, hsplits, rfl⟩⟩⟩
          cases hrest with
          | failed h =>
            cases h with
            | @failed _ _ run rest _ hxs hrun =>
              have hfront : run <+: splits := ⟨rest, hxs.symm⟩
              exact .inr ⟨run, id, hfront, hpart hfront hrun⟩
          | answered hsplits hend =>
            obtain ⟨-, rfl⟩ := hend
            cases hsplits with
            | answered hsplits =>
              exact .inr ⟨splits, id, List.prefix_rfl, hpart List.prefix_rfl hsplits⟩

/-- A request that writes one row at most has written nothing if it fails. -/
theorem Request.pends_single {q : Request α} (h : ∀ s a, (q.writes s a).length ≤ 1) :
    Pends q.run fun s _ s' => s' = s ∨ ∃ a, q.step.run s = .ok (a, s') := by
  refine q.pends.mono fun s result s' hends => ?_
  cases hends with
  | answered hstep => exact .inr ⟨_, hstep⟩
  | @failed _ changes hleaves =>
    cases hleaves with
    | nothing => exact .inl rfl
    | @first a _ rest hrest hwrites =>
      have hlength := h s a
      have hpos := List.length_pos_of_ne_nil hrest
      rw [hwrites, List.length_append] at hlength
      have hnil : changes = [] := List.eq_nil_of_length_eq_zero (by omega)
      rw [hnil]
      exact .inl rfl

/-- **Whatever becomes of a request, the tables have a history after it.** -/
theorem Request.pends_history (q : Request α) :
    Pends q.run fun s _ s' => (∃ b, s.History b) → ∃ b, s'.History b := by
  have hsingle (h : ∀ s a, (q.writes s a).length ≤ 1) :
      Pends q.run fun s _ s' => (∃ b, s.History b) → ∃ b, s'.History b := by
    refine (Request.pends_single h).mono fun s _ s' hends ⟨b, hs⟩ => ?_
    obtain rfl | ⟨a, hstep⟩ := hends
    · exact ⟨b, hs⟩
    · exact ⟨b.add q, hs.request hstep⟩
  cases q with
  | postTransaction user date description splits =>
    refine (pends_postTransaction_part user date description splits).mono
      fun s _ s' hends ⟨b, hs⟩ => ?_
    obtain rfl | ⟨part, id, -, hstep⟩ := hends
    · exact ⟨b, hs⟩
    · exact ⟨b.add (.postTransaction user date description part), hs.request hstep⟩
  | updateReport | deleteReport =>
    refine hsingle fun s found => ?_
    cases found <;> exact Nat.le_of_ble_eq_true rfl
  | _ => exact hsingle fun s a => Nat.le_of_ble_eq_true rfl

/-- **Every store that a service keeps has a history**, begun with empty tables. -/
theorem Service.Reaches.exists_history {service : Service}
    (h : service.Reaches (fun _ => True) {} s) : ∃ b, s.History b := by
  have hreports (t : Store) (rows : List Report) (ht : ∃ b, t.History b) :
      ∃ b, (t.withReports rows).History b := by
    obtain ⟨b, ht⟩ := ht
    exact ⟨b, ht.reports rows⟩
  exact h.keeps hreports (fun q => q.pends_history) ⟨{}, .empty⟩

end Requests

/-! ## The rows of what was recorded -/

namespace Store

/-- **A split is the row of a posting**: it says the account and the amount, and its transaction is
one of the day. -/
def IsSplitOf (s : Store) (p : Posting) (row : SplitRow) : Prop :=
  row.accountId = p.accountId ∧ row.amount = p.amount.stored
    ∧ ∃ t ∈ s.transactions, t.id = row.transactionId ∧ t.date = p.date.toText

/-- A row is that of a recorded price. -/
def IsPriceOf (q : Quote) (row : PriceRow) : Prop :=
  row.securityId = q.securityId ∧ row.currencyId = q.currencyId ∧ row.date = q.date.toText
    ∧ row.value = q.value.stored

/-- **The ledger keeps what is in a book.** -/
structure Keeps (s : Store) (b : Book) : Prop where
  /-- The kind of an account is known. -/
  kinds : ∀ a ∈ s.accounts, ∃ type : AccountType, a.type = type.name
  /-- There is one transaction for a number. -/
  transactionIds : (s.transactions.map (·.id)).Nodup
  /-- The splits are the postings, in this order. -/
  postings : List.Forall₂ s.IsSplitOf b.postings s.splits
  /-- Later prices have greater numbers. -/
  priceIds : s.prices.Pairwise (·.id < ·.id)
  /-- The prices are those that were recorded, in this order. -/
  quotes : List.Forall₂ IsPriceOf b.quotes s.prices

variable {s s' : Store} {b : Book} {user : User}

theorem keeps_empty : Keeps {} {} := ⟨nofun, .nil, .nil, .nil, .nil⟩

/-- More transactions do not make a split another posting. -/
theorem IsSplitOf.mono {p : Posting} {row : SplitRow} (h : s.IsSplitOf p row)
    (hmore : ∀ t ∈ s.transactions, t ∈ s'.transactions) : s'.IsSplitOf p row := by
  obtain ⟨haccount, hamount, t, ht, hday⟩ := h
  exact ⟨haccount, hamount, t, hmore t ht, hday⟩

/-- The splits of a transaction are its postings. -/
theorem isSplitOf_splitRows {transactionId : Int} {date : Date} {splits : List (Int × Amount)}
    (h : ∃ t ∈ s.transactions, t.id = transactionId ∧ t.date = date.toText) (first : Int) :
    List.Forall₂ s.IsSplitOf (splits.map fun split => ⟨split.1, date, split.2⟩)
      (splitRows transactionId first splits) := by
  induction splits generalizing first with
  | nil => exact .nil
  | cons split splits ih => exact .cons ⟨rfl, rfl, h⟩ (ih (first + 1))

theorem applyAll_addSplits (s : Store) (rows : List SplitRow) :
    s.applyAll (rows.map .addSplit) = { s with splits := s.splits ++ rows } := by
  induction rows generalizing s with
  | nil => rw [List.append_nil]; rfl
  | cons row rows ih =>
    rw [List.map_cons, applyAll_cons, ih]
    exact congrArg (fun splits => { s with splits }) (List.append_assoc s.splits [row] rows)

/-- A new transaction has a number of its own. -/
theorem ne_of_postTransaction {date : Date} {description : String} {splits : List (Int × Amount)}
    {id : Int}
    (h : (Request.postTransaction user date description splits).step.run s = .ok (id, s')) :
    ∀ t ∈ s.transactions, t.id ≠ id := by
  rw [Request.step, postTransaction_eq] at h
  obtain ⟨_, t, hchecks, hrest⟩ := run_bind_ok_iff.mp h
  obtain ⟨id', t', htransaction, hrest⟩ := run_bind_ok_iff.mp hrest
  obtain ⟨_, _, _, hend⟩ := run_bind_ok_iff.mp hrest
  rw [(eq_of_checkOwners hchecks).1, createTransaction, run_get_bind] at htransaction
  obtain ⟨-, htransaction⟩ := run_checkReference_bind_ok htransaction
  cases htransaction
  cases hend
  exact fun t ht => Int.ne_of_lt (lt_nextId_of_mem (List.mem_map_of_mem ht))

/-- A new price has a greater number than all others. -/
theorem lt_of_createPrice {securityId currencyId id : Int} {date : Date} {value : Amount}
    (h : (Request.createPrice securityId currencyId date value).step.run s = .ok (id, s')) :
    ∀ p ∈ s.prices, p.id < id := by
  rw [Request.step, createPrice, run_get_bind] at h
  obtain ⟨-, h⟩ := run_checkReference_bind_ok h
  cases h
  exact fun p hp => lt_nextId_of_mem (List.mem_map_of_mem hp)

theorem nodup_append_of_ne {ids : List Int} {id : Int} (h : ids.Nodup) (hne : ∀ i ∈ ids, i ≠ id) :
    (ids ++ [id]).Nodup :=
  h.append (List.nodup_singleton id) (List.disjoint_singleton.mpr fun hid => hne id hid rfl)

/-- It does not matter for a book what the other tables are. -/
theorem Keeps.of_same (h : s.Keeps b) (haccounts : s'.accounts = s.accounts)
    (htransactions : s'.transactions = s.transactions) (hsplits : s'.splits = s.splits)
    (hprices : s'.prices = s.prices) : s'.Keeps b := by
  refine ⟨?_, ?_, ?_, ?_, ?_⟩
  · rw [haccounts]
    exact h.kinds
  · rw [htransactions]
    exact h.transactionIds
  · rw [hsplits]
    exact h.postings.imp fun p row hrow => hrow.mono (by rw [htransactions]; exact fun t ht => ht)
  · rw [hprices]
    exact h.priceIds
  · rw [hprices]
    exact h.quotes

theorem Keeps.addTransaction {date : Date} {description : String} {splits : List (Int × Amount)}
    {id : Int} (h : s.Keeps b) (hfresh : ∀ t ∈ s.transactions, t.id ≠ id) (first : Int) :
    ((s.apply (.addTransaction ⟨id, user.id, description, date.toText⟩)).applyAll
        ((splitRows id first splits).map .addSplit)).Keeps
      (b.add (.postTransaction user date description splits)) := by
  let row : TransactionRow := ⟨id, user.id, description, date.toText⟩
  have hmore : ∀ t ∈ s.transactions, t ∈ s.transactions ++ [row] :=
    fun t ht => List.mem_append_left _ ht
  have hthere : ∃ t ∈ s.transactions ++ [row], t.id = id ∧ t.date = date.toText :=
    ⟨row, List.mem_append_right _ List.mem_cons_self, rfl, rfl⟩
  rw [applyAll_addSplits]
  refine ⟨h.kinds, ?_, ?_, h.priceIds, ?_⟩
  · show ((s.transactions ++ [row]).map (·.id)).Nodup
    rw [List.map_append]
    refine nodup_append_of_ne h.transactionIds fun i hi => ?_
    obtain ⟨t, ht, rfl⟩ := List.mem_map.mp hi
    exact hfresh t ht
  · exact List.rel_append (h.postings.imp fun p row hrow => hrow.mono hmore)
      (isSplitOf_splitRows hthere first)
  · show List.Forall₂ IsPriceOf (b.quotes ++ []) s.prices
    rw [List.append_nil]
    exact h.quotes

theorem Keeps.addPrice {securityId currencyId id : Int} {date : Date} {value : Amount}
    (h : s.Keeps b) (hlast : ∀ p ∈ s.prices, p.id < id) :
    (s.apply (.addPrice ⟨id, securityId, currencyId, date.toText, value.stored⟩)).Keeps
      (b.add (.createPrice securityId currencyId date value)) := by
  refine ⟨h.kinds, h.transactionIds, ?_, ?_, ?_⟩
  · show List.Forall₂ s.IsSplitOf (b.postings ++ []) s.splits
    rw [List.append_nil]
    exact h.postings
  · exact List.pairwise_append.mpr
      ⟨h.priceIds, List.pairwise_singleton _ _, fun p hp row hrow =>
        List.mem_singleton.mp hrow ▸ hlast p hp⟩
  · exact List.rel_append h.quotes (.cons ⟨rfl, rfl, rfl, rfl⟩ .nil)

/-- **An answered request adds to the ledger what it adds to the book.** -/
theorem Keeps.request {α : Type} {q : Request α} {a : α} (h : s.Keeps b)
    (hstep : q.step.run s = .ok (a, s')) : s'.Keeps (b.add q) := by
  have hs' := applyAll_writes_of_step hstep
  -- a request that records nothing adds nothing to the book
  have hquiet {t : Store} (ht : t.Keeps b) : t.Keeps ⟨b.postings ++ [], b.quotes ++ []⟩ := by
    rw [List.append_nil, List.append_nil]
    exact ht
  cases q with
  | postTransaction user date description splits =>
    rw [hs']
    exact h.addTransaction (ne_of_postTransaction hstep) _
  | createPrice securityId currencyId date value =>
    rw [hs']
    exact h.addPrice (lt_of_createPrice hstep)
  | createAccount user name type securityId parentId =>
    rw [hs']
    refine hquiet ⟨fun row hrow => ?_, h.transactionIds, h.postings, h.priceIds, h.quotes⟩
    obtain hrow | hrow := List.mem_append.mp hrow
    · exact h.kinds row hrow
    · exact ⟨type, List.mem_singleton.mp hrow ▸ rfl⟩
  | updateReport | deleteReport =>
    rw [hs']
    cases a <;> exact hquiet (h.of_same rfl rfl rfl rfl)
  | _ =>
    rw [hs']
    exact hquiet (h.of_same rfl rfl rfl rfl)

theorem Sound.request {α : Type} {q : Request α} {a : α} (h : s.Sound)
    (hstep : q.step.run s = .ok (a, s')) : s'.Sound := by
  obtain ⟨result, t, refusals, hrun, hsound⟩ := q.pends_sound s s []
  rw [Connection.undisturbed_request, transact_of_ok hstep] at hrun
  cases hrun
  exact hsound h

theorem History.sound (h : s.History b) : s.Sound := by
  induction h with
  | empty => exact sound_empty
  | request _ hstep ih => exact ih.request hstep
  | reports _ rows ih => exact ih.withReports rows

/-- **The ledger keeps what was recorded in its history.** -/
theorem History.keeps (h : s.History b) : s.Keeps b := by
  induction h with
  | empty => exact keeps_empty
  | request _ hstep ih => exact ih.request hstep
  | reports _ rows ih =>
    exact ⟨ih.kinds, ih.transactionIds, ih.postings, ih.priceIds, ih.quotes⟩

end Store

end LedgerReports
