import LedgerReports.Proofs.Amount.Text
import LedgerReports.Proofs.Calendar.Text
import LedgerReports.Proofs.Store.History

/-!
# Balances

A balance is the exact sum of what was posted to the account in the period
(`Store.balances_are_exact_sums`). The way there is from the rows to the book: the
texts of amounts are read back, the query finds for each split the one
transaction it belongs to, and the texts of days are compared as the days are,
as long as the years have four digits. That the sum is taken of rationals in the
end makes the order of the rows irrelevant.

What follows are the laws that reports rely on. A period that stops where it
begins has nothing in it, adjacent periods add up, and what came in over a period
is the difference of two balances on single days: those before the first day and
before the one at which the period stops.
-/

namespace LedgerReports

open Amount (ScaleFits)

/-- **A period covers a day.** -/
def Period.Covers : Period → Date → Prop
  | .upTo day, d => d ≤ day
  | .between first stop, d => first ≤ d ∧ d < stop

instance (period : Period) (d : Date) : Decidable (period.Covers d) :=
  match period with
  | .upTo day => inferInstanceAs (Decidable (d ≤ day))
  | .between first stop => inferInstanceAs (Decidable (first ≤ d ∧ d < stop))

/-- The year of a day has four digits and no sign. -/
def Date.HasPlainYear (d : Date) : Prop := 0 ≤ d.year ∧ d.year ≤ 9999

instance (d : Date) : Decidable d.HasPlainYear := inferInstanceAs (Decidable (_ ∧ _))

/-- So it is for the days that a period is given by. -/
def Period.HasPlainYears : Period → Prop
  | .upTo day => day.HasPlainYear
  | .between first stop => first.HasPlainYear ∧ stop.HasPlainYear

/-- The texts of a day and of the days that a period is given by are in order. -/
def Period.InTextOrder : Period → Date → Prop
  | .upTo day, d => d.InTextOrder day
  | .between first stop, d => first.InTextOrder d ∧ d.InTextOrder stop

/-- So they are if all years have four digits. -/
theorem Period.inTextOrder_of_years {period : Period} {d : Date} (hd : d.HasPlainYear)
    (hperiod : period.HasPlainYears) : period.InTextOrder d := by
  cases period with
  | upTo day => exact Date.inTextOrder_of_years hd hperiod
  | between first stop =>
    exact ⟨Date.inTextOrder_of_years hperiod.1 hd, Date.inTextOrder_of_years hd hperiod.2⟩

namespace Store

variable {s s' : Store} {b : Book} {user : User} {period : Period} {d : Date}

/-! ## Days and periods -/

theorem includes_upTo {day : Date} : includes d.toText (.upTo day) = true ↔ d.toText ≤ day.toText :=
  decide_eq_true_iff

theorem includes_between {first stop : Date} : includes d.toText (.between first stop) = true
    ↔ first.toText ≤ d.toText ∧ d.toText < stop.toText := by
  rw [includes, Bool.and_eq_true, decide_eq_true_iff, decide_eq_true_iff]

/-- **A stored day counts for a period that covers it.** -/
theorem includes_iff (h : period.InTextOrder d) :
    includes d.toText period = true ↔ period.Covers d := by
  cases period with
  | upTo day =>
    rw [includes_upTo]
    exact Date.toText_le_iff_le_iff.mpr h
  | between first stop =>
    rw [includes_between]
    exact and_congr (Date.toText_le_iff_le_iff.mpr h.1) (Date.toText_lt_iff_lt_iff.mpr h.2)

/-! ## The rows of a query -/

/-- **A store has the same ledger as another one**, with its rows in any order. -/
structure SameLedger (s s' : Store) : Prop where
  /-- The accounts are the same. -/
  accounts : s'.accounts.Perm s.accounts
  /-- The transactions are the same. -/
  transactions : s'.transactions.Perm s.transactions
  /-- The splits are the same. -/
  splits : s'.splits.Perm s.splits
  /-- The prices are the same. -/
  prices : s'.prices.Perm s.prices

/-! ### Accounts -/

theorem ofName?_name (type : AccountType) : AccountType.ofName? type.name = some type := by
  cases type <;> rfl

/-- The only row that fits is found. -/
theorem find?_eq_some_of_unique {α : Type} {rows : List α} {row : α} {fits : α → Bool}
    (hrow : row ∈ rows) (hfits : fits row = true) (honly : ∀ r ∈ rows, fits r = true → r = row) :
    rows.find? fits = some row := by
  obtain ⟨found, hfound⟩ := Option.isSome_iff_exists.mp (List.find?_isSome.mpr ⟨row, hrow, hfits⟩)
  rw [hfound, honly found (List.mem_of_find?_eq_some hfound) (List.find?_some hfound)]

/-- **An account of the user is found and can be read.** -/
theorem account?_of_history (h : s.History b) (hsame : s.SameLedger s') {row : AccountRow}
    (hrow : row ∈ s.accounts) (howner : row.userId = user.id) :
    ∃ account, s'.account? user row.id = .ok (some account) ∧ account.id = row.id := by
  obtain ⟨type, htype⟩ := h.keeps.kinds row hrow
  have hfind : s'.accounts.find? (fun a => a.userId == user.id && a.id == row.id) = some row := by
    refine find?_eq_some_of_unique (hsame.accounts.mem_iff.mpr hrow) ?_ fun r hr hfits => ?_
    · rw [howner, beq_self_eq_true, beq_self_eq_true, Bool.and_true]
    · rw [Bool.and_eq_true, beq_iff_eq, beq_iff_eq] at hfits
      exact List.inj_on_of_nodup_map h.sound.accountIds (hsame.accounts.mem_iff.mp hr) hrow hfits.2
  refine ⟨⟨row.id, row.userId, row.securityId, row.parentId, row.name, type⟩, ?_, rfl⟩
  rw [account?, hfind]
  show some <$> row.read = _
  rw [AccountRow.read, htype, ofName?_name]
  rfl

/-! ### Splits -/

/-- The quantity of a split. -/
def SplitRow.value (row : SplitRow) : ℚ := ((Amount.parse? row.amount).map Amount.value).getD 0

/-- The amounts of splits are read if each of them can be read. -/
theorem mapM_readAmount {rows : List SplitRow}
    (h : ∀ row ∈ rows, ∃ x, Amount.parse? row.amount = some x) :
    ∃ amounts, (rows.mapM fun split => readAmount 0 split.amount) = .ok amounts
      ∧ amounts.map Amount.value = rows.map SplitRow.value := by
  induction rows with
  | nil => exact ⟨[], rfl, rfl⟩
  | cons row rows ih =>
    obtain ⟨⟨x, hx⟩, hrows⟩ := List.forall_mem_cons.mp h
    obtain ⟨amounts, hamounts, hvalues⟩ := ih hrows
    have hread : readAmount 0 row.amount = .ok x := by rw [readAmount, hx]
    refine ⟨x :: amounts, ?_, ?_⟩
    · rw [List.mapM_cons, hread, hamounts]
      rfl
    · rw [List.map_cons, List.map_cons, hvalues, SplitRow.value, hx]
      rfl

/-- Related rows are taken one by one from both lists. -/
theorem forall₂_mem {α β : Type} {R : α → β → Prop} {l : List α} {m : List β}
    (h : List.Forall₂ R l m) : List.Forall₂ (fun a b => a ∈ l ∧ b ∈ m ∧ R a b) l m := by
  induction h with
  | nil => exact .nil
  | cons hab _ ih =>
    refine .cons ⟨List.mem_cons_self, List.mem_cons_self, hab⟩ (ih.imp fun a b hab => ?_)
    exact ⟨List.mem_cons_of_mem _ hab.1, List.mem_cons_of_mem _ hab.2.1, hab.2.2⟩

/-- What follows for everything that something in one list is related to holds all over the other
one. -/
theorem forall_mem_of_forall₂ {α β : Type} {R : α → β → Prop} {l : List α} {m : List β}
    {Q : β → Prop} (h : List.Forall₂ R l m) (hQ : ∀ a ∈ l, ∀ b, R a b → Q b) : ∀ b ∈ m, Q b := by
  induction h with
  | nil => nofun
  | cons hab _ ih =>
    obtain ⟨ha, hl⟩ := List.forall_mem_cons.mp hQ
    exact List.forall_mem_cons.mpr ⟨ha _ hab, ih hl⟩

/-- The sums over those that are picked agree if those that belong together do. -/
theorem sum_filter_eq {α β : Type} {l : List α} {m : List β} {p : α → Bool} {q : β → Bool}
    {f : α → ℚ} {g : β → ℚ} (h : List.Forall₂ (fun a b => p a = q b ∧ f a = g b) l m) :
    ((l.filter p).map f).sum = ((m.filter q).map g).sum := by
  induction h with
  | nil => rfl
  | @cons a b _ _ hab _ ih =>
    rw [List.filter_cons, List.filter_cons, hab.1]
    split
    · rw [List.map_cons, List.map_cons, List.sum_cons, List.sum_cons, hab.2, ih]
    · exact ih

/-- **The query finds the transaction of a split**, and goes by its day. -/
theorem counts_iff (h : s.History b) {a : AccountRow} (ha : a ∈ s.accounts)
    (howner : a.userId = user.id) {p : Posting} {row : SplitRow} (hrow : row ∈ s.splits)
    (hsplit : s.IsSplitOf p row) (hid : row.accountId = a.id) (period : Period) :
    s.counts user period row = includes p.date.toText period := by
  obtain ⟨-, -, t, ht, htransaction, hday⟩ := hsplit
  rw [h.sound.counts_eq ha howner hrow hid period, ← hday, Bool.eq_iff_iff, List.any_eq_true]
  constructor
  · rintro ⟨t', ht', hcounts⟩
    rw [Bool.and_eq_true, beq_iff_eq, ← htransaction] at hcounts
    have hsame : t' = t := List.inj_on_of_nodup_map h.keeps.transactionIds ht' ht hcounts.1
    exact hsame ▸ hcounts.2
  · intro hcounts
    exact ⟨t, ht, by rw [htransaction, beq_self_eq_true, Bool.true_and, hcounts]⟩

end Store

/-! ## What was posted -/

/-- **What was posted to an account over a period**, exactly. -/
def Book.total (b : Book) (accountId : Int) (period : Period) : ℚ :=
  ((b.postings.filter fun p => p.accountId = accountId ∧ period.Covers p.date).map
    (·.amount.value)).sum

section Totals

variable {first middle stop before last : Date}

/-- Amounts that are picked by the one or the other of two conditions are added up once. -/
theorem sum_filter_add {α : Type} {l : List α} {p q r : α → Prop} [DecidablePred p]
    [DecidablePred q] [DecidablePred r] (f : α → ℚ)
    (h : ∀ a ∈ l, (r a ↔ p a ∨ q a) ∧ ¬ (p a ∧ q a)) :
    ((l.filter r).map f).sum = ((l.filter p).map f).sum + ((l.filter q).map f).sum := by
  induction l with
  | nil =>
    rw [List.filter_nil, List.filter_nil, List.filter_nil, List.map_nil, List.sum_nil, add_zero]
  | cons a l ih =>
    obtain ⟨ha, hl⟩ := List.forall_mem_cons.mp h
    rw [List.filter_cons, List.filter_cons, List.filter_cons]
    by_cases hp : p a
    · have hq : ¬ q a := fun hq => ha.2 ⟨hp, hq⟩
      simp [hp, hq, ha.1, ih hl, add_assoc]
    · by_cases hq : q a
      · simp [hp, hq, ha.1, ih hl, add_left_comm]
      · simp [hp, hq, ha.1, ih hl]

/-- **A period that stops where it begins has nothing in it**, and so has one that stops before. -/
theorem Book.total_between_of_le (b : Book) (accountId : Int) (h : stop ≤ first) :
    b.total accountId (.between first stop) = 0 := by
  have hnone : b.postings.filter (fun p =>
      p.accountId = accountId ∧ (Period.between first stop).Covers p.date) = [] := by
    refine List.filter_eq_nil_iff.mpr fun p _ hcovers => ?_
    obtain ⟨-, hfirst, hstop⟩ := of_decide_eq_true hcovers
    rw [Date.le_iff_dayNumber_le] at h hfirst
    rw [Date.lt_iff_dayNumber_lt] at hstop
    omega
  rw [Book.total, hnone, List.map_nil, List.sum_nil]

/-- **Adjacent periods add up.** -/
theorem Book.total_between_add (b : Book) (accountId : Int) (hfirst : first ≤ middle)
    (hstop : middle ≤ stop) :
    b.total accountId (.between first stop)
      = b.total accountId (.between first middle) + b.total accountId (.between middle stop) := by
  refine sum_filter_add _ fun p _ => ?_
  simp only [Period.Covers, Date.le_iff_dayNumber_le, Date.lt_iff_dayNumber_lt] at hfirst hstop ⊢
  omega

/-- **What came in over a period is the difference of two balances**, up to the day before the first
one and up to the last one. -/
theorem Book.total_upTo_eq_add (b : Book) (accountId : Int) (h : first ≤ stop)
    (hbefore : first.addDays? (-1) = some before) (hlast : stop.addDays? (-1) = some last) :
    b.total accountId (.upTo last)
      = b.total accountId (.upTo before) + b.total accountId (.between first stop) := by
  refine sum_filter_add _ fun p _ => ?_
  simp only [Period.Covers, Date.le_iff_lt_of_addDays? hbefore, Date.le_iff_lt_of_addDays? hlast,
    Date.le_iff_dayNumber_le, Date.lt_iff_dayNumber_lt] at h ⊢
  omega

end Totals

namespace Store

variable {s s' : Store} {b : Book} {user : User} {period : Period}

/-- **A balance is what was posted**, exactly, whatever the order of the rows is. -/
theorem balance_of_history (h : s.History b) (hsame : s.SameLedger s')
    (hdates : ∀ p ∈ b.postings, p.date.HasPlainYear)
    (hscales : ∀ p ∈ b.postings, ScaleFits p.amount.scale) {row : AccountRow}
    (hrow : row ∈ s.accounts) (howner : row.userId = user.id) {account : Account}
    (hfound : s'.account? user row.id = .ok (some account)) (hid : account.id = row.id)
    (hperiod : period.HasPlainYears) :
    ∃ x, s'.balance user row.id period = .ok (account, x)
      ∧ x.value = b.total row.id period := by
  have hcounts : s'.counts user period = s.counts user period :=
    funext fun split => hsame.transactions.any_eq
  -- each split counts if its posting does, and is worth as much
  have hpostings : List.Forall₂ (fun p split =>
      decide (p.accountId = row.id ∧ period.Covers p.date)
          = (split.accountId == account.id && s'.counts user period split)
        ∧ p.amount.value = split.value) b.postings s.splits := by
    refine (forall₂_mem h.keeps.postings).imp fun p split ⟨hp, hmem, hsplit⟩ => ⟨?_, ?_⟩
    · rw [hid, hcounts, hsplit.1, Bool.eq_iff_iff, decide_eq_true_iff, Bool.and_eq_true, beq_iff_eq]
      refine and_congr_right fun haccount => ?_
      rw [counts_iff h hrow howner hmem hsplit (hsplit.1.trans haccount),
        includes_iff (Period.inTextOrder_of_years (hdates p hp) hperiod)]
    · obtain ⟨x, hx, hvalue⟩ := Amount.parse?_stored (hscales p hp)
      rw [SplitRow.value, hsplit.2.1, hx]
      exact hvalue.symm
  have hreadable : ∀ split ∈ s.splits, ∃ x, Amount.parse? split.amount = some x :=
    forall_mem_of_forall₂ h.keeps.postings fun p hp split hsplit => by
      obtain ⟨x, hx, -⟩ := Amount.parse?_stored (hscales p hp)
      exact ⟨x, by rw [hsplit.2.1, hx]⟩
  have hpicked : ∀ split ∈ s'.splits.filter fun split =>
      split.accountId == account.id && s'.counts user period split,
      ∃ x, Amount.parse? split.amount = some x :=
    fun split hsplit => hreadable split (hsame.splits.mem_iff.mp (List.mem_filter.mp hsplit).1)
  obtain ⟨amounts, hamounts, hvalues⟩ := mapM_readAmount hpicked
  refine ⟨Amount.sum amounts, ?_, ?_⟩
  · unfold balance
    rw [hfound]
    exact congrArg (fun read : Except Failure (List Amount) =>
      read >>= fun amounts => pure (account, Amount.sum amounts)) hamounts
  · rw [Amount.value_sum, hvalues, Book.total, sum_filter_eq hpostings]
    exact ((hsame.splits.filter _).map _).sum_eq

/-- **Balances are exact sums** of all that was ever posted to the account on days of the period,
whatever the order in which that was done and in which the rows are read. So nothing came in over a
period that stops where it begins, adjacent periods add up, and what came in over a period is the
difference of two balances. -/
theorem balances_are_exact_sums (h : s.History b) (hsame : s.SameLedger s')
    (hdates : ∀ p ∈ b.postings, p.date.HasPlainYear)
    (hscales : ∀ p ∈ b.postings, ScaleFits p.amount.scale) {row : AccountRow}
    (hrow : row ∈ s.accounts) (howner : row.userId = user.id) :
    ∃ (account : Account) (amount : Period → Amount), account.id = row.id
      ∧ (∀ period : Period, period.HasPlainYears →
          s'.balance user row.id period = .ok (account, amount period)
            ∧ (amount period).value = b.total row.id period)
      ∧ (∀ first stop : Date, first.HasPlainYear → stop.HasPlainYear → stop ≤ first →
          (amount (.between first stop)).same .zero = true)
      ∧ (∀ first middle stop : Date, first.HasPlainYear → middle.HasPlainYear → stop.HasPlainYear →
          first ≤ middle → middle ≤ stop →
          (amount (.between first middle) + amount (.between middle stop)).same
            (amount (.between first stop)) = true)
      ∧ ∀ first stop before last : Date, first.HasPlainYear → stop.HasPlainYear →
          before.HasPlainYear → last.HasPlainYear → first ≤ stop →
          first.addDays? (-1) = some before → stop.addDays? (-1) = some last →
          (amount (.upTo last)).same (amount (.upTo before) + amount (.between first stop))
            = true := by
  obtain ⟨account, hfound, hid⟩ := account?_of_history h hsame hrow howner
  have hbalance (period : Period) (hperiod : period.HasPlainYears) :=
    balance_of_history h hsame hdates hscales hrow howner hfound hid hperiod
  refine ⟨account, fun period => ((s'.balance user row.id period).toOption.map Prod.snd).getD .zero,
    hid, ?_⟩
  have hamount (period : Period) (hperiod : period.HasPlainYears) :
      s'.balance user row.id period
          = .ok (account, ((s'.balance user row.id period).toOption.map Prod.snd).getD .zero)
        ∧ (((s'.balance user row.id period).toOption.map Prod.snd).getD .zero).value
          = b.total row.id period := by
    obtain ⟨x, hx, hvalue⟩ := hbalance period hperiod
    rw [hx]
    exact ⟨rfl, hvalue⟩
  refine ⟨hamount, fun first stop hfirst hstop hle => ?_,
    fun first middle stop hfirst hmiddle hstop hle hle' => ?_,
    fun first stop before last hfirst hstop hbefore hlast hle hday hday' => ?_⟩
  all_goals rw [Amount.same_iff]
  · rw [(hamount (.between first stop) ⟨hfirst, hstop⟩).2, b.total_between_of_le _ hle,
      Amount.value_zero]
  · rw [Amount.value_add, (hamount (.between first middle) ⟨hfirst, hmiddle⟩).2,
      (hamount (.between middle stop) ⟨hmiddle, hstop⟩).2,
      (hamount (.between first stop) ⟨hfirst, hstop⟩).2, b.total_between_add _ hle hle']
  · rw [Amount.value_add, (hamount (.upTo last) hlast).2, (hamount (.upTo before) hbefore).2,
      (hamount (.between first stop) ⟨hfirst, hstop⟩).2, b.total_upTo_eq_add _ hle hday hday']

/-- Ann is paid five and pays one and a half before that, which is told later; the rows are read
from the end. -/
theorem balances_are_exact_sums_for_two_postings :
    let ann : User := ⟨1, "ann", 1⟩
    let paid : Date := ⟨2017, 1, 31, by decide, by decide⟩
    let spent : Date := ⟨2017, 1, 1, by decide, by decide⟩
    let s : Store :=
      { users := [ann]
        securities := [⟨1, "euro", "euro", "EUR", 2, "currency"⟩]
        accounts := [⟨1, 1, 1, none, "cash", "bank"⟩]
        transactions := [⟨1, 1, "pay", paid.toText⟩, ⟨2, 1, "rent", spent.toText⟩]
        splits := [⟨1, 1, 1, (⟨500, 2⟩ : Amount).stored⟩, ⟨2, 2, 1, (⟨-15, 1⟩ : Amount).stored⟩] }
    let b : Book := { postings := [⟨1, paid, ⟨500, 2⟩⟩, ⟨1, spent, ⟨-15, 1⟩⟩] }
    let s' : Store :=
      { s with transactions := s.transactions.reverse, splits := s.splits.reverse }
    s.History b ∧ s.SameLedger s' ∧ b.total 1 (.upTo paid) = 7 / 2
      ∧ ∃ account x, s'.balance ann 1 (.upTo paid) = .ok (account, x) ∧ x.value = 7 / 2 := by
  intro ann paid spent s b s'
  -- the texts are of no importance here
  have hpay (day : Date) (x : Amount) :
      (Request.postTransaction ann day "pay" [(1, x)]).step.run
          { s with transactions := [], splits := [] }
        = .ok (1, { s with
            transactions := [⟨1, 1, "pay", day.toText⟩], splits := [⟨1, 1, 1, x.stored⟩] }) := rfl
  have hrent (day day' : Date) (x x' : Amount) :
      (Request.postTransaction ann day' "rent" [(1, x')]).step.run
          { s with
            transactions := [⟨1, 1, "pay", day.toText⟩], splits := [⟨1, 1, 1, x.stored⟩] }
        = .ok (2, { s with
            transactions := [⟨1, 1, "pay", day.toText⟩, ⟨2, 1, "rent", day'.toText⟩]
            splits := [⟨1, 1, 1, x.stored⟩, ⟨2, 2, 1, x'.stored⟩] }) := rfl
  have hann : Store.History { users := [ann] } {} :=
    .request (q := .createUser "ann" 1) .empty rfl
  have heuro : Store.History { users := [ann], securities := s.securities } {} :=
    hann.request (q := .createSecurity "euro" "EUR" 2 .currency) rfl
  have haccount : Store.History { s with transactions := [], splits := [] } {} :=
    heuro.request (q := .createAccount ann "cash" .bank 1 none) rfl
  have hhistory : s.History b :=
    (haccount.request (hpay paid ⟨500, 2⟩)).request (hrent paid spent ⟨500, 2⟩ ⟨-15, 1⟩)
  have hsame : s.SameLedger s' :=
    ⟨.refl _, List.reverse_perm _, List.reverse_perm _, .refl _⟩
  have htotal : b.total 1 (.upTo paid) = 7 / 2 := by decide +kernel
  let cash : AccountRow := ⟨1, 1, 1, none, "cash", "bank"⟩
  have hrow : cash ∈ s.accounts := List.mem_cons_self
  have howner : cash.userId = ann.id := rfl
  obtain ⟨account, amount, -, hamount, -⟩ :=
    balances_are_exact_sums hhistory hsame (by decide) (by decide) hrow howner
  obtain ⟨hbalance, hvalue⟩ := hamount (.upTo paid) (by decide : paid.HasPlainYear)
  exact ⟨hhistory, hsame, htotal, account, _, hbalance, hvalue.trans htotal⟩

end Store

end LedgerReports
