import LedgerReports.Proofs.Script.Questions
import LedgerReports.Proofs.Store.Balances

/-!
# Closest prices

The price that is shown for a day is the last one recorded of the latest day that
has one and is not after it (`Store.closest_price_is_the_latest`). The query goes
through the rows and keeps the later of two (`Store.latest?`), by the text of the
day, and by the number where the day is the same. That makes the order of the
rows irrelevant (`Store.latest?_spec`). The number stands for when the price was
recorded, since later prices have greater numbers, and the texts for the days as
long as the years have four digits.
-/

namespace LedgerReports

open Amount (ScaleFits)

namespace Store

variable {s s' : Store} {b : Book} {rows : List PriceRow} {row a c : PriceRow}

/-! ## The latest of some rows -/

/-- **A row is not later than another one**, by the text of the day, and then by the number. -/
def Precedes (a c : PriceRow) : Prop := a.date < c.date ∨ a.date = c.date ∧ a.id ≤ c.id

theorem Precedes.refl (a : PriceRow) : Precedes a a := .inr ⟨rfl, Int.le_refl _⟩

theorem Precedes.trans {d : PriceRow} (h : Precedes a c) (h' : Precedes c d) : Precedes a d := by
  obtain hlt | ⟨heq, hid⟩ := h
  · obtain hlt' | ⟨heq', -⟩ := h'
    · exact .inl (text_lt_trans hlt hlt')
    · exact .inl (heq' ▸ hlt)
  · obtain hlt' | ⟨heq', hid'⟩ := h'
    · exact .inl (heq ▸ hlt')
    · exact .inr ⟨heq.trans heq', Int.le_trans hid hid'⟩

theorem precedes_of_not (h : ¬ Precedes a c) : Precedes c a := by
  obtain hlt | heq | hgt := text_lt_or_eq_or_gt a.date c.date
  · exact absurd (.inl hlt) h
  · refine .inr ⟨heq.symm, ?_⟩
    have hid : ¬ a.id ≤ c.id := fun hid => h (.inr ⟨heq, hid⟩)
    omega
  · exact .inl hgt

/-- The later of two rows is one of them, and neither is later. -/
theorem laterPrice_spec (a c : PriceRow) :
    (laterPrice a c = a ∨ laterPrice a c = c) ∧ Precedes a (laterPrice a c)
      ∧ Precedes c (laterPrice a c) := by
  unfold laterPrice
  split
  · next h => exact ⟨.inr rfl, h, .refl c⟩
  · next h => exact ⟨.inl rfl, .refl a, precedes_of_not h⟩

/-- The latest of some rows. -/
def latest? (rows : List PriceRow) : Option PriceRow :=
  rows.foldl (fun best p => some ((best.map (laterPrice · p)).getD p)) none

theorem foldl_laterPrice_spec (rows : List PriceRow) (row : PriceRow) :
    ∃ last, rows.foldl (fun best p => some ((best.map (laterPrice · p)).getD p)) (some row)
        = some last
      ∧ last ∈ row :: rows ∧ ∀ r ∈ row :: rows, Precedes r last := by
  induction rows generalizing row with
  | nil =>
    refine ⟨row, rfl, List.mem_cons_self, fun r hr => ?_⟩
    rw [List.mem_singleton.mp hr]
    exact .refl row
  | cons p rows ih =>
    obtain ⟨hone, hrow, hp⟩ := laterPrice_spec row p
    obtain ⟨last, hlast, hmem, hall⟩ := ih (laterPrice row p)
    refine ⟨last, hlast, ?_, ?_⟩
    · obtain rfl | hmem := List.mem_cons.mp hmem
      · obtain hone | hone := hone
        · rw [hone]
          exact List.mem_cons_self
        · rw [hone]
          exact List.mem_cons_of_mem _ List.mem_cons_self
      · exact List.mem_cons_of_mem _ (List.mem_cons_of_mem _ hmem)
    · obtain ⟨hlater, hrows⟩ := List.forall_mem_cons.mp hall
      exact List.forall_mem_cons.mpr ⟨hrow.trans hlater,
        List.forall_mem_cons.mpr ⟨hp.trans hlater, hrows⟩⟩

/-- **The latest of some rows** is one of them that none is later than; there is one unless there
are no rows. -/
theorem latest?_spec (rows : List PriceRow) :
    (rows = [] ∧ latest? rows = none)
      ∨ ∃ last, latest? rows = some last ∧ last ∈ rows ∧ ∀ r ∈ rows, Precedes r last := by
  cases rows with
  | nil => exact .inl ⟨rfl, rfl⟩
  | cons row rows => exact .inr (foldl_laterPrice_spec rows row)

/-- The rows of the prices of a security in another one on a day or before it. -/
def known (s : Store) (securityId currencyId : Int) (day : Date) : List PriceRow :=
  s.prices.filter fun p =>
    p.securityId == securityId && p.currencyId == currencyId && decide (p.date ≤ day.toText)

theorem closestPrice?_eq (s : Store) (securityId currencyId : Int) (day : Date) :
    s.closestPrice? securityId currencyId day
      = (latest? (s.known securityId currencyId day)).mapM (·.read) := rfl

theorem mem_known_iff {securityId currencyId : Int} {day : Date} :
    row ∈ s.known securityId currencyId day ↔ row ∈ s.prices ∧ row.securityId = securityId
      ∧ row.currencyId = currencyId ∧ row.date ≤ day.toText := by
  rw [known, List.mem_filter, Bool.and_eq_true, Bool.and_eq_true, beq_iff_eq, beq_iff_eq,
    decide_eq_true_iff, and_assoc]

end Store

/-! ## Recorded prices -/

/-- **A price counts for a day**: it is one of the security in the other one, and of this day or an
earlier one. -/
def Quote.Counts (q : Quote) (securityId currencyId : Int) (day : Date) : Prop :=
  q.securityId = securityId ∧ q.currencyId = currencyId ∧ q.date ≤ day

/-- **A recorded price is the closest one to a day**: it counts, none that counts is of a later day,
and none of its own day that counts was recorded after it. -/
structure Book.IsClosest (b : Book) (securityId currencyId : Int) (day : Date) (q : Quote) :
    Prop where
  /-- It counts. -/
  counts : q.Counts securityId currencyId day
  /-- None that counts is of a later day. -/
  latest : ∀ r ∈ b.quotes, r.Counts securityId currencyId day → r.date ≤ q.date
  /-- None of its day was recorded later. -/
  last : ∃ earlier later, b.quotes = earlier ++ q :: later
    ∧ ∀ r ∈ later, r.Counts securityId currencyId day → r.date ≠ q.date

namespace Store

variable {s s' : Store} {b : Book} {q : Quote} {row : PriceRow} {securityId currencyId : Int}
  {day : Date}

/-- **The row of a price counts if the price does.** -/
theorem isKnown_iff (hrow : IsPriceOf q row) (hmem : row ∈ s.prices) (hq : q.date.HasPlainYear)
    (hday : day.HasPlainYear) :
    row ∈ s.known securityId currencyId day ↔ q.Counts securityId currencyId day := by
  obtain ⟨hsecurity, hcurrency, hdate, -⟩ := hrow
  rw [mem_known_iff, and_iff_right hmem, hsecurity, hcurrency, hdate,
    Date.toText_le_iff_le_iff.mpr (Date.inTextOrder_of_years hq hday)]
  exact Iff.rfl

/-- A row that is not later than another one is of the same day or an earlier one. -/
theorem Precedes.date_le {q' : Quote} {row' : PriceRow} (h : Precedes row row')
    (hrow : IsPriceOf q row) (hrow' : IsPriceOf q' row') (hq : q.date.HasPlainYear)
    (hq' : q'.date.HasPlainYear) : q.date ≤ q'.date := by
  have horder := Date.inTextOrder_of_years hq hq'
  rw [Precedes, hrow.2.2.1, hrow'.2.2.1] at h
  obtain hlt | ⟨heq, -⟩ := h
  · have hdays := (Date.toText_lt_iff_lt_iff.mpr horder).mp hlt
    rw [Date.lt_iff_dayNumber_lt] at hdays
    rw [Date.le_iff_dayNumber_le]
    omega
  · rw [Date.toText_inj.mp heq, Date.le_iff_dayNumber_le]

/-! ### Rows and what they record -/

/-- What a row records stands where the row stands. -/
theorem exists_split_of_forall₂ {α β : Type} {R : α → β → Prop} {l : List α} {m₁ m₂ : List β}
    {x : β} (h : List.Forall₂ R l (m₁ ++ x :: m₂)) :
    ∃ l₁ y l₂, l = l₁ ++ y :: l₂ ∧ R y x ∧ List.Forall₂ R l₂ m₂ := by
  induction m₁ generalizing l with
  | nil =>
    cases h with
    | @cons y _ l₂ _ hy hrest => exact ⟨[], y, l₂, rfl, hy, hrest⟩
  | cons _ m₁ ih =>
    cases h with
    | @cons z _ l _ _ hrest =>
      obtain ⟨l₁, y, l₂, rfl, hy, hrest⟩ := ih hrest
      exact ⟨z :: l₁, y, l₂, rfl, hy, hrest⟩

/-- **A price counts just if its row does.** -/
theorem exists_known {quotes : List Quote} {rows : List PriceRow}
    (h : List.Forall₂ IsPriceOf quotes rows) (hrows : ∀ row ∈ rows, row ∈ s.prices)
    (hdates : ∀ q ∈ quotes, q.date.HasPlainYear) (hday : day.HasPlainYear) :
    ∀ q ∈ quotes, q.Counts securityId currencyId day →
      ∃ row ∈ rows, IsPriceOf q row ∧ row ∈ s.known securityId currencyId day := by
  refine forall_mem_of_forall₂ (forall₂_mem h).flip fun row _ q ⟨hq, hmem, hrow⟩ hcounts => ?_
  exact ⟨row, hmem, hrow, (isKnown_iff hrow (hrows row hmem) (hdates q hq) hday).mpr hcounts⟩

/-- **The row of a price is read** as a price of the same day and value. -/
theorem read_of_isPriceOf (h : IsPriceOf q row) (hscale : ScaleFits q.value.scale) :
    ∃ p, row.read = .ok p ∧ p.securityId = q.securityId ∧ p.currencyId = q.currencyId
      ∧ p.date = q.date ∧ p.value.same q.value = true := by
  obtain ⟨hsecurity, hcurrency, hdate, hvalue⟩ := h
  obtain ⟨x, hx, hsame⟩ := Amount.parse?_stored hscale
  have hreadDate : readDate 3 row.date = .ok q.date := by rw [readDate, hdate, Date.parse_toText]
  have hreadValue : readAmount 4 row.value = .ok x := by rw [readAmount, hvalue, hx]
  refine ⟨⟨row.id, row.securityId, row.currencyId, q.date, x⟩, ?_, hsecurity, hcurrency, rfl,
    Amount.same_iff.mpr hsame⟩
  rw [PriceRow.read, hreadDate, hreadValue]
  rfl

/-- **The latest of the rows that count records the closest price.** -/
theorem isClosest_of_latest (h : s.History b) (hsame : s.SameLedger s')
    (hdates : ∀ q ∈ b.quotes, q.date.HasPlainYear) (hday : day.HasPlainYear)
    (hmem : row ∈ s'.known securityId currencyId day)
    (hlatest : ∀ r ∈ s'.known securityId currencyId day, Precedes r row) :
    ∃ q ∈ b.quotes, IsPriceOf q row ∧ b.IsClosest securityId currencyId day q := by
  have hprices : ∀ r ∈ s.prices, r ∈ s'.prices := fun r hr => hsame.prices.mem_iff.mpr hr
  obtain ⟨before, after, hsplit⟩ :=
    List.append_of_mem (hsame.prices.mem_iff.mp (mem_known_iff.mp hmem).1)
  have hquotes := h.keeps.quotes
  have hids := h.keeps.priceIds
  rw [hsplit] at hquotes hids
  obtain ⟨earlier, q, later, hbook, hrow, hlater⟩ := exists_split_of_forall₂ hquotes
  have hafter : ∀ r ∈ after, row.id < r.id :=
    (List.pairwise_cons.mp (List.pairwise_append.mp hids).2.1).1
  have hq : q ∈ b.quotes := hbook ▸ List.mem_append_right _ List.mem_cons_self
  have hof : ∀ r ∈ later, r ∈ b.quotes :=
    fun r hr => hbook ▸ List.mem_append_right _ (List.mem_cons_of_mem _ hr)
  have hcounted : q.Counts securityId currencyId day :=
    (isKnown_iff hrow (mem_known_iff.mp hmem).1 (hdates q hq) hday).mp hmem
  refine ⟨q, hq, hrow, hcounted, fun r hr hcounts => ?_,
    earlier, later, hbook, fun r hr hcounts heq => ?_⟩
  · obtain ⟨row', -, hrow', hknown⟩ := exists_known h.keeps.quotes hprices hdates hday r hr hcounts
    exact (hlatest row' hknown).date_le hrow' hrow (hdates r hr) (hdates q hq)
  · obtain ⟨row', hrow'mem, hrow', hknown⟩ := exists_known hlater
      (fun r hr => hprices r (hsplit ▸ List.mem_append_right _ (List.mem_cons_of_mem _ hr)))
      (fun r hr => hdates r (hof r hr)) hday r hr hcounts
    -- on one day the numbers decide, and that of a later row is greater
    have htexts : row'.date = row.date := by rw [hrow'.2.2.1, hrow.2.2.1, heq]
    have hnumbers := hafter row' hrow'mem
    obtain hlt | ⟨-, hle⟩ := hlatest row' hknown
    · exact List.lt_irrefl _ (htexts ▸ hlt)
    · omega

end Store

/-! ## What a script is told -/

namespace Script

variable {setting : Setting} {m : Machine} {c : Call} {securityId currencyId : Int} {day : Date}

/-- Before the deadline nothing is late. -/
theorem run_isLate_of_not_passed (hnoted : m.journal.deadlinePassed = false)
    (hpassed : setting.deadline.passed m.steps = false) :
    isLate.run setting m = .ok false m := by
  simp only [isLate, ScriptM.run_bind, ScriptM.run_get, hnoted, Bool.false_eq_true, if_false,
    ScriptM.run_read, hpassed, ScriptM.run_pure]

/-- An object that is answered is a new one. -/
theorem run_objectOrNil_some (o : HostObject) (setting : Setting) (m : Machine) :
    ∃ id m', (objectOrNil (some o)).run setting m = .ok #[.object id o] m' := by
  refine ⟨m.nextId, { m with nextId := m.nextId + 1 }, ?_⟩
  simp only [objectOrNil, newObject, newId, ScriptM.run_bind, ScriptM.run_get, ScriptM.run_modify,
    ScriptM.run_pure, one]

/-- **A script that asks for a price is told what the ledger answers**: nothing, or a price. -/
theorem run_pricesAt (hsecurity : Value.asSecurityId (c.arg 0) = .ok securityId)
    (hcurrency : Value.asSecurityId (c.arg 1) = .ok currencyId)
    (hday : Value.asDate (c.arg 2) = .ok day) (hnoted : m.journal.deadlinePassed = false)
    (hpassed : setting.deadline.passed m.steps = false)
    {found : Option Price}
    (hfound : setting.ledger.closestPrice? securityId currencyId day = .ok found) :
    ∃ v m', (HostFunction.pricesAt.run c).run setting m = .ok #[v] m'
      ∧ (found = none → v = .nil) ∧ ∀ p, found = some p → ∃ id, v = .object id (.price p) := by
  have hanswer : setting.ledger.answer (.closestPrice securityId currencyId day) = .ok found :=
    hfound
  have hasked : (ask (.closestPrice securityId currencyId day)).run setting m = .ok found m := by
    rw [ask, ScriptM.run_bind, run_consult_of_ok m hanswer]
    exact ScriptM.run_pure setting m found
  have hrun : (HostFunction.pricesAt.run c).run setting m
      = (objectOrNil (found.map .price)).run setting m := by
    unfold HostFunction.run
    rw [ScriptM.run_bind, run_read hsecurity]
    dsimp only
    rw [ScriptM.run_bind, run_read hcurrency]
    dsimp only
    rw [ScriptM.run_bind, run_read hday]
    dsimp only
    rw [ScriptM.run_bind, run_checkDeadline (run_isLate_of_not_passed hnoted hpassed)]
    dsimp only
    rw [ScriptM.run_bind, hasked]
  rw [hrun]
  cases found with
  | none => exact ⟨.nil, m, ScriptM.run_pure setting m _, fun _ => rfl, fun _ hp => nomatch hp⟩
  | some p =>
    obtain ⟨id, m', hobject⟩ := run_objectOrNil_some (.price p) setting m
    exact ⟨_, m', hobject, nofun, fun _ hp => ⟨id, by rw [Option.some.inj hp]⟩⟩

end Script

namespace Store

variable {s s' : Store} {b : Book} {rows : List PriceRow} {securityId currencyId : Int} {day : Date}

/-- **The closest price is the latest one that is known on a day.** There is none just if none of
the security in the other one was recorded for this day or an earlier one. Otherwise it is one of
these, none of these is of a later day, and none of its own day was recorded after it, whatever the
order in which the prices were recorded and in which the rows are read; it has the day and the value
that were recorded. A script that asks before its deadline is told so. -/
theorem closest_price_is_the_latest (h : s.History b) (hsame : s.SameLedger s')
    (hdates : ∀ q ∈ b.quotes, q.date.HasPlainYear)
    (hscales : ∀ q ∈ b.quotes, ScaleFits q.value.scale) (hday : day.HasPlainYear)
    (securityId currencyId : Int) :
    ∃ found : Option Price, s'.closestPrice? securityId currencyId day = .ok found
      ∧ (found = none ↔ ∀ q ∈ b.quotes, ¬ q.Counts securityId currencyId day)
      ∧ (∀ p, found = some p → ∃ q ∈ b.quotes, b.IsClosest securityId currencyId day q
          ∧ p.securityId = securityId ∧ p.currencyId = currencyId ∧ p.date = q.date
          ∧ p.value.same q.value = true)
      ∧ ∀ (user : User) (setting : Script.Setting) (m : Script.Machine) (c : Script.Call),
          setting.ledger = s'.view user → Script.Value.asSecurityId (c.arg 0) = .ok securityId →
          Script.Value.asSecurityId (c.arg 1) = .ok currencyId →
          Script.Value.asDate (c.arg 2) = .ok day →
          m.journal.deadlinePassed = false → setting.deadline.passed m.steps = false →
          ∃ v m', (Script.HostFunction.pricesAt.run c).run setting m = .ok #[v] m'
            ∧ (found = none → v = .nil)
            ∧ ∀ p, found = some p → ∃ id, v = .object id (.price p) := by
  have htold {found : Option Price}
      (hfound : s'.closestPrice? securityId currencyId day = .ok found)
      (user : User) (setting : Script.Setting) (m : Script.Machine) (c : Script.Call)
      (hledger : setting.ledger = s'.view user)
      (hsecurity : Script.Value.asSecurityId (c.arg 0) = .ok securityId)
      (hcurrency : Script.Value.asSecurityId (c.arg 1) = .ok currencyId)
      (hasked : Script.Value.asDate (c.arg 2) = .ok day)
      (hnoted : m.journal.deadlinePassed = false)
      (hpassed : setting.deadline.passed m.steps = false) :=
    Script.run_pricesAt hsecurity hcurrency hasked hnoted hpassed
      (hledger ▸ hfound : setting.ledger.closestPrice? securityId currencyId day = .ok found)
  have hprices : ∀ r ∈ s.prices, r ∈ s'.prices := fun r hr => hsame.prices.mem_iff.mpr hr
  have hknown : ∀ q ∈ b.quotes, q.Counts securityId currencyId day →
      ∃ row ∈ s.prices, IsPriceOf q row ∧ row ∈ s'.known securityId currencyId day :=
    exists_known h.keeps.quotes hprices hdates hday
  obtain ⟨hnil, hlatest⟩ | ⟨row, hlatest, hmem, hall⟩ :=
    latest?_spec (s'.known securityId currencyId day)
  · have hfound : s'.closestPrice? securityId currencyId day = .ok none := by
      rw [closestPrice?_eq, hlatest]
      rfl
    refine ⟨none, hfound, iff_of_true rfl fun q hq hcounts => ?_,
      fun p hp => (Option.some_ne_none p hp.symm).elim, htold hfound⟩
    obtain ⟨row, -, -, hrow⟩ := hknown q hq hcounts
    rw [hnil] at hrow
    exact List.not_mem_nil hrow
  · obtain ⟨q, hq, hrow, hclosest⟩ := isClosest_of_latest h hsame hdates hday hmem hall
    obtain ⟨p, hread, hsecurity, hcurrency, hdate, hvalue⟩ := read_of_isPriceOf hrow (hscales q hq)
    have hfound : s'.closestPrice? securityId currencyId day = .ok (some p) := by
      rw [closestPrice?_eq, hlatest]
      show some <$> row.read = _
      rw [hread]
      rfl
    refine ⟨some p, hfound, iff_of_false nofun fun hnone => hnone q hq hclosest.counts,
      fun p' hp => ?_, htold hfound⟩
    cases hp
    exact ⟨q, hq, hclosest, hsecurity.trans hclosest.counts.1,
      hcurrency.trans hclosest.counts.2.1, hdate, hvalue⟩

/-- A ledger that knows the euro and gold, and some prices. -/
def withPrices (rows : List PriceRow) : Store :=
  { securities := [⟨1, "euro", "euro", "EUR", 2, "currency"⟩,
      ⟨2, "gold", "gold", "XAU", 3, "currency"⟩]
    prices := rows }

theorem history_withPrices_nil : (withPrices []).History {} := by
  have heuro : Store.History { securities := [⟨1, "euro", "euro", "EUR", 2, "currency"⟩] } {} :=
    .request (q := .createSecurity "euro" "EUR" 2 .currency) .empty rfl
  exact heuro.request (q := .createSecurity "gold" "XAU" 3 .currency) rfl

/-- One more price of gold is recorded. -/
theorem History.withPrice (h : (withPrices rows).History b) (day : Date) (x : Amount) :
    (withPrices (rows ++ [⟨nextId (rows.map (·.id)), 2, 1, day.toText, x.stored⟩])).History
      (b.add (.createPrice 2 1 day x)) :=
  h.request (q := .createPrice 2 1 day x) rfl

/-- Gold has a price on New Year's Day, and one in May, and then another one on New Year's Day is
recorded. This is what a script is told that asks for the price in February, though the rows are
read from the end. -/
theorem closest_price_is_the_latest_in_february :
    let newYear : Date := ⟨2017, 1, 1, by decide, by decide⟩
    let asked : Date := ⟨2017, 2, 1, by decide, by decide⟩
    let may : Date := ⟨2017, 5, 1, by decide, by decide⟩
    let first : Quote := ⟨2, 1, newYear, ⟨37, 0⟩⟩
    let second : Quote := ⟨2, 1, may, ⟨39, 0⟩⟩
    let third : Quote := ⟨2, 1, newYear, ⟨375, 1⟩⟩
    let s : Store := withPrices
      [⟨1, 2, 1, newYear.toText, first.value.stored⟩, ⟨2, 2, 1, may.toText, second.value.stored⟩,
        ⟨3, 2, 1, newYear.toText, third.value.stored⟩]
    let s' : Store := { s with prices := s.prices.reverse }
    let setting : Script.Setting := { ledger := s'.view default }
    let c : Script.Call :=
      { function := .host .pricesAt, args := #[.ofInt 2, .ofInt 1, .object 0 (.date asked)]
        stack := .bottom, origin := none, callWith := fun _ _ _ => pure #[] }
    s.History { quotes := [first, second, third] } ∧ s.SameLedger s'
      ∧ ∃ p id m', s'.closestPrice? 2 1 asked = .ok (some p)
        ∧ p.date = newYear ∧ p.value.same third.value = true
        ∧ (Script.HostFunction.pricesAt.run c).run setting {}
          = .ok #[.object id (.price p)] m' := by
  intro newYear asked may first second third s s' setting c
  have hhistory : s.History { quotes := [first, second, third] } :=
    ((history_withPrices_nil.withPrice newYear first.value).withPrice may second.value).withPrice
      newYear third.value
  have hsame : s.SameLedger s' := ⟨.refl _, .refl _, .refl _, List.reverse_perm _⟩
  obtain ⟨found, hfound, hnone, hclosest, htold⟩ := closest_price_is_the_latest hhistory hsame
    (by decide) (by decide) (by decide : asked.HasPlainYear) 2 1
  have hthird : third.Counts 2 1 asked := ⟨rfl, rfl, by decide⟩
  have hsecond : ¬ second.Counts 2 1 asked := fun h => absurd h.2.2 (by decide)
  obtain ⟨v, m', hrun, -, hprice⟩ := htold default setting {} c rfl rfl rfl rfl rfl rfl
  cases found with
  | none => exact absurd hthird (hnone.mp rfl third (by simp))
  | some p =>
    obtain ⟨id, rfl⟩ := hprice p rfl
    obtain ⟨q, -, ⟨hcounts, -, earlier, later, hbook, hlater⟩, -, -, hdate, hvalue⟩ :=
      hclosest p rfl
    have hq : q = third := by
      match earlier, hbook with
      | [], hbook =>
        obtain ⟨rfl, rfl⟩ := List.cons_eq_cons.mp hbook
        exact absurd rfl (hlater third (by simp) hthird)
      | [_], hbook =>
        obtain ⟨-, hbook⟩ := List.cons_eq_cons.mp hbook
        obtain ⟨rfl, -⟩ := List.cons_eq_cons.mp hbook
        exact absurd hcounts hsecond
      | [_, _], hbook =>
        obtain ⟨-, hbook⟩ := List.cons_eq_cons.mp hbook
        obtain ⟨-, hbook⟩ := List.cons_eq_cons.mp hbook
        exact (List.cons_eq_cons.mp hbook).1.symm
      | _ :: _ :: _ :: _, hbook => simp at hbook
    rw [hq] at hdate hvalue
    exact ⟨hhistory, hsame, p, id, m', hfound, hdate, hvalue, hrun⟩

end Store

end LedgerReports
