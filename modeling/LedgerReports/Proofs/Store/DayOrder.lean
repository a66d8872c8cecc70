import LedgerReports.Proofs.Store.Prices

/-!
# The order of stored days

The ledger keeps days as texts, and its queries compare texts. What it says about
years of four digits has been proved with the days themselves. Beyond these years
a query still does what it does with the texts, and this is right just where the
texts of the two days that are compared are in order
(`Store.compares_days_iff_in_order`).

They are not in order for a day after the year 9999 and one of four digits, since
a sign comes before all digits. So a price of the year 12017 is known in 2016
(`Store.price_of_a_later_day_is_known`).
-/

namespace LedgerReports

/-! ## What a script has been told -/

namespace Script

variable {α : Type} {setting : Setting} {m m' : Machine} {c : Call}

/-- An answer that a script has got is that of the ledger. -/
theorem run_ask_eq_ok {question : Ledger.Question α} {a : α}
    (h : (ask question).run setting m = .ok a m') : setting.ledger.answer question = .ok a := by
  obtain ⟨answer, m₁, hconsult, h⟩ := run_bind_eq_ok h
  cases hanswer : setting.ledger.answer question with
  | ok found =>
    rw [run_consult_of_ok m hanswer] at hconsult
    cases hconsult
    rw [(run_pure_eq_ok h).1]
  | error f =>
    obtain ⟨m₂, hfailed⟩ : ∃ m₂, (consult question).run setting m = .ok (.error f) m₂ := by
      cases hfault : f.isFault with
      | true => exact ⟨_, run_consult_of_fault m hanswer hfault⟩
      | false => exact ⟨_, run_consult_of_not_fault m hanswer hfault⟩
    rw [hfailed] at hconsult
    cases hconsult
    exact (run_raiseHost_ne_ok h).elim

/-- **A price that a script has been told** is the one that the ledger has found. -/
theorem closestPrice?_of_run_pricesAt {id : Nat} {price : Price} {day : Date}
    (h : (HostFunction.pricesAt.run c).run setting m = .ok #[.object id (.price price)] m')
    (hday : Value.asDate (c.arg 2) = .ok day) :
    ∃ securityId currencyId,
      setting.ledger.closestPrice? securityId currencyId day = .ok (some price) := by
  unfold HostFunction.run at h
  obtain ⟨securityId, m₁, -, h⟩ := run_bind_eq_ok h
  obtain ⟨currencyId, m₂, -, h⟩ := run_bind_eq_ok h
  obtain ⟨asked, m₃, hread, h⟩ := run_bind_eq_ok h
  obtain ⟨-, m₄, -, h⟩ := run_bind_eq_ok h
  obtain ⟨found, m₅, hask, h⟩ := run_bind_eq_ok h
  have hsame : asked = day := Except.ok.inj ((run_read_eq_ok hread).1.symm.trans hday)
  have hanswer : setting.ledger.closestPrice? securityId currencyId asked = .ok found :=
    run_ask_eq_ok hask
  refine ⟨securityId, currencyId, ?_⟩
  cases found with
  | none =>
    have hnil := (run_pure_eq_ok h).1
    cases hnil
  | some p =>
    obtain ⟨id', m₆, hobject⟩ := run_objectOrNil_some (.price p) setting m₅
    rw [Option.map_some, hobject] at h
    cases h
    rw [← hsame, hanswer]

end Script

namespace Store

variable {s : Store} {b : Book} {user : User} {p : Posting} {q : Quote} {d day first stop : Date}

/-! ## Days and periods -/

theorem includes_upTo_iff :
    (includes d.toText (.upTo day) = true ↔ d ≤ day) ↔ d.InTextOrder day := by
  rw [includes_upTo]
  exact Date.toText_le_iff_le_iff

/-- Behind the first day of a period it depends on the day at which the period stops. -/
theorem includes_between_iff_stop (hfirst : first ≤ d) (horder : first.InTextOrder d) :
    (includes d.toText (.between first stop) = true ↔ d < stop) ↔ d.InTextOrder stop := by
  rw [includes_between, and_iff_right ((Date.toText_le_iff_le_iff.mpr horder).mpr hfirst)]
  exact Date.toText_lt_iff_lt_iff

/-- Before the day at which a period stops it depends on the first one. -/
theorem includes_between_iff_first (hstop : d < stop) (horder : d.InTextOrder stop) :
    (includes d.toText (.between first stop) = true ↔ first ≤ d) ↔ first.InTextOrder d := by
  rw [includes_between, and_iff_left ((Date.toText_lt_iff_lt_iff.mpr horder).mpr hstop)]
  exact Date.toText_le_iff_le_iff

/-! ## Queries -/

/-- A posting to an account of a user is kept in a split. -/
def IsPosted (s : Store) (user : User) (p : Posting) (row : SplitRow) : Prop :=
  row ∈ s.splits ∧ s.IsSplitOf p row ∧ ∃ a ∈ s.accounts, a.userId = user.id ∧ a.id = p.accountId

theorem counts_eq_includes (h : s.History b) {row : SplitRow} (hposted : s.IsPosted user p row)
    (period : Period) : s.counts user period row = includes p.date.toText period := by
  obtain ⟨hrow, hsplit, a, ha, howner, haccount⟩ := hposted
  exact counts_iff h ha howner hrow hsplit (hsplit.1.trans haccount.symm) period

/-- A row that can be read has the day that was recorded. -/
theorem date_of_read {row : PriceRow} {price : Price} (hrow : IsPriceOf q row)
    (hread : row.read = .ok price) : price.date = q.date := by
  have hcolumn : readDate 3 row.date = .ok q.date := by
    rw [readDate, hrow.2.2.1, Date.parse_toText]
  rw [PriceRow.read, hcolumn] at hread
  cases hvalue : readAmount 4 row.value with
  | ok x =>
    rw [hvalue] at hread
    cases hread
    rfl
  | error f =>
    rw [hvalue] at hread
    cases hread

/-- The text of the day of a price that is found is not after that of the day that was asked for. -/
theorem toText_le_of_closestPrice? (h : s.History b) {securityId currencyId : Int} {price : Price}
    (hfound : s.closestPrice? securityId currencyId day = .ok (some price)) :
    price.date.toText ≤ day.toText := by
  rw [closestPrice?_eq] at hfound
  obtain ⟨-, hnone⟩ | ⟨row, hsome, hmem, -⟩ := latest?_spec (s.known securityId currencyId day)
  · rw [hnone] at hfound
    cases hfound
  have hread : row.read = .ok price := by
    rw [hsome] at hfound
    change some <$> row.read = _ at hfound
    cases hread : row.read with
    | ok found =>
      rw [hread] at hfound
      cases hfound
      rfl
    | error f =>
      rw [hread] at hfound
      cases hfound
  obtain ⟨hprice, -, -, hdate⟩ := mem_known_iff.mp hmem
  have hrows : ∀ row ∈ s.prices, ∃ q, IsPriceOf q row :=
    forall_mem_of_forall₂ h.keeps.quotes fun q _ row hrow => ⟨q, hrow⟩
  obtain ⟨q, hrow⟩ := hrows row hprice
  rw [date_of_read hrow hread, ← hrow.2.2.1]
  exact hdate

theorem le_iff_of_closestPrice? (h : s.History b) {securityId currencyId : Int} {price : Price}
    (hfound : s.closestPrice? securityId currencyId day = .ok (some price)) :
    price.date ≤ day ↔ price.date.InTextOrder day := by
  rw [← Date.toText_le_iff_le_iff, iff_true_left (toText_le_of_closestPrice? h hfound)]

/-- **Where a ledger compares texts, it compares the days just if the texts are in order.** -/
structure ComparesTexts (s : Store) : Prop where
  /-- One day is before another one. -/
  before (a d : Date) : (a.toText < d.toText ↔ a < d) ↔ a.InTextOrder d
  /-- One day is not after another one. -/
  notAfter (a d : Date) : (a.toText ≤ d.toText ↔ a ≤ d) ↔ a.InTextOrder d
  /-- A posting counts for the balance on a day. -/
  upTo (user : User) (p : Posting) (row : SplitRow) (hposted : s.IsPosted user p row) (day : Date) :
    (s.counts user (.upTo day) row = true ↔ p.date ≤ day) ↔ p.date.InTextOrder day
  /-- It counts for the balance over some days, if both ends are in order with its own day. -/
  between (user : User) (p : Posting) (row : SplitRow) (hposted : s.IsPosted user p row)
    (first stop : Date) (hfirst : first.InTextOrder p.date) (hstop : p.date.InTextOrder stop) :
    s.counts user (.between first stop) row = true ↔ first ≤ p.date ∧ p.date < stop
  /-- If it is not before these days, the day at which they stop is what matters. -/
  stop (user : User) (p : Posting) (row : SplitRow) (hposted : s.IsPosted user p row)
    (first stop : Date) (hfirst : first ≤ p.date) (horder : first.InTextOrder p.date) :
    (s.counts user (.between first stop) row = true ↔ p.date < stop) ↔ p.date.InTextOrder stop
  /-- If it is before that day, the first one is what matters. -/
  first (user : User) (p : Posting) (row : SplitRow) (hposted : s.IsPosted user p row)
    (first stop : Date) (hstop : p.date < stop) (horder : p.date.InTextOrder stop) :
    (s.counts user (.between first stop) row = true ↔ first ≤ p.date) ↔ first.InTextOrder p.date
  /-- A price is known on a day that it is not after. -/
  known (q : Quote) (row : PriceRow) (hrow : row ∈ s.prices) (hq : IsPriceOf q row) (day : Date) :
    (row ∈ s.known q.securityId q.currencyId day ↔ q.date ≤ day) ↔ q.date.InTextOrder day
  /-- The price that is found for a day is not a later one. -/
  found (securityId currencyId : Int) (day : Date) (price : Price)
    (hfound : s.closestPrice? securityId currencyId day = .ok (some price)) :
    price.date ≤ day ↔ price.date.InTextOrder day
  /-- Nor is the one that a script is told. -/
  told (user : User) (setting : Script.Setting) (c : Script.Call) (m m' : Script.Machine)
    (hledger : setting.ledger = s.view user) (day : Date)
    (hday : Script.Value.asDate (c.arg 2) = .ok day) (id : Nat) (price : Price)
    (hrun : (Script.HostFunction.pricesAt.run c).run setting m
      = .ok #[.object id (.price price)] m') :
    price.date ≤ day ↔ price.date.InTextOrder day

/-- **What a ledger says about days is right just where their texts are in order.** -/
theorem compares_days_iff_in_order (h : s.History b) : s.ComparesTexts where
  before _ _ := Date.toText_lt_iff_lt_iff
  notAfter _ _ := Date.toText_le_iff_le_iff
  upTo user p row hposted day := by
    rw [counts_eq_includes h hposted]
    exact includes_upTo_iff
  between user p row hposted first stop hfirst hstop := by
    rw [counts_eq_includes h hposted]
    exact includes_iff ⟨hfirst, hstop⟩
  stop user p row hposted first stop hfirst horder := by
    rw [counts_eq_includes h hposted]
    exact includes_between_iff_stop hfirst horder
  first user p row hposted first stop hstop horder := by
    rw [counts_eq_includes h hposted]
    exact includes_between_iff_first hstop horder
  known q row hrow hq day := by
    rw [mem_known_iff, and_iff_right hrow, and_iff_right hq.1, and_iff_right hq.2.1, hq.2.2.1]
    exact Date.toText_le_iff_le_iff
  found securityId currencyId day price hfound := le_iff_of_closestPrice? h hfound
  told user setting c m m' hledger day hday id price hrun := by
    obtain ⟨securityId, currencyId, hfound⟩ := Script.closestPrice?_of_run_pricesAt hrun hday
    rw [hledger] at hfound
    exact le_iff_of_closestPrice? h hfound

/-- A ledger with a price of gold on a day. -/
def withGold (day : Date) (value : Amount) : Store :=
  withPrices [⟨1, 2, 1, day.toText, value.stored⟩]

theorem history_withGold (day : Date) (value : Amount) :
    (withGold day value).History { quotes := [⟨2, 1, day, value⟩] } :=
  history_withPrices_nil.withPrice day value

theorem closestPrice?_withGold {day asked : Date} (h : day.toText ≤ asked.toText) (value : Amount)
    (hscale : Amount.ScaleFits value.scale) :
    ∃ price, (withGold day value).closestPrice? 2 1 asked = .ok (some price)
      ∧ price.date = day := by
  have hknown : (withGold day value).known 2 1 asked = (withGold day value).prices :=
    List.filter_eq_self.mpr fun row hrow => by
      rw [List.mem_singleton.mp hrow]
      simp [h]
  have hrow : IsPriceOf ⟨2, 1, day, value⟩ ⟨1, 2, 1, day.toText, value.stored⟩ :=
    ⟨rfl, rfl, rfl, rfl⟩
  obtain ⟨price, hread, -, -, hdate, -⟩ := read_of_isPriceOf hrow hscale
  refine ⟨price, ?_, hdate⟩
  rw [closestPrice?_eq, hknown]
  show some <$> PriceRow.read ⟨1, 2, 1, day.toText, value.stored⟩ = _
  rw [hread]
  rfl

/-- A price from before year 0 is known in all years that have four digits, and rightly so. -/
theorem compares_days_iff_in_order_ides :
    let ides : Date := ⟨-43, 3, 15, by decide, by decide⟩
    let asked : Date := ⟨14, 8, 19, by decide, by decide⟩
    let s : Store := withGold ides ⟨45, 0⟩
    s.History { quotes := [⟨2, 1, ides, ⟨45, 0⟩⟩] } ∧ s.ComparesTexts ∧ ides.InTextOrder asked
      ∧ ∃ price, s.closestPrice? 2 1 asked = .ok (some price) ∧ price.date = ides
        ∧ price.date ≤ asked := by
  intro ides asked s
  have hhistory := history_withGold ides ⟨45, 0⟩
  have hcompares := compares_days_iff_in_order hhistory
  have horder : ides.InTextOrder asked := by decide
  have hle : ides.toText ≤ asked.toText :=
    ((hcompares.notAfter ides asked).mpr horder).mpr (by decide)
  obtain ⟨price, hfound, hdate⟩ := closestPrice?_withGold hle ⟨45, 0⟩ (by decide)
  exact ⟨hhistory, hcompares, horder, price, hfound, hdate,
    (hcompares.found 2 1 asked price hfound).mpr (hdate ▸ horder)⟩

/-- **A price of a later day is known** at the end of 2016: it is one of the year 12017, whose text
begins with a sign. -/
theorem price_of_a_later_day_is_known :
    let asked : Date := ⟨2016, 12, 31, by decide, by decide⟩
    let later : Date := ⟨12017, 1, 31, by decide, by decide⟩
    let s : Store := withGold later ⟨1, 0⟩
    s.History { quotes := [⟨2, 1, later, ⟨1, 0⟩⟩] } ∧ asked < later
      ∧ later.toText < asked.toText ∧ includes later.toText (.upTo asked) = true
      ∧ ∃ price, s.closestPrice? 2 1 asked = .ok (some price) ∧ price.date = later := by
  intro asked later s
  have hlt : asked < later := by decide
  have hnot : ¬ asked.InTextOrder later := by decide
  have hne : asked ≠ later := fun heq => Date.lt_irrefl later (heq ▸ hlt)
  have htexts : later.toText < asked.toText := by
    rw [← Date.not_toText_lt_iff hne, Date.toText_lt_iff_of_lt hlt]
    exact hnot
  have hle : later.toText ≤ asked.toText := text_lt_asymm htexts
  exact ⟨history_withGold later ⟨1, 0⟩, hlt, htexts, includes_upTo.mpr hle,
    closestPrice?_withGold hle ⟨1, 0⟩ (by decide)⟩

end Store

end LedgerReports
