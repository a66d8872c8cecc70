import LedgerReports.Proofs.Calendar.Counting

/-!
# Counting months

A day is told by the number of its month and the day of the month, and days
follow each other by the one, then by the other (`Date.le_iff_monthIndex`). So
going some months further gives a day of the month with the number that is
greater by as many (`Date.addMonths?_eq_some_iff`), and there is one as long as
the year of that month is supported.

A span of months is counted up to a limit, and years are turned into months only
if their number fits. Neither takes a day away: a span beyond the limits leaves
the calendar anyway (`Date.addMonths?_eq`, `Date.addYears?_eq`).
-/

namespace LedgerReports.Date

variable {a b d e : Date} {n index : Int}

/-! ## Months and their numbers -/

theorem year_eq (d : Date) : d.year = d.monthIndex / 12 := by
  have hmonth := d.month_mem
  unfold monthIndex
  omega

theorem month_eq (d : Date) : d.month = (d.monthIndex % 12).toNat + 1 := by
  have hmonth := d.month_mem
  unfold monthIndex
  omega

theorem monthIndex_eq_iff : a.monthIndex = b.monthIndex ↔ a.year = b.year ∧ a.month = b.month := by
  refine ⟨fun h => ?_, fun h => ?_⟩
  · rw [a.year_eq, a.month_eq, b.year_eq, b.month_eq, h]
    exact ⟨rfl, rfl⟩
  · rw [monthIndex, monthIndex, h.1, h.2]

/-- **A day is told by the number of its month and the day of the month.** -/
theorem eq_iff_monthIndex : a = b ↔ a.monthIndex = b.monthIndex ∧ a.day = b.day := by
  refine ⟨fun h => h ▸ ⟨rfl, rfl⟩, fun ⟨hindex, hday⟩ => ?_⟩
  obtain ⟨hyear, hmonth⟩ := monthIndex_eq_iff.mp hindex
  exact eq_of_parts hyear hmonth hday

/-- **Days follow each other by month, then by day.** -/
theorem le_iff_monthIndex : a ≤ b ↔ a.monthIndex < b.monthIndex
    ∨ a.monthIndex = b.monthIndex ∧ a.day ≤ b.day := by
  have hmonthA := a.month_mem
  have hmonthB := b.month_mem
  rw [le_iff_not_lt, lt_iff]
  unfold monthIndex
  omega

/-- The year of the month of a day is supported. -/
theorem monthIndex_mem (d : Date) : minYear ≤ d.monthIndex / 12 ∧ d.monthIndex / 12 ≤ maxYear :=
  d.year_eq ▸ d.year_mem

/-- **A month has the same day**, or its last one if it is shorter. -/
theorem inMonth?_eq_some_iff : d.inMonth? index = some a
    ↔ a.monthIndex = index ∧ a.day = min d.day (daysInMonth a.year a.month) := by
  unfold inMonth?
  rw [ofYMD?_eq_some_iff]
  constructor
  · rintro ⟨hyear, hmonth, hday⟩
    rw [← hyear, ← hmonth] at hday
    have hindex : a.monthIndex = index := by
      unfold monthIndex
      omega
    exact ⟨hindex, hday⟩
  · rintro ⟨rfl, hday⟩
    rw [← a.year_eq, ← a.month_eq]
    exact ⟨rfl, rfl, hday⟩

/-- There is such a month as long as its year is supported. -/
theorem exists_inMonth?_iff :
    (∃ a, d.inMonth? index = some a) ↔ minYear ≤ index / 12 ∧ index / 12 ≤ maxYear := by
  constructor
  · rintro ⟨a, ha⟩
    obtain ⟨rfl, -⟩ := inMonth?_eq_some_iff.mp ha
    exact a.monthIndex_mem
  · intro hyear
    have hlength := @daysInMonth_pos (index / 12) ((index % 12).toNat + 1) (by omega) (by omega)
    have hday : 1 ≤ min d.day (daysInMonth (index / 12) ((index % 12).toNat + 1)) :=
      Nat.le_min.mpr ⟨d.day_mem.1, hlength⟩
    exact ⟨⟨_, _, _, hyear, hday, Nat.min_le_right ..⟩, ofYMD?_eq_some_iff.mpr ⟨rfl, rfl, rfl⟩⟩

theorem inMonth?_eq_none (h : index / 12 < minYear ∨ maxYear < index / 12) :
    d.inMonth? index = none := by
  simp only [Option.eq_none_iff_forall_ne_some, ne_eq, ← not_exists, exists_inMonth?_iff]
  omega

/-! ## Going some months further -/

/-- **A span that cannot be counted leaves the calendar.** -/
theorem addMonths?_eq (d : Date) (n : Int) : d.addMonths? n = d.inMonth? (d.monthIndex + n) := by
  have hindex := d.monthIndex_mem
  have hmin : minYear = -262143 := rfl
  have hmax : maxYear = 262142 := rfl
  have hspan : maxMonthSpan = 4294967295 := rfl
  unfold addMonths? laterByMonths? earlierByMonths?
  by_cases hlong : maxMonthSpan < n.natAbs
  · rw [if_pos hlong, inMonth?_eq_none (by omega)]
  · rw [if_neg hlong]
    split <;> congr 1 <;> omega

/-- **The same day `n` months later**, or the last day of that month if it is shorter. -/
theorem addMonths?_eq_some_iff : d.addMonths? n = some a
    ↔ a.monthIndex = d.monthIndex + n ∧ a.day = min d.day (daysInMonth a.year a.month) := by
  rw [addMonths?_eq, inMonth?_eq_some_iff]

example : addMonths? ⟨2024, 1, 31, by decide, by decide⟩ 1
    = some ⟨2024, 2, 29, by decide, by decide⟩ := by decide

/-- There is such a day as long as the year of the month is supported. -/
theorem exists_addMonths?_iff : (∃ a, d.addMonths? n = some a)
    ↔ minYear ≤ (d.monthIndex + n) / 12 ∧ (d.monthIndex + n) / 12 ≤ maxYear := by
  simp only [addMonths?_eq, exists_inMonth?_iff]

theorem addYears?_eq_none (h : 12 * n < -2 ^ 63 ∨ 2 ^ 63 ≤ 12 * n) : d.addYears? n = none := by
  show (if -2 ^ 63 ≤ 12 * n ∧ 12 * n < 2 ^ 63 then _ else none) = _
  exact if_neg (by omega)

/-- **So many years are twelve times as many months**, also if their number does not fit. -/
theorem addYears?_eq (d : Date) (n : Int) : d.addYears? n = d.addMonths? (12 * n) := by
  have hindex := d.monthIndex_mem
  have hmin : minYear = -262143 := rfl
  have hmax : maxYear = 262142 := rfl
  by_cases hfits : -2 ^ 63 ≤ 12 * n ∧ 12 * n < 2 ^ 63
  · exact if_pos hfits
  · rw [addYears?_eq_none (by omega), addMonths?_eq, inMonth?_eq_none (by omega)]

/-- **The order of days is kept.** -/
theorem addMonths?_mono (h : a ≤ b) (hd : a.addMonths? n = some d) (he : b.addMonths? n = some e) :
    d ≤ e := by
  obtain ⟨hindexD, hdayD⟩ := addMonths?_eq_some_iff.mp hd
  obtain ⟨hindexE, hdayE⟩ := addMonths?_eq_some_iff.mp he
  rw [le_iff_monthIndex]
  obtain hlt | ⟨heq, hday⟩ := le_iff_monthIndex.mp h
  · exact .inl (by omega)
  · have hmonth : d.monthIndex = e.monthIndex := by omega
    obtain ⟨hyear, hmonths⟩ := monthIndex_eq_iff.mp hmonth
    refine .inr ⟨hmonth, ?_⟩
    rw [hdayD, hdayE, hyear, hmonths]
    omega

/-- **Going back gives the month of the beginning**, and the day that was not clamped. -/
theorem addMonths?_neg (h : d.addMonths? n = some a) :
    ∃ b, a.addMonths? (-n) = some b ∧ b.monthIndex = d.monthIndex ∧ b.day = a.day := by
  obtain ⟨hindex, hday⟩ := addMonths?_eq_some_iff.mp h
  have hback : a.monthIndex + -n = d.monthIndex := by omega
  obtain ⟨b, hb⟩ := exists_addMonths?_iff.mpr (hback ▸ d.monthIndex_mem)
  obtain ⟨hindexB, hdayB⟩ := addMonths?_eq_some_iff.mp hb
  obtain ⟨hyear, hmonth⟩ := monthIndex_eq_iff.mp (hindexB.trans hback)
  refine ⟨b, hb, hindexB.trans hback, ?_⟩
  have hlength := d.day_mem.2
  rw [hyear, hmonth] at hdayB
  omega

/-- The way back ends at the beginning if the day was not clamped. -/
theorem addMonths?_neg_eq_iff (h : d.addMonths? n = some a) :
    a.addMonths? (-n) = some d ↔ a.day = d.day := by
  obtain ⟨b, hb, hindex, hday⟩ := addMonths?_neg h
  rw [hb, Option.some.injEq, eq_iff_monthIndex, hday]
  exact and_iff_right hindex

/-- Otherwise it ends before the beginning. -/
theorem exists_addMonths?_neg_lt (h : d.addMonths? n = some a) (hclamped : a.day ≠ d.day) :
    ∃ b, a.addMonths? (-n) = some b ∧ b < d := by
  obtain ⟨b, hb, hindex, hday⟩ := addMonths?_neg h
  obtain ⟨-, hclamp⟩ := addMonths?_eq_some_iff.mp h
  refine ⟨b, hb, ?_⟩
  obtain ⟨hyear, hmonth⟩ := monthIndex_eq_iff.mp hindex
  rw [lt_iff]
  omega

/-! ## The end of a month -/

/-- The last day of the month of a day. -/
def monthEnd (d : Date) : Date where
  year := d.year
  month := d.month
  day := daysInMonth d.year d.month
  year_mem := d.year_mem
  day_mem := ⟨daysInMonth_pos d.month_mem.1 d.month_mem.2, Nat.le_refl _⟩

/-- **The last day of a month is the greatest of its days.** -/
theorem le_monthEnd (hyear : e.year = d.year) (hmonth : e.month = d.month) : e ≤ d.monthEnd := by
  refine le_iff_monthIndex.mpr (.inr ⟨monthIndex_eq_iff.mpr ⟨hyear, hmonth⟩, ?_⟩)
  have hday := e.day_mem.2
  rw [hyear, hmonth] at hday
  exact hday

/-- The last day of a month comes right before the first one of the next. -/
theorem dayNumber_of_nextMonth (hindex : e.monthIndex = d.monthIndex + 1) (hday : e.day = 1) :
    e.dayNumber = d.monthEnd.dayNumber + 1 := by
  have hmonthD := d.month_mem
  have hmonthE := e.month_mem
  unfold monthIndex at hindex
  rw [dayNumber, hday]
  obtain hmonth | hmonth : d.month < 12 ∨ d.month = 12 := Nat.lt_or_eq_of_le hmonthD.2
  · obtain ⟨hyear, hnext⟩ : e.year = d.year ∧ e.month = d.month + 1 := by omega
    rw [hyear, hnext]
    exact dayNumberOf_nextMonth hmonthD.1 hmonth
  · obtain ⟨hyear, hnext⟩ : e.year = d.year + 1 ∧ e.month = 1 := by omega
    have hend : d.monthEnd.dayNumber = dayNumberOf d.year 12 31 := by
      show dayNumberOf d.year d.month (daysInMonth d.year d.month) = _
      rw [hmonth]
      rfl
    rw [hyear, hnext, hend]
    exact dayNumberOf_nextYear d.year

/-- **The end of a month is its last day, except in the last month of the calendar**: the first day
of the next month is beyond it. -/
theorem endOfMonth?_eq (d : Date) :
    d.endOfMonth? = if d.year = maxYear ∧ d.month = 12 then none else some d.monthEnd := by
  have hyear := d.year_mem
  have hmonth := d.month_mem
  let first : Date :=
    ⟨d.year, d.month, 1, d.year_mem, Nat.le_refl 1, daysInMonth_pos hmonth.1 hmonth.2⟩
  have hfirst : ofYMD? d.year d.month 1 = some first := ofYMD?_eq_some_iff.mpr ⟨rfl, rfl, rfl⟩
  have hindex : first.monthIndex = 12 * d.year + (d.month - 1) := rfl
  rw [endOfMonth?, hfirst]
  show (first.laterByMonths? 1).bind (fun next => next.earlierByDays? 1) = _
  unfold laterByMonths?
  split
  case isTrue hlast =>
    rw [inMonth?_eq_none (by omega)]
    rfl
  case isFalse hlast =>
    obtain ⟨next, hnext⟩ : ∃ next, first.inMonth? (first.monthIndex + (1 : Nat)) = some next :=
      exists_inMonth?_iff.mpr (by omega)
    obtain ⟨hindexNext, hdayNext⟩ := inMonth?_eq_some_iff.mp hnext
    have hpos := next.day_mem
    have hday : next.day = 1 := by
      have hone : first.day = 1 := rfl
      omega
    have hnumber := dayNumber_of_nextMonth (d := d) hindexNext hday
    rw [hnext, Option.bind_some, earlierByDays?, hnumber, Int.natCast_one, Int.add_sub_cancel]
    exact ofDayNumber?_dayNumber d.monthEnd

end LedgerReports.Date
