import LedgerReports.Calendar.Arithmetic

/-!
# Days and their numbers

Days follow each other as their numbers do (`Date.lt_iff_dayNumber_lt`), and a
number stands for one day only. So whatever is to be known about the order of
days is a matter of integers, and so is what it means to go some days further:
the number grows by as many (`Date.dayNumber_of_addDays?`).

The first is shown by going from a day to the first of the next month and of the
next year. For the second the way back from a number to a day has to be followed,
and there the one step that is not plain is how the year of a cycle is found: the
leap days that a plain division by 365 would count are taken off beforehand, by
a division for each of the rules for them (`Date.yearOfCycle_mem`).
-/

namespace LedgerReports.Date

variable {a b d : Date} {year n : Int} {month day : Nat}

/-! ## The order of days -/

theorem lt_iff : a < b ↔ a.year < b.year
    ∨ a.year = b.year ∧ (a.month < b.month ∨ a.month = b.month ∧ a.day < b.day) := by
  show compare a b = .lt ↔ _
  rw [compare, Ordering.then_eq_lt, Ordering.then_eq_lt, Int.compare_eq_lt, Int.compare_eq_eq,
    Nat.compare_eq_lt, Nat.compare_eq_eq, Nat.compare_eq_lt]

theorem compare_eq_gt_iff : compare a b = .gt ↔ b < a := by
  rw [lt_iff, compare, Ordering.then_eq_gt, Ordering.then_eq_gt, Int.compare_eq_gt,
    Int.compare_eq_eq, Nat.compare_eq_gt, Nat.compare_eq_eq, Nat.compare_eq_gt,
    eq_comm (a := b.year), eq_comm (a := b.month)]

theorem le_iff_not_lt : a ≤ b ↔ ¬ b < a := by
  rw [← compare_eq_gt_iff]
  exact Ordering.isLE_iff_ne_gt

theorem eq_of_parts (hyear : a.year = b.year) (hmonth : a.month = b.month)
    (hday : a.day = b.day) : a = b := by
  obtain ⟨year, month, day, _, _⟩ := a
  obtain ⟨year', month', day', _, _⟩ := b
  obtain rfl : year = year' := hyear
  obtain rfl : month = month' := hmonth
  obtain rfl : day = day' := hday
  rfl

theorem month_mem_of_daysInMonth (h : 0 < daysInMonth year month) : 1 ≤ month ∧ month ≤ 12 := by
  unfold daysInMonth at h
  split at h <;> omega

theorem month_mem (d : Date) : 1 ≤ d.month ∧ d.month ≤ 12 :=
  month_mem_of_daysInMonth (Nat.lt_of_lt_of_le d.day_mem.1 d.day_mem.2)

theorem isLeapYear_iff :
    isLeapYear year = true ↔ year % 4 = 0 ∧ (year % 100 ≠ 0 ∨ year % 400 = 0) := by
  rw [isLeapYear, Bool.and_eq_true, Bool.or_eq_true, beq_iff_eq, bne_iff_ne, beq_iff_eq]

/-- The first day of a month follows the last one of the month before. -/
theorem dayNumberOf_nextMonth (hmonth : 1 ≤ month) (hlt : month < 12) :
    dayNumberOf year (month + 1) 1 = dayNumberOf year month (daysInMonth year month) + 1 := by
  generalize hlong : daysInMonth year month = long
  unfold daysInMonth at hlong
  unfold dayNumberOf daysPerCycle
  -- in each month this compares two numbers, with the leap years for the first of March
  split at hlong
  case h_12 =>
    split at hlong
    case isTrue hleap =>
      have hrule := isLeapYear_iff.mp hleap
      simp only [Nat.reduceAdd, Nat.reduceLeDiff, if_true, if_false]
      omega
    case isFalse hleap =>
      have hrule := mt isLeapYear_iff.mpr hleap
      simp only [Nat.reduceAdd, Nat.reduceLeDiff, if_true, if_false]
      omega
  case h_13 => grind
  all_goals
    simp only [Nat.reduceAdd, Nat.reduceLeDiff, if_true, if_false]
    omega

/-- The first day of a year follows the last one of the year before. -/
theorem dayNumberOf_nextYear (year : Int) :
    dayNumberOf (year + 1) 1 1 = dayNumberOf year 12 31 + 1 := by
  unfold dayNumberOf daysPerCycle
  simp only [Nat.reduceLeDiff, if_false, if_true]
  omega

/-- The days of a month follow each other. -/
theorem dayNumberOf_day_mono {day' : Nat} (h : day ≤ day') :
    dayNumberOf year month day ≤ dayNumberOf year month day' := by
  unfold dayNumberOf
  simp only
  omega

/-- A day of a month comes before the first day of the next. -/
theorem dayNumberOf_lt_nextMonth (hday : day ≤ daysInMonth year month) (hmonth : 1 ≤ month)
    (hlt : month < 12) : dayNumberOf year month day < dayNumberOf year (month + 1) 1 := by
  rw [dayNumberOf_nextMonth hmonth hlt]
  exact Int.lt_add_one_of_le (dayNumberOf_day_mono hday)

/-- A day of December comes before the first day of the next year. -/
theorem dayNumberOf_lt_nextYear (hday : day ≤ daysInMonth year 12) :
    dayNumberOf year 12 day < dayNumberOf (year + 1) 1 1 := by
  rw [dayNumberOf_nextYear]
  exact Int.lt_add_one_of_le (dayNumberOf_day_mono hday)

/-- Years begin one after the other. -/
theorem dayNumberOf_year_mono {year' : Int} (h : year ≤ year') :
    dayNumberOf year 1 1 ≤ dayNumberOf year' 1 1 := by
  unfold dayNumberOf daysPerCycle
  simp only [Nat.reduceLeDiff, if_true]
  omega

theorem dayNumberOf_eq_add (year : Int) (month : Nat) {day : Nat} (hday : 1 ≤ day) :
    dayNumberOf year month day = dayNumberOf year month 1 + (day - 1 : Nat) := by
  unfold dayNumberOf
  simp only
  omega

theorem daysInMonth_pos (hmonth : 1 ≤ month) (hlast : month ≤ 12) :
    0 < daysInMonth year month := by
  unfold daysInMonth
  split
  case h_12 => split <;> decide
  case h_13 => grind
  all_goals exact Nat.succ_pos _

theorem daysInMonth_le (year : Int) (month : Nat) : daysInMonth year month ≤ 31 := by
  unfold daysInMonth
  split
  case h_12 => split <;> decide
  all_goals decide

/-- Months begin one after the other. -/
theorem dayNumberOf_month_mono {month' : Nat} (hmonth : 1 ≤ month) (hle : month ≤ month')
    (hlast : month' ≤ 12) : dayNumberOf year month 1 ≤ dayNumberOf year month' 1 := by
  induction hle with
  | refl => exact Int.le_refl _
  | @step m hm ih =>
    have hle : month ≤ m := hm
    have hfirst := ih (by omega)
    have hlong : 0 < daysInMonth year m := daysInMonth_pos (by omega) (by omega)
    have hnext := dayNumberOf_lt_nextMonth hlong (by omega) (by omega)
    exact Int.le_of_lt (Int.lt_of_le_of_lt hfirst hnext)

theorem dayNumberOf_le_dayNumber (d : Date) : dayNumberOf d.year d.month 1 ≤ d.dayNumber := by
  rw [dayNumber, dayNumberOf_eq_add _ _ d.day_mem.1]
  omega

/-- A day comes before the first day of the next year. -/
theorem dayNumber_lt_nextYear (d : Date) : d.dayNumber < dayNumberOf (d.year + 1) 1 1 := by
  have hmonth := d.month_mem
  obtain hlast | hearlier : d.month = 12 ∨ d.month < 12 := by omega
  · have hday := d.day_mem.2
    rw [hlast] at hday
    rw [dayNumber, hlast]
    exact dayNumberOf_lt_nextYear hday
  · calc d.dayNumber
        < dayNumberOf d.year (d.month + 1) 1 :=
          dayNumberOf_lt_nextMonth d.day_mem.2 hmonth.1 hearlier
      _ ≤ dayNumberOf d.year 12 1 := dayNumberOf_month_mono (by omega) hearlier (Nat.le_refl 12)
      _ < dayNumberOf (d.year + 1) 1 1 :=
          dayNumberOf_lt_nextYear (daysInMonth_pos (by decide) (by decide))

/-- **A day that is later has a greater number.** -/
theorem dayNumber_lt_of_lt (h : a < b) : a.dayNumber < b.dayNumber := by
  have hmonthA := a.month_mem
  have hmonthB := b.month_mem
  obtain hyear | ⟨hyear, hmonth | ⟨hmonth, hday⟩⟩ := lt_iff.mp h
  · calc a.dayNumber
        < dayNumberOf (a.year + 1) 1 1 := a.dayNumber_lt_nextYear
      _ ≤ dayNumberOf b.year 1 1 := dayNumberOf_year_mono hyear
      _ ≤ dayNumberOf b.year b.month 1 :=
          dayNumberOf_month_mono (Nat.le_refl 1) hmonthB.1 hmonthB.2
      _ ≤ b.dayNumber := b.dayNumberOf_le_dayNumber
  · calc a.dayNumber
        < dayNumberOf a.year (a.month + 1) 1 :=
          dayNumberOf_lt_nextMonth a.day_mem.2 hmonthA.1 (by omega)
      _ ≤ dayNumberOf a.year b.month 1 := dayNumberOf_month_mono (by omega) hmonth hmonthB.2
      _ ≤ b.dayNumber := hyear ▸ b.dayNumberOf_le_dayNumber
  · have hdayA := a.day_mem.1
    rw [dayNumber, dayNumber, hyear, hmonth, dayNumberOf_eq_add _ _ hdayA,
      dayNumberOf_eq_add _ _ b.day_mem.1]
    omega

/-- Of two days, one comes before the other, or they are the same. -/
theorem lt_or_eq_or_gt (a b : Date) : a < b ∨ a = b ∨ b < a := by
  rw [lt_iff, lt_iff]
  by_cases hsame : a.year = b.year ∧ a.month = b.month ∧ a.day = b.day
  · exact .inr (.inl (eq_of_parts hsame.1 hsame.2.1 hsame.2.2))
  · omega

theorem lt_iff_dayNumber_lt : a < b ↔ a.dayNumber < b.dayNumber := by
  refine ⟨dayNumber_lt_of_lt, fun h => ?_⟩
  obtain hlt | rfl | hgt := lt_or_eq_or_gt a b
  · exact hlt
  · omega
  · have hnumber := dayNumber_lt_of_lt hgt
    omega

theorem le_iff_dayNumber_le : a ≤ b ↔ a.dayNumber ≤ b.dayNumber := by
  rw [le_iff_not_lt, lt_iff_dayNumber_lt, Int.not_lt]

/-- **A number stands for one day only.** -/
theorem dayNumber_inj : a.dayNumber = b.dayNumber ↔ a = b := by
  refine ⟨fun h => ?_, congrArg dayNumber⟩
  obtain hlt | rfl | hgt := lt_or_eq_or_gt a b
  · have hnumber := dayNumber_lt_of_lt hlt
    omega
  · rfl
  · have hnumber := dayNumber_lt_of_lt hgt
    omega

/-! ## From numbers to days -/

/-- The year of a cycle with a day, and how far it has gone. -/
theorem yearOfCycle_mem (hn : 0 ≤ n) (hlt : n < daysPerCycle) :
    let year := (n - n / 1460 + n / 36524 - n / 146096) / 365
    let day := n - (365 * year + year / 4 - year / 100)
    0 ≤ year ∧ year < 400 ∧ 0 ≤ day ∧ day ≤ 365 := by
  have hcycle : daysPerCycle = 146097 := rfl
  -- the last day of a cycle is alone in a fifth century
  obtain rfl | hnotLast : n = 146096 ∨ n < 146096 := by omega
  · decide
  generalize hcentury : n / 36524 = c
  obtain ⟨t, rfl⟩ : ∃ t, n = 36524 * c + t := ⟨n - 36524 * c, by omega⟩
  generalize hgroup : t / 1461 = k
  have hc : 0 ≤ c ∧ c ≤ 3 ∧ 0 ≤ t ∧ t ≤ 36523 := by omega
  have hk : 0 ≤ k ∧ k ≤ 24 ∧ 1461 * k ≤ t ∧ t ≤ 1461 * k + 1460 := by omega
  have hlast : (36524 * c + t) / 146096 = 0 := by omega
  -- one day is left out for each group of four years, and at the end of a group one more
  generalize hleft : (36524 * c + t) / 1460 = left
  have hout : left = 25 * c + k ∨ left = 25 * c + k + 1 ∧ 1460 * (k + 1) ≤ 24 * c + t := by omega
  intro year day
  have hyear : 365 * year ≤ 36524 * c + t - left + c
      ∧ 36524 * c + t - left + c < 365 * year + 365 := by omega
  have hgroup : 100 * c + 4 * k ≤ year ∧ year ≤ 100 * c + 4 * k + 3 := by omega
  have hfour : year / 4 = 25 * c + k := by omega
  have hhundred : year / 100 = c := by omega
  omega

/-- A day of a year that begins in March, by the number of its month. -/
theorem dayNumberOf_march {cycle yearOfCycle marchMonth : Int} {day : Nat}
    (hyear : 0 ≤ yearOfCycle ∧ yearOfCycle < 400) (hmonth : 0 ≤ marchMonth ∧ marchMonth ≤ 11) :
    let month := if marchMonth < 10 then marchMonth + 3 else marchMonth - 9
    let year := yearOfCycle + cycle * 400
    dayNumberOf (if month ≤ 2 then year + 1 else year) month.toNat day
      = cycle * daysPerCycle + (yearOfCycle * 365 + yearOfCycle / 4 - yearOfCycle / 100
        + ((153 * marchMonth + 2) / 5 + day - 1)) := by
  intro month year
  have hyears : year % 400 = yearOfCycle ∧ year / 400 = cycle := by omega
  obtain hearly | hlate := Int.lt_or_le marchMonth 10
  · have hmonths : month = marchMonth + 3 := if_pos hearly
    have hnot : ¬ month ≤ 2 ∧ ¬ month.toNat ≤ 2 := by omega
    have hback : (month.toNat : Int) - 3 = marchMonth := by omega
    unfold dayNumberOf
    simp only [hnot, if_false, hyears, hback]
  · have hmonths : month = marchMonth - 9 := if_neg (Int.not_lt.mpr hlate)
    have hsmall : month ≤ 2 ∧ month.toNat ≤ 2 := by omega
    have hback : (month.toNat : Int) + 9 = marchMonth := by omega
    unfold dayNumberOf
    simp only [hsmall, if_true, Int.add_sub_cancel, hyears, hback]

/-- **The day with a number has this number.** -/
theorem dayNumber_of_ofDayNumber? (h : ofDayNumber? n = some d) : d.dayNumber = n := by
  obtain ⟨hyear, hlast, hfirst, hlate⟩ := yearOfCycle_mem (n := n % daysPerCycle)
    (Int.emod_nonneg n (by decide)) (Int.emod_lt_of_pos n (by decide))
  have hdivision := Int.mul_ediv_add_emod n daysPerCycle
  unfold ofDayNumber? at h
  generalize n / daysPerCycle = cycle at h hdivision
  generalize n % daysPerCycle = dayOfCycle at *
  simp only at h
  generalize (dayOfCycle - dayOfCycle / 1460 + dayOfCycle / 36524 - dayOfCycle / 146096) / 365
    = year at *
  generalize hdayOfYear : dayOfCycle - (365 * year + year / 4 - year / 100) = dayOfYear at *
  generalize hmonth : (5 * dayOfYear + 2) / 153 = marchMonth at *
  obtain ⟨hyears, hmonths, hdays⟩ := ofYMD?_eq_some_iff.mp h
  have hpos := d.day_mem.1
  rw [dayNumber, hyears, hmonths, dayNumberOf_march ⟨hyear, hlast⟩ (by omega)]
  rw [Int.mul_comm] at hdivision
  omega

/-- Days are added in both directions alike. -/
theorem addDays?_eq (d : Date) (n : Int) : d.addDays? n = ofDayNumber? (d.dayNumber + n) := by
  unfold addDays? laterByDays? earlierByDays?
  split <;> congr 1 <;> omega

/-- **Going some days further adds them to the number.** -/
theorem dayNumber_of_addDays? (h : d.addDays? n = some a) : a.dayNumber = d.dayNumber + n :=
  dayNumber_of_ofDayNumber? (d.addDays?_eq n ▸ h)

/-- A day comes before another one if it is not later than the day before that. -/
theorem le_iff_lt_of_addDays? (h : b.addDays? (-1) = some a) : d ≤ a ↔ d < b := by
  rw [le_iff_dayNumber_le, lt_iff_dayNumber_lt, dayNumber_of_addDays? h]
  omega

end LedgerReports.Date
