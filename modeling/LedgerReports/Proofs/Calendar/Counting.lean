import LedgerReports.Proofs.Calendar.Days

/-!
# Counting days

The numbers of days are all the integers from that of the earliest day to that of
the latest one (`Date.exists_dayNumber_eq_iff`): each day but the latest has a
next one, whose number is greater by one, whether the month or the year ends with
it or not. A day is found again by its number (`Date.ofDayNumber?_dayNumber`). So
the day that lies some days further is the one with the number that it should
have (`Date.addDays?_eq_some_iff`), and there is one unless the calendar ends
before.

To find a day again is to follow the division by which the year of a cycle is
found. A leap day is the one that might be taken for the first day of the next
year, and it is not, since the rules for leap years take it off
(`Date.yearOfCycle_eq`).
-/

namespace LedgerReports.Date

variable {a b d : Date} {year m n : Int} {month day : Nat}

/-! ## All numbers between the ends -/

/-- The earliest day. -/
def earliest : Date := ⟨minYear, 1, 1, by decide, by decide⟩

/-- The latest day. -/
def latest : Date := ⟨maxYear, 12, 31, by decide, by decide⟩

theorem earliest_le (d : Date) : earliest ≤ d := by
  have hyear := d.year_mem.1
  have hmonth := d.month_mem.1
  have hday := d.day_mem.1
  have hparts : earliest.year = minYear ∧ earliest.month = 1 ∧ earliest.day = 1 := ⟨rfl, rfl, rfl⟩
  rw [le_iff_not_lt, lt_iff]
  omega

theorem le_latest (d : Date) : d ≤ latest := by
  have hyear := d.year_mem.2
  have hmonth := d.month_mem.2
  have hday := Nat.le_trans d.day_mem.2 (daysInMonth_le d.year d.month)
  have hparts : latest.year = maxYear ∧ latest.month = 12 ∧ latest.day = 31 := ⟨rfl, rfl, rfl⟩
  rw [le_iff_not_lt, lt_iff]
  omega

/-- **Each day but the latest has a next one.** -/
theorem exists_next (h : d ≠ latest) : ∃ e : Date, e.dayNumber = d.dayNumber + 1 := by
  obtain ⟨hmin, hmax⟩ := d.year_mem
  obtain ⟨hone, hlast⟩ := d.month_mem
  obtain ⟨hpos, hlong⟩ := d.day_mem
  obtain hwithin | hend : d.day < daysInMonth d.year d.month ∨ d.day = daysInMonth d.year d.month :=
    Nat.lt_or_eq_of_le hlong
  · refine ⟨⟨d.year, d.month, d.day + 1, d.year_mem, by omega, hwithin⟩, ?_⟩
    rw [dayNumber, dayNumber, dayNumberOf_eq_add d.year d.month hpos,
      dayNumberOf_eq_add d.year d.month (Nat.succ_pos _)]
    omega
  obtain hmonth | hmonth : d.month < 12 ∨ d.month = 12 := Nat.lt_or_eq_of_le hlast
  · have hfirst := @daysInMonth_pos d.year (d.month + 1) (by omega) hmonth
    refine ⟨⟨d.year, d.month + 1, 1, d.year_mem, Nat.le_refl 1, hfirst⟩, ?_⟩
    rw [dayNumber, dayNumber, hend]
    exact dayNumberOf_nextMonth hone hmonth
  · have hyear : d.year ≠ maxYear := fun hyear =>
      h (eq_of_parts hyear hmonth (by rw [hend, hmonth]; rfl))
    have hfirst := @daysInMonth_pos (d.year + 1) 1 (Nat.le_refl 1) (by decide)
    refine ⟨⟨d.year + 1, 1, 1, by omega, Nat.le_refl 1, hfirst⟩, ?_⟩
    rw [dayNumber, dayNumber, hend, hmonth]
    exact dayNumberOf_nextYear _

/-- **The numbers of days are those from the earliest to the latest.** -/
theorem exists_dayNumber_eq_iff :
    (∃ d : Date, d.dayNumber = n) ↔ earliest.dayNumber ≤ n ∧ n ≤ latest.dayNumber := by
  constructor
  · rintro ⟨d, rfl⟩
    exact ⟨le_iff_dayNumber_le.mp d.earliest_le, le_iff_dayNumber_le.mp d.le_latest⟩
  · rintro ⟨hmin, hmax⟩
    obtain ⟨k, rfl⟩ := Int.le.dest hmin
    clear hmin
    induction k with
    | zero => exact ⟨earliest, (Int.add_zero _).symm⟩
    | succ k ih =>
      obtain ⟨d, hd⟩ := ih (by omega)
      have hearlier : d ≠ latest := by
        rintro rfl
        omega
      obtain ⟨e, he⟩ := exists_next hearlier
      exact ⟨e, by rw [he, hd, Int.natCast_succ, Int.add_assoc]⟩

/-! ## From days to numbers and back -/

/-- **The year of a cycle is found again** from the number of a day. -/
theorem yearOfCycle_eq {day : Int} (hyear : 0 ≤ year ∧ year < 400) (hday : 0 ≤ day ∧ day ≤ 365)
    (hleap : day = 365 → isLeapYear (year + 1) = true)
    (hn : n = 365 * year + year / 4 - year / 100 + day) :
    (n - n / 1460 + n / 36524 - n / 146096) / 365 = year := by
  -- the last day of a cycle is alone in a fifth century
  obtain ⟨rfl, rfl⟩ | hnotLast : (year = 399 ∧ day = 365) ∨ ¬ (year = 399 ∧ day = 365) := by omega
  · subst hn
    decide
  have hshort : day = 365 → year % 4 = 3 ∧ year % 100 ≠ 99 := by
    intro hlast
    have hrule := isLeapYear_iff.mp (hleap hlast)
    omega
  generalize hcentury : year / 100 = c at *
  generalize hgroup : (year - 100 * c) / 4 = k
  have hyears : 100 * c + 4 * k ≤ year ∧ year ≤ 100 * c + 4 * k + 3 := by omega
  have hfour : year / 4 = 25 * c + k := by omega
  have hcenturies : n / 36524 = c := by omega
  have hcycles : n / 146096 = 0 := by omega
  have hout : n / 1460 = 25 * c + k
      ∨ n / 1460 = 25 * c + k + 1 ∧ 1460 * (25 * c + k + 1) ≤ n := by omega
  omega

theorem isLeapYear_emod (year : Int) : isLeapYear (year % 400 + 1) = isLeapYear (year + 1) := by
  rw [Bool.eq_iff_iff, isLeapYear_iff, isLeapYear_iff]
  omega

/-- In a year that begins in March, a leap day is the last one, and the day of the year tells the
month. -/
theorem march_of_daysInMonth (hpos : 1 ≤ day) (hday : day ≤ daysInMonth year month) :
    let marchYear : Int := if month ≤ 2 then year - 1 else year
    let marchMonth : Int := if month ≤ 2 then month + 9 else month - 3
    let dayOfYear := (153 * marchMonth + 2) / 5 + day - 1
    (0 ≤ dayOfYear ∧ dayOfYear ≤ 365) ∧ (dayOfYear = 365 → isLeapYear (marchYear + 1) = true)
      ∧ (5 * dayOfYear + 2) / 153 = marchMonth := by
  unfold daysInMonth at hday
  split at hday
  case h_12 =>
    split at hday
    case isTrue hleap =>
      simp only [Nat.reduceLeDiff, if_true, Int.sub_add_cancel]
      exact ⟨by omega, fun _ => hleap, by omega⟩
    case isFalse hleap =>
      simp only [Nat.reduceLeDiff, if_true]
      omega
  case h_13 => omega
  all_goals
    simp only [Nat.reduceLeDiff, if_true, if_false]
    omega

/-- **A day is found again by its number.** -/
theorem ofDayNumber?_dayNumber (d : Date) : ofDayNumber? d.dayNumber = some d := by
  obtain ⟨hday, hleap, hmonth⟩ := march_of_daysInMonth d.day_mem.1 d.day_mem.2
  have hmonths := d.month_mem
  have hcycle : daysPerCycle = 146097 := rfl
  generalize hyears : (if d.month ≤ 2 then d.year - 1 else d.year) = marchYear at *
  generalize hmarch : (if d.month ≤ 2 then (d.month : Int) + 9 else d.month - 3) = marchMonth at *
  generalize hdays : (153 * marchMonth + 2) / 5 + (d.day : Int) - 1 = dayOfYear at *
  have hyear : 0 ≤ marchYear % 400 ∧ marchYear % 400 < 400 := by omega
  -- the number is that of the cycles, and the days that are gone in the present one
  generalize hgone : 365 * (marchYear % 400) + marchYear % 400 / 4 - marchYear % 400 / 100
    + dayOfYear = gone
  have hnumber : d.dayNumber = gone + marchYear / 400 * daysPerCycle := by
    rw [dayNumber, dayNumberOf]
    simp only [hyears, hmarch, hdays]
    omega
  have hwithin : 0 ≤ gone ∧ gone < daysPerCycle := by omega
  have hrest : d.dayNumber % daysPerCycle = gone := by
    rw [hnumber, Int.add_mul_emod_self_right, Int.emod_eq_of_lt hwithin.1 hwithin.2]
  have hcycles : d.dayNumber / daysPerCycle = marchYear / 400 := by
    rw [hnumber, Int.add_mul_ediv_right _ _ (by decide),
      Int.ediv_eq_zero_of_lt hwithin.1 hwithin.2, Int.zero_add]
  have hfound := yearOfCycle_eq hyear hday (fun hlast => (isLeapYear_emod _).trans (hleap hlast))
    hgone.symm
  have hdayOfYear : gone - (365 * (marchYear % 400) + marchYear % 400 / 4 - marchYear % 400 / 100)
      = dayOfYear := by omega
  unfold ofDayNumber?
  simp only [hrest, hcycles, hfound, hdayOfYear, hmonth]
  refine ofYMD?_eq_some_iff.mpr ?_
  split at hmarch <;> split <;> omega

/-! ## Going some days further -/

/-- **The day `n` days later is the one whose number is greater by `n`.** -/
theorem addDays?_eq_some_iff : d.addDays? n = some a ↔ a.dayNumber = d.dayNumber + n := by
  refine ⟨dayNumber_of_addDays?, fun h => ?_⟩
  rw [addDays?_eq, ← h, ofDayNumber?_dayNumber]

/-- There is such a day unless the calendar ends before. -/
theorem exists_addDays?_iff : (∃ a, d.addDays? n = some a)
    ↔ earliest.dayNumber ≤ d.dayNumber + n ∧ d.dayNumber + n ≤ latest.dayNumber := by
  simp only [addDays?_eq_some_iff, exists_dayNumber_eq_iff]

theorem addDays?_eq_none_iff : d.addDays? n = none
    ↔ d.dayNumber + n < earliest.dayNumber ∨ latest.dayNumber < d.dayNumber + n := by
  simp only [Option.eq_none_iff_forall_ne_some, ne_eq, ← not_exists, exists_addDays?_iff]
  omega

/-- **One day later is the next day**: no day lies in between. -/
theorem addDays?_one_eq_some_iff : d.addDays? 1 = some a ↔ d < a ∧ ∀ b, d < b → a ≤ b := by
  simp only [addDays?_eq_some_iff, lt_iff_dayNumber_lt, le_iff_dayNumber_le]
  constructor
  · intro ha
    exact ⟨by omega, fun b hb => by omega⟩
  · rintro ⟨hlt, hfirst⟩
    have hlast := le_iff_dayNumber_le.mp a.le_latest
    have hearlier : d ≠ latest := by
      rintro rfl
      omega
    obtain ⟨e, he⟩ := exists_next hearlier
    have hle := hfirst e (by omega)
    omega

/-- Days are added up. -/
theorem addDays?_of_addDays? (h : d.addDays? m = some a) (n : Int) :
    a.addDays? n = d.addDays? (m + n) := by
  rw [addDays?_eq, addDays?_eq, dayNumber_of_addDays? h, Int.add_assoc]

theorem daysSince_eq_iff : a.daysSince d = n ↔ d.addDays? n = some a := by
  rw [addDays?_eq_some_iff, daysSince]
  omega

theorem lt_iff_daysSince_neg : a < b ↔ a.daysSince b < 0 := by
  rw [lt_iff_dayNumber_lt, daysSince]
  omega

theorem eq_iff_daysSince_eq_zero : a = b ↔ a.daysSince b = 0 := by
  rw [← dayNumber_inj, daysSince]
  omega

end LedgerReports.Date
