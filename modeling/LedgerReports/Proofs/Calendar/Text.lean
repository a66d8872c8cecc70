import LedgerReports.Calendar.Text
import LedgerReports.Proofs.Calendar.Days
import LedgerReports.Proofs.Text.Digits
import Mathlib.Data.List.TakeWhile

/-!
# Days as text

A day is read back from its text (`Date.parse_toText`), for all years that are
supported. So no two days have the same text.

Texts are compared from the front, and so they are in the order of the days if
the years have four digits each, as those from 0 to 9999 have
(`Date.inTextOrder_of_years`). Beyond these the order of the texts is another
one. The sign of a later year comes before every digit, and the plus sign before
the minus sign; a longer year is compared with a shorter one as if its last
digits were not there; and of two years before year 0 the later one has the
lesser number. `Date.YearsInOrder` says for which years it happens to be the
order of the days all the same, and `Date.toText_lt_iff_lt_iff` that nothing
else matters.
-/

namespace LedgerReports.Date

open Text (isDigit isBlank digits digitsValue padStart trimStart)

variable {a b d : Date} {year : Int} {cs rest : List Char}

/-! ## The parts of a text -/

/-- The digits of a year as it is written. -/
def yearFigures (year : Int) : List Char := padStart 4 '0' (digits year.natAbs)

/-- The number of these digits. -/
def yearWidth (year : Int) : Nat := max 4 (digits year.natAbs).length

theorem length_yearFigures (year : Int) : (yearFigures year).length = yearWidth year :=
  length_padStart 4 '0' _

theorem digitsValue_yearFigures (year : Int) : digitsValue (yearFigures year) = year.natAbs :=
  (digitsValue_padStart 4 _).trans (digitsValue_digits _)

theorem isDigit_of_mem_yearFigures : ∀ c ∈ yearFigures year, isDigit c = true :=
  fun _ => isDigit_of_mem_padStart

theorem yearFigures_ne_nil (year : Int) : yearFigures year ≠ [] :=
  List.append_ne_nil_of_right_ne_nil _ (digits_ne_nil _)

theorem yearText_of_plain (hfirst : 0 ≤ year) (hlast : year ≤ 9999) :
    yearText year = yearFigures year := if_pos ⟨hfirst, hlast⟩

theorem yearText_of_large (h : 9999 < year) : yearText year = '+' :: yearFigures year := by
  have hnot : ¬ (0 ≤ year ∧ year ≤ 9999) := by omega
  exact (if_neg hnot).trans (if_pos (by omega))

theorem yearText_of_negative (h : year < 0) : yearText year = '-' :: yearFigures year := by
  have hnot : ¬ (0 ≤ year ∧ year ≤ 9999) := by omega
  exact (if_neg hnot).trans (if_neg (by omega))

theorem yearWidth_of_plain (hfirst : 0 ≤ year) (hlast : year ≤ 9999) : yearWidth year = 4 := by
  have hlen : (digits year.natAbs).length ≤ 4 := (length_digits_le_iff (by decide)).mpr (by omega)
  exact Nat.max_eq_left hlen

/-- A year with a greater number has as many digits or more. -/
theorem yearWidth_mono {x y : Int} (h : x.natAbs ≤ y.natAbs) : yearWidth x ≤ yearWidth y := by
  have hlen : (digits x.natAbs).length ≤ (digits y.natAbs).length := by
    rw [length_digits_le_iff (length_digits_pos _)]
    exact Nat.lt_of_le_of_lt h (lt_pow_length_digits _)
  exact Nat.max_le.mpr ⟨Nat.le_max_left 4 _, Nat.le_trans hlen (Nat.le_max_right 4 _)⟩

theorem length_twoDigits {n : Nat} (h : n < 100) : (twoDigits n).length = 2 := by
  have hlen : (digits n).length ≤ 2 := (length_digits_le_iff (by decide)).mpr h
  rw [twoDigits, length_padStart, Nat.max_eq_left hlen]

theorem digitsValue_twoDigits (n : Nat) : digitsValue (twoDigits n) = n :=
  (digitsValue_padStart 2 _).trans (digitsValue_digits _)

theorem isDigit_of_mem_twoDigits {n : Nat} : ∀ c ∈ twoDigits n, isDigit c = true :=
  fun _ => isDigit_of_mem_padStart

theorem toChars_eq (d : Date) :
    d.toChars = yearText d.year ++ '-' :: (twoDigits d.month ++ '-' :: twoDigits d.day) := by
  rw [toChars, List.append_assoc, List.cons_append]

/-! ## Reading -/

/-- Without white space in front, nothing is left out. -/
theorem trimStart_of_isDigit (hdigits : ∀ c ∈ cs, isDigit c = true) (hcs : cs ≠ []) :
    trimStart (cs ++ rest) = cs ++ rest := by
  obtain ⟨c, cs, rfl⟩ := List.exists_cons_of_ne_nil hcs
  have hc := isBlank_eq_false_of_isDigit (hdigits c List.mem_cons_self)
  exact List.dropWhile_cons_of_neg (by rw [hc]; decide)

theorem append_ne_cons {c : Char} {rest' : List Char} (hdigits : ∀ d ∈ cs, isDigit d = true)
    (hcs : cs ≠ []) (hc : ¬ isDigit c = true) : cs ++ rest ≠ c :: rest' := by
  obtain ⟨d, cs, rfl⟩ := List.exists_cons_of_ne_nil hcs
  rw [List.cons_append]
  rintro heq
  exact hc (List.head_eq_of_cons_eq heq ▸ hdigits d List.mem_cons_self)

/-- **A number is read** up to what is not a digit, or up to the greatest length it can have, if it
is not too great. -/
theorem readNumber_append_eq {limit : Option Nat} (hdigits : ∀ c ∈ cs, isDigit c = true)
    (hcs : cs ≠ [])
    (hend : limit = some cs.length ∨ limit = none ∧ ∀ c ∈ rest.head?, isDigit c = false) :
    readNumber limit (cs ++ rest)
      = if maxNumber < digitsValue cs then .error .outOfRange else .ok (digitsValue cs, rest) := by
  have hall : cs.takeWhile isDigit = cs := List.takeWhile_eq_self_iff.mpr hdigits
  have hsome : cs.isEmpty = false := List.isEmpty_eq_false_iff.mpr hcs
  have hmore : (cs ++ rest).isEmpty = false :=
    List.isEmpty_eq_false_iff.mpr (List.append_ne_nil_of_left_ne_nil hcs rest)
  unfold readNumber
  obtain rfl | ⟨rfl, hrest⟩ := hend
  · simp only [List.take_left, hall, hmore, hsome, Bool.false_eq_true, if_false, List.drop_left]
  · have hstop : (cs ++ rest).takeWhile isDigit = cs := by
      rw [List.takeWhile_append_of_pos hdigits]
      cases rest with
      | nil => exact List.append_nil cs
      | cons c rest =>
        have hc : isDigit c = false := hrest c rfl
        rw [List.takeWhile_cons_of_neg (by rw [hc]; decide), List.append_nil]
    simp only [hstop, hmore, hsome, Bool.false_eq_true, if_false, List.drop_left]

theorem readNumber_append {limit : Option Nat} (hdigits : ∀ c ∈ cs, isDigit c = true)
    (hcs : cs ≠ []) (hnumber : digitsValue cs ≤ maxNumber)
    (hend : limit = some cs.length ∨ limit = none ∧ ∀ c ∈ rest.head?, isDigit c = false) :
    readNumber limit (cs ++ rest) = .ok (digitsValue cs, rest) :=
  (readNumber_append_eq hdigits hcs hend).trans (if_neg (Nat.not_lt.mpr hnumber))

theorem natAbs_le_maxNumber (hyear : minYear ≤ year ∧ year ≤ maxYear) :
    year.natAbs ≤ maxNumber := by
  unfold minYear maxYear at hyear
  unfold maxNumber
  omega

/-- **A year is read back**, with its sign if it has one. -/
theorem readYear_yearText (hyear : minYear ≤ year ∧ year ≤ maxYear) (rest : List Char) :
    readYear (yearText year ++ '-' :: rest) = .ok (year, '-' :: rest) := by
  have hdigits : ∀ c ∈ yearFigures year, isDigit c = true := isDigit_of_mem_yearFigures
  have hnumber : digitsValue (yearFigures year) ≤ maxNumber :=
    digitsValue_yearFigures year ▸ natAbs_le_maxNumber hyear
  have hread {limit : Option Nat} (hlimit : limit = some (yearFigures year).length ∨ limit = none) :
      readNumber limit (yearFigures year ++ '-' :: rest) = .ok (year.natAbs, '-' :: rest) := by
    rw [readNumber_append hdigits (yearFigures_ne_nil year) hnumber
      (hlimit.imp_right fun hnone => ⟨hnone, fun c hc => by cases hc; rfl⟩),
      digitsValue_yearFigures]
  unfold readYear
  obtain hnegative | hfirst := Int.lt_or_le year 0
  · have htrim : trimStart ('-' :: yearFigures year ++ '-' :: rest)
        = '-' :: (yearFigures year ++ '-' :: rest) := rfl
    have hback : -(year.natAbs : Int) = year := by omega
    rw [yearText_of_negative hnegative, htrim]
    simp only [hread (.inr rfl)]
    exact congrArg (fun y => Except.ok (y, '-' :: rest)) hback
  have hback : (year.natAbs : Int) = year := by omega
  obtain hlarge | hlast := Int.lt_or_le 9999 year
  · have htrim : trimStart ('+' :: yearFigures year ++ '-' :: rest)
        = '+' :: (yearFigures year ++ '-' :: rest) := rfl
    rw [yearText_of_large hlarge, htrim]
    simp only [hread (.inr rfl)]
    exact congrArg (fun y => Except.ok (y, '-' :: rest)) hback
  · have hwidth := length_yearFigures year
    rw [yearWidth_of_plain hfirst hlast] at hwidth
    rw [yearText_of_plain hfirst hlast, trimStart_of_isDigit hdigits (yearFigures_ne_nil year)]
    split
    -- no digit is a sign
    case h_1 hsign =>
      exact absurd hsign (append_ne_cons hdigits (yearFigures_ne_nil year) (by decide))
    case h_2 hsign =>
      exact absurd hsign (append_ne_cons hdigits (yearFigures_ne_nil year) (by decide))
    case h_3 =>
      rw [hread (.inl (congrArg some hwidth.symm))]
      exact congrArg (fun y => Except.ok (y, '-' :: rest)) hback

theorem readPart_twoDigits {n greatest : Nat} (hfirst : 1 ≤ n) (hlast : n ≤ greatest)
    (hgreatest : greatest < 100) (rest : List Char) :
    readPart greatest (twoDigits n ++ rest) = .ok (n, rest) := by
  have hne : twoDigits n ≠ [] := List.append_ne_nil_of_right_ne_nil _ (digits_ne_nil n)
  have hlen := length_twoDigits (Nat.lt_of_le_of_lt hlast hgreatest)
  have hnumber : digitsValue (twoDigits n) ≤ maxNumber := by
    rw [digitsValue_twoDigits]
    unfold maxNumber
    omega
  have hread : readNumber (some 2) (twoDigits n ++ rest) = .ok (n, rest) := by
    rw [readNumber_append isDigit_of_mem_twoDigits hne hnumber (.inl (congrArg some hlen.symm)),
      digitsValue_twoDigits]
  unfold readPart
  rw [trimStart_of_isDigit isDigit_of_mem_twoDigits hne, hread]
  exact if_pos ⟨hfirst, hlast⟩

/-- **A day is read back from its text.** -/
theorem parseChars_toChars (d : Date) : parseChars d.toChars = .ok d := by
  have hmonth := d.month_mem
  have hlast : d.day ≤ 31 := Nat.le_trans d.day_mem.2 (daysInMonth_le d.year d.month)
  have hfits : fitsYear d.year = true := by
    have hyear := d.year_mem
    unfold minYear maxYear at hyear
    unfold fitsYear
    rw [Bool.and_eq_true, decide_eq_true_iff, decide_eq_true_iff]
    omega
  have hday := readPart_twoDigits d.day_mem.1 hlast (by decide) []
  rw [List.append_nil] at hday
  have hfound : ofYMD? d.year d.month d.day = some d := ofYMD?_eq_some_iff.mpr ⟨rfl, rfl, rfl⟩
  unfold parseChars
  rw [toChars_eq, readYear_yearText d.year_mem]
  simp only [bind, Except.bind, hfits, readHyphen, readPart_twoDigits hmonth.1 hmonth.2 (by decide),
    hday, hfound]
  rfl

theorem parse_toText (d : Date) : parse d.toText = .ok d := by
  rw [parse, toText, String.toList_ofList, parseChars_toChars]

/-- **No two days have the same text.** -/
theorem toText_inj : a.toText = b.toText ↔ a = b := by
  refine ⟨fun h => ?_, congrArg toText⟩
  have hparse := congrArg parse h
  rw [parse_toText, parse_toText] at hparse
  exact Except.ok.inj hparse

/-! ## The order of the texts -/

theorem hyphen_lt_of_isDigit {c : Char} (h : isDigit c = true) : '-' < c := by
  have hbounds := (isDigit_iff.mp h).1
  show 45 < c.toNat
  omega

/-- Behind the first character of a year all are digits. -/
theorem exists_yearText_eq_cons (year : Int) :
    ∃ c cs, yearText year = c :: cs ∧ ∀ d ∈ cs, isDigit d = true := by
  obtain hnegative | hfirst := Int.lt_or_le year 0
  · exact ⟨_, _, yearText_of_negative hnegative, isDigit_of_mem_yearFigures⟩
  obtain hlarge | hlast := Int.lt_or_le 9999 year
  · exact ⟨_, _, yearText_of_large hlarge, isDigit_of_mem_yearFigures⟩
  · obtain ⟨c, cs, hcs⟩ := List.exists_cons_of_ne_nil (yearFigures_ne_nil year)
    refine ⟨c, cs, (yearText_of_plain hfirst hlast).trans hcs, fun d hd => ?_⟩
    exact isDigit_of_mem_yearFigures d (hcs ▸ List.mem_cons_of_mem c hd)

/-- Years are compared first. -/
theorem yearText_append_lt_iff (x y : Int) {r s : List Char} :
    yearText x ++ '-' :: r < yearText y ++ '-' :: s
      ↔ yearText x < yearText y ∨ yearText x = yearText y ∧ r < s := by
  obtain ⟨c, cs, hx, hcs⟩ := exists_yearText_eq_cons x
  obtain ⟨d, ds, hy, hds⟩ := exists_yearText_eq_cons y
  rw [hx, hy, List.cons_append, List.cons_append, List.cons_lt_cons_iff, List.cons_lt_cons_iff,
    append_cons_lt_append_cons_iff (fun d hd => hyphen_lt_of_isDigit (hcs d hd))
      (fun d hd => hyphen_lt_of_isDigit (hds d hd)), List.cons.injEq, and_or_left, or_assoc,
    and_assoc]

theorem yearText_inj {x y : Int} (hx : minYear ≤ x ∧ x ≤ maxYear) (hy : minYear ≤ y ∧ y ≤ maxYear) :
    yearText x = yearText y ↔ x = y := by
  refine ⟨fun h => ?_, congrArg yearText⟩
  have hread := readYear_yearText hx []
  rw [h, readYear_yearText hy []] at hread
  exact (congrArg Prod.fst (Except.ok.inj hread)).symm

/-- Months and days are in the order of their numbers. -/
theorem twoDigits_lt_iff {m n : Nat} (hm : m < 100) (hn : n < 100) :
    twoDigits m < twoDigits n ↔ m < n := by
  have hlen : (twoDigits m).length = (twoDigits n).length :=
    (length_twoDigits hm).trans (length_twoDigits hn).symm
  rw [lt_iff_digitsValue_lt isDigit_of_mem_twoDigits isDigit_of_mem_twoDigits hlen,
    digitsValue_twoDigits, digitsValue_twoDigits]

theorem twoDigits_inj {m n : Nat} : twoDigits m = twoDigits n ↔ m = n := by
  refine ⟨fun h => ?_, congrArg twoDigits⟩
  have hvalue := congrArg digitsValue h
  rw [digitsValue_twoDigits, digitsValue_twoDigits] at hvalue
  exact hvalue

/-- **The texts of two days are compared by the texts of the years**, and then as the days are. -/
theorem toText_lt_toText_iff_yearText : a.toText < b.toText ↔ yearText a.year < yearText b.year
    ∨ a.year = b.year ∧ (a.month < b.month ∨ a.month = b.month ∧ a.day < b.day) := by
  have hmonthA := a.month_mem
  have hmonthB := b.month_mem
  have hdayA := Nat.le_trans a.day_mem.2 (daysInMonth_le a.year a.month)
  have hdayB := Nat.le_trans b.day_mem.2 (daysInMonth_le b.year b.month)
  have hmonths : (twoDigits a.month).length = (twoDigits b.month).length :=
    (length_twoDigits (by omega)).trans (length_twoDigits (by omega)).symm
  show (String.ofList a.toChars).toList < (String.ofList b.toChars).toList ↔ _
  rw [String.toList_ofList, String.toList_ofList, toChars_eq, toChars_eq, yearText_append_lt_iff,
    yearText_inj a.year_mem b.year_mem, append_lt_append_iff hmonths,
    twoDigits_lt_iff (by omega) (by omega), twoDigits_inj, List.cons_lt_cons_self,
    twoDigits_lt_iff (by omega) (by omega)]

/-! ### Years -/

/-- **The texts of two years are in order**, of which `x` is the earlier one: the later one has four
digits and no sign, or both have a sign, the same one, and the digits that both are long enough for
are in order. -/
def YearsInOrder (x y : Int) : Prop :=
  if y < 0 then x.natAbs / 10 ^ (yearWidth x - yearWidth y) < y.natAbs
  else if y ≤ 9999 then True
  else 9999 < x ∧ x.natAbs ≤ y.natAbs / 10 ^ (yearWidth y - yearWidth x)

instance (x y : Int) : Decidable (YearsInOrder x y) := inferInstanceAs (Decidable (ite _ _ _))

/-- A text that begins with a sign comes before every year without one. -/
theorem cons_lt_yearFigures {c : Char} (hc : c < '0') (cs : List Char) (year : Int) :
    c :: cs < yearFigures year := by
  obtain ⟨d, ds, hds⟩ := List.exists_cons_of_ne_nil (yearFigures_ne_nil year)
  have hd : isDigit d = true := isDigit_of_mem_yearFigures d (hds ▸ List.mem_cons_self)
  have hfirst : '0' ≤ d := (isDigit_iff.mp hd).1
  rw [hds, List.cons_lt_cons_iff]
  exact .inl (Nat.lt_of_lt_of_le hc hfirst : c.toNat < d.toNat)

/-- Of years before year 0, the one with the lesser number is the later one. -/
theorem yearText_lt_iff_of_negative {x y : Int} (hlt : x < y) (hy : y < 0) :
    yearText x < yearText y ↔ x.natAbs / 10 ^ (yearWidth x - yearWidth y) < y.natAbs := by
  have hwidth : yearWidth y ≤ yearWidth x := yearWidth_mono (by omega)
  rw [yearText_of_negative hy, yearText_of_negative (by omega), List.cons_lt_cons_self,
    lt_iff_of_longer isDigit_of_mem_yearFigures isDigit_of_mem_yearFigures
      (by rw [length_yearFigures, length_yearFigures]; exact hwidth),
    length_yearFigures, length_yearFigures, digitsValue_yearFigures, digitsValue_yearFigures]

/-- Years of four digits are in the order of their numbers, and all years before year 0 come before
them. -/
theorem yearText_lt_of_plain {x y : Int} (hlt : x < y) (hy : 0 ≤ y) (hlast : y ≤ 9999) :
    yearText x < yearText y := by
  rw [yearText_of_plain hy hlast]
  obtain hnegative | hx := Int.lt_or_le x 0
  · rw [yearText_of_negative hnegative]
    exact cons_lt_yearFigures (by decide) _ y
  · have hlen : (yearFigures x).length = (yearFigures y).length := by
      rw [length_yearFigures, length_yearFigures, yearWidth_of_plain hy hlast,
        yearWidth_of_plain hx (by omega)]
    rw [yearText_of_plain hx (by omega),
      lt_iff_digitsValue_lt isDigit_of_mem_yearFigures isDigit_of_mem_yearFigures hlen,
      digitsValue_yearFigures, digitsValue_yearFigures]
    omega

/-- Only a year with a plus sign comes before another one with it. -/
theorem yearText_lt_iff_of_large {x y : Int} (hlt : x < y) (hy : 9999 < y) :
    yearText x < yearText y
      ↔ 9999 < x ∧ x.natAbs ≤ y.natAbs / 10 ^ (yearWidth y - yearWidth x) := by
  rw [yearText_of_large hy]
  obtain hlarge | hsmall := Int.lt_or_le 9999 x
  · have hwidth : yearWidth x ≤ yearWidth y := yearWidth_mono (by omega)
    have hback := lt_iff_of_longer (l := yearFigures y) (m := yearFigures x)
      isDigit_of_mem_yearFigures isDigit_of_mem_yearFigures
      (by rw [length_yearFigures, length_yearFigures]; exact hwidth)
    rw [length_yearFigures, length_yearFigures, digitsValue_yearFigures,
      digitsValue_yearFigures] at hback
    have hne : yearFigures x ≠ yearFigures y := fun heq => by
      have hvalue := congrArg digitsValue heq
      rw [digitsValue_yearFigures, digitsValue_yearFigures] at hvalue
      omega
    rw [yearText_of_large hlarge, List.cons_lt_cons_self, and_iff_right hlarge, ← Nat.not_lt,
      ← hback]
    exact ⟨List.lt_asymm, fun hnot => (List.le_iff_lt_or_eq.mp hnot).resolve_right hne⟩
  · have hnot : ¬ 9999 < x := by omega
    rw [iff_false_intro fun h : 9999 < x ∧ _ => hnot h.1, iff_false]
    obtain hnegative | hx := Int.lt_or_le x 0
    · rw [yearText_of_negative hnegative, List.cons_lt_cons_iff]
      rintro (hlt | ⟨heq, -⟩)
      · exact absurd hlt (by decide)
      · exact absurd heq (by decide)
    · rw [yearText_of_plain hx hsmall]
      exact List.lt_asymm (cons_lt_yearFigures (by decide) _ x)

theorem yearText_lt_iff {x y : Int} (h : x < y) : yearText x < yearText y ↔ YearsInOrder x y := by
  unfold YearsInOrder
  split
  · next hy => exact yearText_lt_iff_of_negative h hy
  · next hy =>
    split
    · next hlast => exact iff_true_intro (yearText_lt_of_plain h (by omega) hlast)
    · next hlarge => exact yearText_lt_iff_of_large h (by omega)

/-! ### Days -/

/-- **The texts of two days are in order**: the texts of their years are, of the earlier and the
later one. -/
def InTextOrder (a b : Date) : Prop :=
  (a.year < b.year → YearsInOrder a.year b.year) ∧ (b.year < a.year → YearsInOrder b.year a.year)

instance (a b : Date) : Decidable (InTextOrder a b) := inferInstanceAs (Decidable (_ ∧ _))

theorem inTextOrder_comm : InTextOrder a b ↔ InTextOrder b a := and_comm

/-- Days of years from 0 to 9999 are in order. -/
theorem inTextOrder_of_years (ha : 0 ≤ a.year ∧ a.year ≤ 9999) (hb : 0 ≤ b.year ∧ b.year ≤ 9999) :
    InTextOrder a b := by
  have hplain {x y : Int} (hy : 0 ≤ y ∧ y ≤ 9999) : YearsInOrder x y := by
    unfold YearsInOrder
    rw [if_neg (Int.not_lt.mpr hy.1), if_pos hy.2]
    trivial
  exact ⟨fun _ => hplain hb, fun _ => hplain ha⟩

/-- Of an earlier and a later day, the texts are in this order just if those of the years are. -/
theorem toText_lt_iff_of_lt (h : a < b) : a.toText < b.toText ↔ InTextOrder a b := by
  rw [toText_lt_toText_iff_yearText]
  unfold InTextOrder
  obtain hyear | ⟨hyear, hday⟩ := lt_iff.mp h
  · have hne : a.year ≠ b.year := Int.ne_of_lt hyear
    have hnot : ¬ b.year < a.year := by omega
    simp only [yearText_lt_iff hyear, hne, hyear, hnot, false_and, or_false, true_imp_iff,
      false_imp_iff, and_true]
  · simp only [hyear, hday, and_self, or_true, false_imp_iff, Int.lt_irrefl]

theorem lt_irrefl (d : Date) : ¬ d < d := by
  rw [lt_iff_dayNumber_lt]
  exact Int.lt_irrefl _

theorem lt_asymm (h : a < b) : ¬ b < a := by
  rw [lt_iff_dayNumber_lt] at h ⊢
  exact Int.lt_asymm h

theorem inTextOrder_self (d : Date) : InTextOrder d d :=
  ⟨fun h => absurd h (Int.lt_irrefl _), fun h => absurd h (Int.lt_irrefl _)⟩

/-- The text of another day comes before or after that of a day. -/
theorem not_toText_lt_iff (h : a ≠ b) : ¬ a.toText < b.toText ↔ b.toText < a.toText := by
  have hne : a.toText ≠ b.toText := fun heq => h (toText_inj.mp heq)
  refine ⟨fun hnot => ?_, text_lt_asymm⟩
  exact ((text_lt_or_eq_or_gt a.toText b.toText).resolve_left hnot).resolve_left hne

/-- **The texts of two days are compared as the days are** just if they are in order. -/
theorem toText_lt_iff_lt_iff : (a.toText < b.toText ↔ a < b) ↔ InTextOrder a b := by
  obtain hlt | rfl | hgt := lt_or_eq_or_gt a b
  · rw [← toText_lt_iff_of_lt hlt]
    exact ⟨fun h => h.mpr hlt, fun h => iff_of_true h hlt⟩
  · exact iff_of_true (iff_of_false (List.lt_irrefl _) (lt_irrefl a)) (inTextOrder_self a)
  · have hne : a ≠ b := fun heq => lt_irrefl b (heq ▸ hgt)
    rw [inTextOrder_comm, ← toText_lt_iff_of_lt hgt, ← not_toText_lt_iff hne,
      iff_false_right (lt_asymm hgt)]

/-- **So are they where being the same counts, too.** -/
theorem toText_le_iff_le_iff : (a.toText ≤ b.toText ↔ a ≤ b) ↔ InTextOrder a b := by
  rw [inTextOrder_comm, ← toText_lt_iff_lt_iff, le_iff_not_lt]
  exact not_iff_not

end LedgerReports.Date
