import LedgerReports.Proofs.Calendar.Text
import Mathlib

/-!
# The canonical text of a day

A reader takes more texts than are written: white space may stand before each number,
and zeros may be missing in front of a number or there may be too many. Among the texts
of a day one is canonical, and which one that is can be said without the day
(`IsCanonical`): the month and the day have two digits each, and the year has four
digits or a sign. After a plus sign there are more than four digits, after a minus sign
at least four, and neither is longer than the number needs.

What is written is canonical (`isCanonical_toText`), and nothing else that can be read
is: a canonical text is the one that is written for the day it is read as
(`eq_toText_of_isCanonical`).
-/

namespace LedgerReports.Date

open Text (isDigit digits digitsValue padStart trimStart)

variable {d : Date} {cs rest rest' : List Char}

/-! ## Canonical texts -/

/-- Digits of a year: four of them, or more without a zero in front. -/
def IsFigures (cs : List Char) : Prop :=
  (∀ c ∈ cs, isDigit c = true) ∧ (cs.length = 4 ∨ 4 < cs.length ∧ cs.head? ≠ some '0')

/-- **A year as it is written in a canonical text.** -/
inductive IsYear : List Char → Prop where
  /-- Four digits. -/
  | plain {figures : List Char} (h : IsFigures figures) (hlen : figures.length = 4) : IsYear figures
  /-- A plus sign and more than four digits. -/
  | later {figures : List Char} (h : IsFigures figures) (hlen : 4 < figures.length) :
      IsYear ('+' :: figures)
  /-- A minus sign and four digits or more, which are not all zero. -/
  | earlier {figures : List Char} (h : IsFigures figures) (hvalue : digitsValue figures ≠ 0) :
      IsYear ('-' :: figures)

/-- A month or a day as it is written in a canonical text. -/
def IsTwoDigits (cs : List Char) : Prop := (∀ c ∈ cs, isDigit c = true) ∧ cs.length = 2

/-- **A text is written as that of a day is.** -/
inductive IsCanonicalChars : List Char → Prop where
  /-- There are a year, a month and a day with hyphens between them. -/
  | mk {year month day : List Char} (hyear : IsYear year) (hmonth : IsTwoDigits month)
      (hday : IsTwoDigits day) : IsCanonicalChars (year ++ '-' :: (month ++ '-' :: day))

/-- A text is written as that of a day is. -/
def IsCanonical (text : String) : Prop := IsCanonicalChars text.toList

/-! ## What is written -/

/-- A year is written with as many digits as a canonical text has. -/
theorem isFigures_yearFigures (year : Int) : IsFigures (yearFigures year) := by
  refine ⟨isDigit_of_mem_yearFigures, ?_⟩
  by_cases hshort : (digits year.natAbs).length ≤ 4
  · exact .inl ((length_yearFigures year).trans (Nat.max_eq_left hshort))
  · have hfigures : yearFigures year = digits year.natAbs := by
      rw [yearFigures, padStart, Nat.sub_eq_zero_of_le (by omega), List.replicate_zero,
        List.nil_append]
    rw [hfigures]
    refine .inr ⟨by omega, fun hzero => ?_⟩
    rw [digits_eq_of_head? hzero] at hshort
    exact hshort (by decide)

/-- The digits of a year are those of its number. -/
theorem yearFigures_eq {year : Int} (h : IsFigures cs) (hvalue : digitsValue cs = year.natAbs) :
    yearFigures year = cs := by
  obtain ⟨hdigits, hlen | ⟨hlen, hhead⟩⟩ := h
  · have hpad := padStart_digitsValue hdigits (by omega)
    rwa [hlen, hvalue] at hpad
  · have hsome : cs ≠ [] := List.ne_nil_of_length_pos (by omega)
    rw [yearFigures, ← hvalue, digits_digitsValue hdigits hsome hhead, padStart,
      Nat.sub_eq_zero_of_le (by omega), List.replicate_zero, List.nil_append]

/-- More than four digits without a zero in front are a great number. -/
theorem lt_digitsValue (h : IsFigures cs) (hlen : 4 < cs.length) : 9999 < digitsValue cs := by
  obtain ⟨hdigits, hfour | ⟨-, hhead⟩⟩ := h
  · omega
  · have hsome : cs ≠ [] := List.ne_nil_of_length_pos (by omega)
    by_contra hsmall
    have hshort : (digits (digitsValue cs)).length ≤ 4 :=
      (length_digits_le_iff (by decide)).mpr (by omega)
    rw [digits_digitsValue hdigits hsome hhead] at hshort
    omega

theorem isYear_yearText (year : Int) : IsYear (yearText year) := by
  have hfigures := isFigures_yearFigures year
  have hlen := length_yearFigures year
  obtain hnegative | hfirst := Int.lt_or_le year 0
  · rw [yearText_of_negative hnegative]
    exact .earlier hfigures (by rw [digitsValue_yearFigures]; omega)
  obtain hlarge | hlast := Int.lt_or_le 9999 year
  · rw [yearText_of_large hlarge]
    have hlong : ¬ (digits year.natAbs).length ≤ 4 := by
      rw [length_digits_le_iff (by decide)]
      omega
    exact .later hfigures (by rw [hlen, yearWidth]; omega)
  · rw [yearText_of_plain hfirst hlast]
    exact .plain hfigures (hlen.trans (yearWidth_of_plain hfirst hlast))

theorem isTwoDigits_twoDigits {n : Nat} (h : n < 100) : IsTwoDigits (twoDigits n) :=
  ⟨isDigit_of_mem_twoDigits, length_twoDigits h⟩

/-- **What is written is canonical.** -/
theorem isCanonical_toText (d : Date) : IsCanonical d.toText := by
  have hmonth := d.month_mem
  have hday := Nat.le_trans d.day_mem.2 (daysInMonth_le d.year d.month)
  rw [IsCanonical, toText, String.toList_ofList, toChars_eq]
  exact .mk (isYear_yearText d.year) (isTwoDigits_twoDigits (by omega))
    (isTwoDigits_twoDigits (by omega))

/-! ## What is read -/

/-- **The year that is read is the one that is written**, if it is read at all. -/
theorem of_readYear {year : List Char} {n : Int} (hyear : IsYear year)
    (h : readYear (year ++ '-' :: rest) = .ok (n, rest')) :
    year = yearText n ∧ rest' = '-' :: rest := by
  have hstop : ∀ c ∈ ('-' :: rest).head?, isDigit c = false := by
    rintro c ⟨⟩
    decide
  unfold readYear at h
  cases hyear with
  | plain hfigures hlen =>
    have hsome : year ≠ [] := List.ne_nil_of_length_pos (by omega)
    have hlt := digitsValue_lt_pow hfigures.1
    rw [trimStart_of_isDigit hfigures.1 hsome] at h
    split at h
    case h_1 hsign => exact absurd hsign (append_ne_cons hfigures.1 hsome (by decide))
    case h_2 hsign => exact absurd hsign (append_ne_cons hfigures.1 hsome (by decide))
    case h_3 =>
      rw [readNumber_append_eq hfigures.1 hsome (.inl (congrArg some hlen.symm))] at h
      split at h
      case isTrue => cases h
      case isFalse =>
        cases h
        rw [hlen] at hlt
        rw [yearText_of_plain (by omega) (by omega), yearFigures_eq hfigures rfl]
        exact ⟨rfl, rfl⟩
  | @later figures hfigures hlen =>
    have hsome : figures ≠ [] := List.ne_nil_of_length_pos (by omega)
    have htrim : trimStart ('+' :: figures ++ '-' :: rest) = '+' :: (figures ++ '-' :: rest) := rfl
    have hlarge := lt_digitsValue hfigures hlen
    rw [htrim] at h
    simp only [readNumber_append_eq hfigures.1 hsome (.inr ⟨rfl, hstop⟩)] at h
    split at h
    case isTrue => cases h
    case isFalse =>
      cases h
      rw [yearText_of_large (by omega), yearFigures_eq hfigures rfl]
      exact ⟨rfl, rfl⟩
  | @earlier figures hfigures hvalue =>
    have hsome : figures ≠ [] := by
      rintro rfl
      exact hvalue rfl
    have htrim : trimStart ('-' :: figures ++ '-' :: rest) = '-' :: (figures ++ '-' :: rest) := rfl
    rw [htrim] at h
    simp only [readNumber_append_eq hfigures.1 hsome (.inr ⟨rfl, hstop⟩)] at h
    split at h
    case isTrue => cases h
    case isFalse =>
      cases h
      rw [yearText_of_negative (by omega), yearFigures_eq hfigures (by omega)]
      exact ⟨rfl, rfl⟩

/-- So is a month or a day. -/
theorem of_readPart {greatest n : Nat} (htwo : IsTwoDigits cs)
    (h : readPart greatest (cs ++ rest) = .ok (n, rest')) : cs = twoDigits n ∧ rest' = rest := by
  obtain ⟨hdigits, hlen⟩ := htwo
  have hsome : cs ≠ [] := List.ne_nil_of_length_pos (by omega)
  have hpad := padStart_digitsValue hdigits (by omega)
  unfold readPart at h
  rw [trimStart_of_isDigit hdigits hsome,
    readNumber_append_eq hdigits hsome (.inl (congrArg some hlen.symm))] at h
  split at h
  case isTrue => cases h
  case isFalse =>
    replace h : (if 1 ≤ digitsValue cs ∧ digitsValue cs ≤ greatest then
      Except.ok (digitsValue cs, rest) else .error ParseError.outOfRange) = .ok (n, rest') := h
    split at h <;> cases h
    rw [hlen] at hpad
    exact ⟨hpad.symm, rfl⟩

/-- What has been read has been read one part after the other. -/
theorem exists_of_bind_eq_ok {α β : Type} {x : Except ParseError α} {f : α → Except ParseError β}
    {b : β} (h : x >>= f = .ok b) : ∃ a, x = .ok a ∧ f a = .ok b := by
  cases x with
  | ok a => exact ⟨a, rfl, h⟩
  | error e => cases h

theorem of_readHyphen (h : readHyphen cs = .ok rest) : cs = '-' :: rest := by
  unfold readHyphen at h
  split at h
  case h_1 => cases h
  case h_2 rest =>
    cases h
    rfl
  case h_3 => cases h

/-- **A day is read part by part**, up to the end of the text. -/
theorem exists_of_parseChars (h : parseChars cs = .ok d) : ∃ rest₁ rest₂,
    readYear cs = .ok (d.year, '-' :: rest₁)
      ∧ readPart 12 rest₁ = .ok (d.month, '-' :: rest₂)
      ∧ readPart 31 rest₂ = .ok (d.day, []) := by
  obtain ⟨⟨year, rest⟩, hyear, h⟩ := exists_of_bind_eq_ok h
  dsimp only at h
  split at h
  case isFalse => cases h
  obtain ⟨rest₁, hfirst, h⟩ := exists_of_bind_eq_ok h
  obtain ⟨⟨month, rest'⟩, hmonth, h⟩ := exists_of_bind_eq_ok h
  obtain ⟨rest₂, hsecond, h⟩ := exists_of_bind_eq_ok h
  obtain ⟨⟨day, rest''⟩, hday, h⟩ := exists_of_bind_eq_ok h
  obtain rfl := of_readHyphen hfirst
  obtain rfl := of_readHyphen hsecond
  dsimp only at h
  split at h
  case isFalse => cases h
  case isTrue hend =>
    obtain rfl := List.isEmpty_iff.mp hend
    split at h
    case h_2 => cases h
    case h_1 found hfound =>
      cases h
      obtain ⟨rfl, rfl, rfl⟩ := ofYMD?_eq_some_iff.mp hfound
      exact ⟨rest₁, rest₂, hyear, hmonth, hday⟩

/-- **A canonical text is the one that is written** for the day that it is read as. -/
theorem eq_toText_of_isCanonical {text : String} (htext : IsCanonical text)
    (h : parse text = .ok d) : text = d.toText := by
  suffices hchars : text.toList = d.toChars by rw [toText, ← hchars, String.ofList_toList]
  obtain ⟨rest₁, rest₂, hreadYear, hreadMonth, hreadDay⟩ := exists_of_parseChars h
  unfold IsCanonical at htext
  generalize text.toList = cs at htext hreadYear ⊢
  obtain @⟨year, month, day, hyear, hmonth, hday⟩ := htext
  obtain ⟨rfl, hbehindYear⟩ := of_readYear hyear hreadYear
  obtain rfl := (List.cons.inj hbehindYear).2
  obtain ⟨rfl, hbehindMonth⟩ := of_readPart hmonth hreadMonth
  obtain rfl := (List.cons.inj hbehindMonth).2
  rw [← List.append_nil rest₂] at hreadDay
  obtain ⟨rfl, -⟩ := of_readPart hday hreadDay
  exact (toChars_eq d).symm

/-- Among the texts that are read as a day one is canonical. -/
theorem isCanonical_iff {text : String} (h : parse text = .ok d) :
    IsCanonical text ↔ text = d.toText := by
  refine ⟨fun htext => eq_toText_of_isCanonical htext h, ?_⟩
  rintro rfl
  exact isCanonical_toText d

/-- A day can be read from a text that is not canonical. -/
example : toChars <$> parseChars " +02017-1- 5".toList = .ok "2017-01-05".toList := by cbv

end LedgerReports.Date
