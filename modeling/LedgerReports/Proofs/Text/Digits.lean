import LedgerReports.Number.Power
import LedgerReports.Text.Blank
import LedgerReports.Text.Digits
import Mathlib.Tactic.IntervalCases

/-!
# Strings of digits

A number is read back from its digits (`digitsValue_digits`), and zeros in front
of them do not matter. Strings of digits that are equally long are ordered as
texts in the way in which their numbers are (`lt_iff_digitsValue_lt`): that is
what it takes for numbers in a fixed width to be compared as texts. Of strings
of different lengths this says nothing, for texts are compared from the front.
What stands behind a part of a fixed width is looked at only where that part is
the same (`append_lt_append_iff`).
-/

namespace LedgerReports

open Text (isBlank isDigit digitValue digits digitsValue padStart)

section Digits

variable {c d : Char} {n : Nat}

theorem isDigit_iff : isDigit c = true ↔ 48 ≤ c.toNat ∧ c.toNat ≤ 57 := by
  rw [isDigit, Bool.and_eq_true, decide_eq_true_iff, decide_eq_true_iff]
  rfl

theorem isDigit_of_mem_digits (h : c ∈ digits n) : isDigit c = true := by
  have hdigit := Nat.isDigit_of_mem_toDigits (by decide) (by decide) h
  rw [Char.isDigit, Bool.and_eq_true, decide_eq_true_iff, decide_eq_true_iff] at hdigit
  exact isDigit_iff.mpr hdigit

theorem isBlank_eq_false_of_isDigit {c : Char} (h : isDigit c = true) : isBlank c = false := by
  have hbounds := isDigit_iff.mp h
  have hc : c = Char.ofNat c.toNat := (Char.ofNat_toNat c).symm
  generalize c.toNat = n at hbounds hc
  rw [hc]
  obtain ⟨hfirst, hlast⟩ := hbounds
  interval_cases n <;> rfl

theorem digits_ne_nil (n : Nat) : digits n ≠ [] := Nat.toDigits_ne_nil

theorem digitsValue_digits (n : Nat) : digitsValue (digits n) = n := Nat.ofDigitChars_ten_toDigits

/-- The digits of a number begin with a zero only if it is zero. -/
theorem digits_eq_of_head? (h : (digits n).head? = some '0') : digits n = ['0'] := by
  induction n using Nat.strongRecOn with
  | ind n ih =>
    obtain hsmall | hlarge := Nat.lt_or_ge n 10
    · rw [digits, Nat.toDigits_of_lt_base hsmall] at h ⊢
      rw [List.head?_cons, Option.some_inj] at h
      rw [h]
    · have hsplit : digits n = digits (n / 10) ++ [(n % 10).digitChar] :=
        Nat.toDigits_of_base_le (by decide) hlarge
      rw [hsplit, List.head?_append, List.head?_eq_some_head (digits_ne_nil _), Option.some_or,
        ← List.head?_eq_some_head] at h
      have hzero := congrArg digitsValue (ih (n / 10) (by omega) h)
      rw [digitsValue_digits] at hzero
      have hnone : n / 10 = 0 := hzero
      omega

/-! ### The number of digits -/

theorem length_digits_pos (n : Nat) : 0 < (digits n).length := Nat.length_toDigits_pos

theorem length_digits_le_iff {k : Nat} (hk : 0 < k) : (digits n).length ≤ k ↔ n < 10 ^ k :=
  Nat.length_toDigits_le_iff (by decide) hk

theorem lt_pow_length_digits (n : Nat) : n < 10 ^ (digits n).length :=
  (length_digits_le_iff (length_digits_pos n)).mp (Nat.le_refl _)

theorem pow_length_digits_le (hn : n ≠ 0) : 10 ^ ((digits n).length - 1) ≤ n := by
  obtain hone | hmore := Nat.eq_zero_or_pos ((digits n).length - 1)
  · rw [hone]
    exact Nat.one_le_iff_ne_zero.mpr hn
  · have hlong : ¬ (digits n).length ≤ (digits n).length - 1 := by omega
    exact Nat.not_lt.mp (mt (length_digits_le_iff hmore).mpr hlong)

/-! ### The value of a string of digits -/

theorem digitsValue_append (l m : List Char) :
    digitsValue (l ++ m) = 10 ^ m.length * digitsValue l + digitsValue m :=
  (Nat.ofDigitChars_append 0).trans Nat.ofDigitChars_eq_ofDigitChars_zero

theorem digitsValue_cons (c : Char) (l : List Char) :
    digitsValue (c :: l) = 10 ^ l.length * digitValue c + digitsValue l := by
  have hone : digitsValue [c] = digitValue c := by
    show 10 * 0 + digitValue c = digitValue c
    omega
  rw [← List.singleton_append, digitsValue_append, hone]

theorem digitsValue_replicate_zero (n : Nat) : digitsValue (List.replicate n '0') = 0 :=
  Nat.ofDigitChars_replicate_zero

/-- **A string of digits stands for a number of at most as many digits.** -/
theorem digitsValue_lt_pow {l : List Char} (h : ∀ c ∈ l, isDigit c = true) :
    digitsValue l < 10 ^ l.length := by
  induction l with
  | nil => exact Nat.one_pos
  | cons c l ih =>
    obtain ⟨hc, hl⟩ := List.forall_mem_cons.mp h
    have hdigit : digitValue c ≤ 9 := Nat.sub_le_sub_right (isDigit_iff.mp hc).2 48
    have hrest := ih hl
    have hfirst := Nat.mul_le_mul_left (10 ^ l.length) hdigit
    rw [digitsValue_cons, List.length_cons, Nat.pow_succ]
    omega

/-! ### A fixed width -/

theorem digitsValue_padStart (width : Nat) (l : List Char) :
    digitsValue (padStart width '0' l) = digitsValue l := by
  rw [padStart, digitsValue_append, digitsValue_replicate_zero, Nat.mul_zero, Nat.zero_add]

theorem length_padStart (width : Nat) (c : Char) (l : List Char) :
    (padStart width c l).length = max width l.length := by
  rw [padStart, List.length_append, List.length_replicate]
  omega

theorem isDigit_of_mem_padStart {width : Nat} (h : c ∈ padStart width '0' (digits n)) :
    isDigit c = true := by
  obtain h | h := List.mem_append.mp h
  · rw [List.eq_of_mem_replicate h]
    rfl
  · exact isDigit_of_mem_digits h

end Digits

/-! ## Order -/

section Order

variable {l m r s : List Char} {c d : Char}

theorem text_lt_trans {a b c : String} (h : a < b) (h' : b < c) : a < c := List.lt_trans h h'

theorem text_lt_asymm {a b : String} (h : a < b) : ¬ b < a := List.lt_asymm h

/-- Of two texts one comes before the other one, unless they are the same. -/
theorem text_lt_or_eq_or_gt (a b : String) : a < b ∨ a = b ∨ b < a := by
  by_cases hlt : a < b
  · exact .inl hlt
  · have hnot : ¬ a.toList < b.toList := hlt
    obtain hgt | heq := List.le_iff_lt_or_eq.mp hnot
    · exact .inr (.inr hgt)
    · exact .inr (.inl (String.toList_inj.mp heq.symm))

theorem append_lt_append_iff (hlen : l.length = m.length) :
    l ++ r < m ++ s ↔ l < m ∨ l = m ∧ r < s := by
  induction l generalizing m with
  | nil =>
    obtain rfl := List.length_eq_zero_iff.mp hlen.symm
    simp
  | cons c l ih =>
    obtain ⟨d, m, rfl⟩ := List.exists_cons_of_length_eq_add_one hlen.symm
    rw [List.cons_append, List.cons_append, List.cons_lt_cons_iff, List.cons_lt_cons_iff,
      ih (Nat.succ.inj hlen), List.cons.injEq, and_or_left, or_assoc, and_assoc]

/-- **What ends a part is less than all that it can consist of**, so that a part that another one
begins with comes before it. -/
theorem append_cons_lt_append_cons_iff (hl : ∀ d ∈ l, c < d) (hm : ∀ d ∈ m, c < d) :
    l ++ c :: r < m ++ c :: s ↔ l < m ∨ l = m ∧ r < s := by
  induction l generalizing m with
  | nil =>
    cases m with
    | nil => simp
    | cons d m =>
      have hd := hm d List.mem_cons_self
      simp [List.cons_lt_cons_iff, hd]
  | cons e l ih =>
    obtain ⟨he, hl⟩ := List.forall_mem_cons.mp hl
    cases m with
    | nil =>
      have hnot : ¬ e < c ∧ e ≠ c := ⟨Char.lt_asymm he, fun heq => Char.lt_irrefl e (heq ▸ he)⟩
      simp [List.cons_lt_cons_iff, hnot]
    | cons d m =>
      obtain ⟨-, hm⟩ := List.forall_mem_cons.mp hm
      rw [List.cons_append, List.cons_append, List.cons_lt_cons_iff, List.cons_lt_cons_iff,
        ih hl hm, List.cons.injEq, and_or_left, or_assoc, and_assoc]

/-- A number with one more place in front is compared by that place first. -/
theorem mul_add_lt_mul_add_iff {p x y a b : Nat} (ha : a < p) (hb : b < p) :
    p * x + a < p * y + b ↔ x < y ∨ x = y ∧ a < b := by
  obtain hlt | rfl | hgt := Nat.lt_trichotomy x y
  · have hplace : p * (x + 1) ≤ p * y := Nat.mul_le_mul_left p hlt
    rw [Nat.mul_succ] at hplace
    omega
  · omega
  · have hplace : p * (y + 1) ≤ p * x := Nat.mul_le_mul_left p hgt
    rw [Nat.mul_succ] at hplace
    omega

theorem digitValue_lt_iff (hc : isDigit c = true) (hd : isDigit d = true) :
    c < d ↔ digitValue c < digitValue d := by
  have hc := isDigit_iff.mp hc
  have hd := isDigit_iff.mp hd
  show c.toNat < d.toNat ↔ c.toNat - 48 < d.toNat - 48
  omega

/-- **Strings of digits that are equally long are ordered as their numbers are.** -/
theorem lt_iff_digitsValue_lt (hl : ∀ c ∈ l, isDigit c = true) (hm : ∀ c ∈ m, isDigit c = true)
    (hlen : l.length = m.length) : l < m ↔ digitsValue l < digitsValue m := by
  induction l generalizing m with
  | nil =>
    obtain rfl := List.length_eq_zero_iff.mp hlen.symm
    simp
  | cons c l ih =>
    obtain ⟨d, m, rfl⟩ := List.exists_cons_of_length_eq_add_one hlen.symm
    obtain ⟨hc, hl⟩ := List.forall_mem_cons.mp hl
    obtain ⟨hd, hm⟩ := List.forall_mem_cons.mp hm
    have hlen := Nat.succ.inj hlen
    have hltl := digitsValue_lt_pow hl
    have hltm := digitsValue_lt_pow hm
    have hsame : c = d ↔ digitValue c = digitValue d := by
      refine ⟨congrArg digitValue, fun h => ?_⟩
      refine Char.le_antisymm (Char.not_lt.mp fun hlt => ?_) (Char.not_lt.mp fun hlt => ?_)
      · exact absurd h (Nat.ne_of_gt ((digitValue_lt_iff hd hc).mp hlt))
      · exact absurd h (Nat.ne_of_lt ((digitValue_lt_iff hc hd).mp hlt))
    rw [List.cons_lt_cons_iff, ih hl hm hlen, digitValue_lt_iff hc hd, hsame, digitsValue_cons,
      digitsValue_cons, hlen]
    rw [hlen] at hltl
    exact (mul_add_lt_mul_add_iff hltl hltm).symm

/-- Strings of digits that are equally long are told apart by their numbers. -/
theorem eq_of_digitsValue_eq (hl : ∀ c ∈ l, isDigit c = true) (hm : ∀ c ∈ m, isDigit c = true)
    (hlen : l.length = m.length) (h : digitsValue l = digitsValue m) : l = m := by
  have hlt : ¬ l < m := fun hlt => Nat.ne_of_lt ((lt_iff_digitsValue_lt hl hm hlen).mp hlt) h
  have hgt : ¬ m < l := fun hgt =>
    Nat.ne_of_gt ((lt_iff_digitsValue_lt hm hl hlen.symm).mp hgt) h
  exact List.le_antisymm (List.not_lt.mp hgt) (List.not_lt.mp hlt)

/-- A string of digits is the number that it stands for, written as wide as it is. -/
theorem padStart_digitsValue (hl : ∀ c ∈ l, isDigit c = true) (hlen : 0 < l.length) :
    padStart l.length '0' (digits (digitsValue l)) = l := by
  have hwidth : (digits (digitsValue l)).length ≤ l.length :=
    (length_digits_le_iff hlen).mpr (digitsValue_lt_pow hl)
  refine eq_of_digitsValue_eq (fun _ => isDigit_of_mem_padStart) hl ?_ ?_
  · rw [length_padStart, Nat.max_eq_left hwidth]
  · rw [digitsValue_padStart, digitsValue_digits]

/-- Without a zero in front it is the number as it is written. -/
theorem digits_digitsValue (hl : ∀ c ∈ l, isDigit c = true) (hsome : l ≠ [])
    (hhead : l.head? ≠ some '0') : digits (digitsValue l) = l := by
  obtain ⟨c, l, rfl⟩ := List.exists_cons_of_ne_nil hsome
  have hdigit := isDigit_iff.mp (hl c List.mem_cons_self)
  have hfirst : 1 ≤ digitValue c := by
    have hne : c.toNat ≠ 48 := fun h => hhead (congrArg some (Char.toNat_inj.mp h))
    show 1 ≤ c.toNat - 48
    omega
  have hvalue : 10 ^ l.length ≤ digitsValue (c :: l) := by
    rw [digitsValue_cons]
    exact Nat.le_add_right_of_le (Nat.le_mul_of_pos_right _ hfirst)
  have hlong : l.length < (digits (digitsValue (c :: l))).length := by
    by_contra hshort
    have hlt := (length_digits_le_iff (length_digits_pos _)).mp
      (Nat.le_refl (digits (digitsValue (c :: l))).length)
    have hpow := Nat.pow_le_pow_right (n := 10) (by decide) (Nat.not_lt.mp hshort)
    omega
  have hpad := padStart_digitsValue hl (Nat.succ_pos _)
  rwa [padStart, List.length_cons, Nat.sub_eq_zero_of_le hlong, List.replicate_zero,
    List.nil_append] at hpad

/-- **Of strings of digits of different lengths the longer one is cut off** to the length of the
other one. -/
theorem lt_iff_of_longer (hl : ∀ c ∈ l, isDigit c = true) (hm : ∀ c ∈ m, isDigit c = true)
    (hlen : m.length ≤ l.length) :
    l < m ↔ digitsValue l / 10 ^ (l.length - m.length) < digitsValue m := by
  obtain ⟨front, rest, rfl, hfront⟩ : ∃ front rest, l = front ++ rest ∧ front.length = m.length :=
    ⟨l.take m.length, l.drop m.length, (List.take_append_drop _ _).symm,
      List.length_take_of_le hlen⟩
  have hplaces : (front ++ rest).length - m.length = rest.length := by
    rw [List.length_append]
    omega
  have hrest := digitsValue_lt_pow fun c hc => hl c (List.mem_append_right front hc)
  have hcut : front ++ rest < m ↔ front < m := by
    have hends := append_lt_append_iff (r := rest) (s := []) hfront
    rw [List.append_nil] at hends
    simp [hends]
  rw [hcut, lt_iff_digitsValue_lt (fun c hc => hl c (List.mem_append_left rest hc)) hm hfront,
    hplaces, digitsValue_append, Nat.mul_add_div (Nat.pow_pos (by decide)),
    Nat.div_eq_of_lt hrest, Nat.add_zero]

end Order

end LedgerReports
