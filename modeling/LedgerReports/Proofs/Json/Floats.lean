import LedgerReports.Number.Decimal
import LedgerReports.Proofs.Json.RoundTrip
import Mathlib.Tactic.Ring

/-!
# Floats that are written

The numeral of a finite float is put together from decimal digits in one of four
ways: with an exponent, with zeros at the end, with a point between the digits,
or with zeros in front. It is always well formed (`Numeral.wellFormed_ofFinite`),
so that a reader accepts it and reads just these characters. Which float they
are read as is another matter, on which nothing here depends.

What has to be shown for it is that a positive number has a digit other than
zero. That is plain where the shortest digits are searched for, since zero is
left out there. If none were found, seventeen digits would be taken by rounding,
and then the number must not be rounded to nothing, that is, the power of ten
that is taken for its first digit must not be too great
(`reaches_decimalExponent`).
-/

namespace LedgerReports

namespace Decimal

open Binary64 (Finite roundQuotient)

variable {num den : Nat} {e : Int}

/-! ## Digits of a positive number -/

theorem lt_pow_width (n : Nat) : n < 10 ^ width n := lt_pow_length_digits n

theorem pow_pred_width_le {n : Nat} (hn : n ≠ 0) : 10 ^ (width n - 1) ≤ n :=
  pow_length_digits_le hn

theorem scale_eq (num den : Nat) (e : Int) :
    scale num den e = (num * 10 ^ e.toNat, den * 10 ^ (-e).toNat) := by
  unfold scale
  split
  · have hzero : (-e).toNat = 0 := by omega
    rw [hzero, Nat.pow_zero, Nat.mul_one]
  · have hzero : e.toNat = 0 := by omega
    rw [hzero, Nat.pow_zero, Nat.mul_one]

/-- **A power of ten is reached** by a ratio. -/
def Reaches (num den : Nat) (e : Int) : Prop := den * 10 ^ e.toNat ≤ num * 10 ^ (-e).toNat

/-- On a grid that is finer by some places, a ratio has as many more. -/
theorem Reaches.sub (h : Reaches num den e) (k : Nat) :
    10 ^ k * (den * 10 ^ (e - k).toNat) ≤ num * 10 ^ (-(e - k)).toNat := by
  have hplaces : k + (e - k).toNat + (-e).toNat = e.toNat + (-(e - k)).toNat := by omega
  refine Nat.le_of_mul_le_mul_right ?_ (Nat.pow_pos (by decide) : 0 < 10 ^ (-e).toNat)
  calc 10 ^ k * (den * 10 ^ (e - k).toNat) * 10 ^ (-e).toNat
      = den * 10 ^ (k + (e - k).toNat + (-e).toNat) := by rw [Nat.pow_add, Nat.pow_add]; ring
    _ = den * 10 ^ e.toNat * 10 ^ (-(e - k)).toNat := by rw [hplaces, Nat.pow_add]; ring
    _ ≤ num * 10 ^ (-e).toNat * 10 ^ (-(e - k)).toNat := Nat.mul_le_mul_right _ h
    _ = num * 10 ^ (-(e - k)).toNat * 10 ^ (-e).toNat := by ring

theorem reaches_decimalExponent (hnum : num ≠ 0) : Reaches num den (decimalExponent num den) := by
  unfold decimalExponent
  simp only [scale_eq, Int.neg_neg]
  split
  · next h => exact h
  · -- the ratio of the least number so wide and of the power next to the other one
    have hwidth : 0 < width num := Nat.length_toDigits_pos
    unfold Reaches
    generalize he : (width num : Int) - width den - 1 = e
    have hplaces : width den + e.toNat = width num - 1 + (-e).toNat := by omega
    calc den * 10 ^ e.toNat
        ≤ 10 ^ width den * 10 ^ e.toNat := Nat.mul_le_mul_right _ (Nat.le_of_lt (lt_pow_width den))
      _ = 10 ^ (width num - 1) * 10 ^ (-e).toNat := by rw [← Nat.pow_add, ← Nat.pow_add, hplaces]
      _ ≤ num * 10 ^ (-e).toNat := Nat.mul_le_mul_right _ (pow_pred_width_le hnum)

theorem le_roundQuotient (num den : Nat) : num / den ≤ roundQuotient num den := by
  unfold roundQuotient
  simp only
  split <;> omega

/-- **Rounding to some digits leaves something** of a positive ratio. -/
theorem digits_significant_ne_zero (hnum : num ≠ 0) (hden : den ≠ 0) {count : Nat}
    (hcount : 0 < count) : (significant num den count).digits ≠ 0 := by
  have hreach : Reaches num den (decimalExponent num den) := reaches_decimalExponent hnum
  have hreach := hreach.sub (count - 1)
  unfold significant
  simp only [scale_eq, Int.neg_neg]
  generalize hn : num * 10 ^ (-(decimalExponent num den - (count - 1 : Nat))).toNat = n at hreach ⊢
  generalize hd : den * 10 ^ (decimalExponent num den - (count - 1 : Nat)).toNat = d at hreach ⊢
  have hpos : 0 < d := by
    rw [← hd]
    exact Nat.mul_pos (Nat.pos_of_ne_zero hden) (Nat.pow_pos (by decide))
  have hquotient : 10 ^ (count - 1) ≤ roundQuotient n d :=
    Nat.le_trans ((Nat.le_div_iff_mul_le hpos).mpr hreach) (le_roundQuotient n d)
  have hone : 0 < 10 ^ (count - 1) := Nat.pow_pos (by decide)
  split
  · next h =>
    have hpow : 10 ^ count = 10 ^ (count - 1) * 10 := by
      rw [← Nat.pow_succ, Nat.succ_eq_add_one, Nat.sub_add_cancel hcount]
    show roundQuotient n d / 10 ≠ 0
    omega
  · show roundQuotient n d ≠ 0
    omega

theorem digits_shortestWith?_ne_zero {x : Finite} {top : Int} {count : Nat} {found : Digits}
    (h : shortestWith? x top count = some found) : found.digits ≠ 0 := by
  unfold shortestWith? at h
  simp only at h
  split at h
  case h_1 hbelow _ =>
    rw [Bool.and_eq_true, bne_iff_ne] at hbelow
    obtain rfl := Option.some.inj h
    split
    · exact hbelow.2
    · exact Nat.succ_ne_zero _
  case h_2 hbelow _ =>
    rw [Bool.and_eq_true, bne_iff_ne] at hbelow
    obtain rfl := Option.some.inj h
    exact hbelow.2
  case h_3 =>
    obtain rfl := Option.some.inj h
    exact Nat.succ_ne_zero _
  case h_4 => cases h

theorem digits_trimmed_ne_zero {x : Digits} (h : x.digits ≠ 0) : x.trimmed.digits ≠ 0 := by
  unfold Digits.trimmed
  generalize width x.digits = count
  induction count generalizing x with
  | zero => exact h
  | succ count ih =>
    unfold Digits.trimmed.go
    split
    · next hzero =>
      refine ih ?_
      show x.digits / 10 ≠ 0
      omega
    · exact h

theorem ratio_ne_zero {x : Finite} (h : x.mantissa ≠ 0) : x.ratio.1 ≠ 0 ∧ x.ratio.2 ≠ 0 := by
  have htwo (n : Nat) : 2 ^ n ≠ 0 := Nat.ne_of_gt (Nat.pow_pos (by decide))
  unfold Finite.ratio
  split
  · exact ⟨Nat.mul_ne_zero h (htwo _), Nat.one_ne_zero⟩
  · exact ⟨h, htwo _⟩

/-- **The digits of a positive number are not all zero.** -/
theorem digits_shortest_ne_zero {x : Finite} (h : x.mantissa ≠ 0) : (shortest x).digits ≠ 0 := by
  obtain ⟨hnum, hden⟩ := ratio_ne_zero h
  unfold shortest
  generalize x.ratio = ratio at hnum hden ⊢
  obtain ⟨num, den⟩ := ratio
  simp only
  cases hfound : (List.range 17).findSome? fun i =>
      shortestWith? x (decimalExponent num den) (i + 1) with
  | some found =>
    obtain ⟨i, -, hi⟩ := List.exists_of_findSome?_eq_some hfound
    exact digits_trimmed_ne_zero (digits_shortestWith?_ne_zero hi)
  | none =>
    exact digits_trimmed_ne_zero (digits_significant_ne_zero hnum hden (Nat.succ_pos 16))

end Decimal

/-! ## Numerals -/

namespace Numeral

/-- The digits of a positive number begin with another digit than zero. -/
theorem head?_digits_ne {n : Nat} (h : n ≠ 0) : (Text.digits n).head? ≠ some '0' := by
  intro hzero
  have hvalue := digitsValue_digits n
  rw [digits_eq_of_head? hzero] at hvalue
  exact h hvalue.symm

/-- A numeral is well formed if it begins like the digits of a positive number, and what follows the
point are digits. -/
theorem wellFormed_of_head? {n : Numeral} {m : Nat} (hm : m ≠ 0)
    (hhead : n.whole.head? = (Text.digits m).head?)
    (hwhole : ∀ c ∈ n.whole, Text.isDigit c = true)
    (hfraction : ∀ figures ∈ n.fraction,
      figures ≠ [] ∧ ∀ c ∈ figures, Text.isDigit c = true) : n.WellFormed where
  whole_ne_nil hnil := by
    rw [hnil, List.head?_nil] at hhead
    exact digits_ne_nil m (List.head?_eq_none_iff.mp hhead.symm)
  whole_digits := hwhole
  no_zero hzero := absurd (hhead ▸ hzero) (head?_digits_ne hm)
  fraction_ne_nil figures h := (hfraction figures h).1
  fraction_digits figures h := (hfraction figures h).2

/-- **A positive decimal number has a well-formed numeral**, with or without an exponent. -/
theorem wellFormed_ofDigits (negative : Bool) {x : Decimal.Digits} (h : x.digits ≠ 0) :
    (ofDigits negative x).WellFormed := by
  have hdigits : ∀ c ∈ Text.digits x.digits, Text.isDigit c = true :=
    fun c => isDigit_of_mem_digits
  have hpos : 0 < (Text.digits x.digits).length := Nat.length_toDigits_pos
  have htake (n : Nat) :
      ((Text.digits x.digits).take (n + 1)).head? = (Text.digits x.digits).head? :=
    List.head?_take.trans (if_neg (Nat.succ_ne_zero n))
  have hdrop {n : Nat} (hn : n < (Text.digits x.digits).length) :
      (Text.digits x.digits).drop n ≠ []
        ∧ ∀ c ∈ (Text.digits x.digits).drop n, Text.isDigit c = true :=
    ⟨mt List.drop_eq_nil_iff.mp (Nat.not_le.mpr hn),
      fun c hc => hdigits c (List.mem_of_mem_drop hc)⟩
  have hzeros (n : Nat) : ∀ c ∈ List.replicate n '0', Text.isDigit c = true := by
    intro c hc
    rw [List.eq_of_mem_replicate hc]
    rfl
  unfold ofDigits
  simp only
  split
  case isTrue =>
    -- one digit, a point if there are more of them, and an exponent
    refine wellFormed_of_head? h (htake 0) (fun c hc => hdigits c (List.mem_of_mem_take hc)) ?_
    intro figures hfigures
    split at hfigures
    case isTrue => cases hfigures
    case isFalse hmore =>
      obtain rfl := Option.some.inj hfigures
      exact hdrop (Nat.not_le.mp hmore)
  case isFalse =>
    split
    case isTrue =>
      -- all digits, the zeros that are left out, and `.0`
      refine wellFormed_of_head? h ?_ (List.forall_mem_append.mpr ⟨hdigits, hzeros _⟩) ?_
      · rw [List.head?_append, List.head?_eq_some_head (digits_ne_nil _), Option.some_or]
      · rintro _ ⟨⟩
        exact ⟨List.cons_ne_nil _ _, hzeros 1⟩
    case isFalse hnegative =>
      split
      case isTrue hlead =>
        -- the point stands between the digits
        refine wellFormed_of_head? h (htake _) (fun c hc => hdigits c (List.mem_of_mem_take hc)) ?_
        rintro _ ⟨⟩
        exact hdrop (by omega)
      case isFalse =>
        -- the point stands before the digits, with zeros between
        refine ⟨List.cons_ne_nil _ _, hzeros 1, fun _ => rfl, ?_, ?_⟩
        · rintro _ ⟨⟩
          exact List.append_ne_nil_of_right_ne_nil _ (digits_ne_nil _)
        · rintro _ ⟨⟩
          exact List.forall_mem_append.mpr ⟨hzeros _, hdigits⟩

/-- **A finite float has a well-formed numeral.** -/
theorem wellFormed_ofFinite (x : Binary64.Finite) : (ofFinite x).WellFormed := by
  unfold ofFinite
  split
  · have hzero : ∀ c ∈ ['0'], Text.isDigit c = true := fun c hc => List.mem_singleton.mp hc ▸ rfl
    refine ⟨List.cons_ne_nil _ _, hzero, fun _ => rfl, ?_, ?_⟩
    · rintro _ ⟨⟩
      exact List.cons_ne_nil _ _
    · rintro _ ⟨⟩
      exact hzero
  · next h => exact wellFormed_ofDigits x.negative (Decimal.digits_shortest_ne_zero h)

end Numeral

/-- **A float is written as what it is**, or as nothing if it is not finite. -/
theorem Json.writable_ofFloat (x : Float) : (Json.ofFloat x).Writable := by
  unfold Json.ofFloat
  split
  · exact .number (Numeral.wellFormed_ofFinite _)
  · exact .null

end LedgerReports
