import LedgerReports.Amount.Basic
import LedgerReports.Proofs.Text.Digits
import Mathlib.Algebra.Order.Field.Power
import Mathlib.Algebra.BigOperators.Group.List.Basic
import Mathlib.Data.Rat.Cast.Order

/-!
# The quantity of an amount

An amount stands for a rational number, its quantity (`Amount.value`). Writing an
amount with more decimal places keeps the quantity, and so sums are exact, in
whatever order they are taken (`Amount.value_sum`).

Two amounts count as the same just if their quantities are equal
(`Amount.same_iff`). The comparison looks at the places of the first digits
before it writes out any zeros, which can tell two quantities apart, but never
one from itself: the place of the first digit can be seen from the quantity
(`Amount.magnitude_mem`).
-/

namespace LedgerReports.Amount

variable {a b : Amount}

/-- **The quantity of an amount.** -/
def value (a : Amount) : ℚ := a.digits * 10 ^ (-a.scale)

theorem ten_zpow_pos (n : ℤ) : (0 : ℚ) < 10 ^ n := zpow_pos (by norm_num) n

theorem ten_zpow_add (m n : ℤ) : (10 : ℚ) ^ (m + n) = 10 ^ m * 10 ^ n :=
  zpow_add₀ (by norm_num) m n

/-! ## Arithmetic -/

@[simp]
theorem value_zero : zero.value = 0 := by
  rw [value, zero, Int.cast_zero, zero_mul]

theorem value_rescale {scale : Int} (h : a.scale ≤ scale) : (a.rescale scale).value = a.value := by
  have hplaces : ((scale - a.scale).toNat : ℤ) + -scale = -a.scale := by omega
  rw [value, value, rescale, Int.cast_mul, mul_assoc, ← hplaces, ten_zpow_add, zpow_natCast]
  norm_cast

@[simp]
theorem value_add (a b : Amount) : (a + b).value = a.value + b.value := by
  have ha : (a.rescale (max a.scale b.scale)).value = a.value := value_rescale (le_max_left _ _)
  have hb : (b.rescale (max a.scale b.scale)).value = b.value := value_rescale (le_max_right _ _)
  rw [← ha, ← hb]
  show (((_ : Int) + _ : Int) : ℚ) * _ = _ * _ + _ * _
  rw [Int.cast_add, add_mul]
  rfl

@[simp]
theorem value_neg (a : Amount) : (-a).value = -a.value := by
  show ((-a.digits : Int) : ℚ) * _ = -(a.digits * _)
  rw [Int.cast_neg, neg_mul]
  rfl

@[simp]
theorem value_sub (a b : Amount) : (a - b).value = a.value - b.value := by
  show (a + -b).value = _
  rw [value_add, value_neg, sub_eq_add_neg]

/-- **Sums are exact.** -/
theorem value_sum (l : List Amount) : (sum l).value = (l.map value).sum := by
  have hfrom (start : Amount) :
      (l.foldl (· + ·) start).value = start.value + (l.map value).sum := by
    induction l generalizing start with
    | nil => simp
    | cons a l ih => rw [List.foldl_cons, ih, value_add, List.map_cons, List.sum_cons, add_assoc]
  rw [sum, hfrom, value_zero, zero_add]

/-! ## Being the same -/

theorem value_pos_iff : 0 < a.value ↔ 0 < a.digits := by
  rw [value, mul_pos_iff_of_pos_right (ten_zpow_pos _), Int.cast_pos]

theorem value_neg_iff : a.value < 0 ↔ a.digits < 0 := by
  rw [← neg_pos, ← value_neg, value_pos_iff]
  exact Int.neg_pos

theorem sign_digits_of_value_eq (h : a.value = b.value) : a.digits.sign = b.digits.sign := by
  obtain hneg | hzero | hpos := lt_trichotomy a.value 0
  · rw [Int.sign_eq_neg_one_of_neg (value_neg_iff.mp hneg),
      Int.sign_eq_neg_one_of_neg (value_neg_iff.mp (h ▸ hneg))]
  · have hdigits {c : Amount} (hc : c.value = 0) : c.digits = 0 := by
      have hnot := mt value_pos_iff.mpr hc.not_gt
      have hnot' := mt value_neg_iff.mpr hc.not_lt
      omega
    rw [hdigits hzero, hdigits (h ▸ hzero)]
  · rw [Int.sign_eq_one_of_pos (value_pos_iff.mp hpos),
      Int.sign_eq_one_of_pos (value_pos_iff.mp (h ▸ hpos))]

/-- **The place of the first digit** can be seen from the quantity. -/
theorem magnitude_mem (h : a.digits ≠ 0) :
    (10 : ℚ) ^ (a.width - a.scale - 1) ≤ |a.value| ∧ |a.value| < 10 ^ (a.width - a.scale) := by
  have hwidth : 0 < a.width := length_digits_pos _
  have hlow : 10 ^ (a.width - 1) ≤ a.digits.natAbs :=
    pow_length_digits_le (Int.natAbs_ne_zero.mpr h)
  have hhigh : a.digits.natAbs < 10 ^ a.width := lt_pow_length_digits _
  have habs : |a.value| = (a.digits.natAbs : ℚ) * 10 ^ (-a.scale) := by
    rw [value, abs_mul, abs_of_pos (ten_zpow_pos _), Nat.cast_natAbs, Int.cast_abs]
  have hlast : (a.width : ℤ) - a.scale - 1 = (a.width - 1 : ℕ) + -a.scale := by omega
  rw [habs, hlast, sub_eq_add_neg (a.width : ℤ), ten_zpow_add, ten_zpow_add, zpow_natCast,
    zpow_natCast]
  refine ⟨mul_le_mul_of_nonneg_right ?_ (ten_zpow_pos _).le,
    mul_lt_mul_of_pos_right ?_ (ten_zpow_pos _)⟩
  · exact_mod_cast hlow
  · exact_mod_cast hhigh

/-- So it is the same for equal quantities. -/
theorem place_eq_of_value_eq (h : a.value = b.value) (ha : a.digits ≠ 0) (hb : b.digits ≠ 0) :
    (a.width : ℤ) - a.scale = b.width - b.scale := by
  obtain ⟨hlowA, hhighA⟩ := magnitude_mem ha
  obtain ⟨hlowB, hhighB⟩ := magnitude_mem hb
  rw [h] at hlowA hhighA
  have hle := (zpow_lt_zpow_iff_right₀ (by norm_num)).mp (hlowA.trans_lt hhighB)
  have hge := (zpow_lt_zpow_iff_right₀ (by norm_num)).mp (hlowB.trans_lt hhighA)
  omega

/-- With the same number of decimal places, the digits are compared. -/
theorem digits_rescale_eq_iff :
    (a.rescale (max a.scale b.scale)).digits = (b.rescale (max a.scale b.scale)).digits
      ↔ a.value = b.value := by
  have ha : (a.rescale (max a.scale b.scale)).value = a.value := value_rescale (le_max_left _ _)
  have hb : (b.rescale (max a.scale b.scale)).value = b.value := value_rescale (le_max_right _ _)
  rw [← ha, ← hb]
  have hpower : (10 : ℚ) ^ (-max a.scale b.scale) ≠ 0 := (ten_zpow_pos _).ne'
  exact Int.cast_inj.symm.trans (mul_left_inj' hpower).symm

theorem compare_eq_eq_iff : a.compare b = .eq ↔ a.value = b.value := by
  unfold compare
  simp only
  by_cases hsign : a.digits.sign = b.digits.sign
  · have heq : Ord.compare a.digits.sign b.digits.sign = .eq := Int.compare_eq_eq.mpr hsign
    rw [heq]
    by_cases ha : a.digits = 0
    · have hb : b.digits = 0 := by
        rw [ha, Int.sign_zero] at hsign
        exact Int.sign_eq_zero_iff_zero.mp hsign.symm
      rw [if_pos (.inr ha), value, value, ha, hb, Int.cast_zero, zero_mul, zero_mul]
      exact iff_of_true rfl rfl
    · have hb : b.digits ≠ 0 := fun hb =>
        ha (Int.sign_eq_zero_iff_zero.mp (hsign.trans (Int.sign_eq_zero_iff_zero.mpr hb)))
      rw [if_neg (by simp [ha])]
      split
      · next hplace =>
        -- the first digits have different places
        have hne : a.value ≠ b.value := fun h =>
          hplace (Int.compare_eq_eq.mpr (place_eq_of_value_eq h ha hb))
        refine iff_of_false (fun h => ?_) hne
        split at h
        · exact hplace h
        · exact hplace (Ordering.swap_eq_eq.mp h)
      · rw [Int.compare_eq_eq, digits_rescale_eq_iff]
  · have hne : Ord.compare a.digits.sign b.digits.sign ≠ .eq := mt Int.compare_eq_eq.mp hsign
    rw [if_pos (.inl hne)]
    exact iff_of_false hne (mt sign_digits_of_value_eq hsign)

/-- **Amounts are the same just if their quantities are equal.** -/
theorem same_iff : a.same b = true ↔ a.value = b.value := by
  rw [same, beq_iff_eq, compare_eq_eq_iff]

end LedgerReports.Amount
