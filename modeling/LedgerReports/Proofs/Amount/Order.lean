import LedgerReports.Proofs.Amount.Value
import Mathlib.Algebra.Order.Group.Unbundled.Abs
import Mathlib.Order.Compare

/-!
# The order of amounts

Amounts compare as their quantities do (`Amount.compares`), whatever forms they
have. The comparison takes three looks, each of them only if the one before has
not told the amounts apart: at the signs, at the places of the first digits, and
at the digits, which are written with the same number of decimal places for that.
Each look is right when it tells two amounts apart. That the last one tells apart
all that are not the same has been shown with the quantities themselves
(`Amount.compare_eq_eq_iff`).
-/

namespace LedgerReports.Amount

variable {a b : Amount}

/-! ## The three looks -/

theorem sign_le_sign_of_value_le (h : a.value ≤ b.value) : a.digits.sign ≤ b.digits.sign := by
  obtain hneg | hzero | hpos := lt_trichotomy a.digits 0
  · have hsign := Int.sign_trichotomy b.digits
    rw [Int.sign_eq_neg_one_of_neg hneg]
    omega
  · have hnot : ¬ b.value < 0 := fun hlt => by
      have hdigits := value_neg_iff.mp (h.trans_lt hlt)
      omega
    rw [hzero, Int.sign_zero]
    exact Int.sign_nonneg_iff.mpr (not_lt.mp (mt value_neg_iff.mpr hnot))
  · have hvalue : 0 < b.value := (value_pos_iff.mpr hpos).trans_le h
    rw [Int.sign_eq_one_of_pos hpos, Int.sign_eq_one_of_pos (value_pos_iff.mp hvalue)]

/-- The greater sign belongs to the greater quantity. -/
theorem value_lt_of_sign_lt (h : a.digits.sign < b.digits.sign) : a.value < b.value :=
  lt_of_not_ge fun hge => (sign_le_sign_of_value_le hge).not_gt h

/-- Where the first digit has the greater place, there is more, of one sign or the other. -/
theorem abs_value_lt_of_place_lt (ha : a.digits ≠ 0) (hb : b.digits ≠ 0)
    (h : (a.width : ℤ) - a.scale < b.width - b.scale) : |a.value| < |b.value| := by
  have hplaces : (a.width : ℤ) - a.scale ≤ b.width - b.scale - 1 := by omega
  calc |a.value|
      < 10 ^ ((a.width : ℤ) - a.scale) := (magnitude_mem ha).2
    _ ≤ 10 ^ ((b.width : ℤ) - b.scale - 1) := zpow_le_zpow_right₀ (by norm_num) hplaces
    _ ≤ |b.value| := (magnitude_mem hb).1

/-- With the same number of decimal places, the digits are compared. -/
theorem value_lt_of_digits_rescale_lt {scale : Int} (ha : a.scale ≤ scale) (hb : b.scale ≤ scale)
    (h : (a.rescale scale).digits < (b.rescale scale).digits) : a.value < b.value := by
  rw [← value_rescale ha, ← value_rescale hb]
  exact mul_lt_mul_of_pos_right (Int.cast_lt.mpr h) (ten_zpow_pos _)

/-! ## The comparison -/

/-- What tells two numbers apart tells apart what is ordered as they are. -/
theorem compares_of_lt_imp {m n : ℤ} {p q : ℚ} {o : Ordering} (h : o.Compares m n) (hne : o ≠ .eq)
    (hlt : m < n → p < q) (hgt : n < m → q < p) : o.Compares p q := by
  cases o with
  | lt => exact hlt h
  | eq => exact absurd rfl hne
  | gt => exact hgt h

/-- The places of the first digits tell amounts of one sign apart, negative ones the other way
round. -/
theorem compares_places (hsign : a.digits.sign = b.digits.sign) (ha : a.digits ≠ 0)
    {size : Ordering} (hsize : size.Compares ((a.width : ℤ) - a.scale) (b.width - b.scale))
    (hne : size ≠ .eq) :
    (if 0 < a.digits then size else size.swap).Compares a.value b.value := by
  have hb : b.digits ≠ 0 := fun hb =>
    ha (Int.sign_eq_zero_iff_zero.mp (hsign.trans (Int.sign_eq_zero_iff_zero.mpr hb)))
  split
  case isTrue hpos =>
    have hposB : 0 < b.digits :=
      Int.sign_eq_one_iff_pos.mp (hsign ▸ Int.sign_eq_one_of_pos hpos)
    rw [← abs_of_pos (value_pos_iff.mpr hpos), ← abs_of_pos (value_pos_iff.mpr hposB)]
    exact compares_of_lt_imp hsize hne (abs_value_lt_of_place_lt ha hb)
      (abs_value_lt_of_place_lt hb ha)
  case isFalse hnot =>
    have hneg : a.digits < 0 := by omega
    have hnegB : b.digits < 0 :=
      Int.sign_eq_neg_one_iff_neg.mp (hsign ▸ Int.sign_eq_neg_one_of_neg hneg)
    have habs {c d : Amount} (hc : c.digits < 0) (hd : d.digits < 0) (h : |c.value| < |d.value|) :
        d.value < c.value := by
      rw [abs_of_neg (value_neg_iff.mpr hc), abs_of_neg (value_neg_iff.mpr hd)] at h
      exact neg_lt_neg_iff.mp h
    rw [Ordering.compares_swap]
    exact compares_of_lt_imp hsize hne
      (fun h => habs hneg hnegB (abs_value_lt_of_place_lt ha hb h))
      (fun h => habs hnegB hneg (abs_value_lt_of_place_lt hb ha h))

/-- **Amounts compare as their quantities do.** -/
theorem compares (a b : Amount) : (a.compare b).Compares a.value b.value := by
  have hint (m n : ℤ) : (Ord.compare m n).Compares m n := (compare_iff m n).mp rfl
  by_cases hsame : a.value = b.value
  · rw [compare_eq_eq_iff.mpr hsame]
    exact hsame
  -- the amounts are told apart, and by the first look that can
  have hne : a.compare b ≠ .eq := mt compare_eq_eq_iff.mp hsame
  unfold compare at hne ⊢
  simp only at hne ⊢
  split at hne
  case isTrue hfirst =>
    rw [if_pos hfirst]
    exact compares_of_lt_imp (hint _ _) hne value_lt_of_sign_lt value_lt_of_sign_lt
  case isFalse hfirst =>
    obtain ⟨hsign, ha⟩ := not_or.mp hfirst
    rw [if_neg hfirst]
    split at hne
    case isTrue hsecond =>
      rw [if_pos hsecond]
      exact compares_places (Int.compare_eq_eq.mp (not_not.mp hsign)) ha (hint _ _) hsecond
    case isFalse hsecond =>
      rw [if_neg hsecond]
      exact compares_of_lt_imp (hint _ _) hne
        (value_lt_of_digits_rescale_lt (le_max_left _ _) (le_max_right _ _))
        (value_lt_of_digits_rescale_lt (le_max_right _ _) (le_max_left _ _))

theorem compare_eq_lt_iff : (a.compare b == .lt) = true ↔ a.value < b.value := by
  rw [beq_iff_eq, (compares a b).eq_lt]

theorem compare_ne_gt_iff : (a.compare b != .gt) = true ↔ a.value ≤ b.value := by
  rw [bne_iff_ne, (compares a b).ne_gt]

end LedgerReports.Amount
