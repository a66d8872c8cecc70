import LedgerReports.Proofs.Amount.Text
import LedgerReports.Store.Query
import Mathlib

/-!
# The text that shows an amount

A quantity has many forms, and so many texts: an amount is kept with the zeros at
its end that it has come with. The form that it is shown in is `Canonical`, and a
quantity has only one such form (`Amount.eq_of_value_eq`). Taking zeros off the
end of the digits leads to it, whatever there is in front, and keeps the quantity
(`Amount.canonical_normalized`, `Amount.value_normalized`). So two amounts are shown
by the same text just if their quantities are equal.

The text that shows an amount can be read back, as the one that keeps it can. For
this the scale has to be one that a reader takes, and taking zeros off lowers it
by as much as the number of digits. `Amount.Moderate` leaves room for that.
-/

namespace LedgerReports.Amount

variable {a b : Amount}

/-! ## The form without zeros at the end -/

/-- **The form in which a quantity is shown**: no zero stands at the end of the digits, unless there
is nothing else. -/
def Canonical (a : Amount) : Prop := a = zero ∨ ¬ 10 ∣ a.digits

/-- Behind a digit that is no zero no place can be left out. -/
theorem scale_le_of_value_eq (ha : ¬ 10 ∣ a.digits) (h : a.value = b.value) :
    a.scale ≤ b.scale := by
  by_contra hlt
  have hplaces := digits_rescale_eq_iff.mpr h
  have hmax : max a.scale b.scale = a.scale := max_eq_left (by omega)
  have hfew : (a.scale - b.scale).toNat ≠ 0 := by omega
  rw [hmax] at hplaces
  simp only [rescale, sub_self, Int.toNat_zero, pow_zero, mul_one] at hplaces
  rw [hplaces] at ha
  exact ha (Dvd.dvd.mul_left (dvd_pow_self 10 hfew) b.digits)

/-- **A quantity has one form in which it is shown.** -/
theorem eq_of_value_eq (ha : a.Canonical) (hb : b.Canonical) (h : a.value = b.value) : a = b := by
  have hzero {c : Amount} (hc : ¬ 10 ∣ c.digits) : c.value ≠ 0 := fun hvalue => by
    have hpower : (10 : ℚ) ^ (-c.scale) ≠ 0 := (ten_zpow_pos _).ne'
    have hdigits := Int.cast_eq_zero.mp ((mul_eq_zero_iff_right hpower).mp hvalue)
    exact hc (hdigits ▸ dvd_zero 10)
  obtain rfl | ha := ha <;> obtain rfl | hb := hb
  · rfl
  · exact absurd (h.symm.trans value_zero) (hzero hb)
  · exact absurd (h.trans value_zero) (hzero ha)
  · have hscale : a.scale = b.scale :=
      le_antisymm (scale_le_of_value_eq ha h) (scale_le_of_value_eq hb h.symm)
    have hdigits := digits_rescale_eq_iff.mpr h
    rw [← hscale, max_self] at hdigits
    simp only [rescale, hscale, sub_self, Int.toNat_zero, pow_zero, mul_one] at hdigits
    cases a
    cases b
    exact congrArg₂ mk hdigits hscale

/-! ## Taking zeros off -/

/-- A zero at the end can be taken off. -/
theorem value_div_ten (h : 10 ∣ a.digits) : (mk (a.digits / 10) (a.scale - 1)).value = a.value := by
  obtain ⟨n, hn⟩ := h
  have hdiv : a.digits / 10 = n := by omega
  have hplaces : -(a.scale - 1) = 1 + -a.scale := by omega
  rw [value, value, hdiv, hn, hplaces, ten_zpow_add, zpow_one, Int.cast_mul]
  push_cast
  ring

/-- **Taking zeros off keeps the quantity**, and lowers the scale by one for each. -/
theorem dropZeros_spec (a : Amount) (count : Nat) :
    (a.dropZeros count).value = a.value
      ∧ a.scale - count ≤ (a.dropZeros count).scale ∧ (a.dropZeros count).scale ≤ a.scale := by
  induction count generalizing a with
  | zero => exact ⟨rfl, by simp [dropZeros], le_rfl⟩
  | succ count ih =>
    rw [dropZeros]
    split
    case isTrue hzero =>
      obtain ⟨hvalue, hlow, hhigh⟩ := ih ⟨a.digits / 10, a.scale - 1⟩
      rw [value_div_ten (Int.dvd_of_emod_eq_zero hzero)] at hvalue
      dsimp only at hlow hhigh
      exact ⟨hvalue, by omega, by omega⟩
    case isFalse => exact ⟨rfl, by omega, le_rfl⟩

/-- There are no more zeros to be taken off than there are digits. -/
theorem not_dvd_dropZeros {count : Nat} (hdigits : a.digits ≠ 0)
    (hcount : a.digits.natAbs < 10 ^ count) : ¬ 10 ∣ (a.dropZeros count).digits := by
  induction count generalizing a with
  | zero => omega
  | succ count ih =>
    rw [dropZeros]
    split
    case isTrue hzero =>
      rw [pow_succ] at hcount
      exact ih (by dsimp only; omega) (by dsimp only; omega)
    case isFalse hlast => exact mt Int.emod_eq_zero_of_dvd hlast

theorem value_normalized (a : Amount) : a.normalized.value = a.value := by
  unfold normalized
  split
  case isTrue hzero => rw [value_zero, value, hzero, Int.cast_zero, zero_mul]
  case isFalse => exact (dropZeros_spec a a.width).1

theorem canonical_normalized (a : Amount) : a.normalized.Canonical := by
  unfold normalized
  split
  case isTrue => exact .inl rfl
  case isFalse hdigits => exact .inr (not_dvd_dropZeros hdigits (lt_pow_length_digits _))

/-- **Amounts are shown in the same form just if they are the same.** -/
theorem normalized_eq_iff : a.normalized = b.normalized ↔ a.same b = true := by
  rw [same_iff]
  refine ⟨fun h => ?_, fun h => ?_⟩
  · rw [← value_normalized a, h, value_normalized]
  · refine eq_of_value_eq (canonical_normalized a) (canonical_normalized b) ?_
    rw [value_normalized, value_normalized, h]

/-! ## The texts of an amount -/

/-- **An amount of moderate size**: its digits and its scale can be counted together in 64 bits. -/
structure Moderate (a : Amount) : Prop where
  /-- The number of digits. -/
  width_lt : a.width < 2 ^ 62
  /-- The scale, positive or negative. -/
  scale_lt : |a.scale| < 2 ^ 62

theorem Moderate.scaleFits (h : a.Moderate) : ScaleFits a.scale := by
  have hscale := abs_lt.mp h.scale_lt
  rw [scaleFits_iff]
  omega

/-- There is room for all zeros that are taken off. -/
theorem Moderate.scaleFits_normalized (h : a.Moderate) : ScaleFits a.normalized.scale := by
  have hscale := abs_lt.mp h.scale_lt
  have hwidth := h.width_lt
  obtain ⟨-, hlow, hhigh⟩ := dropZeros_spec a a.width
  rw [scaleFits_iff]
  unfold normalized
  split
  case isTrue => exact ⟨by decide, by decide⟩
  case isFalse => omega

/-- The text that shows an amount is read back as the same quantity. -/
theorem parse?_display (h : ScaleFits a.normalized.scale) :
    ∃ c, parse? a.display = some c ∧ c.value = a.value := by
  rw [← value_normalized a]
  exact parse?_toChars h

/-- **The texts of an amount.** An amount that is kept in a column as a text is read from there as
the same amount, and so is the text that shows it. That text depends on the quantity alone, not on
the zeros at its end or on how it has been computed: two amounts have it in common just if they are
the same. -/
theorem texts_of_amount (ha : a.Moderate) (hb : b.Moderate) :
    (∀ column, ∃ c, (Store.Cell.text a.stored).readAmount column = .ok c ∧ c.same a = true)
      ∧ (∃ c, parse? a.display = some c ∧ c.same a = true)
      ∧ (a.same b = true ↔ a.display = b.display) := by
  refine ⟨fun column => ?_, ?_, fun h => ?_, fun h => ?_⟩
  · obtain ⟨c, hc, hvalue⟩ := parse?_stored ha.scaleFits
    exact ⟨c, by rw [Store.Cell.readAmount, Store.readAmount, hc], same_iff.mpr hvalue⟩
  · obtain ⟨c, hc, hvalue⟩ := parse?_display ha.scaleFits_normalized
    exact ⟨c, hc, same_iff.mpr hvalue⟩
  · rw [display, display, normalized_eq_iff.mpr h]
  · obtain ⟨c, hc, hvalue⟩ := parse?_display ha.scaleFits_normalized
    obtain ⟨c', hc', hvalue'⟩ := parse?_display hb.scaleFits_normalized
    rw [h, hc', Option.some_inj] at hc
    rw [same_iff, ← hvalue, ← hvalue', hc]

/-- A sum of tenths that cancel out, which is kept with a decimal place, is shown as nothing is. -/
theorem texts_of_amount_canceled :
    let a := sum [⟨1, 1⟩, ⟨2, 1⟩, ⟨-3, 1⟩]
    a ≠ zero ∧ a.display = "0"
      ∧ (∀ column, ∃ c, (Store.Cell.text a.stored).readAmount column = .ok c ∧ c.same a = true)
      ∧ (∃ c, parse? a.display = some c ∧ c.same a = true)
      ∧ (a.same zero = true ↔ a.display = zero.display) := by
  intro a
  have hvalue : a = ⟨0, 1⟩ := by decide
  rw [hvalue]
  exact ⟨by decide, by decide, texts_of_amount ⟨by decide, by decide⟩ ⟨by decide, by decide⟩⟩

end LedgerReports.Amount
