import LedgerReports.Amount.Text
import LedgerReports.Proofs.Amount.Value
import Mathlib.Data.List.TakeWhile

/-!
# Amounts as text

The text of an amount is read back as an amount of the same quantity
(`Amount.parse?_toChars`), and so is the text that keeps it. There are several
ways to write an amount, by its scale and by how many digits it has. They are all
made of the same parts, though: a sign, digits before the point, digits behind
it, and an exponent (`Amount.ofChars?_of_split`). Reading takes the digits before
and behind the point together and counts those behind, so what has to be compared
for each way is the number of digits and the scale (`Amount.Spells`).

Only zeros that are written out in place of a negative scale are not taken back:
the digits then are others, and the quantity is the same. Scales have 64 bits, and
a reader looks at this before it takes an amount.
-/

namespace LedgerReports.Amount

open Text (isDigit isBlank digitsValue integer trimStart trim)

variable {a : Amount} {lead trail exponentText : List Char} {exponent : Int}

/-- **A scale that is taken** by a reader has 64 bits. -/
def ScaleFits (scale : Int) : Prop :=
  Int64.minValue.toInt ≤ scale ∧ scale ≤ Int64.maxValue.toInt

instance (scale : Int) : Decidable (ScaleFits scale) := inferInstanceAs (Decidable (_ ∧ _))

theorem scaleFits_iff {scale : Int} :
    ScaleFits scale ↔ -9223372036854775808 ≤ scale ∧ scale ≤ 9223372036854775807 := Iff.rfl

/-! ## The parts of a text -/

/-- The digits behind the point, and the point if there are any. -/
def pointed (trail : List Char) : List Char := if trail = [] then [] else '.' :: trail

/-- The sign, if there is one. -/
def signed (negative : Bool) (cs : List Char) : List Char := if negative then '-' :: cs else cs

theorem readSign_of_isDigit {cs : List Char} (hdigits : ∀ c ∈ cs, isDigit c = true) :
    readSign cs = (false, cs) := by
  unfold readSign
  split
  case h_1 rest =>
    have hsign := hdigits '-' List.mem_cons_self
    exact absurd hsign (by decide)
  case h_2 rest =>
    have hsign := hdigits '+' List.mem_cons_self
    exact absurd hsign (by decide)
  case h_3 => rfl

theorem readSign_signed (negative : Bool) {cs : List Char} (hdigits : ∀ c ∈ cs, isDigit c = true) :
    readSign (signed negative cs) = (negative, cs) := by
  cases negative with
  | true => rfl
  | false => exact readSign_of_isDigit hdigits

theorem readDigits?_of_isDigit {cs : List Char} (hcs : cs ≠ [])
    (hdigits : ∀ c ∈ cs, isDigit c = true) : readDigits? cs = some (digitsValue cs) := by
  obtain ⟨c, rest, rfl⟩ := List.exists_cons_of_ne_nil hcs
  have hfilter : (c :: rest).filter isDigit = c :: rest := List.filter_eq_self.mpr hdigits
  have hall : (c :: rest).all (fun c => isDigit c || c == '_') = true :=
    List.all_eq_true.mpr fun d hd => by rw [hdigits d hd, Bool.true_or]
  have hhead : (c :: rest).head?.any isDigit = true := hdigits c List.mem_cons_self
  unfold readDigits?
  rw [hhead, hall, hfilter]
  rfl

/-- Nothing before an exponent looks like one. -/
theorem splitExponent_of_base {base : List Char} (hbase : ∀ c ∈ base, c ≠ 'e' ∧ c ≠ 'E') :
    splitExponent base = (base, none)
      ∧ ∀ mark text, mark = 'e' ∨ mark = 'E' →
        splitExponent (base ++ mark :: text) = (base, some text) := by
  have hpass : ∀ c ∈ base, (!(c == 'e' || c == 'E')) = true := fun c hc => by
    have hne := hbase c hc
    simp [hne.1, hne.2]
  unfold splitExponent
  refine ⟨?_, fun mark text hmark => ?_⟩
  · have hnone : base.dropWhile (fun c => !(c == 'e' || c == 'E')) = [] :=
      List.dropWhile_eq_nil_iff.mpr hpass
    simp only [hnone]
  · have hstop : ¬ (!(mark == 'e' || mark == 'E')) = true := by
      obtain rfl | rfl := hmark <;> decide
    have hdrop : (base ++ mark :: text).dropWhile (fun c => !(c == 'e' || c == 'E'))
        = mark :: text := by
      rw [List.dropWhile_append_of_pos hpass]
      exact List.dropWhile_cons_of_neg hstop
    have htake : (base ++ mark :: text).takeWhile (fun c => !(c == 'e' || c == 'E')) = base := by
      rw [List.takeWhile_append_of_pos hpass]
      exact (congrArg (base ++ ·) (List.takeWhile_cons_of_neg hstop)).trans (List.append_nil base)
    simp only [hdrop, htake]

theorem ne_point_of_isDigit {c : Char} (h : isDigit c = true) : (c != '.') = true := by
  rw [bne_iff_ne]
  rintro rfl
  exact absurd h (by decide)

/-- The text is parted at the point. -/
theorem takeWhile_pointed (negative : Bool) (hlead : ∀ c ∈ lead, isDigit c = true)
    (trail : List Char) :
    (signed negative lead ++ pointed trail).takeWhile (· != '.') = signed negative lead
      ∧ ((signed negative lead ++ pointed trail).dropWhile (· != '.')).drop 1 = trail := by
  have hpass : ∀ c ∈ signed negative lead, (c != '.') = true := fun c hc => by
    cases negative with
    | true =>
      obtain rfl | hc := List.mem_cons.mp hc
      · rfl
      · exact ne_point_of_isDigit (hlead c hc)
    | false => exact ne_point_of_isDigit (hlead c hc)
  rw [List.takeWhile_append_of_pos hpass, List.dropWhile_append_of_pos hpass]
  unfold pointed
  split
  · next hnone => simp [hnone]
  · simp

/-- **A text that is made of these parts is read as the amount that they say.** -/
theorem ofChars?_of_split {cs : List Char} {negative : Bool} {exponentText : Option (List Char)}
    (hsplit : splitExponent cs = (signed negative lead ++ pointed trail, exponentText))
    (hexponent : exponentText.elim (some 0) readExponent? = some exponent) (hlead : lead ≠ [])
    (hdigits : ∀ c ∈ lead ++ trail, isDigit c = true)
    (hscale : ScaleFits (trail.length - exponent)) :
    ofChars? cs
      = some ⟨if negative then -(digitsValue (lead ++ trail) : Int)
            else digitsValue (lead ++ trail), trail.length - exponent⟩ := by
  obtain ⟨hleads, htrails⟩ := List.forall_mem_append.mp hdigits
  obtain ⟨hbefore, hbehind⟩ := takeWhile_pointed negative hleads trail
  have hsign : readSign (signed negative lead ++ trail) = (negative, lead ++ trail) := by
    have happend : signed negative lead ++ trail = signed negative (lead ++ trail) := by
      cases negative <;> rfl
    rw [happend, readSign_signed negative hdigits]
  have hnumber := readDigits?_of_isDigit (List.append_ne_nil_of_left_ne_nil hlead trail) hdigits
  have hplaces : trail.filter (· != '_') = trail := List.filter_eq_self.mpr fun c hc => by
    rw [bne_iff_ne]
    rintro rfl
    exact absurd (htrails _ hc) (by decide)
  rw [scaleFits_iff] at hscale
  unfold ofChars?
  simp only [hsplit, hbefore, hbehind, hsign, hplaces]
  cases exponentText with
  | none =>
    rw [Option.elim_none, Option.some.injEq] at hexponent
    subst hexponent
    refine Option.bind_eq_some_iff.mpr ⟨0, rfl, Option.bind_eq_some_iff.mpr ⟨_, hnumber, ?_⟩⟩
    rw [if_pos (by omega)]
  | some text =>
    rw [Option.elim_some] at hexponent
    refine Option.bind_eq_some_iff.mpr ⟨_, hexponent,
      Option.bind_eq_some_iff.mpr ⟨_, hnumber, ?_⟩⟩
    rw [if_pos (by omega)]

/-! ## The ways to write an amount -/

/-- **A text spells a number with a scale**, in digits with a point or not, and with an exponent or
not. -/
inductive Spells : List Char → Nat → Int → Prop where
  /-- There is no exponent. -/
  | plain {lead trail : List Char} (hlead : lead ≠ [])
      (hdigits : ∀ c ∈ lead ++ trail, isDigit c = true) :
      Spells (lead ++ pointed trail) (digitsValue (lead ++ trail)) trail.length
  /-- There is one, which is taken off the scale. -/
  | scientific {lead trail text : List Char} {mark : Char} {exponent : Int} (hlead : lead ≠ [])
      (hdigits : ∀ c ∈ lead ++ trail, isDigit c = true) (hmark : mark = 'e' ∨ mark = 'E')
      (hread : readExponent? text = some exponent) (htext : ∀ c ∈ text, isBlank c = false) :
      Spells (lead ++ pointed trail ++ mark :: text) (digitsValue (lead ++ trail))
        (trail.length - exponent)

/-- What holds of a minus sign, a point and every digit holds of all that stands before an
exponent. -/
theorem forall_mem_base {p : Char → Prop} (negative : Bool) (hminus : p '-') (hpoint : p '.')
    (hdigit : ∀ c, isDigit c = true → p c) (hdigits : ∀ c ∈ lead ++ trail, isDigit c = true) :
    ∀ c ∈ signed negative lead ++ pointed trail, p c := by
  obtain ⟨hlead, htrail⟩ := List.forall_mem_append.mp hdigits
  refine List.forall_mem_append.mpr ⟨fun c hc => ?_, fun c hc => ?_⟩
  · cases negative with
    | true =>
      obtain rfl | hc := List.mem_cons.mp hc
      · exact hminus
      · exact hdigit c (hlead c hc)
    | false => exact hdigit c (hlead c hc)
  · unfold pointed at hc
    split at hc
    · cases hc
    · obtain rfl | hc := List.mem_cons.mp hc
      · exact hpoint
      · exact hdigit c (htrail c hc)

/-- **A text is read as what it spells.** -/
theorem Spells.ofChars?_eq {cs : List Char} {n : Nat} {scale : Int} (h : Spells cs n scale)
    (hscale : ScaleFits scale) (negative : Bool) :
    ofChars? (signed negative cs) = some ⟨if negative then -(n : Int) else n, scale⟩ := by
  have hletters (c : Char) (hc : isDigit c = true) : c ≠ 'e' ∧ c ≠ 'E' := by
    constructor <;>
    · rintro rfl
      exact absurd hc (by decide)
  have hsigned (cs rest : List Char) :
      signed negative (cs ++ rest) = signed negative cs ++ rest := by
    cases negative <;> rfl
  cases h with
  | @plain lead trail hlead hdigits =>
    have hbase := forall_mem_base negative (by decide) (by decide) hletters hdigits
    have hsplit := (splitExponent_of_base hbase).1
    rw [hsigned, ofChars?_of_split hsplit rfl hlead hdigits (by rwa [sub_zero]), sub_zero]
  | @scientific lead trail text mark exponent hlead hdigits hmark hread =>
    have hbase := forall_mem_base negative (by decide) (by decide) hletters hdigits
    have hsplit := (splitExponent_of_base hbase).2 mark text hmark
    rw [hsigned, hsigned, ofChars?_of_split hsplit hread hlead hdigits hscale]

/-! ### Exponents -/

theorem all_isDigit_digits (n : Nat) : (Text.digits n).all isDigit = true :=
  List.all_eq_true.mpr fun _ => isDigit_of_mem_digits

theorem readExponent?_integer {n : Int} (hfirst : -9223372036854775808 ≤ n)
    (hlast : n ≤ 9223372036854775808) : readExponent? (integer n) = some n := by
  have hdigits : ∀ c ∈ Text.digits n.natAbs, isDigit c = true := fun _ => isDigit_of_mem_digits
  have hsign : readSign (integer n) = (decide (n < 0), Text.digits n.natAbs) := by
    have hinteger : integer n = signed (decide (n < 0)) (Text.digits n.natAbs) := by
      unfold integer signed
      simp only [decide_eq_true_iff]
    rw [hinteger, readSign_signed _ hdigits]
  have hnumber : (if decide (n < 0) = true then -(n.natAbs : Int) else n.natAbs) = n := by
    simp only [decide_eq_true_iff]
    split <;> omega
  unfold readExponent?
  simp only [hsign, digitsValue_digits, hnumber]
  rw [if_pos ⟨digits_ne_nil _, all_isDigit_digits _⟩, if_pos (by omega)]

theorem readExponent?_plus {n : Nat} (h : n ≤ 9223372036854775808) :
    readExponent? ('+' :: Text.digits n) = some (n : Int) := by
  unfold readExponent?
  simp only [readSign, digitsValue_digits, Bool.false_eq_true, if_false]
  rw [if_pos ⟨digits_ne_nil _, all_isDigit_digits _⟩, if_pos (by omega)]

/-! ### Magnitudes -/

theorem forall_mem_integer_not_blank (n : Int) : ∀ c ∈ integer n, isBlank c = false := by
  intro c hc
  unfold integer at hc
  split at hc
  · obtain rfl | hc := List.mem_cons.mp hc
    · rfl
    · exact isBlank_eq_false_of_isDigit (isDigit_of_mem_digits hc)
  · exact isBlank_eq_false_of_isDigit (isDigit_of_mem_digits hc)

theorem pointed_nil : pointed [] = [] := rfl

theorem pointed_of_ne_nil (h : trail ≠ []) : pointed trail = '.' :: trail := if_neg h

theorem isDigit_of_mem_zeros (k : Nat) : ∀ c ∈ List.replicate k '0', isDigit c = true := by
  intro c hc
  rw [List.eq_of_mem_replicate hc]
  rfl

section Ways

variable {figures : List Char} {scale : Int}

/-- The first digit stands before the point, the others behind it, with an exponent. -/
theorem spells_firstDigit (hne : figures ≠ []) (hdigits : ∀ c ∈ figures, isDigit c = true)
    (hfirst : -9223372036854775808 ≤ figures.length - 1 - scale)
    (hlast : figures.length - 1 - scale ≤ 9223372036854775808) :
    Spells (figures.take 1 ++ pointed (figures.drop 1)
        ++ 'E' :: integer (figures.length - 1 - scale)) (digitsValue figures) scale := by
  have hwidth := List.length_pos_of_ne_nil hne
  have hlead : figures.take 1 ≠ [] := mt List.take_eq_nil_iff.mp (by simp [hne])
  have hspells := Spells.scientific hlead (by rwa [List.take_append_drop]) (.inr rfl)
    (readExponent?_integer hfirst hlast) (forall_mem_integer_not_blank _)
  have hplaces : ((figures.drop 1).length : Int) - (figures.length - 1 - scale) = scale := by
    rw [List.length_drop]
    omega
  rw [List.take_append_drop, hplaces] at hspells
  exact hspells

/-- All digits stand before an exponent. -/
theorem spells_exponent (hne : figures ≠ []) (hdigits : ∀ c ∈ figures, isDigit c = true)
    (hscale : scale ≤ 0) (hlast : -scale ≤ 9223372036854775808) :
    Spells (figures ++ 'e' :: '+' :: Text.digits (-scale).toNat) (digitsValue figures) scale := by
  have hall : ∀ c ∈ figures ++ [], isDigit c = true := by rwa [List.append_nil]
  have hblank : ∀ c ∈ '+' :: Text.digits (-scale).toNat, isBlank c = false :=
    List.forall_mem_cons.mpr
      ⟨rfl, fun c hc => isBlank_eq_false_of_isDigit (isDigit_of_mem_digits hc)⟩
  have hspells :=
    Spells.scientific hne hall (.inl rfl) (readExponent?_plus (by omega)) hblank
  have hplaces : (([] : List Char).length : Int) - (-scale).toNat = scale := by
    rw [List.length_nil]
    omega
  rw [pointed_nil, List.append_nil, hplaces] at hspells
  exact hspells

/-- Zeros stand in place of a negative scale. -/
theorem spells_zerosBehind (hne : figures ≠ []) (hdigits : ∀ c ∈ figures, isDigit c = true)
    (k : Nat) :
    Spells (figures ++ List.replicate k '0') (10 ^ k * digitsValue figures) 0 := by
  have hall : ∀ c ∈ figures ++ List.replicate k '0' ++ [], isDigit c = true := by
    rw [List.append_nil]
    exact List.forall_mem_append.mpr ⟨hdigits, isDigit_of_mem_zeros k⟩
  have hspells := Spells.plain (List.append_ne_nil_of_left_ne_nil hne _) hall
  rw [pointed_nil, List.append_nil, digitsValue_append, digitsValue_replicate_zero,
    List.length_replicate, Nat.add_zero] at hspells
  exact hspells

/-- The point stands between the digits. -/
theorem spells_pointBetween (hdigits : ∀ c ∈ figures, isDigit c = true) (hfirst : 0 < scale)
    (hlast : scale < figures.length) :
    Spells (figures.take (figures.length - scale).toNat
        ++ '.' :: figures.drop (figures.length - scale).toNat) (digitsValue figures) scale := by
  have hlead : figures.take (figures.length - scale).toNat ≠ [] :=
    List.ne_nil_of_length_pos (by rw [List.length_take]; omega)
  have htrail : (figures.drop (figures.length - scale).toNat).length = scale.toNat := by
    rw [List.length_drop]
    omega
  have hspells := Spells.plain hlead (by rwa [List.take_append_drop])
  rw [pointed_of_ne_nil (List.ne_nil_of_length_pos (by omega)), List.take_append_drop, htrail,
    Int.toNat_of_nonneg (by omega)] at hspells
  exact hspells

/-- The point stands before the digits, behind a zero and with zeros between. -/
theorem spells_zerosBefore (hne : figures ≠ []) (hdigits : ∀ c ∈ figures, isDigit c = true)
    (hscale : figures.length ≤ scale) :
    Spells ('0' :: '.' :: (List.replicate (scale - figures.length).toNat '0' ++ figures))
      (digitsValue figures) scale := by
  have hall : ∀ c ∈ ['0'] ++ (List.replicate (scale - figures.length).toNat '0' ++ figures),
      isDigit c = true :=
    List.forall_mem_append.mpr
      ⟨isDigit_of_mem_zeros 1, List.forall_mem_append.mpr ⟨isDigit_of_mem_zeros _, hdigits⟩⟩
  have hspells := Spells.plain (List.cons_ne_nil '0' []) hall
  have hplaces : ((List.replicate (scale - figures.length).toNat '0' ++ figures).length : Int)
      = scale := by
    rw [List.length_append, List.length_replicate]
    omega
  have hzero : digitsValue ['0'] = 0 := rfl
  rw [pointed_of_ne_nil (List.append_ne_nil_of_right_ne_nil _ hne), digitsValue_append,
    digitsValue_append, digitsValue_replicate_zero, hplaces, hzero, Nat.mul_zero, Nat.mul_zero,
    Nat.zero_add, Nat.zero_add] at hspells
  exact hspells

end Ways

/-- **The text of a magnitude spells it**, or spells it with zeros in place of a negative scale. -/
theorem spells_magnitudeChars (n : Nat) {scale : Int} (hscale : ScaleFits scale) :
    ∃ m scale', Spells (magnitudeChars (Text.digits n) scale) m scale' ∧ ScaleFits scale'
      ∧ (m : ℚ) * 10 ^ (-scale') = n * 10 ^ (-scale) := by
  have hwidth := length_digits_pos n
  have hdigits : ∀ c ∈ Text.digits n, isDigit c = true := fun _ => isDigit_of_mem_digits
  have hne := digits_ne_nil n
  have hbounds := scaleFits_iff.mp hscale
  -- only zeros that are written out make it another scale
  have hsame {cs : List Char} (h : Spells cs (digitsValue (Text.digits n)) scale) :
      ∃ m scale', Spells cs m scale' ∧ ScaleFits scale'
        ∧ (m : ℚ) * 10 ^ (-scale') = n * 10 ^ (-scale) :=
    ⟨n, scale, digitsValue_digits n ▸ h, hscale, rfl⟩
  unfold magnitudeChars
  simp only [leadingZeros, trailingZeros]
  split
  case isTrue hsmall => exact hsame (spells_firstDigit hne hdigits (by omega) (by omega))
  case isFalse =>
  split
  case isTrue hmany => exact hsame (spells_exponent hne hdigits (by omega) (by omega))
  case isFalse =>
  split
  case isTrue hwhole =>
    refine ⟨_, _, spells_zerosBehind hne hdigits _, scaleFits_iff.mpr (by decide), ?_⟩
    have hpower : (10 : ℚ) ^ (-scale) = 10 ^ (-scale).toNat := by
      rw [← zpow_natCast, Int.toNat_of_nonneg (by omega)]
    rw [digitsValue_digits, hpower, neg_zero, zpow_zero, mul_one, mul_comm]
    norm_cast
  case isFalse hplaces =>
  split
  case isTrue hpoint => exact hsame (spells_pointBetween hdigits (by omega) hpoint)
  case isFalse hfront => exact hsame (spells_zerosBefore hne hdigits (by omega))

/-! ## Reading what was written -/

theorem trim_eq_self {cs : List Char} (h : ∀ c ∈ cs, isBlank c = false) : trim cs = cs := by
  have hstart {cs : List Char} (h : ∀ c ∈ cs, isBlank c = false) : trimStart cs = cs := by
    cases cs with
    | nil => rfl
    | cons c cs =>
      have hc := h c List.mem_cons_self
      exact List.dropWhile_cons_of_neg (by rw [hc]; decide)
  rw [trim, hstart h, hstart fun c hc => h c (List.mem_reverse.mp hc), List.reverse_reverse]

/-- There is no white space in a text that spells a number. -/
theorem Spells.not_blank {cs : List Char} {n : Nat} {scale : Int} (h : Spells cs n scale)
    (negative : Bool) : ∀ c ∈ signed negative cs, isBlank c = false := by
  have hpass (c : Char) (hc : isDigit c = true) : isBlank c = false :=
    isBlank_eq_false_of_isDigit hc
  have hsigned (cs rest : List Char) :
      signed negative (cs ++ rest) = signed negative cs ++ rest := by
    cases negative <;> rfl
  cases h with
  | plain hlead hdigits =>
    rw [hsigned]
    exact forall_mem_base negative rfl rfl hpass hdigits
  | scientific hlead hdigits hmark hread htext =>
    rw [hsigned, hsigned]
    refine List.forall_mem_append.mpr ⟨forall_mem_base negative rfl rfl hpass hdigits,
      List.forall_mem_cons.mpr ⟨?_, htext⟩⟩
    obtain rfl | rfl := hmark <;> rfl

/-- **The text of an amount is read as an amount of the same quantity.** -/
theorem parse?_toChars (hscale : ScaleFits a.scale) :
    ∃ b, parse? (String.ofList a.toChars) = some b ∧ b.value = a.value := by
  have hfits : ScaleFits (if a.digits = 0 then 0 else a.scale) := by
    split
    · exact scaleFits_iff.mpr (by decide)
    · exact hscale
  obtain ⟨m, scale, hspells, hscale, hvalue⟩ := spells_magnitudeChars a.digits.natAbs hfits
  have htext : a.toChars = signed (decide (a.digits < 0))
      (magnitudeChars (Text.digits a.digits.natAbs) (if a.digits = 0 then 0 else a.scale)) := by
    unfold toChars signed
    simp only [decide_eq_true_iff]
  refine ⟨⟨if decide (a.digits < 0) = true then -(m : Int) else m, scale⟩, ?_, ?_⟩
  · rw [parse?, String.toList_ofList, htext, trim_eq_self (hspells.not_blank _),
      hspells.ofChars?_eq hscale]
  · have hmagnitude : (m : ℚ) * 10 ^ (-scale) = a.digits.natAbs * 10 ^ (-a.scale) := by
      rw [hvalue]
      split
      · next hzero => rw [hzero, Int.natAbs_zero, Nat.cast_zero, zero_mul, zero_mul]
      · rfl
    have hsign : (a.digits : ℚ)
        = if a.digits < 0 then -(a.digits.natAbs : ℚ) else a.digits.natAbs := by
      split
      · next hneg => rw [Nat.cast_natAbs, abs_of_neg hneg, Int.cast_neg, neg_neg]
      · next hnonneg => rw [Nat.cast_natAbs, abs_of_nonneg (Int.not_lt.mp hnonneg)]
    simp only [value, decide_eq_true_iff]
    rw [hsign]
    split
    · rw [Int.cast_neg, Int.cast_natCast, neg_mul, neg_mul, hmagnitude]
    · rw [Int.cast_natCast, hmagnitude]

/-- **So is the text that keeps it.** -/
theorem parse?_stored (hscale : ScaleFits a.scale) :
    ∃ b, parse? a.stored = some b ∧ b.value = a.value := parse?_toChars hscale

end LedgerReports.Amount
