import LedgerReports.Json.Numeral
import LedgerReports.Json.Parser
import LedgerReports.Json.Printer
import LedgerReports.Proofs.Text.Digits
import LedgerReports.Proofs.Text.Utf8

/-!
# Numbers and strings that are written and read

The writer of JSON works with characters, and the reader with bytes. A numeral,
like all that the writer adds on its own, is in ASCII, where a character is one
byte; a text can have any characters, and then the bytes of a character that is
not escaped are taken over one by one. So the two have to be compared at the
encoding, and the character that was written is the one that is read because
none of its bytes looks like a quote, a backslash or a control character
(`standsForItself_of_mem`).

What follows a numeral has to end it: two runs of digits in a row would be one.
Behind a value there is nothing, a comma or a bracket (`Delimited`), which ends
every numeral. A string ends by its own quote, whatever follows.

The main results are `readNumber?_encode` for the numerals that are well formed
and `readString?_quote` with `toText?_encode` for every text.
-/

namespace LedgerReports

/-! ## Texts in ASCII -/

section Ascii

variable {c : Char} {cs : List Char}

theorem utf8EncodeChar_of_lt (h : c.toNat < 128) : String.utf8EncodeChar c = [Json.code c] := by
  have hsmall : c.val.toNat ≤ 127 := Nat.le_of_lt_succ h
  unfold String.utf8EncodeChar
  simp only [if_pos hsmall]
  rfl

theorem encode_cons_of_lt (h : c.toNat < 128) (cs : List Char) :
    encode (c :: cs) = Json.code c :: encode cs := by
  rw [encode_cons, utf8EncodeChar_of_lt h, List.singleton_append]

theorem encode_of_lt (h : ∀ c ∈ cs, c.toNat < 128) : encode cs = cs.map Json.code := by
  induction cs with
  | nil => rfl
  | cons c cs ih =>
    obtain ⟨hc, hcs⟩ := List.forall_mem_cons.mp h
    rw [encode_cons_of_lt hc, ih hcs, List.map_cons]

theorem toNat_code (h : c.toNat < 128) : (Json.code c).toNat = c.toNat := by
  rw [Json.code, UInt8.toNat_ofNat', Nat.mod_eq_of_lt (by omega)]

/-- The characters beyond ASCII have bytes beyond ASCII. -/
theorem le_of_mem_utf8EncodeChar (h : 128 ≤ c.toNat) {b : UInt8}
    (hb : b ∈ String.utf8EncodeChar c) : 128 ≤ b.toNat := by
  have hval : c.val.toNat = c.toNat := rfl
  unfold String.utf8EncodeChar at hb
  simp only [hval] at hb
  have hbyte {n : Nat} (hlow : 128 ≤ n) (hhigh : n < 256) : 128 ≤ (UInt8.ofNat n).toNat := by
    rw [UInt8.toNat_ofNat', Nat.mod_eq_of_lt hhigh]
    exact hlow
  split at hb
  · omega
  split at hb
  · simp only [List.mem_cons, List.not_mem_nil, or_false] at hb
    obtain rfl | rfl := hb
    all_goals exact hbyte (by omega) (by omega)
  split at hb
  · simp only [List.mem_cons, List.not_mem_nil, or_false] at hb
    obtain rfl | rfl | rfl := hb
    all_goals exact hbyte (by omega) (by omega)
  · have hvalid := Utf8.toNat_valid c
    simp only [List.mem_cons, List.not_mem_nil, or_false] at hb
    obtain rfl | rfl | rfl | rfl := hb
    all_goals exact hbyte (by omega) (by omega)

end Ascii

/-! ## Numbers -/

namespace Numeral

/-- **A numeral is well formed**: there are digits before the point, and not a zero before others,
and there are digits behind the point if there is one. -/
structure WellFormed (n : Numeral) : Prop where
  /-- Something stands before the point. -/
  whole_ne_nil : n.whole ≠ []
  /-- Those are digits. -/
  whole_digits : ∀ c ∈ n.whole, Text.isDigit c = true
  /-- A zero stands alone before the point. -/
  no_zero : n.whole.head? = some '0' → n.whole.length = 1
  /-- Something stands behind the point. -/
  fraction_ne_nil : ∀ figures ∈ n.fraction, figures ≠ []
  /-- Those are digits, too. -/
  fraction_digits : ∀ figures ∈ n.fraction, ∀ c ∈ figures, Text.isDigit c = true

theorem wellFormed_ofInt (n : Int) : (ofInt n).WellFormed where
  whole_ne_nil := digits_ne_nil _
  whole_digits _ := isDigit_of_mem_digits
  no_zero h := by
    have hzero : (ofInt n).whole = ['0'] := digits_eq_of_head? h
    rw [hzero]
    rfl
  fraction_ne_nil := nofun
  fraction_digits := nofun

theorem le_foldl_digitValue (n : Nat) (cs : List Char) :
    n ≤ cs.foldl (fun n c => 10 * n + Text.digitValue c) n := by
  induction cs generalizing n with
  | nil => exact Nat.le_refl n
  | cons c cs ih =>
    have hstep : n ≤ 10 * n + Text.digitValue c := by omega
    exact Nat.le_trans hstep (ih _)

/-- A number of 64 bits is taken up with all its digits. -/
theorem accumulate_eq {n : Nat} {cs : List Char}
    (h : cs.foldl (fun n c => 10 * n + Text.digitValue c) n ≤ maxSignificand) :
    accumulate n cs = (cs.foldl (fun n c => 10 * n + Text.digitValue c) n, []) := by
  induction cs generalizing n with
  | nil => rfl
  | cons c cs ih =>
    have hnext := Nat.le_trans (le_foldl_digitValue (10 * n + Text.digitValue c) cs) h
    rw [accumulate, if_neg (Nat.not_lt.mpr hnext)]
    exact ih h

/-- **An integer of 64 bits is read from its numeral.** -/
theorem toInt64?_ofInt {n : Int} (hmin : -2 ^ 63 ≤ n) (hmax : n < 2 ^ 63) :
    (ofInt n).toInt64? = some n := by
  have hvalue : (Text.digits n.natAbs).foldl (fun n c => 10 * n + Text.digitValue c) 0
      = n.natAbs := digitsValue_digits n.natAbs
  have hfits : n.natAbs ≤ maxSignificand := by
    show n.natAbs ≤ 2 ^ 64 - 1
    omega
  have haccumulate : accumulate 0 (ofInt n).whole = (n.natAbs, []) := by
    rw [ofInt, accumulate_eq (hvalue.symm ▸ hfits), hvalue]
  have hint : (ofInt n).toInt? = some n := by
    unfold toInt?
    rw [haccumulate]
    by_cases hnegative : n < 0
    · have habs : 1 ≤ n.natAbs ∧ n.natAbs ≤ 2 ^ 63 := by omega
      have hsign : -(n.natAbs : Int) = n := by omega
      simp only [ofInt, hnegative, decide_true, Bool.not_true, Bool.false_eq_true, if_false, habs,
        and_self, if_true, hsign]
    · have hsign : (n.natAbs : Int) = n := by omega
      simp only [ofInt, hnegative, decide_false, Bool.not_false, if_true, hsign]
  rw [toInt64?, hint, Option.filter_some, decide_eq_true ⟨hmin, hmax⟩]
  rfl

/-- The sign in front. -/
def signChars (negative : Bool) : List Char := if negative then ['-'] else []

/-- The point and what is behind it. -/
def fractionChars : Option (List Char) → List Char
  | some figures => '.' :: figures
  | none => []

/-- The exponent with its mark. -/
def exponentChars : Option Int → List Char
  | some e => 'e' :: (if e < 0 then '-' else '+') :: Text.digits e.natAbs
  | none => []

theorem toChars_eq (n : Numeral) :
    n.toChars = signChars n.negative ++ (n.whole ++ (fractionChars n.fraction
      ++ exponentChars n.exponent)) := by
  rw [← List.append_assoc, ← List.append_assoc]
  rfl

end Numeral

namespace Json

section Numbers

variable {figures : List Char} {rest : List UInt8}

theorem isDigit_code {c : Char} (h : Text.isDigit c = true) : isDigit (code c) = true := by
  have hbounds := isDigit_iff.mp h
  have hcode : (code c).toNat = c.toNat := toNat_code (by omega)
  rw [isDigit, Bool.and_eq_true, decide_eq_true_iff, decide_eq_true_iff, UInt8.le_iff_toNat_le,
    UInt8.le_iff_toNat_le, hcode]
  exact hbounds

theorem ofNat_code {c : Char} (h : c.toNat < 128) : Char.ofNat (code c).toNat = c := by
  rw [toNat_code h, Char.ofNat_toNat]

theorem code_ne {c d : Char} (hc : c.toNat < 128) (hd : d.toNat < 128) (hne : c ≠ d) :
    code c ≠ code d := by
  intro h
  have hsame := congrArg (fun b : UInt8 => Char.ofNat b.toNat) h
  simp only [ofNat_code hc, ofNat_code hd] at hsame
  exact hne hsame

/-- Nothing of a run of digits follows. -/
def NoDigit (rest : List UInt8) : Prop := ∀ b ∈ rest.head?, isDigit b = false

/-- **A run of digits is read**, up to where it ends. -/
theorem readDigits_encode (hdigits : ∀ c ∈ figures, Text.isDigit c = true) (hrest : NoDigit rest) :
    readDigits (encode figures ++ rest) = (figures, rest) := by
  have hascii (c) (hc : c ∈ figures) : c.toNat < 128 := by
    have hbounds := isDigit_iff.mp (hdigits c hc)
    omega
  have hcodes : ∀ b ∈ figures.map code, isDigit b = true := by
    rintro b hb
    obtain ⟨c, hc, rfl⟩ := List.mem_map.mp hb
    exact isDigit_code (hdigits c hc)
  have hback : (figures.map code).map (fun b => Char.ofNat b.toNat) = figures := by
    rw [List.map_map]
    exact (List.map_congr_left fun c hc => ofNat_code (hascii c hc)).trans (List.map_id figures)
  have hstop : rest.takeWhile isDigit = [] ∧ rest.dropWhile isDigit = rest := by
    cases rest with
    | nil => exact ⟨rfl, rfl⟩
    | cons b rest =>
      have hb : isDigit b = false := hrest b rfl
      rw [List.takeWhile_cons, List.dropWhile_cons, hb]
      exact ⟨rfl, rfl⟩
  rw [encode_of_lt hascii, readDigits, List.takeWhile_append_of_pos hcodes,
    List.dropWhile_append_of_pos hcodes, hstop.1, hstop.2, List.append_nil, hback]

/-- What follows a value: nothing, or a comma, or the end of a list or an object. -/
def Delimited (rest : List UInt8) : Prop :=
  ∀ b ∈ rest.head?, b = code ',' ∨ b = code ']' ∨ b = code '\x7d'

/-- What ends a value is no part of a number. -/
theorem Delimited.not_number (h : Delimited rest) {b : UInt8} (hb : b ∈ rest.head?) :
    isDigit b = false ∧ b ≠ code '.' ∧ b ≠ code 'e' ∧ b ≠ code 'E' := by
  obtain rfl | rfl | rfl := h b hb
  all_goals decide

theorem readFraction?_encode {fraction : Option (List Char)}
    (hne : ∀ figures ∈ fraction, figures ≠ [])
    (hdigits : ∀ figures ∈ fraction, ∀ c ∈ figures, Text.isDigit c = true) (hrest : NoDigit rest)
    (hpoint : ∀ b ∈ rest.head?, b ≠ code '.') :
    readFraction? (encode (Numeral.fractionChars fraction) ++ rest) = some (fraction, rest) := by
  cases fraction with
  | none =>
    cases rest with
    | nil => rfl
    | cons b rest => exact if_neg (hpoint b rfl)
  | some figures =>
    have hread := readDigits_encode (hdigits figures rfl) hrest
    have hsome : figures.isEmpty = false := List.isEmpty_eq_false_iff.mpr (hne figures rfl)
    rw [Numeral.fractionChars, encode_cons_of_lt (by decide), List.cons_append, readFraction?,
      if_pos rfl, hread]
    simp only [hsome]
    rfl

theorem readExponent?_encode (exponent : Option Int) (hrest : NoDigit rest)
    (hmark : ∀ b ∈ rest.head?, b ≠ code 'e' ∧ b ≠ code 'E') :
    readExponent? (encode (Numeral.exponentChars exponent) ++ rest) = some (exponent, rest) := by
  cases exponent with
  | none =>
    cases rest with
    | nil => rfl
    | cons b rest =>
      obtain ⟨hsmall, hlarge⟩ := hmark b rfl
      exact if_neg (not_or.mpr ⟨hsmall, hlarge⟩)
  | some e =>
    have hread := readDigits_encode (fun c hc => isDigit_of_mem_digits (n := e.natAbs) hc) hrest
    have hsome : (Text.digits e.natAbs).isEmpty = false :=
      List.isEmpty_eq_false_iff.mpr (digits_ne_nil _)
    by_cases hnegative : e < 0
    · rw [Numeral.exponentChars, if_pos hnegative, encode_cons_of_lt (by decide),
        encode_cons_of_lt (by decide), List.cons_append, List.cons_append, readExponent?,
        if_pos (.inl rfl)]
      simp only [if_true, hread, hsome, Bool.false_eq_true, if_false, digitsValue_digits]
      have habs : -(e.natAbs : Int) = e := by omega
      rw [habs]
    · rw [Numeral.exponentChars, if_neg hnegative, encode_cons_of_lt (by decide),
        encode_cons_of_lt (by decide), List.cons_append, List.cons_append, readExponent?,
        if_pos (.inl rfl)]
      have hplus : code '+' ≠ code '-' := by decide
      simp only [if_neg hplus, if_true, hread, hsome, Bool.false_eq_true, if_false,
        digitsValue_digits]
      have habs : (e.natAbs : Int) = e := by omega
      rw [habs]

/-- What stands behind the digits before the point. -/
theorem noDigit_fraction (fraction : Option (List Char)) (exponent : Option Int)
    (hrest : Delimited rest) :
    NoDigit (encode (Numeral.fractionChars fraction)
      ++ (encode (Numeral.exponentChars exponent) ++ rest))
      ∧ NoDigit (encode (Numeral.exponentChars exponent) ++ rest)
      ∧ ∀ b ∈ (encode (Numeral.exponentChars exponent) ++ rest).head?, b ≠ code '.' := by
  have hexponent : ∀ b ∈ (encode (Numeral.exponentChars exponent) ++ rest).head?,
      isDigit b = false ∧ b ≠ code '.' := by
    cases exponent with
    | none => exact fun b hb => ⟨(hrest.not_number hb).1, (hrest.not_number hb).2.1⟩
    | some e =>
      rw [Numeral.exponentChars, encode_cons_of_lt (by decide)]
      rintro b ⟨⟩
      decide
  refine ⟨?_, fun b hb => (hexponent b hb).1, fun b hb => (hexponent b hb).2⟩
  cases fraction with
  | none => exact fun b hb => (hexponent b hb).1
  | some figures =>
    rw [Numeral.fractionChars, encode_cons_of_lt (by decide)]
    rintro b ⟨⟩
    decide

/-- The sign of a number is seen, and then come the digits. -/
theorem head?_encode_number (negative : Bool) {whole : List Char} (hne : whole ≠ [])
    (hdigits : ∀ c ∈ whole, Text.isDigit c = true) (rest : List UInt8) :
    let bytes := encode (Numeral.signChars negative) ++ (encode whole ++ rest)
    decide (bytes.head? = some (code '-')) = negative
      ∧ (if bytes.head? = some (code '-') then bytes.drop 1 else bytes)
          = encode whole ++ rest := by
  cases negative with
  | true =>
    have hsign : encode (Numeral.signChars true) = [code '-'] := encode_cons_of_lt (by decide) []
    rw [hsign]
    exact ⟨rfl, rfl⟩
  | false =>
    obtain ⟨c, cs, rfl⟩ := List.exists_cons_of_ne_nil hne
    have hc := hdigits c List.mem_cons_self
    have hbounds := isDigit_iff.mp hc
    have hminus : (code c :: (encode cs ++ rest)).head? ≠ some (code '-') := by
      intro h
      have hcode := isDigit_code hc
      rw [Option.some_inj.mp h] at hcode
      cases hcode
    have hbytes : encode (Numeral.signChars false) ++ (encode (c :: cs) ++ rest)
        = code c :: (encode cs ++ rest) := by
      rw [encode_cons_of_lt (by omega)]
      rfl
    simp only [hbytes, if_neg hminus, decide_eq_false hminus, true_and]
    rw [encode_cons_of_lt (by omega), List.cons_append]

/-- **A numeral that is well formed is read back.** -/
theorem readNumber?_encode {n : Numeral} (h : n.WellFormed) (hrest : Delimited rest) :
    readNumber? (encode n.toChars ++ rest) = some (n, rest) := by
  obtain ⟨hfraction, hexponent, hpoint⟩ := noDigit_fraction n.fraction n.exponent hrest
  obtain ⟨hsign, hdrop⟩ := head?_encode_number n.negative h.whole_ne_nil h.whole_digits
    (encode (Numeral.fractionChars n.fraction)
      ++ (encode (Numeral.exponentChars n.exponent) ++ rest))
  have hwhole : ¬ (n.whole.isEmpty = true ∨ n.whole.head? = some '0' ∧ n.whole.length ≠ 1) := by
    rintro (hempty | ⟨hzero, hlength⟩)
    · exact h.whole_ne_nil (List.isEmpty_iff.mp hempty)
    · exact hlength (h.no_zero hzero)
  rw [Numeral.toChars_eq, encode_append, encode_append, encode_append, List.append_assoc,
    List.append_assoc, List.append_assoc, readNumber?]
  simp only [hdrop, readDigits_encode h.whole_digits hfraction, if_neg hwhole]
  rw [readFraction?_encode h.fraction_ne_nil h.fraction_digits hexponent hpoint]
  show (readExponent? _ >>= _) = _
  rw [readExponent?_encode n.exponent (fun b hb => (hrest.not_number hb).1)
    fun b hb => (hrest.not_number hb).2.2]
  simp only [hsign]
  rfl

end Numbers

/-! ## Strings -/

section Strings

variable {c : Char} {rest acc : List UInt8}

/-- A byte that stands for itself in a string. -/
def StandsForItself (b : UInt8) : Prop := 32 ≤ b.toNat ∧ b ≠ code '"' ∧ b ≠ code '\\'

/-- One step of reading a string. -/
theorem readString?_succ (fuel : Nat) (s : Spelled) (b : UInt8) (rest : List UInt8) :
    readString? (fuel + 1) s (b :: rest)
      = if b = code '"' then some (s, rest)
        else if b < 32 then none
        else if b = code '\\' then
          match rest with
          | [] => none
          | e :: rest =>
            if e = code 'u' then
              match readUnicode? s rest with
              | some (s, rest) => readString? fuel s rest
              | none => none
            else
              match simpleEscape? e with
              | some c => readString? fuel (s.push c) rest
              | none => none
        else readString? fuel (s.map (b :: ·)) rest :=
  readString?.eq_def (fuel + 1) s (b :: rest)

/-- Bytes that stand for themselves are taken over. -/
theorem readString?_plain {bytes : List UInt8} (h : ∀ b ∈ bytes, StandsForItself b) (fuel : Nat) :
    readString? (fuel + bytes.length) (some acc) (bytes ++ rest)
      = readString? fuel (some (bytes.reverse ++ acc)) rest := by
  induction bytes generalizing acc with
  | nil => rfl
  | cons b bytes ih =>
    obtain ⟨⟨hprint, hquote, hslash⟩, hbytes⟩ := List.forall_mem_cons.mp h
    have hlarge : ¬ b < 32 := by
      rw [UInt8.lt_iff_toNat_lt]
      exact Nat.not_lt.mpr hprint
    rw [List.length_cons, ← Nat.add_assoc, List.cons_append, readString?_succ, if_neg hquote,
      if_neg hlarge, if_neg hslash, Option.map_some, ih hbytes, List.reverse_cons,
      List.append_assoc, List.singleton_append]

/-- The bytes of a character that is not escaped. -/
theorem standsForItself_of_mem (hprint : 32 ≤ c.toNat) (hquote : c ≠ '"') (hslash : c ≠ '\\')
    {b : UInt8} (hb : b ∈ String.utf8EncodeChar c) : StandsForItself b := by
  obtain hascii | hlong := Nat.lt_or_ge c.toNat 128
  · rw [utf8EncodeChar_of_lt hascii, List.mem_singleton] at hb
    rw [hb]
    refine ⟨?_, code_ne hascii (by decide) hquote, code_ne hascii (by decide) hslash⟩
    rw [toNat_code hascii]
    exact hprint
  · have hbyte := le_of_mem_utf8EncodeChar hlong hb
    refine ⟨by omega, ?_, ?_⟩
    all_goals
      rintro rfl
      revert hbyte
      decide

/-- A character that is put down is put down as its bytes. -/
theorem push_some (c : Char) :
    Spelled.push (some acc) c = some ((String.utf8EncodeChar c).reverse ++ acc) := by
  have hbytes : (String.singleton c).toUTF8.toList = String.utf8EncodeChar c := by
    rw [String.singleton_eq_ofList, toUTF8_ofList, Bytes.toList_eq, List.data_toByteArray,
      encode_cons, encode_nil, List.append_nil]
  rw [Spelled.push, Option.map_some, hbytes]

/-- An escape of one letter is read. -/
theorem readString?_simple {letter : Char} (hletter : letter.toNat < 128)
    (hu : code letter ≠ code 'u') (h : simpleEscape? (code letter) = some c) (fuel : Nat) :
    readString? (fuel + 1) (some acc) (encode ['\\', letter] ++ rest)
      = readString? fuel (some ((String.utf8EncodeChar c).reverse ++ acc)) rest := by
  rw [encode_cons_of_lt (by decide), encode_cons_of_lt hletter, List.cons_append,
    readString?_succ, if_neg (by decide), if_neg (by decide), if_pos rfl]
  simp only [encode_nil, List.cons_append, List.nil_append, if_neg hu, h, push_some]

/-- The digits of a control character. -/
theorem padStart_toDigits {n : Nat} (h : n < 32) :
    Text.padStart 4 '0' (Nat.toDigits 16 n)
      = ['0', '0', (n / 16).digitChar, (n % 16).digitChar] := by
  revert n
  decide

theorem hexValue?_digitChar {n : Nat} (h : n < 16) :
    hexValue? (code n.digitChar) = some n ∧ n.digitChar.toNat < 128 := by
  revert n
  decide

/-- The four digits of the escape of a control character. -/
theorem readHex?_control {n : Nat} (h : n < 32) :
    readHex? (encode (Text.padStart 4 '0' (Nat.toDigits 16 n)) ++ rest) = some (n, rest) := by
  obtain ⟨hhigh, hhighAscii⟩ := hexValue?_digitChar (n := n / 16) (by omega)
  obtain ⟨hlow, hlowAscii⟩ := hexValue?_digitChar (n := n % 16) (by omega)
  have hzero : hexValue? (code '0') = some 0 := by decide
  rw [padStart_toDigits h, encode_cons_of_lt (by decide), encode_cons_of_lt (by decide),
    encode_cons_of_lt hhighAscii, encode_cons_of_lt hlowAscii]
  simp only [encode_nil, List.cons_append, List.nil_append, readHex?, List.foldlM_cons,
    List.foldlM_nil, hzero, hhigh, hlow]
  have hsum : 16 * (16 * (16 * (16 * 0 + 0) + 0) + n / 16) + n % 16 = n := by omega
  exact congrArg (fun m => some (m, rest)) hsum

/-- An escape by a number is read. -/
theorem readString?_control (h : c.toNat < 32) (fuel : Nat) :
    readString? (fuel + 1) (some acc)
        (encode ('\\' :: 'u' :: Text.padStart 4 '0' (Nat.toDigits 16 c.toNat)) ++ rest)
      = readString? fuel (some ((String.utf8EncodeChar c).reverse ++ acc)) rest := by
  have hunicode (s : Spelled) :
      readUnicode? s (encode (Text.padStart 4 '0' (Nat.toDigits 16 c.toNat)) ++ rest)
        = some (s.push c, rest) := by
    have hhigh : ¬ (0xd800 ≤ c.toNat ∧ c.toNat < 0xdc00) := by omega
    have hlow : ¬ (0xdc00 ≤ c.toNat ∧ c.toNat < 0xe000) := by omega
    rw [readUnicode?, readHex?_control h]
    simp only [Option.bind_eq_bind, Option.bind_some, if_neg hhigh, if_neg hlow, Char.ofNat_toNat]
    rfl
  rw [encode_cons_of_lt (by decide), encode_cons_of_lt (by decide), List.cons_append,
    readString?_succ, if_neg (by decide), if_neg (by decide), if_pos rfl]
  simp only [List.cons_append, if_true, hunicode, push_some]

/-- **A character is escaped by a letter, or by its number, or not at all.** -/
theorem escape_cases (c : Char) :
    (∃ letter, escape c = ['\\', letter] ∧ letter.toNat < 128 ∧ code letter ≠ code 'u'
        ∧ simpleEscape? (code letter) = some c)
      ∨ (c.toNat < 32
        ∧ escape c = '\\' :: 'u' :: Text.padStart 4 '0' (Nat.toDigits 16 c.toNat))
      ∨ (32 ≤ c.toNat ∧ c ≠ '"' ∧ c ≠ '\\' ∧ escape c = [c]) := by
  unfold escape
  -- seven characters have a letter
  iterate 7
    split
    case isTrue h =>
      subst h
      exact .inl ⟨_, rfl, by decide, by decide, rfl⟩
  case isFalse hquote hslash _ _ _ _ _ =>
    split
    case isTrue hcontrol => exact .inr (.inl ⟨hcontrol, rfl⟩)
    case isFalse hprint => exact .inr (.inr ⟨Nat.not_lt.mp hprint, hquote, hslash, rfl⟩)

/-- **A character is read as it is written**, by some steps, but not more than it has bytes. -/
theorem readString?_escape (c : Char) :
    ∃ steps, steps ≤ (encode (escape c)).length ∧ ∀ fuel acc rest,
      readString? (fuel + steps) (some acc) (encode (escape c) ++ rest)
        = readString? fuel (some ((String.utf8EncodeChar c).reverse ++ acc)) rest := by
  obtain ⟨letter, hescape, hletter, hu, hmeans⟩ | ⟨hcontrol, hescape⟩
    | ⟨hprint, hquote, hslash, hescape⟩ := escape_cases c
  · rw [hescape]
    refine ⟨1, ?_, fun fuel acc rest => readString?_simple hletter hu hmeans fuel⟩
    rw [encode_cons_of_lt (by decide)]
    exact Nat.succ_le_succ (Nat.zero_le _)
  · rw [hescape]
    refine ⟨1, ?_, fun fuel acc rest => readString?_control hcontrol fuel⟩
    rw [encode_cons_of_lt (by decide)]
    exact Nat.succ_le_succ (Nat.zero_le _)
  · rw [hescape, encode_cons, encode_nil, List.append_nil]
    refine ⟨_, Nat.le_refl _, fun fuel acc rest => readString?_plain (fun b hb => ?_) fuel⟩
    exact standsForItself_of_mem hprint hquote hslash hb

/-- **A string is read as it is written.** -/
theorem readString?_encode (cs : List Char) {fuel : Nat}
    (h : (encode (cs.flatMap escape)).length < fuel) :
    readString? fuel (some acc) (encode (cs.flatMap escape) ++ code '"' :: rest)
      = some (some ((encode cs).reverse ++ acc), rest) := by
  -- a character takes no more steps than it has bytes, so one step is left for the closing quote
  induction cs generalizing fuel acc with
  | nil =>
    obtain ⟨fuel, rfl⟩ := Nat.exists_eq_add_of_lt h
    rw [List.flatMap_nil, encode_nil, List.nil_append, readString?_succ, if_pos rfl]
    rfl
  | cons c cs ih =>
    obtain ⟨steps, hsteps, hread⟩ := readString?_escape c
    rw [List.flatMap_cons, encode_append] at h ⊢
    rw [List.length_append] at h
    obtain ⟨left, rfl⟩ := Nat.exists_eq_add_of_le' (show steps ≤ fuel by omega)
    rw [List.append_assoc, hread, ih (by omega), encode_cons, List.reverse_append,
      List.append_assoc]

/-- What a string spells is the text that was written. -/
theorem toText?_encode (text : String) :
    Spelled.toText? (some ((encode text.toList).reverse ++ [])) = some text := by
  rw [List.append_nil]
  show (Utf8.decode ⟨(encode text.toList).reverse.reverse.toArray⟩).toOption = some text
  have hbytes : (encode text.toList).toByteArray = ⟨(encode text.toList).toArray⟩ :=
    ByteArray.ext List.data_toByteArray
  rw [List.reverse_reverse, ← hbytes, Utf8.decode_encode, String.ofList_toList]
  rfl

theorem encode_quote (text : String) (rest : List UInt8) :
    encode (quote text) ++ rest
      = code '"' :: (encode (text.toList.flatMap escape) ++ code '"' :: rest) := by
  rw [quote, List.cons_append, encode_cons_of_lt (by decide), encode_append,
    encode_cons_of_lt (by decide), encode_nil, List.cons_append, List.append_assoc,
    List.singleton_append]

/-- **A text that was written between quotes is read**, behind the first of them. -/
theorem readString?_quote (text : String) (rest : List UInt8) :
    let bytes := encode (text.toList.flatMap escape) ++ code '"' :: rest
    readString? (bytes.length + 1) (some []) bytes
      = some (some ((encode text.toList).reverse ++ []), rest) := by
  intro bytes
  refine readString?_encode text.toList ?_
  rw [List.length_append]
  omega

end Strings

end Json

end LedgerReports
