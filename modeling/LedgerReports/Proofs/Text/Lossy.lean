import LedgerReports.Number.Power
import LedgerReports.Text.Utf8
import Mathlib

/-!
# How long a text becomes when its bytes are made readable

Bytes that are no UTF-8 fall into characters and unreadable parts, and the
text that they are read as has a replacement character for each such part.
The replacement has three bytes whatever it stands for, and a part that it
stands for has one, two or three. So the text has as many bytes as were
given, and two more for each unreadable part of one byte and one more for
each of two (`size_decodeLossy`): it is never shorter, it is exactly as long
when all was readable, and at most three times as long.
-/

namespace LedgerReports.Utf8

variable {bytes : ByteArray} {i : Nat}

/-! ## The width of what is read -/

/-- The number of bytes of a character is given by its code point. -/
theorem utf8Size_ofNat {code : Nat} (h : code.isValidChar) :
    (Char.ofNat code).utf8Size
      = if code < 0x80 then 1 else if code < 0x800 then 2 else if code < 0x10000 then 3 else 4 := by
  have hval : (Char.ofNat code).val.toNat = code := by
    rw [Char.ofNat, dif_pos h]
    rfl
  rw [← String.length_utf8EncodeChar]
  unfold String.utf8EncodeChar
  simp only [hval]
  grind

/-- The bits `code`, with six more bits from each of `left` further bytes, are
the number of a character of `total` bytes. -/
def Spells (left total code : Nat) : Prop :=
  ∀ bits < 64 ^ left, (Char.ofNat (code * 64 ^ left + bits)).utf8Size = total

theorem spells_two {code : Nat} (hlo : 0x80 ≤ code) (hhi : code ≤ 0x7ff) : Spells 0 2 code := by
  intro bits hbits
  have hvalid : (code * 64 ^ 0 + bits).isValidChar := .inl (by omega)
  rw [utf8Size_ofNat hvalid, if_neg (by omega), if_pos (by omega)]

/-- Three bytes leave out the surrogates. -/
theorem spells_three {code : Nat} (hlo : 0x20 ≤ code) (hhi : code ≤ 0x3ff)
    (hsurrogate : code < 0x360 ∨ 0x37f < code) : Spells 1 3 code := by
  intro bits hbits
  have hvalid : (code * 64 ^ 1 + bits).isValidChar := by
    obtain hbelow | habove := hsurrogate
    · exact .inl (by omega)
    · exact .inr ⟨by omega, by omega⟩
  rw [utf8Size_ofNat hvalid, if_neg (by omega), if_neg (by omega), if_pos (by omega)]

theorem spells_four {code : Nat} (hlo : 0x10 ≤ code) (hhi : code ≤ 0x10f) : Spells 2 4 code := by
  intro bits hbits
  have hvalid : (code * 64 ^ 2 + bits).isValidChar := .inr ⟨by omega, by omega⟩
  rw [utf8Size_ofNat hvalid, if_neg (by omega), if_neg (by omega), if_neg (by omega)]

theorem Spells.succ {left total code b : Nat} (h : Spells (left + 1) total code) (hb : b < 64) :
    Spells left total (code * 64 + b) := by
  intro bits hbits
  have hpow : 64 ^ (left + 1) = 64 * 64 ^ left := Nat.pow_succ'
  have hmore : b * 64 ^ left + bits < 64 ^ (left + 1) := by
    have hle := Nat.mul_le_mul_right (64 ^ left) (Nat.succ_le_of_lt hb)
    rw [Nat.succ_mul] at hle
    omega
  have hcode : (code * 64 + b) * 64 ^ left + bits
      = code * 64 ^ (left + 1) + (b * 64 ^ left + bits) := by
    rw [Nat.add_mul, Nat.mul_assoc, ← hpow, Nat.add_assoc]
  rw [hcode]
  exact h _ hmore

/-- What is said about the bytes from a position on has the right width. -/
def Read.Spans (bytes : ByteArray) (i : Nat) : Read → Prop
  | char c width => c.utf8Size = width ∧ i + width ≤ bytes.size
  | malformed width => (1 ≤ width ∧ width ≤ 3) ∧ i + width ≤ bytes.size
  | truncated => bytes.size ≤ i + 3

theorem lt_size_of_byteAt? {b : Nat} (h : byteAt? bytes i = some b) : i < bytes.size := by
  unfold byteAt? at h
  split at h
  · assumption
  · cases h

theorem size_le_of_byteAt?_eq_none (h : byteAt? bytes i = none) : bytes.size ≤ i := by
  unfold byteAt? at h
  split at h
  · cases h
  · exact Nat.not_lt.mp ‹_›

theorem spans_readRest {left width code : Nat} (hspells : Spells left (left + width) code)
    (hin : i + width ≤ bytes.size) (hpos : 1 ≤ width) (hfour : left + width ≤ 4) :
    (readRest bytes i left width code).Spans bytes i := by
  induction left generalizing width code with
  | zero =>
    have hsize := hspells 0 (by decide)
    rw [Nat.pow_zero, Nat.mul_one, Nat.add_zero, Nat.zero_add] at hsize
    exact ⟨hsize, hin⟩
  | succ left ih =>
    rw [readRest]
    split
    case h_1 hnone =>
      have hend := size_le_of_byteAt?_eq_none hnone
      show bytes.size ≤ i + 3
      omega
    case h_2 b hsome =>
      have hlt := lt_size_of_byteAt? hsome
      split
      case isTrue hb =>
        unfold isContinuation at hb
        simp only [Bool.and_eq_true, decide_eq_true_eq] at hb
        rw [show left + 1 + width = left + (width + 1) by omega] at hspells
        exact ih (hspells.succ (by omega)) (by omega) (by omega) (by omega)
      case isFalse => exact ⟨⟨hpos, by omega⟩, hin⟩

/-- **Whatever stands at a position, its width is right.** A character is as
wide as its encoding, and an unreadable part has at most three bytes. -/
theorem spans_read (hi : i < bytes.size) : (read bytes i).Spans bytes i := by
  have hmalformed : (Read.malformed 1).Spans bytes i := ⟨by decide, hi⟩
  unfold read
  split
  case h_1 hnone => exact absurd (size_le_of_byteAt?_eq_none hnone) (Nat.not_le.mpr hi)
  case h_2 first _ =>
    split
    case isTrue hone =>
      have hvalid : first.isValidChar := .inl (by omega)
      refine ⟨?_, hi⟩
      rw [utf8Size_ofNat hvalid, if_pos hone]
    split
    case isTrue => exact hmalformed
    split
    case h_1 hnone =>
      have hend := size_le_of_byteAt?_eq_none hnone
      show bytes.size ≤ i + 3
      omega
    case h_2 second hsome =>
      have hlt := lt_size_of_byteAt? hsome
      split
      case isFalse => exact hmalformed
      case isTrue hsecond =>
        -- the range of the second byte leaves no character that could be written shorter
        unfold isSecond at hsecond
        simp only [Bool.and_eq_true, decide_eq_true_eq] at hsecond
        have hlo : 0x80 ≤ second := by grind
        have hhi : second ≤ 0xbf := by grind
        split
        case isTrue =>
          exact spans_readRest (spells_two (by omega) (by omega)) hlt (by decide) (by decide)
        split
        case isTrue =>
          have hlong : first = 0xe0 → 0xa0 ≤ second := by grind
          have hsurrogate : first = 0xed → second ≤ 0x9f := by grind
          exact spans_readRest (spells_three (by omega) (by omega) (by omega)) hlt
            (by decide) (by decide)
        case isFalse =>
          have hlonger : first = 0xf0 → 0x90 ≤ second := by grind
          have hlast : first = 0xf4 → second ≤ 0x8f := by grind
          exact spans_readRest (spells_four (by omega) (by omega)) hlt (by decide) (by decide)

theorem width_of_read_eq_char {c : Char} {width : Nat} (hi : i < bytes.size)
    (h : read bytes i = .char c width) :
    c.utf8Size = width ∧ 1 ≤ width ∧ i + width ≤ bytes.size := by
  have hspans := spans_read hi
  rw [h] at hspans
  obtain ⟨rfl, hin⟩ := hspans
  exact ⟨rfl, c.utf8Size_pos, hin⟩

theorem width_of_read_eq_malformed {width : Nat} (hi : i < bytes.size)
    (h : read bytes i = .malformed width) :
    (1 ≤ width ∧ width ≤ 3) ∧ i + width ≤ bytes.size := by
  have hspans := spans_read hi
  rw [h] at hspans
  exact hspans

theorem size_le_of_read_eq_truncated (hi : i < bytes.size) (h : read bytes i = .truncated) :
    bytes.size ≤ i + 3 := by
  have hspans := spans_read hi
  rw [h] at hspans
  exact hspans

/-! ## Unreadable parts -/

/-- The widths of the unreadable parts from a position on. -/
def unreadableFrom (bytes : ByteArray) (i : Nat) : List Nat :=
  if i < bytes.size then
    match read bytes i with
    | .char c width => unreadableFrom bytes (i + (Read.char c width).advance)
    | .malformed width => width :: unreadableFrom bytes (i + (Read.malformed width).advance)
    | .truncated => [bytes.size - i]
  else
    []
termination_by bytes.size - i
decreasing_by
  · have := Read.one_le_advance (Read.char c width)
    omega
  · have := Read.one_le_advance (Read.malformed width)
    omega

/-- The widths of the unreadable parts of some bytes. -/
def unreadable (bytes : ByteArray) : List Nat := unreadableFrom bytes 0

/-- How many bytes more the text has than the bytes that it is read from: what
an unreadable part has less than three bytes. -/
def growth (bytes : ByteArray) : Nat := ((unreadable bytes).map (3 - ·)).sum

/-- An unreadable part has one, two or three bytes. -/
theorem width_of_mem_unreadableFrom (bytes : ByteArray) (i : Nat) :
    ∀ width ∈ unreadableFrom bytes i, 1 ≤ width ∧ width ≤ 3 := by
  induction i using unreadableFrom.induct bytes with
  | case1 i hi c width hread ih =>
    rw [unreadableFrom, if_pos hi, hread]
    exact ih
  | case2 i hi width hread ih =>
    rw [unreadableFrom, if_pos hi, hread]
    exact List.forall_mem_cons.mpr ⟨(width_of_read_eq_malformed hi hread).1, ih⟩
  | case3 i hi hread =>
    have hend := size_le_of_read_eq_truncated hi hread
    rw [unreadableFrom, if_pos hi, hread]
    exact List.forall_mem_singleton.mpr (by omega)
  | case4 i hi =>
    rw [unreadableFrom, if_neg hi]
    nofun

theorem size_decodeLossyFrom {out : String} (hle : i ≤ bytes.size) :
    i + (decodeLossyFrom bytes i out).utf8ByteSize
      = out.utf8ByteSize + bytes.size + ((unreadableFrom bytes i).map (3 - ·)).sum := by
  have hreplacement : replacement.utf8Size = 3 := by decide
  induction i, out using decodeLossyFrom.induct bytes with
  | case1 i out hi c width hread ih =>
    obtain ⟨hwidth, hpos, hin⟩ := width_of_read_eq_char hi hread
    rw [decodeLossyFrom, unreadableFrom, if_pos hi, if_pos hi, hread]
    simp only [Read.advance, Nat.max_eq_right hpos, String.utf8ByteSize_push] at ih ⊢
    have hrest := ih hin
    omega
  | case2 i out hi width hread ih =>
    obtain ⟨⟨hpos, hthree⟩, hin⟩ := width_of_read_eq_malformed hi hread
    rw [decodeLossyFrom, unreadableFrom, if_pos hi, if_pos hi, hread]
    simp only [Read.advance, Nat.max_eq_right hpos, String.utf8ByteSize_push, hreplacement,
      List.map_cons, List.sum_cons] at ih ⊢
    have hrest := ih hin
    omega
  | case3 i out hi hread =>
    have hend := size_le_of_read_eq_truncated hi hread
    rw [decodeLossyFrom, unreadableFrom, if_pos hi, if_pos hi, hread]
    simp only [String.utf8ByteSize_push, hreplacement, List.map_cons, List.map_nil, List.sum_cons,
      List.sum_nil]
    omega
  | case4 i out hi =>
    rw [decodeLossyFrom, unreadableFrom, if_neg hi, if_neg hi, List.map_nil, List.sum_nil]
    omega

/-- **The length of the text that bytes are read as.** -/
theorem size_decodeLossy (bytes : ByteArray) :
    (decodeLossy bytes).utf8ByteSize = bytes.size + growth bytes := by
  have hsize : 0 + (decodeLossyFrom bytes 0 "").utf8ByteSize
      = "".utf8ByteSize + bytes.size + growth bytes := size_decodeLossyFrom (Nat.zero_le _)
  rw [Nat.zero_add, String.utf8ByteSize_empty, Nat.zero_add] at hsize
  exact hsize

/-! ## Bounds -/

/-- The unreadable parts are parts of the bytes. -/
theorem sum_unreadableFrom_le (hle : i ≤ bytes.size) :
    i + (unreadableFrom bytes i).sum ≤ bytes.size := by
  induction i using unreadableFrom.induct bytes with
  | case1 i hi c width hread ih =>
    obtain ⟨hwidth, hpos, hin⟩ := width_of_read_eq_char hi hread
    rw [unreadableFrom, if_pos hi, hread]
    simp only [Read.advance, Nat.max_eq_right hpos] at ih ⊢
    have hrest := ih hin
    omega
  | case2 i hi width hread ih =>
    obtain ⟨⟨hpos, -⟩, hin⟩ := width_of_read_eq_malformed hi hread
    rw [unreadableFrom, if_pos hi, hread]
    simp only [Read.advance, Nat.max_eq_right hpos, List.sum_cons] at ih ⊢
    have hrest := ih hin
    omega
  | case3 i hi hread =>
    rw [unreadableFrom, if_pos hi, hread]
    simp only [List.sum_singleton]
    omega
  | case4 i hi =>
    rw [unreadableFrom, if_neg hi]
    exact hle

/-- A text is at most three times as long as its bytes: each unreadable part
has a byte at least. -/
theorem growth_le (bytes : ByteArray) : growth bytes ≤ 2 * bytes.size := by
  have hsum : 0 + (unreadableFrom bytes 0).sum ≤ bytes.size :=
    sum_unreadableFrom_le (Nat.zero_le _)
  have hwidth := width_of_mem_unreadableFrom bytes 0
  have hle : ∀ widths : List Nat, (∀ width ∈ widths, 1 ≤ width ∧ width ≤ 3) →
      (widths.map (3 - ·)).sum ≤ 2 * widths.sum := by
    intro widths h
    induction widths with
    | nil => exact Nat.le_refl _
    | cons width rest ih =>
      obtain ⟨hwidth, hrest⟩ := List.forall_mem_cons.mp h
      have hrest := ih hrest
      rw [List.map_cons, List.sum_cons, List.sum_cons]
      omega
  have hgrowth := hle _ hwidth
  rw [growth, unreadable]
  omega

theorem unreadableFrom_eq_nil {out text : String} (h : decodeFrom bytes i out = .ok text) :
    unreadableFrom bytes i = [] := by
  induction i, out using decodeFrom.induct bytes with
  | case1 i out hi c width hread ih =>
    rw [decodeFrom, if_pos hi, hread] at h
    rw [unreadableFrom, if_pos hi, hread]
    exact ih h
  | case2 i out hi width hread =>
    rw [decodeFrom, if_pos hi, hread] at h
    cases h
  | case3 i out hi hread =>
    rw [decodeFrom, if_pos hi, hread] at h
    cases h
  | case4 i out hi => rw [unreadableFrom, if_neg hi]

/-- UTF-8 is kept as long as it is. -/
theorem growth_eq_zero {text : String} (h : decode bytes = .ok text) : growth bytes = 0 := by
  rw [growth, unreadable, unreadableFrom_eq_nil h]
  rfl

/-! ## Bytes that begin nothing -/

theorem byteAt?_of_forall {n : Nat} (h : ∀ b ∈ bytes.data, b.toNat = n) (hi : i < bytes.size) :
    byteAt? bytes i = some n := by
  rw [byteAt?, dif_pos hi]
  exact congrArg some (h _ (Array.getElem_mem hi))

/-- Where no byte can begin a character, each is an unreadable part. -/
theorem unreadableFrom_of_forall {n : Nat} (h : ∀ b ∈ bytes.data, b.toNat = n) (hn : 0xf4 < n) :
    unreadableFrom bytes i = List.replicate (bytes.size - i) 1 := by
  have hread : ∀ j, j < bytes.size → read bytes j = .malformed 1 := by
    intro j hj
    unfold read
    rw [byteAt?_of_forall h hj]
    simp only
    rw [if_neg (by omega), if_pos (.inr hn)]
  induction hleft : bytes.size - i generalizing i with
  | zero => rw [unreadableFrom, if_neg (by omega), List.replicate_zero]
  | succ left ih =>
    have hi : i < bytes.size := by omega
    rw [unreadableFrom, if_pos hi, hread i hi]
    simp only
    rw [ih (by show bytes.size - (i + max 1 1) = left; omega), List.replicate_succ]

theorem growth_of_forall {n : Nat} (h : ∀ b ∈ bytes.data, b.toNat = n) (hn : 0xf4 < n) :
    growth bytes = 2 * bytes.size := by
  rw [growth, unreadable, unreadableFrom_of_forall h hn, List.map_replicate, List.sum_replicate_nat,
    Nat.sub_zero, Nat.mul_comm]

end LedgerReports.Utf8
