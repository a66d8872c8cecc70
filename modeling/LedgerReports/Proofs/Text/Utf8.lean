import LedgerReports.Text.Utf8

/-!
# Texts as bytes and back

Every text is read back from its bytes (`decode_toUTF8`). The bytes of a
character are one to four, and reading them takes the bits together that the
encoding has taken apart. What has to be seen for each length is that the
ranges for the first byte and for the second one let the character pass: they
leave out what is written longer than necessary, which the encoding never does,
and the surrogates, which are no characters.
-/

namespace LedgerReports

/-- The bytes of a text, character by character. -/
def encode (cs : List Char) : List UInt8 := cs.flatMap String.utf8EncodeChar

@[simp]
theorem encode_nil : encode [] = [] := rfl

theorem encode_cons (c : Char) (cs : List Char) :
    encode (c :: cs) = String.utf8EncodeChar c ++ encode cs := List.flatMap_cons

theorem encode_append (cs cs' : List Char) : encode (cs ++ cs') = encode cs ++ encode cs' :=
  List.flatMap_append

theorem toUTF8_ofList (cs : List Char) : (String.ofList cs).toUTF8 = (encode cs).toByteArray :=
  String.toByteArray_ofList

/-! ## Lists of bytes -/

theorem Bytes.toList_loop_eq (bytes : ByteArray) (i : Nat) (found : List UInt8) :
    ByteArray.toList.loop bytes i found = found.reverse ++ bytes.data.toList.drop i := by
  induction i, found using ByteArray.toList.loop.induct bytes with
  | case1 i found hi ih =>
    have hi' : i < bytes.data.toList.length := hi
    have hget : bytes.get! i = bytes.data.toList[i] := by
      rw [ByteArray.get!, getElem!_pos bytes.data i hi]
      rfl
    rw [ByteArray.toList.loop, if_pos hi, ih, List.reverse_cons, List.append_assoc, hget,
      List.singleton_append, ← List.drop_eq_getElem_cons hi']
  | case2 i found hi =>
    rw [ByteArray.toList.loop, if_neg hi, List.drop_of_length_le (Nat.not_lt.mp hi),
      List.append_nil]

/-- The list of some bytes. -/
theorem Bytes.toList_eq (bytes : ByteArray) : bytes.toList = bytes.data.toList :=
  Bytes.toList_loop_eq bytes 0 []

namespace Utf8

variable {bytes : ByteArray} {i : Nat} {c : Char} {l rest : List UInt8}

theorem byteAt?_eq (bytes : ByteArray) (i : Nat) :
    byteAt? bytes i = bytes.data.toList[i]?.map UInt8.toNat := by
  unfold byteAt?
  split
  · rename_i h
    have h' : i < bytes.data.toList.length := h
    rw [List.getElem?_eq_getElem h']
    rfl
  · rename_i h
    have h' : bytes.data.toList.length ≤ i := Nat.not_lt.mp h
    rw [List.getElem?_eq_none h']
    rfl

/-- The bytes of a character are found where the character stands. -/
theorem byteAt?_add (h : bytes.data.toList.drop i = l ++ rest) {k n : Nat}
    (hb : l[k]? = some (UInt8.ofNat n)) (hn : n < 256) : byteAt? bytes (i + k) = some n := by
  have hk : k < l.length := (List.getElem?_eq_some_iff.mp hb).1
  rw [byteAt?_eq, ← List.getElem?_drop, h, List.getElem?_append_left hk, hb, Option.map_some,
    UInt8.toNat_ofNat', Nat.mod_eq_of_lt hn]

/-! ## Reading a character -/

/-- The number of a character is not that of a surrogate, and not too great. -/
theorem toNat_valid (c : Char) : c.toNat < 0xd800 ∨ (0xdfff < c.toNat ∧ c.toNat < 0x110000) :=
  c.valid

theorem isContinuation_of_lt {n : Nat} (h : n < 64) : isContinuation (n + 128) = true := by
  unfold isContinuation
  simp
  omega

/-- One more byte of a character. -/
theorem readRest_succ {left width code n : Nat} (hn : n < 64)
    (hbyte : byteAt? bytes (i + width) = some (n + 128)) :
    readRest bytes i (left + 1) width code = readRest bytes i left (width + 1) (code * 64 + n) := by
  rw [readRest, hbyte]
  simp only [isContinuation_of_lt hn, if_true, Nat.add_sub_cancel]

/-- A character of several bytes, of which the first one begins with the bits `lead`. -/
theorem read_long {first second : Nat} (hfirst : byteAt? bytes i = some first)
    (hsecond : byteAt? bytes (i + 1) = some (second + 128)) (hlow : 0xc2 ≤ first)
    (hhigh : first ≤ 0xf4) (hfits : isSecond first (second + 128) = true) :
    read bytes i
      = if first < 0xe0 then readRest bytes i 0 2 ((first - 0xc0) * 64 + second)
        else if first < 0xf0 then readRest bytes i 1 2 ((first - 0xe0) * 64 + second)
        else readRest bytes i 2 2 ((first - 0xf0) * 64 + second) := by
  have hone : ¬ first < 0x80 := by omega
  have hin : ¬ (first < 0xc2 ∨ 0xf4 < first) := by omega
  simp only [read, hfirst, hsecond, if_neg hone, if_neg hin, hfits, if_true, Nat.add_sub_cancel]

/-- The second byte is in the range that the first one leaves. -/
theorem isSecond_of_le {first second : Nat} (hlow : 0x80 ≤ second) (hhigh : second ≤ 0xbf)
    (hlong : first = 0xe0 → 0xa0 ≤ second) (hsurrogate : first = 0xed → second ≤ 0x9f)
    (hlonger : first = 0xf0 → 0x90 ≤ second) (hlast : first = 0xf4 → second ≤ 0x8f) :
    isSecond first second = true := by
  unfold isSecond
  simp only [Bool.and_eq_true, decide_eq_true_eq]
  constructor
  · split
    · exact hlong ‹_›
    · split
      · exact hlonger ‹_›
      · exact hlow
  · split
    · exact hsurrogate ‹_›
    · split
      · exact hlast ‹_›
      · exact hhigh

/-- **A character is read from its bytes.** -/
theorem read_eq_char (h : bytes.data.toList.drop i = String.utf8EncodeChar c ++ rest) :
    read bytes i = .char c (String.utf8EncodeChar c).length := by
  have hvalid := toNat_valid c
  have hchar : Char.ofNat c.toNat = c := Char.ofNat_toNat c
  have hval : c.val.toNat = c.toNat := rfl
  generalize hbytes : String.utf8EncodeChar c = l at h ⊢
  unfold String.utf8EncodeChar at hbytes
  simp only [hval] at hbytes
  generalize c.toNat = v at hvalid hchar hbytes
  split at hbytes
  · -- one byte
    subst hbytes
    have hfirst := byteAt?_add h (k := 0) rfl (by omega : v < 256)
    have hlow : v < 0x80 := by omega
    simp only [read, Nat.add_zero] at hfirst ⊢
    simp only [hfirst, if_pos hlow, hchar, List.length_singleton]
  split at hbytes
  · -- two bytes
    subst hbytes
    have hfirst : byteAt? bytes i = _ := byteAt?_add h (k := 0) rfl (by omega)
    have hsecond := byteAt?_add h (k := 1) rfl (by omega)
    have hfits : isSecond (v / 64 % 32 + 192) (v % 64 + 128) = true :=
      isSecond_of_le (by omega) (by omega) (by omega) (by omega) (by omega) (by omega)
    have hcode : (v / 64 % 32 + 192 - 0xc0) * 64 + v % 64 = v := by omega
    rw [read_long hfirst hsecond (by omega) (by omega) hfits, if_pos (by omega), hcode, readRest,
      hchar]
    rfl
  split at hbytes
  · -- three bytes
    subst hbytes
    have hfirst : byteAt? bytes i = _ := byteAt?_add h (k := 0) rfl (by omega)
    have hsecond := byteAt?_add h (k := 1) rfl (by omega)
    have hthird := byteAt?_add h (k := 2) rfl (by omega)
    have hfits : isSecond (v / 4096 % 16 + 224) (v / 64 % 64 + 128) = true :=
      isSecond_of_le (by omega) (by omega) (by omega) (by omega) (by omega) (by omega)
    have hcode : ((v / 4096 % 16 + 224 - 0xe0) * 64 + v / 64 % 64) * 64 + v % 64 = v := by omega
    rw [read_long hfirst hsecond (by omega) (by omega) hfits, if_neg (by omega),
      if_pos (by omega), readRest_succ (by omega) hthird, hcode, readRest, hchar]
    rfl
  · -- four bytes
    subst hbytes
    have hfirst : byteAt? bytes i = _ := byteAt?_add h (k := 0) rfl (by omega)
    have hsecond := byteAt?_add h (k := 1) rfl (by omega)
    have hthird := byteAt?_add h (k := 2) rfl (by omega)
    have hfourth := byteAt?_add h (k := 3) rfl (by omega)
    have hfits : isSecond (v / 262144 % 8 + 240) (v / 4096 % 64 + 128) = true :=
      isSecond_of_le (by omega) (by omega) (by omega) (by omega) (by omega) (by omega)
    have hcode : (((v / 262144 % 8 + 240 - 0xf0) * 64 + v / 4096 % 64) * 64 + v / 64 % 64) * 64
        + v % 64 = v := by omega
    rw [read_long hfirst hsecond (by omega) (by omega) hfits, if_neg (by omega),
      if_neg (by omega), readRest_succ (by omega) hthird, readRest_succ (by omega) hfourth, hcode,
      readRest, hchar]
    rfl

/-! ## Reading a text -/

/-- **The characters from a position on are read one after the other.** -/
theorem decodeFrom_encode (cs : List Char) {out : String}
    (h : bytes.data.toList.drop i = encode cs) :
    decodeFrom bytes i out = .ok (out ++ String.ofList cs) := by
  induction cs generalizing i out with
  | nil =>
    have hend : ¬ i < bytes.size := Nat.not_lt.mpr (List.drop_eq_nil_iff.mp h)
    rw [decodeFrom, if_neg hend, String.ofList_nil, String.append_empty]
  | cons c cs ih =>
    rw [encode_cons] at h
    have hwidth : 1 ≤ (String.utf8EncodeChar c).length := by
      rw [String.length_utf8EncodeChar]
      exact c.utf8Size_pos
    have hin : i < bytes.size := by
      have hlength := congrArg List.length h
      rw [List.length_drop, List.length_append] at hlength
      have hsize : bytes.data.toList.length = bytes.size := rfl
      omega
    have hnext : bytes.data.toList.drop (i + (String.utf8EncodeChar c).length) = encode cs := by
      rw [← List.drop_drop, h, List.drop_left]
    have hcons : String.ofList (c :: cs) = String.singleton c ++ String.ofList cs := by
      rw [String.singleton_eq_ofList, ← String.ofList_append, List.singleton_append]
    rw [decodeFrom, if_pos hin, read_eq_char h]
    simp only [Read.advance, Nat.max_eq_right hwidth]
    rw [ih hnext, String.push_eq_append, String.append_assoc, hcons]

/-- **Every text is read back from its bytes.** -/
theorem decode_encode (cs : List Char) :
    decode (encode cs).toByteArray = .ok (String.ofList cs) := by
  have hbytes : (encode cs).toByteArray.data.toList.drop 0 = encode cs := by
    rw [List.data_toByteArray]
    rfl
  rw [decode, decodeFrom_encode cs hbytes, String.empty_append]

theorem decode_toUTF8 (text : String) : decode text.toUTF8 = .ok text := by
  rw [← String.ofList_toList (s := text), toUTF8_ofList, decode_encode]

end Utf8

end LedgerReports
