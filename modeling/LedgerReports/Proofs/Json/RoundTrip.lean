import LedgerReports.Proofs.Json.Scalars

/-!
# JSON that is written and read

What the writer of JSON makes of a value is read as this value
(`parse?_render`). A value has to be writable for this: the reader keeps a
string that stands for no text as such, while the writer has nothing to write
for it, and a numeral without digits is none. What the service puts together
from texts and integers is always writable.

The reader has a number of rounds instead of a structure to recurse on. Each
value takes at most two rounds for each of its bytes (`IsRead`), so the
induction is on the value that is written, and the number of rounds that the
reader starts with is enough.
-/

namespace LedgerReports

namespace Json

/-! ## Values -/

/-- **A value is written as what it is**: its numbers are well formed, and its strings and the
names of its members are texts. -/
inductive Writable : Json → Prop where
  /-- Nothing. -/
  | null : Writable .null
  /-- A truth value. -/
  | bool (b : Bool) : Writable (.bool b)
  /-- A number. -/
  | number {n : Numeral} (h : n.WellFormed) : Writable (.number n)
  /-- A text. -/
  | text (text : String) : Writable (.string (some text))
  /-- A list. -/
  | array {items : List Json} (h : ∀ v ∈ items, Writable v) : Writable (.array items)
  /-- An object. -/
  | object {members : List (Option String × Json)} (hnames : ∀ m ∈ members, m.1.isSome = true)
      (h : ∀ m ∈ members, Writable m.2) : Writable (.object members)

theorem writable_ofInt (n : Int) : (ofInt n).Writable := .number (Numeral.wellFormed_ofInt n)

theorem writable_ofText (text : String) : (ofText text).Writable := .text text

theorem writable_ofFields {fields : List (String × Json)} (h : ∀ f ∈ fields, f.2.Writable) :
    (ofFields fields).Writable := by
  refine .object (fun m hm => ?_) fun m hm => ?_
  all_goals obtain ⟨f, hf, rfl⟩ := List.mem_map.mp hm
  · rfl
  · exact h f hf

section Values

variable {v : Json} {b : UInt8} {bytes rest : List UInt8} {c : Char}

theorem skipSpace_cons (h : isSpace b = false) : skipSpace (b :: bytes) = b :: bytes := by
  rw [skipSpace, List.dropWhile_cons, h]
  rfl

theorem after?_self (h : isSpace (code c) = false) : after? c (code c :: bytes) = some bytes := by
  rw [after?, skipSpace_cons h]
  exact if_pos rfl

theorem after?_of_ne (hspace : isSpace b = false) (h : b ≠ code c) :
    after? c (b :: bytes) = none := by
  rw [after?, skipSpace_cons hspace]
  exact if_neg h

theorem afterWord?_encode (word : String) (rest : List UInt8) :
    afterWord? word (encode word.toList ++ rest) = some rest := by
  have hword : word.toUTF8.toList = encode word.toList := by
    conv => lhs; rw [← String.ofList_toList (s := word)]
    rw [toUTF8_ofList, Bytes.toList_eq, List.data_toByteArray]
  rw [afterWord?, hword]
  simp only [List.take_left, if_true, List.drop_left]

/-- A number begins with a minus sign or a digit. -/
theorem exists_encode_number {n : Numeral} (h : n.WellFormed) :
    ∃ b bytes, encode n.toChars = b :: bytes ∧ (b = code '-' ∨ isDigit b = true) := by
  obtain ⟨c, cs, hwhole⟩ := List.exists_cons_of_ne_nil h.whole_ne_nil
  have hc := h.whole_digits c (hwhole ▸ List.mem_cons_self)
  have hbounds := isDigit_iff.mp hc
  rw [Numeral.toChars_eq, encode_append, encode_append, hwhole, encode_cons_of_lt (by omega)]
  cases n.negative with
  | true =>
    have hsign : encode (Numeral.signChars true) = [code '-'] := encode_cons_of_lt (by decide) []
    rw [hsign]
    exact ⟨code '-', _, rfl, .inl rfl⟩
  | false => exact ⟨code c, _, rfl, .inr (isDigit_code hc)⟩

/-- What begins a number begins nothing else. -/
theorem ne_of_begins_number (hb : b = code '-' ∨ isDigit b = true)
    (hminus : code c ≠ code '-') (hdigit : isDigit (code c) = false) : b ≠ code c := by
  rintro rfl
  obtain h | h := hb
  · exact hminus h
  · rw [hdigit] at h
    cases h

theorem isSpace_of_begins_number (hb : b = code '-' ∨ isDigit b = true) : isSpace b = false := by
  have hne (c : Char) (hminus : code c ≠ code '-') (hdigit : isDigit (code c) = false) :
      (b == code c) = false :=
    beq_eq_false_iff_ne.mpr (ne_of_begins_number hb hminus hdigit)
  rw [isSpace, hne ' ' (by decide) (by decide), hne '\n' (by decide) (by decide),
    hne '\t' (by decide) (by decide), hne '\x0d' (by decide) (by decide)]
  rfl

/-- **A value begins with a byte** that is no white space and does not end a list. -/
theorem Writable.exists_encode (h : v.Writable) :
    ∃ b bytes, encode v.toChars = b :: bytes ∧ isSpace b = false ∧ b ≠ code ']' := by
  cases h with
  | null => exact ⟨code 'n', _, encode_cons_of_lt (by decide) _, by decide, by decide⟩
  | bool b =>
    cases b with
    | true => exact ⟨code 't', _, encode_cons_of_lt (by decide) _, by decide, by decide⟩
    | false => exact ⟨code 'f', _, encode_cons_of_lt (by decide) _, by decide, by decide⟩
  | number h =>
    obtain ⟨b, bytes, hbytes, hb⟩ := exists_encode_number h
    exact ⟨b, bytes, hbytes, isSpace_of_begins_number hb,
      ne_of_begins_number hb (by decide) (by decide)⟩
  | text text => exact ⟨code '"', _, encode_cons_of_lt (by decide) _, by decide, by decide⟩
  | array h => exact ⟨code '[', _, encode_cons_of_lt (by decide) _, by decide, by decide⟩
  | object hnames h =>
    exact ⟨code '\x7b', _, encode_cons_of_lt (by decide) _, by decide, by decide⟩

/-- **A value is read as it is written.** Two rounds for each byte are enough. -/
def IsRead (v : Json) : Prop :=
  ∀ fuel rest, Delimited rest → 2 * (encode v.toChars).length ≤ fuel →
    readValue? fuel (encode v.toChars ++ rest) = some (v, rest)

/-- There is a round for a value that has a byte. -/
theorem exists_fuel {fuel n : Nat} (h : 2 * n ≤ fuel) (hn : 0 < n) : ∃ left, fuel = left + 1 :=
  ⟨fuel - 1, by omega⟩

theorem isRead_number {n : Numeral} (h : n.WellFormed) : IsRead (.number n) := by
  intro fuel rest hrest hfuel
  obtain ⟨b, bytes, hbytes, hb⟩ := exists_encode_number h
  have hread := readNumber?_encode h hrest
  have hchars : (Json.number n).toChars = n.toChars := rfl
  rw [hchars, hbytes] at hfuel ⊢
  rw [hbytes] at hread
  obtain ⟨left, rfl⟩ := exists_fuel hfuel (Nat.succ_pos _)
  have hne (c : Char) (hminus : code c ≠ code '-') (hdigit : isDigit (code c) = false) :=
    ne_of_begins_number hb hminus hdigit
  rw [List.cons_append] at hread ⊢
  rw [readValue?, skipSpace_cons (isSpace_of_begins_number hb)]
  simp only [if_neg (hne '\x7b' (by decide) (by decide)), if_neg (hne '[' (by decide) (by decide)),
    if_neg (hne '"' (by decide) (by decide)), if_neg (hne 'n' (by decide) (by decide)),
    if_neg (hne 't' (by decide) (by decide)), if_neg (hne 'f' (by decide) (by decide)), hread]
  rfl

theorem isRead_text (text : String) : IsRead (.string (some text)) := by
  intro fuel rest hrest hfuel
  have hchars : (Json.string (some text)).toChars = quote text := rfl
  have hread := readString?_quote text rest
  rw [hchars] at hfuel ⊢
  have hlength : (encode (quote text)).length ≠ 0 := by
    rw [quote, List.cons_append, encode_cons_of_lt (by decide)]
    exact Nat.succ_ne_zero _
  obtain ⟨left, rfl⟩ := exists_fuel hfuel (Nat.pos_of_ne_zero hlength)
  rw [encode_quote, readValue?, skipSpace_cons (by decide)]
  have hbrace : code '"' ≠ code '\x7b' := by decide
  have hbracket : code '"' ≠ code '[' := by decide
  simp only [if_neg hbrace, if_neg hbracket, if_true, hread, Option.map_some, toText?_encode]

/-- The items of a list are read, one after the other. -/
theorem readItems?_encode {items : List Json} (hne : items ≠ [])
    (hitems : ∀ v ∈ items, v.Writable ∧ IsRead v) {fuel : Nat} {found : List Json}
    (hfuel : 2 * (encode (itemChars items)).length + 2 ≤ fuel) (rest : List UInt8) :
    readItems? fuel found (encode (itemChars items) ++ code ']' :: rest)
      = some (.array (found.reverse ++ items), rest) := by
  -- each item takes one round, and leaves enough of them for the bytes behind it
  induction items generalizing fuel found with
  | nil => exact absurd rfl hne
  | cons v items ih =>
    obtain ⟨⟨hwritable, hread⟩, hitems⟩ := List.forall_mem_cons.mp hitems
    obtain ⟨left, rfl⟩ : ∃ left, fuel = left + 1 := ⟨fuel - 1, by omega⟩
    cases items with
    | nil =>
      have hend : Delimited (code ']' :: rest) := by
        rintro b ⟨⟩
        exact .inr (.inl rfl)
      have hmore : after? ',' (code ']' :: rest) = none := after?_of_ne (by decide) (by decide)
      rw [itemChars] at hfuel ⊢
      rw [readItems?, hread left _ hend (by omega)]
      simp only [hmore, after?_self (c := ']') (by decide), Option.map_some, List.reverse_cons]
    | cons w items =>
      have hcomma (bytes : List UInt8) : Delimited (code ',' :: bytes) := by
        rintro b ⟨⟩
        exact .inl rfl
      have hchars : itemChars (v :: w :: items) = v.toChars ++ ',' :: itemChars (w :: items) := rfl
      obtain ⟨b, bytes, hbytes, -⟩ := hwritable.exists_encode
      have hlength : (encode v.toChars).length = bytes.length + 1 := by rw [hbytes]; rfl
      rw [hchars, encode_append, encode_cons_of_lt (by decide)] at hfuel ⊢
      rw [List.length_append, List.length_cons] at hfuel
      rw [List.append_assoc, List.cons_append, readItems?, hread left _ (hcomma _) (by omega)]
      simp only [after?_self (c := ',') (by decide)]
      rw [ih (List.cons_ne_nil w items) hitems (by omega), List.reverse_cons, List.append_assoc,
        List.singleton_append]

/-- A member of an object is read, and others follow. -/
theorem readMembers?_comma {left : Nat} (found : List (Option String × Json)) (text : String)
    (hvalue : readValue? left bytes = some (v, code ',' :: rest)) :
    readMembers? (left + 1) found (encode (quote text) ++ code ':' :: bytes)
      = readMembers? left ((some text, v) :: found) rest := by
  rw [encode_quote, readMembers?, after?_self (by decide)]
  simp only [readString?_quote, after?_self (c := ':') (by decide), toText?_encode, hvalue,
    after?_self (c := ',') (by decide)]

/-- The last member of an object is read. -/
theorem readMembers?_close {left : Nat} (found : List (Option String × Json)) (text : String)
    (hvalue : readValue? left bytes = some (v, code '\x7d' :: rest)) :
    readMembers? (left + 1) found (encode (quote text) ++ code ':' :: bytes)
      = some (.object ((some text, v) :: found).reverse, rest) := by
  have hend : after? ',' (code '\x7d' :: rest) = none := after?_of_ne (by decide) (by decide)
  rw [encode_quote, readMembers?, after?_self (by decide)]
  simp only [readString?_quote, after?_self (c := ':') (by decide), toText?_encode, hvalue, hend,
    after?_self (c := '\x7d') (by decide), Option.map_some]

/-- The members of an object are read, one after the other. -/
theorem readMembers?_encode {members : List (Option String × Json)} (hne : members ≠ [])
    (hnames : ∀ m ∈ members, m.1.isSome = true) (hmembers : ∀ m ∈ members, IsRead m.2) {fuel : Nat}
    {found : List (Option String × Json)}
    (hfuel : 2 * (encode (memberChars members)).length + 2 ≤ fuel) (rest : List UInt8) :
    readMembers? fuel found (encode (memberChars members) ++ code '\x7d' :: rest)
      = some (.object (found.reverse ++ members), rest) := by
  induction members generalizing fuel found with
  | nil => exact absurd rfl hne
  | cons m members ih =>
    obtain ⟨name, v⟩ := m
    obtain ⟨hname, hothers⟩ := List.forall_mem_cons.mp hnames
    obtain ⟨hv, hreads⟩ := List.forall_mem_cons.mp hmembers
    have hread : IsRead v := hv
    obtain ⟨text, rfl⟩ := Option.isSome_iff_exists.mp hname
    obtain ⟨left, rfl⟩ : ∃ left, fuel = left + 1 := ⟨fuel - 1, by omega⟩
    cases members with
    | nil =>
      have hend : Delimited (code '\x7d' :: rest) := by
        rintro b ⟨⟩
        exact .inr (.inr rfl)
      have hchars : memberChars [(some text, v)] = quote text ++ ':' :: v.toChars := rfl
      rw [hchars, encode_append, encode_cons_of_lt (by decide)] at hfuel ⊢
      rw [List.length_append, List.length_cons] at hfuel
      rw [List.append_assoc, List.cons_append,
        readMembers?_close found text (hread left _ hend (by omega)), List.reverse_cons]
    | cons m members =>
      have hcomma (bytes : List UInt8) : Delimited (code ',' :: bytes) := by
        rintro b ⟨⟩
        exact .inl rfl
      have hchars : memberChars ((some text, v) :: m :: members)
          = quote text ++ ':' :: (v.toChars ++ ',' :: memberChars (m :: members)) := rfl
      rw [hchars, encode_append, encode_cons_of_lt (by decide), encode_append,
        encode_cons_of_lt (by decide)] at hfuel ⊢
      rw [List.length_append, List.length_cons, List.length_append, List.length_cons] at hfuel
      rw [List.append_assoc, List.cons_append, List.append_assoc, List.cons_append,
        readMembers?_comma found text (hread left _ (hcomma _) (by omega)),
        ih (List.cons_ne_nil m members) hothers hreads (by omega), List.reverse_cons,
        List.append_assoc, List.singleton_append]

/-- A word is read by its first letter and the others. -/
theorem isRead_word (letter : Char) (word : String) (hletter : letter.toNat < 128)
    (hchars : v.toChars = letter :: word.toList)
    (hread : ∀ fuel rest, readValue? (fuel + 1) (code letter :: rest)
      = (afterWord? word rest).map fun rest => (v, rest)) : IsRead v := by
  intro fuel rest hrest hfuel
  rw [hchars, encode_cons_of_lt hletter] at hfuel ⊢
  obtain ⟨left, rfl⟩ := exists_fuel hfuel (Nat.succ_pos _)
  rw [List.cons_append, hread, afterWord?_encode, Option.map_some]

theorem isRead_null : IsRead .null := by
  refine isRead_word 'n' "ull" (by decide) rfl fun fuel rest => ?_
  rw [readValue?, skipSpace_cons (by decide)]
  rfl

theorem isRead_bool (b : Bool) : IsRead (.bool b) := by
  cases b with
  | true =>
    refine isRead_word 't' "rue" (by decide) rfl fun fuel rest => ?_
    rw [readValue?, skipSpace_cons (by decide)]
    rfl
  | false =>
    refine isRead_word 'f' "alse" (by decide) rfl fun fuel rest => ?_
    rw [readValue?, skipSpace_cons (by decide)]
    rfl

theorem isRead_array {items : List Json} (h : ∀ v ∈ items, v.Writable ∧ IsRead v) :
    IsRead (.array items) := by
  intro fuel rest hrest hfuel
  have hchars : (Json.array items).toChars = '[' :: (itemChars items ++ [']']) := rfl
  have hclose : encode [']'] = [code ']'] := encode_cons_of_lt (by decide) []
  rw [hchars, encode_cons_of_lt (by decide), encode_append, hclose] at hfuel ⊢
  rw [List.length_cons, List.length_append, List.length_singleton] at hfuel
  obtain ⟨left, rfl⟩ := exists_fuel hfuel (Nat.succ_pos _)
  have hbrace : code '[' ≠ code '\x7b' := by decide
  rw [List.cons_append, List.append_assoc, List.singleton_append, readValue?,
    skipSpace_cons (by decide)]
  simp only [if_neg hbrace, if_true]
  cases items with
  | nil =>
    have hempty : after? ']' (encode (itemChars []) ++ code ']' :: rest) = some rest :=
      after?_self (by decide)
    rw [hempty]
  | cons v items =>
    -- an item does not begin like the end of the list
    have hsome : after? ']' (encode (itemChars (v :: items)) ++ code ']' :: rest) = none := by
      obtain ⟨b, bytes, hbytes, hspace, hb⟩ := (h v List.mem_cons_self).1.exists_encode
      have hstarts : ∃ more, encode (itemChars (v :: items)) = encode v.toChars ++ more := by
        cases items with
        | nil => exact ⟨[], (List.append_nil _).symm⟩
        | cons w items => exact ⟨_, encode_append _ _⟩
      obtain ⟨more, hmore⟩ := hstarts
      rw [hmore, hbytes]
      exact after?_of_ne hspace hb
    rw [hsome]
    exact readItems?_encode (List.cons_ne_nil v items) h (by omega) rest

theorem isRead_object {members : List (Option String × Json)}
    (hnames : ∀ m ∈ members, m.1.isSome = true) (hmembers : ∀ m ∈ members, IsRead m.2) :
    IsRead (.object members) := by
  intro fuel rest hrest hfuel
  have hchars : (Json.object members).toChars
      = '\x7b' :: (memberChars members ++ ['\x7d']) := rfl
  have hclose : encode ['\x7d'] = [code '\x7d'] := encode_cons_of_lt (by decide) []
  rw [hchars, encode_cons_of_lt (by decide), encode_append, hclose] at hfuel ⊢
  rw [List.length_cons, List.length_append, List.length_singleton] at hfuel
  obtain ⟨left, rfl⟩ := exists_fuel hfuel (Nat.succ_pos _)
  rw [List.cons_append, List.append_assoc, List.singleton_append, readValue?,
    skipSpace_cons (by decide)]
  simp only [if_true]
  cases members with
  | nil =>
    have hempty : after? '\x7d' (encode (memberChars []) ++ code '\x7d' :: rest) = some rest :=
      after?_self (by decide)
    rw [hempty]
  | cons m members =>
    have hsome : after? '\x7d' (encode (memberChars (m :: members)) ++ code '\x7d' :: rest)
        = none := by
      have hstarts : ∃ more, encode (memberChars (m :: members)) = code '"' :: more := by
        cases members with
        | nil => exact ⟨_, encode_cons_of_lt (by decide) _⟩
        | cons m' members => exact ⟨_, encode_cons_of_lt (by decide) _⟩
      obtain ⟨more, hmore⟩ := hstarts
      rw [hmore]
      exact after?_of_ne (by decide) (by decide)
    rw [hsome]
    exact readMembers?_encode (List.cons_ne_nil m members) hnames hmembers (by omega) rest

/-- **A value is read as it is written.** -/
theorem Writable.isRead (h : v.Writable) : IsRead v := by
  induction h with
  | null => exact isRead_null
  | bool b => exact isRead_bool b
  | number h => exact isRead_number h
  | text text => exact isRead_text text
  | array h ih => exact isRead_array fun v hv => ⟨h v hv, ih v hv⟩
  | object hnames h ih => exact isRead_object hnames ih

/-- **What was written is what is read.** -/
theorem parse?_render (h : v.Writable) : parse? v.render.toUTF8 = some v := by
  have hbytes : v.render.toUTF8.toList = encode v.toChars := by
    rw [render, toUTF8_ofList, Bytes.toList_eq, List.data_toByteArray]
  have hsize : v.render.toUTF8.size = (encode v.toChars).length := by
    rw [render, toUTF8_ofList, List.size_toByteArray]
  have hread := h.isRead (2 * v.render.toUTF8.size + 2) [] nofun (by omega)
  rw [parse?, read?, hbytes, ← List.append_nil (encode v.toChars), hread]
  rfl

end Values

end Json

end LedgerReports
