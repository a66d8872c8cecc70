import LedgerReports.Proofs.Pattern.Escaped
import Mathlib

/-!
# Sets are read as they were written

A set in brackets is gone through twice, in two different ways. `setEnd` looks for the
closing bracket and knows of nothing but members that may be escaped. `setItems` then
reads the members in front of it, and knows ranges too. Whether the two agree where one
member ends and the next one begins is not plain: a hyphen or a bracket means another
thing behind an escape byte, and a hyphen another thing behind a byte than at the
beginning.

They agree on what `CharSet.written` writes: bytes without a meaning in a set, escaped
bytes whatever they are, and ranges of letters or digits, one after the other. Each
member is passed by `setEnd` as a whole (`setEnd_of_item`) and read back by `setItems`
(`setItems_of_item`), since no member begins with a hyphen or a closing bracket. So the
set that is read is the one that was written, and it ends with its own bracket
(`written_sets_read_back`).

What a set holds is said here without the reader (`SetItem.Means`). For the classes that
letters name this goes back to the classes of characters (`escapeCovers_iff`).
-/

namespace LedgerReports.Pattern

/-! ## What an escaped byte means -/

/-- The characters of the class that a lower-case letter names. -/
def classNamed? : Char → Option (Char → Bool)
  | 'a' => some Char.isAlpha
  | 'c' => some fun c => decide (c.toNat < 32) || c.toNat == 127
  | 'd' => some Char.isDigit
  | 'g' => some fun c => decide (32 < c.toNat) && decide (c.toNat < 127)
  | 'l' => some Char.isLower
  | 'p' => some fun c => decide (32 < c.toNat) && decide (c.toNat < 127) && !c.isAlphanum
  | 's' => some fun c => c == ' ' || (decide (9 ≤ c.toNat) && decide (c.toNat ≤ 13))
  | 'u' => some Char.isUpper
  | 'w' => some Char.isAlphanum
  | 'x' => some fun c => c.isDigit || (decide ('a' ≤ c.toLower) && decide (c.toLower ≤ 'f'))
  | _ => none

/-- **What an escaped byte stands for**: the characters of a class, if it is a letter that names
one, or all others, if the letter is an upper-case one; otherwise itself. -/
def EscapeMeans (escaped b : UInt8) : Prop :=
  match classNamed? (Char.ofUInt8 escaped).toLower with
  | some members => members (Char.ofUInt8 b) = !(Char.ofUInt8 escaped).isUpper
  | none => b = escaped

theorem toLower_ofUInt8 (b : UInt8) : (Char.ofUInt8 b).toLower = Char.ofUInt8 (lower b) := by
  have hall : ∀ i : Fin 256,
      (Char.ofUInt8 (.ofFin i)).toLower = Char.ofUInt8 (lower (.ofFin i)) := by
    decide +kernel
  exact hall b.toFin

theorem isUpper_ofUInt8 (b : UInt8) : (Char.ofUInt8 b).isUpper = within 'A' 'Z' b := by
  have hall : ∀ i : Fin 256, (Char.ofUInt8 (.ofFin i)).isUpper = within 'A' 'Z' (.ofFin i) := by
    decide +kernel
  exact hall b.toFin

/-- The letters that name a class. -/
def classLetters : List UInt8 := ['a', 'c', 'd', 'g', 'l', 'p', 's', 'u', 'w', 'x'].map byte

/-- A letter names one class, of bytes and of characters. -/
theorem map_namedClass? (letter b : UInt8) :
    (namedClass? letter).map (· b)
      = (classNamed? (Char.ofUInt8 letter)).map (· (Char.ofUInt8 b)) := by
  by_cases hletter : letter ∈ classLetters
  · have hclasses : ∀ letter ∈ classLetters, ∀ i : Fin 256,
        (namedClass? letter).map (· (.ofFin i))
          = (classNamed? (Char.ofUInt8 letter)).map (· (Char.ofUInt8 (.ofFin i))) := by
      decide +kernel
    exact hclasses letter hletter b.toFin
  · have hothers : ∀ i : Fin 256, .ofFin i ∉ classLetters →
        (namedClass? (.ofFin i)).isNone ∧ (classNamed? (Char.ofUInt8 (.ofFin i))).isNone := by
      decide +kernel
    have hbyte : namedClass? letter = none :=
      Option.isNone_iff_eq_none.mp (hothers letter.toFin hletter).1
    have hchar : classNamed? (Char.ofUInt8 letter) = none :=
      Option.isNone_iff_eq_none.mp (hothers letter.toFin hletter).2
    rw [hbyte, hchar]
    rfl

/-- **An escaped byte covers what it stands for.** -/
theorem escapeCovers_iff (escaped b : UInt8) :
    escapeCovers escaped b = true ↔ EscapeMeans escaped b := by
  have hclass := map_namedClass? (lower escaped) b
  rw [escapeCovers, EscapeMeans, toLower_ofUInt8, isUpper_ofUInt8]
  cases hbyte : namedClass? (lower escaped) with
  | none =>
    rw [hbyte] at hclass
    rw [Option.map_eq_none_iff.mp hclass.symm]
    exact beq_iff_eq.trans eq_comm
  | some members =>
    rw [hbyte] at hclass
    obtain ⟨members', hchar, hsame⟩ := Option.map_eq_some_iff.mp hclass.symm
    rw [hchar]
    show _ ↔ members' _ = _
    rw [hsame]
    cases within 'A' 'Z' escaped <;> cases members b <;> simp

/-! ## Writing -/

/-- What a member of a set stands for. -/
def SetItem.Means (b : UInt8) : SetItem → Prop
  | .byte a => b = a
  | .escaped a => EscapeMeans a b
  | .range lo hi => lo ≤ b ∧ b ≤ hi

theorem SetItem.covers_iff (item : SetItem) (b : UInt8) :
    item.covers b = true ↔ item.Means b := by
  cases item with
  | byte a => exact beq_iff_eq.trans eq_comm
  | escaped a => exact escapeCovers_iff a b
  | range lo hi =>
    exact Bool.and_eq_true_iff.trans (and_congr decide_eq_true_iff decide_eq_true_iff)

/-- The bytes that a member of a set is written with. -/
def SetItem.written : SetItem → List UInt8
  | .byte a => [a]
  | .escaped a => [escape, a]
  | .range lo hi => [lo, Pattern.byte '-', hi]

/-- **The bytes that a set is written with.** -/
def CharSet.written (set : CharSet) : List UInt8 :=
  byte '[' :: (if set.complemented then [byte '^'] else []) ++ set.items.flatMap SetItem.written
    ++ [byte ']']

/-- The bytes that have a meaning of their own in a set, or look as if they had. -/
def setSpecials : List UInt8 := "%-]^[".toList.map byte

/-- Whether a member can be written among others without a second meaning: a byte that has none, an
escaped byte, or a range of letters or digits. -/
def SetItem.isPlain : SetItem → Bool
  | .byte a => !setSpecials.contains a
  | .escaped _ => true
  | .range lo hi => isLetterOrDigit lo && isLetterOrDigit hi

section Members

variable {item : SetItem} {b : UInt8}

theorem ne_of_isPlain (h : (SetItem.byte b).isPlain = true) : ∀ c ∈ setSpecials, b ≠ c := by
  rintro c hc rfl
  rw [SetItem.isPlain, List.contains_iff_mem.mpr hc] at h
  cases h

theorem setSpecial_ne_of_isLetterOrDigit (hb : isLetterOrDigit b = true) :
    ∀ c ∈ setSpecials, b ≠ c := by
  have hspecials : ∀ c ∈ setSpecials, isLetterOrDigit c = false := by decide +kernel
  exact fun c hc => ne_of_isLetterOrDigit hb (hspecials c hc)

/-- No member begins with a byte that means something else where a member begins. -/
theorem SetItem.written_eq_cons (h : item.isPlain = true) :
    ∃ first rest, item.written = first :: rest
      ∧ first ≠ Pattern.byte '-' ∧ first ≠ Pattern.byte ']' ∧ first ≠ Pattern.byte '^' := by
  cases item with
  | byte a =>
    have hne := ne_of_isPlain h
    exact ⟨a, [], rfl, hne _ (by decide), hne _ (by decide), hne _ (by decide)⟩
  | escaped a => exact ⟨escape, [a], rfl, by decide, by decide, by decide⟩
  | range lo hi =>
    have hne := setSpecial_ne_of_isLetterOrDigit (Bool.and_eq_true_iff.mp h).1
    exact ⟨lo, _, rfl, hne _ (by decide), hne _ (by decide), hne _ (by decide)⟩

end Members

/-! ## Passing by members -/

section Reading

variable {pattern : ByteArray} {p close : Nat} {item : SetItem} {items : List SetItem}
  {b next : UInt8} {bytes rest : List UInt8}

theorem bytesFrom_append (h : bytesFrom pattern p = bytes ++ rest) :
    bytesFrom pattern (p + bytes.length) = rest := by
  rw [bytesFrom, ← List.drop_drop]
  show (bytesFrom pattern p).drop bytes.length = rest
  rw [h, List.drop_left]

/-- A byte that is not an escape byte is passed by on its own. -/
theorem setEnd_of_ne (h : bytesFrom pattern p = b :: rest) (hb : b ≠ escape) :
    setEnd pattern p
      = if rest.head? = some (byte ']') then .ok (p + 2) else setEnd pattern (p + 1) := by
  have hmember : memberEnd pattern p = p + 1 := by
    rw [memberEnd, byteAt?_eq_head?, h]
    exact if_neg fun hescape => hb (Option.some.inj hescape.1)
  rw [setEnd, if_pos (lt_size_of_bytesFrom h), hmember, byteAt?_eq_head?, bytesFrom_succ h]

/-- An escape byte is passed by with the byte after it. -/
theorem setEnd_of_escape (h : bytesFrom pattern p = escape :: b :: rest) :
    setEnd pattern p
      = if rest.head? = some (byte ']') then .ok (p + 3) else setEnd pattern (p + 2) := by
  have hbehind := bytesFrom_succ h
  have hmember : memberEnd pattern p = p + 2 := by
    rw [memberEnd, byteAt?_eq_head?, h]
    exact if_pos ⟨rfl, lt_size_of_bytesFrom hbehind⟩
  rw [setEnd, if_pos (lt_size_of_bytesFrom h), hmember, byteAt?_eq_head?, bytesFrom_succ hbehind]

/-- **The look-out for the closing bracket passes by a member as a whole.** -/
theorem setEnd_of_item (hitem : item.isPlain = true)
    (h : bytesFrom pattern p = item.written ++ rest) :
    setEnd pattern p
      = if rest.head? = some (byte ']') then .ok (p + item.written.length + 1)
        else setEnd pattern (p + item.written.length) := by
  cases item with
  | byte a => exact setEnd_of_ne h (ne_of_isPlain hitem _ (by decide))
  | escaped a => exact setEnd_of_escape h
  | range lo hi =>
    obtain ⟨hlo, hhi⟩ := Bool.and_eq_true_iff.mp hitem
    have hfirst : bytesFrom pattern p = lo :: byte '-' :: hi :: rest := h
    have hhyphen := bytesFrom_succ hfirst
    have hlast := bytesFrom_succ hhyphen
    have hlo : lo ≠ escape := setSpecial_ne_of_isLetterOrDigit hlo _ (by decide)
    have hhi := setSpecial_ne_of_isLetterOrDigit hhi
    have hclose : (hi :: rest).head? ≠ some (byte ']') :=
      fun hclose => hhi _ (by decide) (Option.some.inj hclose)
    -- neither the hyphen nor the upper end can be taken for the bracket
    rw [setEnd_of_ne hfirst hlo, if_neg (by rw [List.head?_cons]; decide),
      setEnd_of_ne hhyphen (by decide), if_neg hclose, setEnd_of_ne hlast (hhi _ (by decide))]
    rfl

/-! ## Reading members -/

theorem setItems_of_byte (h : bytesFrom pattern p = b :: next :: rest) (hb : b ≠ escape)
    (hnext : next ≠ byte '-') (hclose : p < close)
    (hlater : setItems pattern close (p + 1) = .ok items) :
    setItems pattern close p = .ok (.byte b :: items) := by
  rw [setItems, if_pos hclose, byteAt_of_bytesFrom h,
    byteAt_of_bytesFrom (bytesFrom_succ h), hlater]
  show (if b = escape then _ else if next = byte '-' ∧ _ then _ else _) = _
  rw [if_neg hb, if_neg fun hrange => hnext hrange.1]
  rfl

theorem setItems_of_escape (h : bytesFrom pattern p = escape :: b :: rest) (hclose : p < close)
    (hlater : setItems pattern close (p + 2) = .ok items) :
    setItems pattern close p = .ok (.escaped b :: items) := by
  rw [setItems, if_pos hclose, byteAt_of_bytesFrom h,
    byteAt_of_bytesFrom (bytesFrom_succ h), hlater]
  rfl

theorem setItems_of_range {lo hi : UInt8} (h : bytesFrom pattern p = lo :: byte '-' :: hi :: rest)
    (hlo : lo ≠ escape) (hclose : p + 2 < close)
    (hlater : setItems pattern close (p + 3) = .ok items) :
    setItems pattern close p = .ok (.range lo hi :: items) := by
  have hhyphen := bytesFrom_succ h
  rw [setItems, if_pos (by omega), byteAt_of_bytesFrom h, byteAt_of_bytesFrom hhyphen,
    byteAt_of_bytesFrom (bytesFrom_succ hhyphen), hlater]
  show (if lo = escape then _ else if byte '-' = byte '-' ∧ p + 2 < close then _ else _) = _
  rw [if_neg hlo, if_pos ⟨rfl, hclose⟩]
  rfl

/-- **A member is read back** where another one follows, or the closing bracket. -/
theorem setItems_of_item (hitem : item.isPlain = true)
    (h : bytesFrom pattern p = item.written ++ next :: rest) (hnext : next ≠ byte '-')
    (hclose : p + item.written.length ≤ close)
    (hlater : setItems pattern close (p + item.written.length) = .ok items) :
    setItems pattern close p = .ok (item :: items) := by
  cases item with
  | byte a => exact setItems_of_byte h (ne_of_isPlain hitem _ (by decide)) hnext hclose hlater
  | escaped a => exact setItems_of_escape h (Nat.lt_of_succ_lt hclose) hlater
  | range lo hi =>
    have hlo := (Bool.and_eq_true_iff.mp hitem).1
    exact setItems_of_range h (setSpecial_ne_of_isLetterOrDigit hlo _ (by decide)) hclose hlater

/-! ## Members in a row -/

/-- Behind a member stands the first byte of the next one, or the closing bracket. -/
theorem exists_next (hitems : ∀ item ∈ items, item.isPlain = true) (rest : List UInt8) :
    ∃ next later, items.flatMap SetItem.written ++ byte ']' :: rest = next :: later
      ∧ next ≠ byte '-' ∧ (next = byte ']' ↔ items = []) ∧ next ≠ byte '^' := by
  cases items with
  | nil => exact ⟨byte ']', rest, rfl, by decide, iff_of_true rfl rfl, by decide⟩
  | cons item items =>
    obtain ⟨first, others, hwritten, hhyphen, hclose, hcaret⟩ :=
      SetItem.written_eq_cons (hitems item List.mem_cons_self)
    refine ⟨first, others ++ (items.flatMap SetItem.written ++ byte ']' :: rest), ?_, hhyphen,
      iff_of_false hclose (List.cons_ne_nil item items), hcaret⟩
    rw [List.flatMap_cons, hwritten, List.append_assoc]
    rfl

/-- **The closing bracket that is found is that behind the last member.** -/
theorem setEnd_of_items (hne : items ≠ []) (hitems : ∀ item ∈ items, item.isPlain = true)
    (h : bytesFrom pattern p = items.flatMap SetItem.written ++ byte ']' :: rest) :
    setEnd pattern p = .ok (p + (items.flatMap SetItem.written).length + 1) := by
  induction items generalizing p with
  | nil => exact absurd rfl hne
  | cons item items ih =>
    obtain ⟨hitem, hothers⟩ := List.forall_mem_cons.mp hitems
    obtain ⟨next, later, hnext, -, hlast, -⟩ := exists_next hothers rest
    rw [List.flatMap_cons, List.append_assoc] at h
    have hbehind := bytesFrom_append h
    rw [setEnd_of_item hitem h, List.flatMap_cons, List.length_append, ← Nat.add_assoc, hnext]
    split
    case isTrue hclose =>
      rw [hlast.mp (Option.some.inj hclose)]
      rfl
    case isFalse hclose =>
      exact ih (fun hempty => hclose (congrArg some (hlast.mpr hempty))) hothers hbehind

/-- **The members that are read are those that were written.** -/
theorem setItems_of_items (hitems : ∀ item ∈ items, item.isPlain = true)
    (h : bytesFrom pattern p = items.flatMap SetItem.written ++ byte ']' :: rest) :
    setItems pattern (p + (items.flatMap SetItem.written).length) p = .ok items := by
  induction items generalizing p with
  | nil =>
    rw [setItems]
    exact if_neg (Nat.lt_irrefl p)
  | cons item items ih =>
    obtain ⟨hitem, hothers⟩ := List.forall_mem_cons.mp hitems
    obtain ⟨next, later, hnext, hhyphen, -⟩ := exists_next hothers rest
    rw [List.flatMap_cons, List.append_assoc] at h
    have hlater := ih hothers (bytesFrom_append h)
    rw [List.flatMap_cons, List.length_append, ← Nat.add_assoc]
    rw [hnext] at h
    exact setItems_of_item hitem h hhyphen (Nat.le_add_right _ _) hlater

/-! ## Sets -/

/-- A set is read when its members stand where they begin. -/
theorem CharSet.read_of_members {set : CharSet} {first : Nat}
    (hcaret : (byteAt? pattern (p + 1) == some (byte '^')) = set.complemented)
    (hfirst : (if set.complemented then p + 2 else p + 1) = first) (hne : set.items ≠ [])
    (hitems : ∀ item ∈ set.items, item.isPlain = true)
    (h : bytesFrom pattern first = set.items.flatMap SetItem.written ++ byte ']' :: rest) :
    CharSet.read pattern p
      = .ok (set, first + (set.items.flatMap SetItem.written).length + 1) := by
  unfold CharSet.read
  dsimp only
  rw [hcaret, hfirst, setEnd_of_items hne hitems h]
  show (do let items ← setItems pattern (_ + 1 - 1) _; return (CharSet.mk _ items, _)) = _
  rw [Nat.add_sub_cancel, setItems_of_items hitems h]
  rfl

/-- **A set is read as it was written.** -/
theorem CharSet.read_of_written {set : CharSet} (hne : set.items ≠ [])
    (hitems : ∀ item ∈ set.items, item.isPlain = true)
    (h : bytesFrom pattern p = set.written ++ rest) :
    CharSet.read pattern p = .ok (set, p + set.written.length) := by
  obtain ⟨next, later, hnext, -, -, hother⟩ := exists_next hitems rest
  have hbehind : bytesFrom pattern (p + 1) = (if set.complemented then [byte '^'] else [])
      ++ (set.items.flatMap SetItem.written ++ byte ']' :: rest) := by
    refine bytesFrom_succ (b := byte '[') (h.trans ?_)
    simp [CharSet.written]
  have hcaret : (byteAt? pattern (p + 1) == some (byte '^')) = set.complemented := by
    rw [byteAt?_eq_head?, hbehind, hnext]
    cases set.complemented with
    | true => rfl
    | false => exact beq_eq_false_iff_ne.mpr fun hcaret => hother (Option.some.inj hcaret)
  rw [CharSet.read_of_members hcaret ?_ hne hitems (bytesFrom_append hbehind)]
  · simp only [CharSet.written, List.length_append, List.length_cons, List.length_nil]
    congr 2
    omega
  · cases set.complemented <;> rfl

theorem CharSet.covers_iff (set : CharSet) (b : UInt8) :
    set.covers b = true ↔ if set.complemented then ¬ ∃ item ∈ set.items, item.Means b
      else ∃ item ∈ set.items, item.Means b := by
  have hany : set.items.any (·.covers b) = true ↔ ∃ item ∈ set.items, item.Means b := by
    rw [List.any_eq_true]
    exact exists_congr fun item => and_congr_right fun _ => item.covers_iff b
  rw [CharSet.covers, bne_iff_ne]
  cases set.complemented with
  | true => exact not_congr hany
  | false => exact (Bool.not_eq_false _).to_iff.trans hany

/-- A set is a class. -/
theorem CharClass.read_of_bracket (h : bytesFrom pattern p = byte '[' :: rest) :
    CharClass.read pattern p = do
      let (members, stop) ← CharSet.read pattern p
      return (.set members, stop) := by
  rw [CharClass.read, byteAt_of_bytesFrom h]
  rfl

end Reading

/-- **A set is read as it was written**, wherever it stands in a pattern. It ends with its own
closing bracket, and holds what a member of it stands for or, if it is complemented, everything
else. -/
theorem written_sets_read_back (set : CharSet) (hne : set.items ≠ [])
    (hitems : ∀ item ∈ set.items, item.isPlain = true) (before after : List UInt8) :
    CharClass.read ⟨(before ++ set.written ++ after).toArray⟩ before.length
        = .ok (.set set, before.length + set.written.length)
      ∧ ∀ b, (CharClass.set set).covers b = true ↔
        if set.complemented then ¬ ∃ item ∈ set.items, item.Means b
        else ∃ item ∈ set.items, item.Means b := by
  have hwritten : bytesFrom ⟨(before ++ set.written ++ after).toArray⟩ before.length
      = set.written ++ after := by
    rw [bytesFrom, List.append_assoc, List.toList_toArray, List.drop_left]
  refine ⟨?_, fun b => set.covers_iff b⟩
  rw [CharClass.read_of_bracket hwritten, CharSet.read_of_written hne hitems hwritten]
  rfl

/-- A closing bracket and a hyphen that are escaped, next to a range, a byte and a class. -/
theorem written_sets_read_back_complemented :
    let set : CharSet := ⟨true, [.escaped (byte ']'), .range (byte 'a') (byte 'f'),
      .escaped (byte '-'), .byte (byte '_'), .escaped (byte 'S')]⟩
    (set.items ≠ [] ∧ ∀ item ∈ set.items, item.isPlain = true)
      ∧ CharClass.read "x[^%]a-f%-_%S]*".toUTF8 1 = .ok (.set set, 14)
      ∧ ∀ b, (CharClass.set set).covers b = true ↔ ¬ ∃ item ∈ set.items, item.Means b := by
  intro set
  have hne : set.items ≠ [] := by decide
  have hitems : ∀ item ∈ set.items, item.isPlain = true := by decide
  have htext : "x[^%]a-f%-_%S]*".toUTF8
      = ⟨([byte 'x'] ++ set.written ++ [byte '*']).toArray⟩ := by decide
  rw [htext]
  exact ⟨⟨hne, hitems⟩, written_sets_read_back set hne hitems [byte 'x'] [byte '*']⟩

/-- An escape byte that ends a range is taken for two things: the bracket after it does not close
the set, and is a member of its own. -/
example : CharSet.read "[a-%]]".toUTF8 0
    = .ok (⟨false, [.range (byte 'a') escape, .byte (byte ']')]⟩, 6) := by cbv

end LedgerReports.Pattern
