import LedgerReports.Proofs.Pattern.Leftmost
import Mathlib

/-!
# Escaped texts

A text can be searched for as a pattern if an escape byte is put before every
byte that is neither a letter nor a digit (`escaped`). A pattern that has been
made in this way has one item for each byte of the text, and the item stands for
that byte and for nothing else (`readAll_escaped`): after an escape byte only
letters and digits have a meaning, and what would repeat an item is escaped
itself. An anchor at the beginning is, too.

The search by way of these items then looks at each position whether the text
stands there (`answers_matchAt_escaped`), and that is what a plain search does.
Neither can fail but for its deadline. This is what `Answers` says: a search has
an answer, which does not depend on the deadline, and gives it if it is not
stopped.
-/

namespace LedgerReports.Pattern

/-! ## Answers -/

/-- **The answer of a search**, which the search gives unless it is stopped by its deadline. -/
def Answers {α : Type} (x : SearchM α) (a : α) : Prop :=
  ∀ n, x.run n = .error .deadlineExceeded ∨ ∃ n', x.run n = .ok (a, n')

section Answers

variable {α β : Type} {a : α} {b : β}

theorem answers_pure (a : α) : Answers (pure a) a := fun n => .inr ⟨n, rfl⟩

theorem answers_tick (deadline : Deadline) : Answers (tick deadline) () := by
  intro n
  show (if _ then _ else _) = _ ∨ _
  split
  case isTrue => exact .inl rfl
  case isFalse hcalm => exact .inr ⟨n + 1, if_neg hcalm⟩

theorem Answers.bind {x : SearchM α} {f : α → SearchM β} (hx : Answers x a)
    (hf : Answers (f a) b) : Answers (x >>= f) b := by
  intro n
  rw [StateT.run_bind]
  obtain hlate | ⟨n', hn'⟩ := hx n
  · rw [hlate]
    exact .inl rfl
  · rw [hn']
    exact hf n'

/-- What may be stopped and otherwise gives one thing only answers with that. -/
theorem answers_lift {x : Except Error α} (h : x = .error .deadlineExceeded ∨ x = .ok a) :
    Answers (liftM x) a := by
  obtain rfl | rfl := h
  · exact fun _ => .inl rfl
  · exact answers_pure a

/-- **A search over positions answers** with what should be reported of the answers at the
positions. -/
theorem answers_find? {subject : Subject} {pattern : Pattern} {answer : Nat → Option Match}
    {s : Nat} {found? : Option Match}
    (h : ∀ s, Answers (matchAt subject pattern s) (answer s)) (hs : s ≤ subject.bytes.size)
    (hreports : Reports answer (lookouts subject.bytes pattern s) found?) :
    Answers (find? subject pattern s) found? := by
  induction hn : subject.bytes.size - s using Nat.strongRecOn generalizing s found? with
  | ind n ih =>
    have hhere := h s
    rw [find?]
    cases hanswer : answer s with
    | some m =>
      rw [hanswer] at hhere
      rw [hreports.unique (reports_here hs hanswer)]
      exact hhere.bind (answers_pure _)
    | none =>
      rw [hanswer] at hhere
      refine hhere.bind ?_
      by_cases hend : pattern.anchored = true ∨ subject.bytes.size ≤ s
      · rw [if_pos hend, hreports.unique (reports_nowhere hend hanswer)]
        exact answers_pure none
      · obtain ⟨hanchored, hlt⟩ := not_or.mp hend
        obtain ⟨later?, hlater⟩ := exists_reports answer (lookouts subject.bytes pattern (s + 1))
        rw [if_neg hend, hreports.unique (hlater.earlier hanchored hanswer)]
        exact ih _ (by omega) (by omega) hlater rfl

end Answers

/-! ## Escaping -/

/-- Whether the byte is an ASCII letter or digit. -/
def isLetterOrDigit (b : UInt8) : Bool := within 'a' 'z' (lower b) || within '0' '9' b

/-- A byte, with an escape byte before it if it is neither a letter nor a digit. -/
def escapeByte (b : UInt8) : List UInt8 := if isLetterOrDigit b then [b] else [escape, b]

/-- **The pattern that stands for a text**: each byte of the text that is neither a letter nor a
digit is escaped. -/
def escaped (text : ByteArray) : ByteArray := ⟨(text.data.toList.flatMap escapeByte).toArray⟩

/-- What an escaped byte is read as. -/
def escapedClass (b : UInt8) : CharClass := if isLetterOrDigit b then .literal b else .escaped b

section Bytes

variable {b : UInt8}

theorem ne_of_isLetterOrDigit {c : UInt8} (hb : isLetterOrDigit b = true)
    (hc : isLetterOrDigit c = false) : b ≠ c := by
  rintro rfl
  rw [hb] at hc
  cases hc

/-- A letter or digit has no meaning of its own. -/
theorem not_special_of_isLetterOrDigit (hb : isLetterOrDigit b = true) : ∀ c ∈ specials, b ≠ c := by
  have hspecials : ∀ c ∈ specials, isLetterOrDigit c = false := by decide +kernel
  exact fun c hc => ne_of_isLetterOrDigit hb (hspecials c hc)

/-- Only a letter names a class. -/
theorem namedClass?_eq_none (h : isLetterOrDigit b = false) : namedClass? (lower b) = none := by
  have hletter : within 'a' 'z' (lower b) = false := (Bool.or_eq_false_iff.mp h).1
  have hne (c : UInt8) (hc : within 'a' 'z' c = true) : lower b ≠ c := by
    rintro rfl
    rw [hletter] at hc
    cases hc
  simp only [namedClass?, hne (byte 'a') rfl, hne (byte 'c') rfl, hne (byte 'd') rfl,
    hne (byte 'g') rfl, hne (byte 'l') rfl, hne (byte 'p') rfl, hne (byte 's') rfl,
    hne (byte 'u') rfl, hne (byte 'w') rfl, hne (byte 'x') rfl, if_false]

/-- **An escaped byte stands for itself.** -/
theorem covers_escapedClass (b c : UInt8) : (escapedClass b).covers c = (b == c) := by
  unfold escapedClass
  split
  case isTrue => rfl
  case isFalse hb =>
    rw [CharClass.covers, escapeCovers, namedClass?_eq_none (Bool.not_eq_true _ ▸ hb)]

/-- What follows an item does not repeat it: only bytes that are escaped could. -/
theorem repetition_escaped_eq_none (bytes : List UInt8) :
    (bytes.flatMap escapeByte).head?.bind Repetition.ofByte? = none := by
  cases bytes with
  | nil => rfl
  | cons b rest =>
    rw [List.flatMap_cons, escapeByte]
    split
    case isTrue hb => exact Repetition.ofByte?_eq_none (not_special_of_isLetterOrDigit hb)
    case isFalse => rfl

end Bytes

section Reading

variable {pattern : ByteArray} {p : Nat} {b : UInt8} {bytes : List UInt8}

theorem byteAt_of_bytesFrom (h : bytesFrom pattern p = b :: bytes) :
    byteAt pattern p = .ok b := by
  rw [byteAt, byteAt?_eq_head?, h]
  rfl

/-- A letter or digit is read as itself. -/
theorem read_letterOrDigit (hb : isLetterOrDigit b = true)
    (h : bytesFrom pattern p = b :: bytes.flatMap escapeByte) :
    Item.read pattern p = .ok (.single (.literal b) .once, p + 1) := by
  have honce : (byteAt? pattern (p + 1)).bind Repetition.ofByte? = none := by
    rw [byteAt?_eq_head?, bytesFrom_succ h, repetition_escaped_eq_none]
  exact Item.read_literal (byteAt_of_bytesFrom h) (not_special_of_isLetterOrDigit hb)
    (ne_of_isLetterOrDigit hb (by decide)) honce

/-- Another byte is read together with the escape byte before it. -/
theorem read_escaped (hb : isLetterOrDigit b = false)
    (h : bytesFrom pattern p = escape :: b :: bytes.flatMap escapeByte) :
    Item.read pattern p = .ok (.single (.escaped b) .once, p + 2) := by
  have hhere := byteAt_of_bytesFrom h
  have hbehind := bytesFrom_succ h
  have hfollowing : byteAt? pattern (p + 1) = some b := by
    rw [byteAt?_eq_head?, hbehind]
    rfl
  have honce : (byteAt? pattern (p + 2)).bind Repetition.ofByte? = none := by
    rw [byteAt?_eq_head?, bytesFrom_succ hbehind, repetition_escaped_eq_none]
  have hbalance : b ≠ byte 'b' := fun hb' => ne_of_isLetterOrDigit (by decide) hb hb'.symm
  have hfrontier : b ≠ byte 'f' := fun hb' => ne_of_isLetterOrDigit (by decide) hb hb'.symm
  have hdigit : within '0' '9' b = false := (Bool.or_eq_false_iff.mp hb).2
  have hopen : escape ≠ byte '(' := by decide
  have hclose : escape ≠ byte ')' := by decide
  have hdollar : escape ≠ byte '$' := by decide
  have hdot : escape ≠ byte '.' := by decide
  simp only [Item.read, Item.readSingle, CharClass.read, hhere, hfollowing, bind, Except.bind,
    pure, Except.pure, hopen, hclose, hdollar, hdot, if_false, false_and, if_true, Option.some_inj,
    hbalance, hfrontier, and_false, Option.any_some, hdigit, Bool.false_eq_true, honce]

/-- What has been made of bytes is read as those bytes. -/
theorem readAll_of_bytesFrom (h : bytesFrom pattern p = bytes.flatMap escapeByte) :
    Item.readAll pattern p = bytes.map fun b => .single (escapedClass b) .once := by
  induction bytes generalizing p with
  | nil =>
    refine Item.readAll_of_le (Nat.not_lt.mp fun hp => ?_)
    rw [bytesFrom_of_lt hp] at h
    cases h
  | cons b rest ih =>
    rw [List.flatMap_cons, escapeByte] at h
    rw [List.map_cons, escapedClass]
    split at h
    case isTrue hb =>
      have hp := lt_size_of_bytesFrom h
      rw [if_pos hb, Item.readAll_of_read hp (read_letterOrDigit hb h), ih (bytesFrom_succ h)]
    case isFalse hb =>
      have hp := lt_size_of_bytesFrom h
      have hread := read_escaped (Bool.not_eq_true _ ▸ hb) h
      rw [if_neg hb, Item.readAll_of_read hp hread, ih (bytesFrom_succ (bytesFrom_succ h))]

/-- **The items of an escaped text** are its bytes. -/
theorem readAll_escaped (text : ByteArray) :
    Item.readAll (escaped text) 0
      = (bytesFrom text 0).map fun b => .single (escapedClass b) .once :=
  readAll_of_bytesFrom rfl

/-- An anchor at the beginning of a text is escaped as well. -/
theorem ofBytes_escaped (text : ByteArray) :
    ofBytes (escaped text) = ⟨false, Item.readAll (escaped text) 0⟩ := by
  refine if_neg fun hcaret => ?_
  have hfirst : bytesFrom (escaped text) 0 = (bytesFrom text 0).flatMap escapeByte := rfl
  rw [byteAt?_eq_head?, hfirst] at hcaret
  cases hbytes : bytesFrom text 0 with
  | nil =>
    rw [hbytes] at hcaret
    cases hcaret
  | cons b rest =>
    rw [hbytes, List.flatMap_cons, escapeByte] at hcaret
    split at hcaret
    case isTrue hb => exact ne_of_isLetterOrDigit hb (by decide) (Option.some.inj hcaret)
    case isFalse => exact absurd (Option.some.inj hcaret) (by decide)

end Reading

/-! ## The search -/

section Search

variable {subject : Subject} {text : ByteArray} {s : Nat}

/-- A search by items that stand for bytes finds these bytes where they stand. -/
theorem answers_matchList_escaped (subject : Subject) (bytes : List UInt8) (room s : Nat)
    (captures : Captures) :
    Answers
      (Item.matchList subject (bytes.map fun b => .single (escapedClass b) .once) room s captures)
      (if bytes.isPrefixOf (bytesFrom subject.bytes s) then some (s + bytes.length, captures)
        else none) := by
  induction bytes generalizing s with
  | nil => exact (answers_tick _).bind (answers_pure _)
  | cons b rest ih =>
    rw [List.map_cons, matchList_cons]
    refine (answers_tick _).bind ?_
    simp only [Item.search, Subject.matchesAt, byteAt?_eq_head?]
    cases hbytes : bytesFrom subject.bytes s with
    | nil => exact answers_pure none
    | cons c following =>
      have ih := ih (s + 1)
      rw [bytesFrom_succ hbytes, Nat.add_assoc, Nat.add_comm 1] at ih
      rw [List.head?_cons, Option.any_some, covers_escapedClass, List.isPrefixOf_cons_cons]
      cases b == c with
      | true => exact ih
      | false => exact answers_pure none

/-- **At each position an escaped text matches where the text stands.** -/
theorem answers_matchAt_escaped (subject : Subject) (text : ByteArray) (s : Nat) :
    Answers (matchAt subject (ofBytes (escaped text)) s) (textMatch? subject.bytes text s) := by
  have hmatch : textMatch? subject.bytes text s
      = (if (bytesFrom text 0).isPrefixOf (bytesFrom subject.bytes s) then
          some (s + (bytesFrom text 0).length, []) else none).map
        fun way : Nat × Captures => ⟨s, way.1, way.2⟩ := by
    rw [textMatch?, length_bytesFrom, Nat.sub_zero]
    split <;> rfl
  rw [matchAt, ofBytes_escaped, readAll_escaped, hmatch]
  exact (answers_matchList_escaped subject (bytesFrom text 0) _ s []).bind (answers_pure _)

/-- **The search for a text answers** with what it should report. -/
theorem answers_findText? {pattern : Pattern} {found? : Option Match}
    (hanchored : pattern.anchored ≠ true) (hs : s ≤ subject.bytes.size)
    (h : Reports (textMatch? subject.bytes text) (lookouts subject.bytes pattern s) found?) :
    Answers (findText? subject text s : SearchM _) found? := by
  refine answers_lift ((findText?_eq_error_or_ok subject text s).imp_right ?_)
  rintro ⟨found?', hfound⟩
  rw [hfound, (reports_of_findText? hanchored hs hfound).unique h]

/-- What need not be escaped is the text itself. -/
theorem escaped_of_isPlain (h : isPlain (escaped text) = true) : escaped text = text := by
  have hletters : ∀ b ∈ text.data.toList, isLetterOrDigit b = true := by
    intro b hb
    by_contra hspecial
    have hmem : escape ∈ (escaped text).data.toList := by
      refine List.mem_flatMap.mpr ⟨b, hb, ?_⟩
      rw [escapeByte, if_neg hspecial]
      exact List.mem_cons_self
    have hall := Array.all_eq_true_iff_forall_mem.mp h escape (Array.mem_toList_iff.mp hmem)
    cases hall
  have hbytes : text.data.toList.flatMap escapeByte = text.data.toList :=
    calc text.data.toList.flatMap escapeByte
      _ = text.data.toList.flatMap ([·]) :=
        List.flatMap_congr fun b hb => if_pos (hletters b hb)
      _ = text.data.toList := List.flatMap_singleton' _
  rw [escaped, hbytes]

/-- What should be reported of a text by a search from a 1-based start, which goes on to the end. -/
def ReportsText (bytes text : ByteArray) (start : Option Int) : Option Match → Prop :=
  Reports (textMatch? bytes text)
    (lookouts bytes (ofBytes (escaped text)) (startOffset start bytes.size))

variable {start : Option Int} {found? : Option Match}

/-- **A plain search answers** with what should be reported of the text. -/
theorem answers_find_plain (h : ReportsText subject.bytes text start found?) :
    Answers (find subject text start true) found? := by
  unfold find
  dsimp only
  split
  case isTrue hs =>
    rw [h.unique (reports_past hs)]
    exact answers_pure none
  case isFalse hs =>
    rw [Bool.true_or, if_pos rfl]
    exact answers_findText? (ofBytes_escaped text ▸ nofun) (Nat.not_lt.mp hs) h

/-- **The search for the escaped text answers** with the same. -/
theorem answers_find_escaped (h : ReportsText subject.bytes text start found?) :
    Answers (find subject (escaped text) start false) found? := by
  by_cases hplain : isPlain (escaped text) = true
  · have hfind : find subject (escaped text) start false = find subject text start true := by
      unfold find
      rw [hplain, escaped_of_isPlain hplain]
      rfl
    rw [hfind]
    exact answers_find_plain h
  · rw [find_eq_findMatch (by rwa [Bool.false_or])]
    unfold findMatch
    dsimp only
    split
    case isTrue hs =>
      rw [h.unique (reports_past hs)]
      exact answers_pure none
    case isFalse hs =>
      exact answers_find? (answers_matchAt_escaped subject text) (Nat.not_lt.mp hs) h

end Search

end LedgerReports.Pattern
