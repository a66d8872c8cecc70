import LedgerReports.Proofs.Pattern.Checked
import LedgerReports.Proofs.Text.Utf8
import Mathlib

/-!
# The buffer of a replacing

A replacing writes into a buffer, and looks at its size once in each turn.
Between two looks a whole replacement text is written, with as many copies of the
match as the text asks for, and after the last look the rest of the subject is
written too. So the bound that is looked at is not a bound of what the buffer
holds. This module says what it holds.

A turn begins in a state that `Turns`, and the replacing is over in a state that
`EndsIn`; `run_eq_ok_iff` says that what is given is what such a state comes
to. `Buffers` are all contents of the buffer: those at the beginning of a
turn, those while a replacement text is written piece by piece, the one after a
byte was copied, and the last one.

How much a replacement text writes is bounded by its length and by the
subject once for each of its references (`size_written_le`).
-/

namespace LedgerReports.Pattern

/-! ## What a replacement text writes -/

/-- Whether a piece refers to the match or to a capture. -/
def Piece.refers : Piece → Bool
  | whole | capture _ => true
  | byte _ | invalid => false

/-- How often a replacement text refers to the match or to a capture. -/
def references (text : ByteArray) : Nat := (Piece.list text.toList).countP Piece.refers

/-- What the pieces of a replacement text write for a match, up to the first that
stands for nothing. -/
def written (subject : ByteArray) (m : Match) : List Piece → ByteArray
  | [] => ByteArray.empty
  | piece :: pieces =>
    match piece.expand subject m with
    | .ok part => part ++ written subject m pieces
    | .error _ => ByteArray.empty

section Written

variable {bytes : ByteArray} {m : Match}

/-- What is written after something else is what is written alone. -/
theorem foldlM_expand_eq_ok {pieces : List Piece} {out image : ByteArray} :
    pieces.foldlM (fun out piece => return out ++ (← piece.expand bytes m)) out = .ok image
      ↔ ∃ added, expand bytes pieces m = .ok added ∧ image = out ++ added := by
  induction pieces generalizing out image with
  | nil =>
    constructor
    · rintro ⟨⟩
      exact ⟨ByteArray.empty, rfl, ByteArray.append_empty.symm⟩
    · rintro ⟨_, ⟨⟩, rfl⟩
      exact congrArg Except.ok ByteArray.append_empty.symm
  | cons piece pieces ih =>
    rw [expand, List.foldlM_cons, List.foldlM_cons]
    cases hpart : piece.expand bytes m with
    | error e => exact iff_of_false nofun (by rintro ⟨_, ⟨⟩, _⟩)
    | ok part =>
      show pieces.foldlM _ (out ++ part) = _
        ↔ ∃ added, pieces.foldlM _ (ByteArray.empty ++ part) = _ ∧ _
      rw [ih]
      constructor
      · rintro ⟨added, hadded, rfl⟩
        exact ⟨part ++ added, ih.mpr ⟨added, hadded, by rw [ByteArray.empty_append]⟩,
          ByteArray.append_assoc⟩
      · rintro ⟨_, hrest, rfl⟩
        obtain ⟨added, hadded, rfl⟩ := ih.mp hrest
        exact ⟨added, hadded, by rw [ByteArray.empty_append, ByteArray.append_assoc]⟩

theorem expand_cons_eq_ok {piece : Piece} {pieces : List Piece} {image : ByteArray} :
    expand bytes (piece :: pieces) m = .ok image ↔ ∃ part rest, piece.expand bytes m = .ok part
      ∧ expand bytes pieces m = .ok rest ∧ image = part ++ rest := by
  rw [expand, List.foldlM_cons]
  cases hpart : piece.expand bytes m with
  | error e => exact iff_of_false nofun (by rintro ⟨_, _, ⟨⟩, _⟩)
  | ok part =>
    show pieces.foldlM _ (ByteArray.empty ++ part) = _ ↔ _
    rw [foldlM_expand_eq_ok, ByteArray.empty_append]
    constructor
    · rintro ⟨rest, hrest, rfl⟩
      exact ⟨part, rest, rfl, hrest, rfl⟩
    · rintro ⟨_, rest, ⟨⟩, hrest, rfl⟩
      exact ⟨rest, hrest, rfl⟩

/-- **All that is written is written by some of the first pieces**, and nothing more is written by
others of them. -/
theorem expand_written (pieces : List Piece) :
    (∃ first, first <+: pieces ∧ expand bytes first m = .ok (written bytes m pieces))
      ∧ ∀ first image, first <+: pieces → expand bytes first m = .ok image →
        image.size ≤ (written bytes m pieces).size := by
  induction pieces with
  | nil =>
    refine ⟨⟨[], List.prefix_refl _, rfl⟩, fun first image hfirst himage => ?_⟩
    rw [List.prefix_nil.mp hfirst] at himage
    cases himage
    exact Nat.le_refl _
  | cons piece pieces ih =>
    obtain ⟨⟨first, hfirst, hwritten⟩, hmost⟩ := ih
    cases hpart : piece.expand bytes m with
    | error e =>
      rw [written, hpart]
      refine ⟨⟨[], List.nil_prefix, rfl⟩, fun first image hfirst himage => ?_⟩
      obtain rfl | ⟨first, rfl, -⟩ := List.prefix_cons_iff.mp hfirst
      · cases himage
        exact Nat.le_refl _
      · obtain ⟨part, -, hpart', -⟩ := expand_cons_eq_ok.mp himage
        cases hpart.symm.trans hpart'
    | ok part =>
      rw [written, hpart]
      refine ⟨⟨piece :: first, List.cons_prefix_cons.mpr ⟨rfl, hfirst⟩,
        expand_cons_eq_ok.mpr ⟨part, _, hpart, hwritten, rfl⟩⟩, fun first image hfirst himage => ?_⟩
      obtain rfl | ⟨first', rfl, hfirst'⟩ := List.prefix_cons_iff.mp hfirst
      · cases himage
        exact Nat.zero_le _
      · obtain ⟨_, rest, hpart', hrest, rfl⟩ := expand_cons_eq_ok.mp himage
        cases hpart.symm.trans hpart'
        have hle := hmost first' rest hfirst' hrest
        show (part ++ rest).size ≤ (part ++ _).size
        rw [ByteArray.size_append, ByteArray.size_append]
        omega

/-- A number is written with at most as many digits as it counts, and one more. -/
theorem size_toBytes_position_le (index : Nat) :
    (Captured.position index).toBytes.size ≤ index + 1 := by
  have hascii : ∀ l : List Char, (∀ c ∈ l, c.isDigit = true) → String.utf8Len l = l.length := by
    intro l h
    induction l with
    | nil => rfl
    | cons c l ih =>
      obtain ⟨hc, hl⟩ := List.forall_mem_cons.mp h
      rw [Char.isDigit, Bool.and_eq_true, decide_eq_true_iff, decide_eq_true_iff] at hc
      have hone : c.utf8Size = 1 := Char.utf8Size_eq_one_iff.mpr (UInt32.le_trans hc.2 (by decide))
      rw [String.utf8Len_cons, ih hl, hone, List.length_cons]
  have hlength : (Nat.toDigits 10 index).length ≤ index + 1 :=
    Nat.toDigits_length 10 index (index + 1) (Nat.succ_pos _)
      (Nat.lt_of_lt_of_le (Nat.lt_succ_self _) (Nat.lt_pow_self (by decide)).le)
  show (toString index).utf8ByteSize ≤ index + 1
  rw [show toString index = String.ofList (Nat.toDigits 10 index) from rfl,
    String.utf8ByteSize_ofList, hascii _ fun c hc => Nat.isDigit_of_mem_toDigits (by decide)
      (by decide) hc]
  exact hlength

/-- What is captured is a part of the subject, or a position in it. -/
theorem size_toBytes_le_of_capture {i : Nat} {value : Captured} (hinside : m.Inside bytes.size)
    (h : m.capture bytes i = .ok value) : value.toBytes.size ≤ bytes.size + 2 := by
  have hslice : ∀ {start stop : Nat} {part : ByteArray}, slice bytes start stop = .ok part →
      part.size ≤ bytes.size + 2 := by
    intro start stop part hpart
    obtain ⟨rfl, -, -⟩ := eq_extract_of_slice hpart
    rw [ByteArray.size_extract]
    omega
  unfold Match.capture at h
  split at h
  case h_1 c hc =>
    have hstart := (hinside.2.2 c (List.mem_of_getElem? hc)).1
    have hstop := hinside.2.1
    unfold Capture.value at h
    split at h
    case h_1 => cases h
    case h_2 =>
      cases h
      have hdigits := size_toBytes_position_le (c.start + 1)
      omega
    case h_3 length _ =>
      obtain ⟨part, hpart, rfl⟩ := exists_of_map_eq_ok h
      exact hslice hpart
  case h_2 =>
    split at h
    case isTrue =>
      obtain ⟨part, hpart, rfl⟩ := exists_of_map_eq_ok h
      exact hslice hpart
    case isFalse => cases h

/-- What a reference stands for is hardly longer than the subject. -/
theorem size_le_of_refers {piece : Piece} {part : ByteArray} (hinside : m.Inside bytes.size)
    (hrefers : piece.refers = true) (h : piece.expand bytes m = .ok part) :
    part.size ≤ bytes.size + 2 := by
  cases piece with
  | byte b => cases hrefers
  | whole =>
    obtain ⟨rfl, -, -⟩ := eq_extract_of_slice h
    rw [ByteArray.size_extract]
    omega
  | capture i =>
    obtain ⟨value, hvalue, rfl⟩ := exists_of_map_eq_ok h
    exact size_toBytes_le_of_capture hinside hvalue
  | invalid => cases hrefers

theorem size_written_cons_le {piece : Piece} {k : Nat}
    (h : ∀ part, piece.expand bytes m = .ok part → part.size ≤ k) (pieces : List Piece) :
    (written bytes m (piece :: pieces)).size ≤ k + (written bytes m pieces).size := by
  rw [written]
  split
  case h_1 part hpart =>
    rw [ByteArray.size_append]
    exact Nat.add_le_add_right (h part hpart) _
  case h_2 => exact Nat.zero_le _

theorem size_written_byte_cons_le (b : UInt8) (pieces : List Piece) :
    (written bytes m (.byte b :: pieces)).size ≤ 1 + (written bytes m pieces).size := by
  refine size_written_cons_le (fun part hpart => ?_) pieces
  cases hpart
  exact Nat.le_refl 1

/-- **How much a replacement text writes at most**: what it has besides its references,
and the subject for each of these. -/
theorem size_written_le (hinside : m.Inside bytes.size) (text : List UInt8) :
    (written bytes m (Piece.list text)).size
      ≤ text.length + (Piece.list text).countP Piece.refers * bytes.size := by
  fun_induction Piece.list text with
  | case1 => exact Nat.zero_le _
  | case2 b rest hb ih =>
    have hle : (written bytes m (.byte b :: Piece.list rest)).size ≤ _ :=
      size_written_byte_cons_le b _
    rw [List.countP_cons_of_neg Bool.false_ne_true, List.length_cons]
    omega
  | case3 b hb => exact Nat.zero_le _
  | case4 b hb rest ih =>
    have hle : (written bytes m (.byte escape :: Piece.list rest)).size ≤ _ :=
      size_written_byte_cons_le escape _
    rw [List.countP_cons_of_neg Bool.false_ne_true, List.length_cons, List.length_cons]
    omega
  | case5 b hb rest _ ih =>
    -- the reference takes two bytes of the text
    have hle : (written bytes m (.whole :: Piece.list rest)).size ≤ _ :=
      size_written_cons_le (fun _ => size_le_of_refers hinside rfl) _
    rw [List.countP_cons_of_pos rfl, List.length_cons, List.length_cons, Nat.succ_mul]
    omega
  | case6 b hb d rest _ _ hd ih =>
    have hle : (written bytes m (.capture (d - Pattern.byte '1').toNat :: Piece.list rest)).size
        ≤ _ :=
      size_written_cons_le (fun _ => size_le_of_refers hinside rfl) _
    rw [List.countP_cons_of_pos rfl, List.length_cons, List.length_cons, Nat.succ_mul]
    omega
  | case7 b hb d rest _ _ _ => exact Nat.zero_le _

end Written

/-! ## The states of a replacing -/

section States

variable (subject : Subject) (pattern : Pattern) (replacer : Replacer (Except Error))
variable (limit : Int) (maxLength : Nat)

/-- **A turn begins in a state** of a replacing that goes on until `limit` matches have been met. -/
inductive Turns : Replacing → Prop where
  /-- Nothing has been done. -/
  | start : Turns {}
  /-- A turn has led on. -/
  | onward {r r' : Replacing} (h : Turns r) (hlimit : (r.count : Int) < limit)
      (hstep : r.step subject pattern replacer maxLength = .ok (.onward r')) : Turns r'

/-- **A replacing is over in a state.** -/
inductive EndsIn : Replacing → Prop where
  /-- The limit is reached. -/
  | limit {r : Replacing} (h : Turns subject pattern replacer limit maxLength r)
      (hlimit : limit ≤ r.count) : EndsIn r
  /-- A turn has said that no more match is looked for. -/
  | done {r r' : Replacing} (h : Turns subject pattern replacer limit maxLength r)
      (hlimit : (r.count : Int) < limit)
      (hstep : r.step subject pattern replacer maxLength = .ok (.done r')) : EndsIn r'

/-- **In a turn a search is made**, and this is what it reports. -/
structure Searches (r : Replacing) (found? : Option Match) : Prop where
  /-- A turn has begun. -/
  turns : Turns subject pattern replacer limit maxLength r
  /-- The limit is not reached. -/
  limit : (r.count : Int) < limit
  /-- The search is made where the replacing stands. -/
  reports : ∃ steps, (r.cursor.matchHere subject pattern).run r.steps = .ok (found?, steps)

end States

section Turns

variable {subject : Subject} {pattern : Pattern} {replacer : Replacer (Except Error)}
variable {limit : Int} {maxLength : Nat} {r : Replacing} {progress : Replacing.Progress}

theorem settle_eq_onward {r' : Replacing} (h : r.settle pattern maxLength = .ok (.onward r')) :
    r' = r ∧ r.out.size ≤ maxLength := by
  unfold Replacing.settle at h
  split at h
  case isTrue => cases h
  case isFalse hsize =>
    split at h
    case isTrue => cases h
    case isFalse =>
      cases h
      exact ⟨rfl, Nat.not_lt.mp hsize⟩

theorem settle_eq_done {r' : Replacing} (h : r.settle pattern maxLength = .ok (.done r')) :
    r' = r ∧ r.out.size ≤ maxLength ∧ pattern.anchored = true := by
  unfold Replacing.settle at h
  split at h
  case isTrue => cases h
  case isFalse hsize =>
    split at h
    case isTrue hanchored =>
      cases h
      exact ⟨rfl, Nat.not_lt.mp hsize, hanchored⟩
    case isFalse => cases h

/-- **What a step does** when it goes well: a match is met, a byte is copied, or the subject is at
its end. -/
theorem step_eq_ok (h : r.step subject pattern replacer maxLength = .ok progress) :
    (∃ found image? steps,
      (r.cursor.matchHere subject pattern).run r.steps = .ok (some found, steps)
        ∧ (found.start ≤ found.stop ∧ found.stop ≤ subject.bytes.size)
        ∧ ({ r with steps }.afterMatch found (found.text subject.bytes) image?).settle pattern
          maxLength = .ok progress)
    ∨ (∃ b steps, byteAt? subject.bytes r.cursor.position = some b
        ∧ ({ r with steps }.afterByte b).settle pattern maxLength = .ok progress)
    ∨ ∃ steps, byteAt? subject.bytes r.cursor.position = none
        ∧ progress = .done { r with steps } := by
  obtain ⟨⟨found?, steps⟩, hrun, h⟩ := exists_of_bind_eq_ok h
  cases found? with
  | some found =>
    obtain ⟨kept, hkept, h⟩ := exists_of_bind_eq_ok h
    obtain ⟨rfl, hstop⟩ := eq_extract_of_slice hkept
    obtain ⟨image?, -, hsettle⟩ := exists_of_bind_eq_ok h
    exact .inl ⟨found, image?, steps, hrun, hstop, hsettle⟩
  | none =>
    dsimp only at h
    cases hb : byteAt? subject.bytes r.cursor.position with
    | some b =>
      rw [hb] at h
      exact .inr (.inl ⟨b, steps, rfl, h⟩)
    | none =>
      rw [hb] at h
      cases h
      exact .inr (.inr ⟨steps, rfl, rfl⟩)

/-- Where a step leads on to: no more is written than is allowed, the replacing stands inside the
subject, and there are fewer steps left. -/
theorem of_step_eq_onward {r' : Replacing}
    (h : r.step subject pattern replacer maxLength = .ok (.onward r')) :
    r'.out.size ≤ maxLength ∧ r'.cursor.position ≤ subject.bytes.size
      ∧ stepsLeft subject r'.cursor < stepsLeft subject r.cursor := by
  obtain ⟨found, image?, steps, hrun, hstop, hsettle⟩ | ⟨b, steps, hb, hsettle⟩ | ⟨_, -, hdone⟩ :=
    step_eq_ok h
  · obtain ⟨rfl, hout⟩ := settle_eq_onward hsettle
    obtain ⟨hfound, hcounts⟩ := of_yields_matchHere_some (Yields.of_run hrun)
    exact ⟨hout, hstop.2, stepsLeft_past_lt hfound hcounts hstop⟩
  · obtain ⟨rfl, hout⟩ := settle_eq_onward hsettle
    have hlt := lt_size_of_byteAt? hb
    exact ⟨hout, hlt, stepsLeft_skip_lt hlt⟩
  · cases hdone

/-- Where a replacing is over after a step: no more is written than is allowed, and the subject is
at its end or the pattern is anchored. -/
theorem of_step_eq_done {r' : Replacing} (hout : r.out.size ≤ maxLength)
    (h : r.step subject pattern replacer maxLength = .ok (.done r')) :
    r'.out.size ≤ maxLength
      ∧ (pattern.anchored = false → subject.bytes.size ≤ r'.cursor.position) := by
  obtain ⟨found, image?, steps, -, -, hsettle⟩ | ⟨b, steps, -, hsettle⟩ | ⟨_, hend, hdone⟩ :=
    step_eq_ok h
  · obtain ⟨rfl, hout, hanchored⟩ := settle_eq_done hsettle
    exact ⟨hout, fun hnot => nomatch hanchored.symm.trans hnot⟩
  · obtain ⟨rfl, hout, hanchored⟩ := settle_eq_done hsettle
    exact ⟨hout, fun hnot => nomatch hanchored.symm.trans hnot⟩
  · cases hdone
    exact ⟨hout, fun _ => size_le_of_byteAt?_eq_none hend⟩

/-- **What has been written when a turn begins is not more than is allowed**, and the replacing
stands inside the subject. -/
theorem Turns.bounds (h : Turns subject pattern replacer limit maxLength r) :
    r.out.size ≤ maxLength ∧ r.cursor.position ≤ subject.bytes.size := by
  cases h with
  | start => exact ⟨Nat.zero_le _, Nat.zero_le _⟩
  | onward _ _ hstep =>
    obtain ⟨hout, hposition, -⟩ := of_step_eq_onward hstep
    exact ⟨hout, hposition⟩

/-- The same is so when a replacing is over, before the rest of the subject is written. There is
no rest unless the limit is reached or the pattern is anchored. -/
theorem EndsIn.bounds (h : EndsIn subject pattern replacer limit maxLength r) :
    r.out.size ≤ maxLength ∧ (pattern.anchored = false → (r.count : Int) < limit →
      subject.bytes.size ≤ r.cursor.position) := by
  cases h with
  | limit h hlimit => exact ⟨h.bounds.1, fun _ hlt => absurd hlimit (Int.not_le.mpr hlt)⟩
  | done h hlimit hstep =>
    obtain ⟨hout, hend⟩ := of_step_eq_done h.bounds.1 hstep
    exact ⟨hout, fun hanchored _ => hend hanchored⟩

/-! ## Runs -/

theorem run_succ (budget : Nat) (hlimit : (r.count : Int) < limit) :
    Replacing.run subject pattern replacer limit maxLength (budget + 1) r
      = r.step subject pattern replacer maxLength >>= fun
        | .onward r => Replacing.run subject pattern replacer limit maxLength budget r
        | .done r => .ok (r.finish subject) := by
  rw [Replacing.run, if_neg (Int.not_le.mpr hlimit)]
  rfl

/-- A state in which a turn begins is one that the run comes to, with steps to spare. -/
theorem Turns.exists_run_eq (h : Turns subject pattern replacer limit maxLength r) :
    ∃ budget, stepsLeft subject r.cursor < budget
      ∧ Replacing.run subject pattern replacer limit maxLength (2 * (subject.bytes.size + 1)) {}
        = Replacing.run subject pattern replacer limit maxLength budget r := by
  induction h with
  | start => exact ⟨_, stepsLeft_start_lt subject, rfl⟩
  | onward h hlimit hstep ih =>
    obtain ⟨budget, hbudget, heq⟩ := ih
    obtain ⟨-, -, hfewer⟩ := of_step_eq_onward hstep
    cases budget with
    | zero => cases hbudget
    | succ budget =>
      refine ⟨budget, by omega, ?_⟩
      rw [heq, run_succ budget hlimit, hstep]
      rfl

/-- A replacing fails when a step does. -/
theorem Turns.run_eq_error {e : Error} (h : Turns subject pattern replacer limit maxLength r)
    (hlimit : (r.count : Int) < limit)
    (hstep : r.step subject pattern replacer maxLength = .error e) :
    Replacing.run subject pattern replacer limit maxLength (2 * (subject.bytes.size + 1)) {}
      = .error e := by
  obtain ⟨budget, hbudget, heq⟩ := h.exists_run_eq
  cases budget with
  | zero => cases hbudget
  | succ budget =>
    rw [heq, run_succ budget hlimit, hstep]
    rfl

theorem EndsIn.run_eq (h : EndsIn subject pattern replacer limit maxLength r) :
    Replacing.run subject pattern replacer limit maxLength (2 * (subject.bytes.size + 1)) {}
      = .ok (r.finish subject) := by
  cases h with
  | limit h hlimit =>
    obtain ⟨budget, hbudget, heq⟩ := h.exists_run_eq
    cases budget with
    | zero => cases hbudget
    | succ budget =>
      rw [heq, Replacing.run, if_pos hlimit]
      rfl
  | done h hlimit hstep =>
    obtain ⟨budget, hbudget, heq⟩ := h.exists_run_eq
    cases budget with
    | zero => cases hbudget
    | succ budget =>
      rw [heq, run_succ budget hlimit, hstep]
      rfl

theorem Turns.exists_endsIn {budget : Nat} {replaced : Replaced}
    (h : Turns subject pattern replacer limit maxLength r)
    (hbudget : stepsLeft subject r.cursor < budget)
    (hrun : Replacing.run subject pattern replacer limit maxLength budget r = .ok replaced) :
    ∃ r', EndsIn subject pattern replacer limit maxLength r' ∧ replaced = r'.finish subject := by
  induction budget generalizing r with
  | zero => cases hbudget
  | succ budget ih =>
    by_cases hlimit : limit ≤ r.count
    · rw [Replacing.run, if_pos hlimit] at hrun
      cases hrun
      exact ⟨r, .limit h hlimit, rfl⟩
    · have hlimit := Int.not_le.mp hlimit
      rw [run_succ budget hlimit] at hrun
      obtain ⟨progress, hstep, hrun⟩ := exists_of_bind_eq_ok hrun
      cases progress with
      | onward r' =>
        obtain ⟨-, -, hfewer⟩ := of_step_eq_onward hstep
        exact ih (.onward h hlimit hstep) (by omega) hrun
      | done r' =>
        cases hrun
        exact ⟨r', .done h hlimit hstep, rfl⟩

/-- **What is given is what a state comes to in which the replacing is over.** -/
theorem run_eq_ok_iff {replaced : Replaced} :
    Replacing.run subject pattern replacer limit maxLength (2 * (subject.bytes.size + 1)) {}
        = .ok replaced
      ↔ ∃ r, EndsIn subject pattern replacer limit maxLength r ∧ replaced = r.finish subject := by
  refine ⟨Turns.start.exists_endsIn (stepsLeft_start_lt subject), ?_⟩
  rintro ⟨r, h, rfl⟩
  exact h.run_eq

end Turns

/-! ## The buffer -/

/-- **The contents of the buffer** at all points of a replacing with a text. -/
inductive Buffers (subject : Subject) (target text : ByteArray) (limit : Int) (maxLength : Nat) :
    ByteArray → Prop where
  /-- At the beginning of a turn. -/
  | turn {r : Replacing}
      (h : Turns subject (ofBytes target) (.ofText subject.bytes text) limit maxLength r) :
      Buffers subject target text limit maxLength r.out
  /-- After a byte has been copied. -/
  | copied {r : Replacing} {b : UInt8}
      (h : Searches subject (ofBytes target) (.ofText subject.bytes text) limit maxLength r none)
      (hb : byteAt? subject.bytes r.cursor.position = some b) :
      Buffers subject target text limit maxLength (r.out.push b)
  /-- While a match is replaced: some first pieces of the text have been written. -/
  | writing {r : Replacing} {found : Match} {first : List Piece} {added : ByteArray}
      (h : Searches subject (ofBytes target) (.ofText subject.bytes text) limit maxLength r
        (some found))
      (hfirst : first <+: Piece.list text.toList)
      (hadded : expand subject.bytes first found = .ok added) :
      Buffers subject target text limit maxLength (r.out ++ added)
  /-- After the rest of the subject has been copied, if a match was replaced. -/
  | rest {r : Replacing}
      (h : EndsIn subject (ofBytes target) (.ofText subject.bytes text) limit maxLength r)
      (hchanged : r.changed = true) :
      Buffers subject target text limit maxLength (r.finish subject).text

theorem size_finish (subject : Subject) (r : Replacing) :
    (r.finish subject).text.size = r.out.size + (subject.bytes.size - r.cursor.position) := by
  rw [Replacing.finish, ByteArray.size_append, ByteArray.size_extract, Nat.min_self]

section Buffers

variable {subject : Subject} {target text : ByteArray} {limit : Int} {maxLength : Nat}
variable {r : Replacing} {found : Match}

/-- A match that is met is inside the subject. -/
theorem Searches.inside {replacer : Replacer (Except Error)}
    (h : Searches subject (ofBytes target) replacer limit maxLength r (some found)) :
    found.Inside subject.bytes.size := by
  obtain ⟨steps, hrun⟩ := h.reports
  have hreads := (agree_matchHere (agreeInside_searchFrom subject target) h.turns.bounds.2).reads
    r.steps
  rw [hrun] at hreads
  exact hreads found rfl

/-- **The buffer stays within a bound exactly when it does at each match**, with all that the
replacement text writes for it. Nothing else takes it further than the subject is long. -/
theorem buffers_within_iff {bound : Nat} (hbound : maxLength + subject.bytes.size ≤ bound) :
    (∀ buffer, Buffers subject target text limit maxLength buffer → buffer.size ≤ bound)
      ↔ ∀ r found, Searches subject (ofBytes target) (.ofText subject.bytes text) limit maxLength r
        (some found) →
        r.out.size + (written subject.bytes found (Piece.list text.toList)).size ≤ bound := by
  constructor
  · intro h r found hsearches
    obtain ⟨first, hfirst, hwritten⟩ := (expand_written (Piece.list text.toList)).1
    rw [← ByteArray.size_append]
    exact h _ (.writing hsearches hfirst hwritten)
  · intro h buffer hbuffer
    cases hbuffer with
    | turn hturns => exact Nat.le_trans hturns.bounds.1 (by omega)
    | copied hsearches hb =>
      have hout := hsearches.turns.bounds.1
      have hlt := lt_size_of_byteAt? hb
      rw [ByteArray.size_push]
      omega
    | @writing r found first added hsearches hfirst hadded =>
      have hle := h r found hsearches
      have hmost := (expand_written (Piece.list text.toList)).2 first added hfirst hadded
      rw [ByteArray.size_append]
      omega
    | rest hends =>
      have hout := hends.bounds.1
      rw [size_finish]
      omega

/-- **How large the buffer becomes at most**: beyond what is allowed there is room for the
replacement text, and for the subject once for each of its references. -/
theorem size_buffer_le {buffer : ByteArray}
    (h : Buffers subject target text limit maxLength buffer) :
    buffer.size ≤ maxLength + max 1 (references text) * subject.bytes.size + text.size := by
  have hone : subject.bytes.size ≤ max 1 (references text) * subject.bytes.size :=
    Nat.le_mul_of_pos_left _ (Nat.le_max_left 1 _)
  refine (buffers_within_iff (by omega)).mpr (fun r found hsearches => ?_) buffer h
  have hout := hsearches.turns.bounds.1
  have hwritten := size_written_le hsearches.inside text.toList
  have hreferences : references text * subject.bytes.size
      ≤ max 1 (references text) * subject.bytes.size :=
    Nat.mul_le_mul_right _ (Nat.le_max_right 1 _)
  have hlength : text.toList.length = text.size := by
    rw [Bytes.toList_eq]
    rfl
  rw [← references] at hwritten
  omega

theorem settle_eq_error (pattern : Pattern) (h : maxLength < r.out.size) :
    r.settle pattern maxLength = .error .resultTooLong := by
  rw [Replacing.settle, if_pos h]

/-- A replacing fails when a match that is replaced makes the text too long. -/
theorem Searches.run_eq_error {image : ByteArray}
    (h : Searches subject (ofBytes target) (.ofText subject.bytes text) limit maxLength r
      (some found))
    (hexpand : expand subject.bytes (Piece.list text.toList) found = .ok image)
    (hlong : maxLength < r.out.size + image.size) :
    Replacing.run subject (ofBytes target) (.ofText subject.bytes text) limit maxLength
      (2 * (subject.bytes.size + 1)) {} = .error .resultTooLong := by
  refine h.turns.run_eq_error h.limit ?_
  obtain ⟨steps, hrun⟩ := h.reports
  have hinside := h.inside
  have hkept : found.whole subject.bytes = .ok (found.text subject.bytes) :=
    if_pos ⟨hinside.1, hinside.2.1⟩
  have hout : maxLength
      < ({ r with steps }.afterMatch found (found.text subject.bytes) (some image)).out.size := by
    show maxLength < (r.out ++ image).size
    rw [ByteArray.size_append]
    exact hlong
  rw [← settle_eq_error (ofBytes target) hout]
  show ((r.cursor.matchHere subject (ofBytes target)).run r.steps >>= _) = _
  rw [hrun]
  show (found.whole subject.bytes >>= fun kept => Replacer.ofText subject.bytes text found >>= _) = _
  rw [hkept, Replacer.ofText, hexpand]
  rfl

/-- A replacing fails when a byte that is copied makes the text too long. -/
theorem Searches.run_eq_error_of_byte {b : UInt8} {replacer : Replacer (Except Error)}
    {pattern : Pattern} (h : Searches subject pattern replacer limit maxLength r none)
    (hb : byteAt? subject.bytes r.cursor.position = some b)
    (hlong : maxLength < r.out.size + 1) :
    Replacing.run subject pattern replacer limit maxLength (2 * (subject.bytes.size + 1)) {}
      = .error .resultTooLong := by
  refine h.turns.run_eq_error h.limit ?_
  obtain ⟨steps, hrun⟩ := h.reports
  have hout : maxLength < ({ r with steps }.afterByte b).out.size := by
    show maxLength < (r.out.push b).size
    rw [ByteArray.size_push]
    exact hlong
  rw [← settle_eq_error pattern hout]
  show ((r.cursor.matchHere subject pattern).run r.steps >>= _) = _
  rw [hrun]
  dsimp only [bind, Except.bind]
  rw [hb]
  rfl

end Buffers

end LedgerReports.Pattern
