import LedgerReports.Pattern.Replace
import LedgerReports.Proofs.Pattern.Ways

/-!
# A subject cut at its matches

A subject is replaced piece by piece: a gap in which nothing matches, a match,
the next gap, and so on up to the last match, after which there is the rest.
`Segment` is a gap together with the match that it leads up to and what is put
in the place of that match; `joined` puts the pieces together again, with either
the matches or what they were replaced with between the gaps. Where the
pieces come from is said by `Cuts`: a gap begins where the walk through the
subject stands and ends where the match begins, the match is what a search from
there has reported, and from no position in the gap has it reported one that
counts.

That nothing of the subject is lost is then `joined_text`: with the matches
themselves between the gaps the pieces are the subject.
-/

namespace LedgerReports.Pattern

/-! ## Segments -/

/-- A gap, the match after it, and what is put in the place of the match. -/
structure Segment where
  /-- The bytes before the match. -/
  gap : ByteArray
  /-- The match. -/
  found : Match
  /-- What is put in its place. -/
  image : ByteArray

/-- The text of a match. -/
def Match.text (m : Match) (bytes : ByteArray) : ByteArray := bytes.extract m.start m.stop

/-- The gaps with something after each, and the rest after the last one. -/
def joined (f : Segment → ByteArray) : List Segment → (rest : ByteArray) → ByteArray
  | [], rest => rest
  | g :: segments, rest => g.gap ++ f g ++ joined f segments rest

/-- **No match counts at a position**: a search from there has reported none, or one
that ends where the last one ended. -/
def Passes (subject : Subject) (pattern : Pattern) (last : Option Nat) (s : Nat) : Prop :=
  ∃ found? : Option Match, Yields (matchAt subject pattern s) found?
    ∧ ∀ m, found? = some m → last = some m.stop

/-- **A subject is cut into segments and a rest**, from where a walk stands. If the
cut is `complete`, no match is left in the rest. -/
inductive Cuts (subject : Subject) (pattern : Pattern) (complete : Prop) :
    Cursor → List Segment → (rest : ByteArray) → Prop where
  /-- There is only the rest. -/
  | rest {c : Cursor} (hposition : c.position ≤ subject.bytes.size)
      (hpasses : complete → ∀ s, c.position ≤ s → s ≤ subject.bytes.size →
        Passes subject pattern c.lastStop s) :
      Cuts subject pattern complete c []
        (subject.bytes.extract c.position subject.bytes.size)
  /-- There is a gap and a match, and what comes after it. -/
  | segment {c : Cursor} {g : Segment} {segments : List Segment} {rest : ByteArray}
      (hstart : c.position ≤ g.found.start)
      (hgap : g.gap = subject.bytes.extract c.position g.found.start)
      (hpasses : ∀ s, c.position ≤ s → s < g.found.start → Passes subject pattern c.lastStop s)
      (hfound : Yields (matchAt subject pattern g.found.start) (some g.found))
      (hcounts : c.lastStop ≠ some g.found.stop)
      (hstop : g.found.start ≤ g.found.stop ∧ g.found.stop ≤ subject.bytes.size)
      (hrest : Cuts subject pattern complete (.past g.found) segments rest) :
      Cuts subject pattern complete c (g :: segments) rest

/-- The match of a segment and what is put in its place. -/
def Segment.substitution (g : Segment) : Match × ByteArray := (g.found, g.image)

section Reports

variable {subject : Subject} {pattern : Pattern} {s : Nat} {c : Cursor} {m : Match}

/-- A match that a search reports begins where the search was made. -/
theorem start_of_yields_matchAt (h : Yields (matchAt subject pattern s) (some m)) :
    m.start = s := by
  obtain ⟨found?, -, h⟩ := h.of_bind
  have hfound := h.of_pure
  cases found? with
  | none => cases hfound
  | some found =>
    cases hfound
    rfl

/-- A match that counts has been reported, and does not end where the last one did. -/
theorem of_yields_matchHere_some (h : Yields (c.matchHere subject pattern) (some m)) :
    Yields (matchAt subject pattern c.position) (some m) ∧ c.lastStop ≠ some m.stop := by
  obtain ⟨found?, hfound, h⟩ := h.of_bind
  obtain ⟨rfl, hcounts⟩ := Option.filter_eq_some_iff.mp h.of_pure.symm
  exact ⟨hfound, of_decide_eq_true hcounts⟩

theorem passes_of_yields_matchHere_none (h : Yields (c.matchHere subject pattern) none) :
    Passes subject pattern c.lastStop c.position := by
  obtain ⟨found?, hfound, h⟩ := h.of_bind
  refine ⟨found?, hfound, fun m hm => ?_⟩
  have hcounts := Option.filter_eq_none_iff.mp h.of_pure.symm m hm
  exact not_not.mp (of_decide_eq_false (Bool.not_eq_true _ ▸ hcounts))

end Reports

/-- A byte of a text is copied. -/
theorem push_eq_append_extract {text : ByteArray} {s : Nat} {b : UInt8}
    (h : byteAt? text s = some b) (out : ByteArray) :
    out.push b = out ++ text.extract s (s + 1) := by
  have hs := lt_size_of_byteAt? h
  unfold byteAt? at h
  rw [dif_pos hs] at h
  cases h
  have hone : (bytesFrom text s).take 1 = [text[s]] := congrArg (List.take 1) (bytesFrom_of_lt hs)
  refine ByteArray.ext (Array.ext' ?_)
  rw [ByteArray.data_append, Array.toList_append, ByteArray.data_extract, Array.toList_extract,
    List.extract_eq_take_drop, Nat.add_sub_cancel_left]
  show (out.data.push text[s]).toList = out.data.toList ++ (bytesFrom text s).take 1
  rw [Array.toList_push, hone]

section Cuts

variable {subject : Subject} {pattern : Pattern} {complete : Prop} {c : Cursor}
variable {segments : List Segment} {rest : ByteArray}

/-- **The gaps, the matches and the rest are the subject**, from where the walk
stands. -/
theorem joined_text (h : Cuts subject pattern complete c segments rest) :
    joined (fun g => g.found.text subject.bytes) segments rest
      = subject.bytes.extract c.position subject.bytes.size := by
  induction h with
  | rest => rfl
  | @segment c g segments rest hstart hgap _ _ _ hstop hrest ih =>
    rw [joined, ih, hgap, Match.text,
      ByteArray.extract_eq_extract_append_extract g.found.start hstart
        (Nat.le_trans hstop.1 hstop.2),
      ByteArray.extract_eq_extract_append_extract g.found.stop hstop.1 hstop.2,
      ByteArray.append_assoc]
    rfl

theorem joined_congr {f f' : Segment → ByteArray} (h : ∀ g ∈ segments, f g = f' g) :
    joined f segments rest = joined f' segments rest := by
  induction segments with
  | nil => rfl
  | cons g segments ih =>
    rw [joined, joined, h g List.mem_cons_self, ih fun g hg => h g (List.mem_cons_of_mem _ hg)]

/-- Less is said of the rest. -/
theorem Cuts.imp {complete' : Prop} (h : Cuts subject pattern complete c segments rest)
    (hcomplete : complete' → complete) : Cuts subject pattern complete' c segments rest := by
  induction h with
  | rest hposition hpasses => exact .rest hposition fun h => hpasses (hcomplete h)
  | segment hstart hgap hpasses hfound hcounts hstop _ ih =>
    exact .segment hstart hgap hpasses hfound hcounts hstop ih

/-- A cut begins one byte earlier if no match counts there. The byte is added to the
first gap, or to the rest. -/
theorem Cuts.of_skip (h : Cuts subject pattern complete c.skip segments rest)
    (hpasses : Passes subject pattern c.lastStop c.position) :
    ∃ segments' rest', Cuts subject pattern complete c segments' rest'
      ∧ segments'.map Segment.substitution = segments.map Segment.substitution
      ∧ ∀ f : Match → ByteArray → ByteArray,
          joined (fun g => f g.found g.image) segments' rest'
            = subject.bytes.extract c.position (c.position + 1)
                ++ joined (fun g => f g.found g.image) segments rest := by
  have hskip : c.skip.position = c.position + 1 := rfl
  cases h with
  | rest hposition hrest =>
    rw [hskip] at hposition
    refine ⟨[], _, .rest (by omega) fun hcomplete s hs hs' => ?_, rfl, fun f => ?_⟩
    · rcases Nat.eq_or_lt_of_le hs with rfl | hlt
      · exact hpasses
      · exact hrest hcomplete s hlt hs'
    · rw [joined, joined, hskip]
      exact ByteArray.extract_eq_extract_append_extract _ (Nat.le_succ _) hposition
  | @segment _ g segments _ hstart hgap hbefore hfound hcounts hstop hrest =>
    rw [hskip] at hstart
    refine ⟨{ g with gap := subject.bytes.extract c.position g.found.start } :: segments, rest,
      .segment (Nat.le_of_succ_le hstart) rfl (fun s hs hs' => ?_) hfound hcounts hstop hrest, rfl,
      fun f => ?_⟩
    · rcases Nat.eq_or_lt_of_le hs with rfl | hlt
      · exact hpasses
      · exact hbefore s hlt hs'
    · rw [joined, joined, hgap, hskip,
        ByteArray.extract_eq_extract_append_extract (c.position + 1) (Nat.le_succ _) hstart]
      simp only [ByteArray.append_assoc]

end Cuts

/-! ## The steps of a replacing -/

section Steps

variable {subject : Subject} {pattern : Pattern} {maxLength : Nat}

/-- How many steps there are still to be made at most: two for each byte that is left,
and one more for an empty match. -/
def stepsLeft (subject : Subject) (c : Cursor) : Nat :=
  2 * (subject.bytes.size - c.position) + if c.lastStop = some c.position then 0 else 1

theorem stepsLeft_start_lt (subject : Subject) :
    stepsLeft subject (.start 0) < 2 * (subject.bytes.size + 1) := by
  have hstart : stepsLeft subject (.start 0) = 2 * (subject.bytes.size - 0) + 1 := rfl
  omega

/-- A match that counts takes a step. -/
theorem stepsLeft_past_lt {c : Cursor} {found : Match}
    (hfound : Yields (matchAt subject pattern c.position) (some found))
    (hcounts : c.lastStop ≠ some found.stop)
    (hstop : found.start ≤ found.stop ∧ found.stop ≤ subject.bytes.size) :
    stepsLeft subject (.past found) < stepsLeft subject c := by
  have hstart := start_of_yields_matchAt hfound
  have hpast : stepsLeft subject (.past found) = 2 * (subject.bytes.size - found.stop) :=
    congrArg (_ + ·) (if_pos rfl)
  rw [hpast, stepsLeft]
  by_cases hempty : found.stop = c.position
  · rw [hempty] at hcounts ⊢
    rw [if_neg hcounts]
    omega
  · omega

/-- A byte that is copied takes a step. -/
theorem stepsLeft_skip_lt {c : Cursor} (h : c.position < subject.bytes.size) :
    stepsLeft subject c.skip < stepsLeft subject c := by
  have hskip : c.skip.position = c.position + 1 := rfl
  rw [stepsLeft, stepsLeft, hskip]
  split <;> split <;> omega

theorem settle_eq_ok {r : Replacing} {progress : Replacing.Progress}
    (h : r.settle pattern maxLength = .ok progress) :
    progress = if pattern.anchored then .done r else .onward r := by
  unfold Replacing.settle at h
  split at h
  case isTrue => cases h
  case isFalse =>
    split at h <;> cases h
    case isTrue hanchored => rw [if_pos hanchored]
    case isFalse hanchored => rw [if_neg hanchored]

end Steps

/-! ## Replacement texts -/

/-- **What a replacement text stands for** in the place of a match: a byte stands
for itself, `%%` for an escape byte, `%0` for the match and `%1` to `%9` for its
captures. -/
inductive Expands (bytes : ByteArray) (m : Match) : List UInt8 → ByteArray → Prop where
  /-- The text is at its end. -/
  | nil : Expands bytes m [] ByteArray.empty
  /-- A byte. -/
  | byte {b : UInt8} {text : List UInt8} {out : ByteArray} (hb : b ≠ Pattern.byte '%')
      (h : Expands bytes m text out) : Expands bytes m (b :: text) (⟨#[b]⟩ ++ out)
  /-- An escape byte. -/
  | escape {text : List UInt8} {out : ByteArray} (h : Expands bytes m text out) :
      Expands bytes m (Pattern.byte '%' :: Pattern.byte '%' :: text) (⟨#[Pattern.byte '%']⟩ ++ out)
  /-- The match. -/
  | whole {text : List UInt8} {out : ByteArray} (h : Expands bytes m text out) :
      Expands bytes m (Pattern.byte '%' :: Pattern.byte '0' :: text) (m.text bytes ++ out)
  /-- A capture. -/
  | capture {d : UInt8} {value : Captured} {text : List UInt8} {out : ByteArray}
      (hd : within '1' '9' d = true)
      (hvalue : m.capture bytes (d - Pattern.byte '1').toNat = .ok value)
      (h : Expands bytes m text out) :
      Expands bytes m (Pattern.byte '%' :: d :: text) (value.toBytes ++ out)

/-- What a replacement text puts in the place of a match. -/
def Replacer.ofText (bytes text : ByteArray) : Replacer (Except Error) :=
  fun found => some <$> expand bytes (Piece.list text.toList) found

section Expand

variable {bytes : ByteArray} {m : Match}

theorem eq_extract_of_slice {text piece : ByteArray} {start stop : Nat}
    (h : slice text start stop = .ok piece) :
    piece = text.extract start stop ∧ start ≤ stop ∧ stop ≤ text.size := by
  unfold slice at h
  split at h
  case isTrue hbounds =>
    cases h
    exact ⟨rfl, hbounds⟩
  case isFalse => cases h

/-- What the pieces from one on stand for comes after what those before it stand
for. -/
theorem foldlM_expand_cons {piece : Piece} {pieces : List Piece} {out image : ByteArray}
    (h : (piece :: pieces).foldlM (fun out piece => return out ++ (← piece.expand bytes m)) out
      = .ok image) :
    ∃ part, piece.expand bytes m = .ok part
      ∧ pieces.foldlM (fun out piece => return out ++ (← piece.expand bytes m)) (out ++ part)
          = .ok image := by
  rw [List.foldlM_cons] at h
  cases hpart : piece.expand bytes m with
  | error e =>
    rw [hpart] at h
    cases h
  | ok part =>
    rw [hpart] at h
    exact ⟨part, rfl, h⟩

/-- A replacement text that has been expanded stands for what has been added. -/
theorem expands_of_foldlM {text : List UInt8} {out image : ByteArray}
    (h : (Piece.list text).foldlM (fun out piece => return out ++ (← piece.expand bytes m)) out
      = .ok image) : ∃ added, image = out ++ added ∧ Expands bytes m text added := by
  fun_induction Piece.list text generalizing out with
  | case1 =>
    cases h
    exact ⟨ByteArray.empty, ByteArray.append_empty.symm, .nil⟩
  | case2 b rest hb ih =>
    obtain ⟨part, hpart, h⟩ := foldlM_expand_cons h
    cases hpart
    obtain ⟨added, rfl, hadded⟩ := ih h
    exact ⟨⟨#[b]⟩ ++ added, ByteArray.append_assoc, .byte hb hadded⟩
  | case3 b hb =>
    obtain ⟨_, hpart, _⟩ := foldlM_expand_cons h
    cases hpart
  | case4 b hb rest ih =>
    obtain ⟨part, hpart, h⟩ := foldlM_expand_cons h
    cases hpart
    obtain ⟨added, rfl, hadded⟩ := ih h
    rw [not_not.mp hb]
    exact ⟨_, ByteArray.append_assoc, .escape hadded⟩
  | case5 b hb rest _ ih =>
    obtain ⟨part, hpart, h⟩ := foldlM_expand_cons h
    obtain ⟨rfl, -⟩ := eq_extract_of_slice hpart
    obtain ⟨added, rfl, hadded⟩ := ih h
    rw [not_not.mp hb]
    exact ⟨_, ByteArray.append_assoc, .whole hadded⟩
  | case6 b hb d rest _ _ hd ih =>
    obtain ⟨part, hpart, h⟩ := foldlM_expand_cons h
    obtain ⟨added, rfl, hadded⟩ := ih h
    rw [not_not.mp hb]
    cases hvalue : m.capture bytes (d - Pattern.byte '1').toNat with
    | error e =>
      rw [Piece.expand, hvalue] at hpart
      cases hpart
    | ok value =>
      rw [Piece.expand, hvalue] at hpart
      cases hpart
      exact ⟨_, ByteArray.append_assoc, .capture hd hvalue hadded⟩
  | case7 b hb d rest _ _ _ =>
    obtain ⟨_, hpart, _⟩ := foldlM_expand_cons h
    cases hpart

/-- **A replacement text that can be expanded stands for what it is expanded to.** -/
theorem expands_of_expand {text : List UInt8} {image : ByteArray}
    (h : expand bytes (Piece.list text) m = .ok image) : Expands bytes m text image := by
  obtain ⟨added, rfl, hadded⟩ := expands_of_foldlM h
  rw [ByteArray.empty_append]
  exact hadded

end Expand

end LedgerReports.Pattern
