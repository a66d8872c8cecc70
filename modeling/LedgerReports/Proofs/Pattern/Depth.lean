import LedgerReports.Proofs.Pattern.Checked
import LedgerReports.Proofs.Pattern.Late
import Mathlib

/-!
# The depth of a search

A search nests at the items of a pattern that capture or that repeat, and it has
room for `maxDepth` levels. How deep it is depends on the pattern alone: an item
that nests is written with one of six bytes (`nestingBytes`), and a search that
has come to a position of the pattern is at most one level deeper than there are
such bytes in front of it (`nestingBefore`). The loops over the subject, which try
one position after the other, stay at their depth.

As for the bounds of a search, this is said by an engine that checks it:
`matchShallow` looks at the depth wherever it comes to in the pattern, and does
something else, whatever that is, where the search is deeper than it should be. If
a pattern has fewer than `maxDepth` of the six bytes then that is the engine, and
there is always room, so that no search fails because it is too complex. These two
are said together by `Shallow`, and the induction that carries them is on what is
left of the pattern (`shallow_matchList`).
-/

namespace LedgerReports.Pattern

/-! ## Bytes that nest -/

/-- The bytes with which a nesting item is written. -/
def nestingBytes : List UInt8 := "()*+-?".toList.map byte

/-- **How many bytes in front of a position may nest.** -/
def nestingBefore (text : ByteArray) (p : Nat) : Nat :=
  (text.data.toList.take p).countP nestingBytes.contains

section Nesting

variable {text : ByteArray} {p stop : Nat} {item : Item}

theorem nestingBefore_mono (h : p ≤ stop) : nestingBefore text p ≤ nestingBefore text stop :=
  (List.take_sublist_take_left h).countP_le

/-- Behind a nesting byte there is one more. -/
theorem nestingBefore_lt {i : Nat} {b : UInt8} (hb : byteAt? text i = some b)
    (hnesting : b ∈ nestingBytes) (hp : p ≤ i) (hstop : i < stop) :
    nestingBefore text p < nestingBefore text stop := by
  have hhere : text.data.toList[i]? = some b := by
    rw [← List.head?_drop, ← hb, byteAt?_eq_head?, bytesFrom]
  have hbehind : nestingBefore text (i + 1) = nestingBefore text i + 1 := by
    rw [nestingBefore, List.take_add_one, hhere, Option.toList_some, List.countP_append,
      List.countP_singleton, if_pos (List.contains_iff_mem.mpr hnesting)]
    rfl
  have hbefore : nestingBefore text p ≤ nestingBefore text i := nestingBefore_mono hp
  have hafter : nestingBefore text (i + 1) ≤ nestingBefore text stop := nestingBefore_mono hstop
  omega

/-- What repeats an item is a nesting byte. -/
theorem mem_nestingBytes_of_ofByte? {b : UInt8} {repetition : Repetition}
    (h : Repetition.ofByte? b = some repetition) : b ∈ nestingBytes := by
  unfold Repetition.ofByte? at h
  split at h
  case isTrue hb => exact hb ▸ by decide
  split at h
  case isTrue hb => exact hb ▸ by decide
  split at h
  case isTrue hb => exact hb ▸ by decide
  split at h
  case isTrue hb => exact hb ▸ by decide
  case isFalse => cases h

/-- A class that is repeated is written with a nesting byte behind it. -/
theorem nestingBefore_lt_of_readSingle (hread : Item.readSingle text p = .ok (item, stop))
    (hnests : item.nests = true) : nestingBefore text p < nestingBefore text stop := by
  obtain ⟨⟨bytes, behind⟩, hclass, hread⟩ := exists_of_bind_eq_ok hread
  have hlt := CharClass.lt_of_read_eq_ok hclass
  dsimp only at hread
  split at hread
  case h_1 repetition hrepetition =>
    cases hread
    obtain ⟨b, hb, hbyte⟩ := Option.bind_eq_some_iff.mp hrepetition
    exact nestingBefore_lt hb (mem_nestingBytes_of_ofByte? hbyte) (Nat.le_of_lt hlt)
      (Nat.lt_succ_self behind)
  case h_2 =>
    cases hread
    cases hnests

/-- **An item that nests is written with a nesting byte.** -/
theorem nestingBefore_lt_of_read (hread : Item.read text p = .ok (item, stop))
    (hnests : item.nests = true) : nestingBefore text p < nestingBefore text stop := by
  have hlt := Item.lt_of_read_eq_ok hread
  obtain ⟨b, hb, hread⟩ := exists_of_bind_eq_ok hread
  have hnesting (h : b ∈ nestingBytes) : nestingBefore text p < nestingBefore text stop :=
    nestingBefore_lt (byteAt?_of_byteAt hb) h (Nat.le_refl p) hlt
  dsimp only at hread
  split at hread
  case isTrue hopen => exact hnesting (hopen ▸ by decide)
  split at hread
  case isTrue hclose => exact hnesting (hclose ▸ by decide)
  -- of the other items only those that are repeated nest
  split at hread
  case isTrue => cases hread; cases hnests
  split at hread
  case isTrue => split at hread <;> cases hread; cases hnests
  split at hread
  case isTrue =>
    unfold Item.readFrontier at hread
    split at hread
    case isTrue =>
      obtain ⟨_, -, hread⟩ := exists_of_bind_eq_ok hread
      cases hread
      cases hnests
    case isFalse => cases hread
  split at hread
  case isTrue => cases hread; cases hnests
  case isFalse => exact nestingBefore_lt_of_readSingle hread hnests

end Nesting

/-! ## The engine with its depth checked -/

/-- The search from a position of the pattern on, with a look at its depth, which is how many levels
there is no more room for. Where it is deeper than the bytes in front of the position account for,
something else is done. -/
def matchShallow (subject : Subject) (text : ByteArray)
    (other : SearchM (Option (Nat × Captures))) (p room s : Nat) (captures : Captures) :
    SearchM (Option (Nat × Captures)) :=
  if maxDepth - room ≤ 1 + nestingBefore text p then do
    tick subject.deadline
    if p < text.size then
      match hread : Item.read text p with
      | .error e => throw e
      | .ok (item, stop) =>
        have := Item.lt_of_read_eq_ok hread
        item.search subject
          (fun room s captures => matchShallow subject text other stop room s captures)
          room s captures
    else
      return some (s, captures)
  else
    other
termination_by text.size - p

/-- The search at a position of the subject. -/
def shallowFrom (subject : Subject) (text : ByteArray) (other : SearchM (Option (Nat × Captures)))
    (p s : Nat) : SearchM (Option Match) := do
  let found? ← nest maxDepth fun room => matchShallow subject text other p room s []
  return found?.map fun (stop, captures) => ⟨s, stop, captures⟩

/-! ## Shallow searches -/

/-- **A search is shallow as another one** – with its depth checked: the two are the same, and that
the pattern is too complex is no outcome of them. -/
structure Shallow {α : Type} (x y : SearchM α) : Prop where
  /-- The two searches are the same. -/
  eq : x = y
  /-- There is room, after any number of steps. -/
  simple : ∀ n, x.run n ≠ .error .tooComplex

section Rules

variable {α β : Type} {x y : SearchM α}

theorem shallow_pure (a : α) : Shallow (pure a) (pure a) := ⟨rfl, nofun⟩

theorem shallow_throw {e : Error} (h : e ≠ .tooComplex) :
    Shallow (throw e : SearchM α) (throw e) :=
  ⟨rfl, fun _ he => h (Except.error.inj he)⟩

theorem shallow_lift {x : Except Error α} (h : x ≠ .error .tooComplex) :
    Shallow (liftM x) (liftM x) := by
  refine ⟨rfl, fun n hn => ?_⟩
  cases x with
  | ok a => cases hn
  | error e =>
    cases hn
    exact h rfl

theorem shallow_tick (deadline : Deadline) : Shallow (tick deadline) (tick deadline) := by
  refine ⟨rfl, fun n => ?_⟩
  show (if _ then _ else _) ≠ _
  split
  case isTrue => exact nofun
  case isFalse => exact nofun

theorem Shallow.bind {f g : α → SearchM β} (h : Shallow x y) (hf : ∀ a, Shallow (f a) (g a)) :
    Shallow (x >>= f) (y >>= g) where
  eq := by rw [h.eq, funext fun a => (hf a).eq]
  simple n := bind_ne_error (h.simple n) fun read => (hf read.1).simple read.2

theorem Shallow.nest {room : Nat} {search search' : Nat → SearchM α} (hroom : 0 < room)
    (h : ∀ room', room = room' + 1 → Shallow (search room') (search' room')) :
    Shallow (nest room search) (Pattern.nest room search') := by
  cases room with
  | zero => cases hroom
  | succ room => exact h room rfl

variable {subject : Subject} {s : Nat}

theorem shallow_runEnd (subject : Subject) (bytes : CharClass) (s : Nat) :
    Shallow (subject.runEnd bytes s) (subject.runEnd bytes s) := by
  induction hn : subject.bytes.size - s using Nat.strongRecOn generalizing s with
  | ind n ih =>
    rw [Subject.runEnd]
    split
    case isTrue hs => exact (shallow_tick _).bind fun _ => ih _ (by omega) (s + 1) rfl
    case isFalse => exact shallow_pure s

theorem shallow_balanceEnd? (subject : Subject) (opening closing : UInt8) (depth s : Nat) :
    Shallow (subject.balanceEnd? opening closing depth s)
      (subject.balanceEnd? opening closing depth s) := by
  induction hn : subject.bytes.size - s using Nat.strongRecOn generalizing depth s with
  | ind n ih =>
    rw [Subject.balanceEnd?]
    split
    case isTrue hs =>
      have hlater (depth : Nat) := ih _ (by omega) depth (s + 1) rfl
      refine (shallow_tick _).bind fun _ => ?_
      split
      case isTrue =>
        split
        case isTrue => exact shallow_pure _
        case isFalse => exact hlater _
      case isFalse =>
        split
        case isTrue => exact hlater _
        case isFalse => exact hlater _
    case isFalse => exact shallow_pure none

theorem shallow_backOff {next next' : Nat → SearchM (Option α)}
    (h : ∀ s, Shallow (next s) (next' s)) (s n : Nat) :
    Shallow (backOff next s n) (backOff next' s n) := by
  induction n with
  | zero => exact h s
  | succ n ih =>
    refine (h (s + n + 1)).bind fun found? => ?_
    cases found? with
    | some found => exact shallow_pure _
    | none => exact ih

theorem shallow_advance {next next' : Nat → SearchM (Option α)}
    (h : ∀ s, Shallow (next s) (next' s)) (subject : Subject) (bytes : CharClass) (s : Nat) :
    Shallow (advance subject bytes next s) (advance subject bytes next' s) := by
  induction hn : subject.bytes.size - s using Nat.strongRecOn generalizing s with
  | ind n ih =>
    unfold advance
    refine (h s).bind fun found? => ?_
    cases found? with
    | some found => exact shallow_pure _
    | none =>
      dsimp only
      split
      case isTrue hlt => exact ih _ (by omega) (s + 1) rfl
      case isFalse => exact shallow_pure none

end Rules

section Step

variable {subject : Subject} {item : Item} {room : Nat}
variable {next next' : (room s : Nat) → Captures → SearchM (Option (Nat × Captures))}

/-- **What an item does is shallow** if what comes after it is, at the same depth and, for an item
that nests, at the next one. -/
theorem shallow_search
    (hsame : ∀ s captures, Shallow (next room s captures) (next' room s captures))
    (hdeeper : item.nests = true → ∀ s captures,
      Shallow (nest room fun room => next room s captures)
        (nest room fun room => next' room s captures))
    (hitem : item ≠ .invalid .tooComplex) (s : Nat) (captures : Captures) :
    Shallow (item.search subject next room s captures)
      (item.search subject next' room s captures) := by
  unfold Item.search
  cases item with
  | openCapture =>
    dsimp only
    split
    case isTrue => exact hdeeper rfl s _
    case isFalse => exact shallow_throw nofun
  | positionCapture =>
    dsimp only
    split
    case isTrue => exact hdeeper rfl s _
    case isFalse => exact shallow_throw nofun
  | closeCapture =>
    dsimp only
    cases captures.close? s with
    | some closed => exact hdeeper rfl s closed
    | none => exact shallow_throw nofun
  | endAnchor => exact shallow_pure _
  | balance opening closing =>
    dsimp only
    split
    case isTrue =>
      refine (shallow_balanceEnd? subject opening closing 1 (s + 1)).bind fun stop? => ?_
      cases stop? with
      | some stop => exact hsame stop captures
      | none => exact shallow_pure none
    case isFalse => exact shallow_pure none
  | frontier set =>
    refine (shallow_lift (ownError_atFrontier subject set s).2).bind fun there => ?_
    split
    case isTrue => exact hsame s captures
    case isFalse => exact shallow_pure none
  | backReference index =>
    refine (shallow_lift (ownError_referenced subject captures index).2).bind fun text => ?_
    split
    case isTrue => exact hsame _ captures
    case isFalse => exact shallow_pure none
  | single bytes repetition =>
    dsimp only
    split
    case isTrue =>
      cases repetition with
      | once => exact hsame (s + 1) captures
      | optional =>
        refine (hdeeper rfl (s + 1) captures).bind fun found? => ?_
        cases found? with
        | some found => exact shallow_pure _
        | none => exact hsame s captures
      | greedy =>
        refine (shallow_runEnd subject bytes s).bind fun stop => ?_
        exact shallow_backOff (fun s => hdeeper rfl s captures) s _
      | greedyOnce =>
        refine (shallow_runEnd subject bytes (s + 1)).bind fun stop => ?_
        exact shallow_backOff (fun s => hdeeper rfl s captures) (s + 1) _
      | lazy => exact shallow_advance (fun s => hdeeper rfl s captures) subject bytes s
    case isFalse =>
      cases repetition with
      | once => exact shallow_pure none
      | greedyOnce => exact shallow_pure none
      | optional => exact hsame s captures
      | greedy => exact hsame s captures
      | lazy => exact hsame s captures
  | invalid e => exact shallow_throw fun he => hitem (congrArg Item.invalid he)

end Step

/-! ## The depth at a position of the pattern -/

section Depth

variable {subject : Subject} {text : ByteArray} {p s : Nat}

/-- **Matching is as deep as the pattern says**, if there are fewer bytes that nest than there is
room for. -/
theorem shallow_matchList (hfew : nestingBefore text text.size < maxDepth)
    (other : SearchM (Option (Nat × Captures))) {room : Nat}
    (hroom : maxDepth - room ≤ 1 + nestingBefore text p) (s : Nat) (captures : Captures) :
    Shallow (Item.matchList subject (Item.readAll text p) room s captures)
      (matchShallow subject text other p room s captures) := by
  induction hn : text.size - p using Nat.strongRecOn generalizing p room s captures with
  | ind n ih =>
    rw [matchShallow, if_pos hroom]
    by_cases hp : p < text.size
    · rw [if_pos hp]
      split
      case h_1 e hread =>
        rw [Item.readAll_of_error hp hread, matchList_cons]
        refine (shallow_tick _).bind fun _ => shallow_throw ?_
        rintro rfl
        exact (ownError_item text p).2 hread
      case h_2 item stop hread =>
        have hitem := reads_item hp
        rw [hread] at hitem
        obtain ⟨⟨hstop, hsize⟩, hvalid⟩ := hitem
        have hbefore : nestingBefore text p ≤ nestingBefore text stop :=
          nestingBefore_mono (Nat.le_of_lt hstop)
        rw [Item.readAll_of_read hp hread, matchList_cons]
        refine (shallow_tick _).bind fun _ => shallow_search (fun s captures => ?_)
          (fun hnests s captures => ?_) (hvalid _) s captures
        · exact ih _ (by omega) (by omega) s captures rfl
        · -- the byte that nests is one of few, so there is room for another level
          have hmore := nestingBefore_lt_of_read hread hnests
          have hall : nestingBefore text stop ≤ nestingBefore text text.size :=
            nestingBefore_mono hsize
          refine Shallow.nest (by omega) fun room' hroom' => ?_
          exact ih _ (by omega) (by omega) s captures rfl
    · rw [if_neg hp, Item.readAll_of_le (Nat.not_lt.mp hp), Item.matchList]
      exact (shallow_tick _).bind fun _ => shallow_pure _

variable (subject) in
theorem shallow_matchAt {pattern : Pattern} (hitems : pattern.items = Item.readAll text p)
    (hfew : nestingBefore text text.size < maxDepth) (other : SearchM (Option (Nat × Captures)))
    (s : Nat) :
    Shallow (matchAt subject pattern s) (shallowFrom subject text other p s) := by
  unfold matchAt shallowFrom
  rw [hitems]
  refine Shallow.bind (.nest (by decide) fun room hroom => ?_) fun found? => shallow_pure _
  exact shallow_matchList hfew other (by omega) s []

end Depth

/-! ## The loops -/

section Loops

variable {subject : Subject} {pattern : Pattern} {search : Nat → SearchM (Option Match)}

theorem shallow_find? (h : ∀ s, Shallow (matchAt subject pattern s) (search s)) (s : Nat) :
    Shallow (find? subject pattern s) (findWith subject pattern search s) := by
  induction hn : subject.bytes.size - s using Nat.strongRecOn generalizing s with
  | ind n ih =>
    rw [find?, findWith]
    refine (h s).bind fun found? => ?_
    cases found? with
    | some found => exact shallow_pure _
    | none =>
      dsimp only
      split
      case isTrue => exact shallow_pure none
      case isFalse hon => exact ih _ (by have := not_or.mp hon; omega) (s + 1) rfl

theorem shallow_matchHere (h : ∀ s, Shallow (matchAt subject pattern s) (search s)) (c : Cursor) :
    Shallow (c.matchHere subject pattern) (c.hereWith search) :=
  (h c.position).bind fun _ => shallow_pure _

theorem shallow_next (h : ∀ s, Shallow (matchAt subject pattern s) (search s)) (c : Cursor) :
    Shallow (c.next subject pattern) (c.nextWith subject search) := by
  induction hn : subject.bytes.size + 1 - c.position using Nat.strongRecOn generalizing c with
  | ind n ih =>
    rw [Cursor.next, Cursor.nextWith]
    split
    case isTrue hc =>
      refine (shallow_matchHere h c).bind fun found? => ?_
      cases found? with
      | some m => exact shallow_pure _
      | none =>
        have hskip : c.skip.position = c.position + 1 := rfl
        exact ih _ (by omega) c.skip rfl
    case isFalse => exact shallow_pure _

end Loops

/-- The search, with something else done where it says that the pattern is too complex. -/
def unlessTooComplex {α : Type} (x other : SearchM α) : SearchM α := fun n =>
  match x.run n with
  | .error .tooComplex => other.run n
  | outcome => outcome

theorem Shallow.eq_unless {α : Type} {x y : SearchM α} (h : Shallow x y) (other : SearchM α) :
    x = unlessTooComplex y other := by
  funext n
  have hsimple := h.simple n
  rw [h.eq] at hsimple
  unfold unlessTooComplex
  split
  case h_1 hcomplex => exact absurd hcomplex hsimple
  case h_2 => rw [h.eq]; rfl

/-! ## The engine -/

/-- **How deep a search for a pattern is depends on the pattern alone**, whatever the subject is. -/
structure NestsByPattern (subject : Subject) (text : ByteArray) : Prop where
  /-- Wherever a search comes to in the pattern, its depth is accounted for by the bytes in front of
  that position, and it does not say that the pattern is too complex. -/
  matching : ∀ other p room s captures, maxDepth - room ≤ 1 + nestingBefore text p →
    Shallow (Item.matchList subject (Item.readAll text p) room s captures)
      (matchShallow subject text other p room s captures)
  /-- So is a search that is begun at a position of the subject. -/
  matchAt : ∀ other s, Shallow (matchAt subject (ofBytes text) s)
    (shallowFrom subject text other (bodyStart text) s)
  /-- Nor does finding the first match say so, from any start. -/
  find : ∀ start plain n, (find subject text start plain).run n ≠ .error .tooComplex
  /-- Also if the pattern is not taken as a text. -/
  findMatch : ∀ start n, (findMatch subject text start).run n ≠ .error .tooComplex
  /-- From wherever a walk stands, the next match is found in the same way. -/
  next : ∀ other (c : Cursor), Shallow (c.next subject (ofBytesUnanchored text))
    (c.nextWith subject (shallowFrom subject text other 0))
  /-- Matches are replaced by such searches, whatever they are replaced with and whatever else is
  done on the way. -/
  replaceAll : ∀ {m : Type → Type} [Monad m] [LawfulMonad m] [MonadLiftT (Except Error) m]
    [LawfulMonadLiftT (Except Error) m] (replacer : Replacer m) limit? maxLength other
    (other' : Nat → SearchM (Option Match)),
    replaceAll subject text replacer limit? maxLength
      = Replacing.runWith subject (ofBytes text)
          (fun s => unlessTooComplex (shallowFrom subject text other (bodyStart text) s) (other' s))
          replacer (limit?.getD (subject.bytes.size + 1)) maxLength
          (2 * (subject.bytes.size + 1)) {}
  /-- That a pattern is too complex comes only from what they are replaced with. -/
  replaceWith : ∀ (replacer : Replacer (Except Error)) limit? maxLength,
    (∀ found, replacer found ≠ .error .tooComplex) →
      Pattern.replaceAll subject text replacer limit? maxLength ≠ .error .tooComplex
  /-- A replacement text does not say so. -/
  replaceText : ∀ replacement limit? maxLength,
    Pattern.replaceAll subject text (.ofText subject.bytes replacement) limit? maxLength
      ≠ .error .tooComplex

section Engine

variable (subject : Subject) {text : ByteArray}

theorem findMatch_ne_tooComplex (hfew : nestingBefore text text.size < maxDepth)
    (start : Option Int) (n : Nat) :
    (findMatch subject text start).run n ≠ .error .tooComplex := by
  unfold findMatch
  dsimp only
  split
  case isTrue => exact (shallow_pure none).simple n
  case isFalse =>
    have hmatch := shallow_matchAt subject (items_ofBytes text) hfew (pure none)
    exact (shallow_find? hmatch _).simple n

theorem find_ne_tooComplex (hfew : nestingBefore text text.size < maxDepth)
    (start : Option Int) (plain : Bool) (n : Nat) :
    (find subject text start plain).run n ≠ .error .tooComplex := by
  by_cases hplain : (plain || isPlain text) = true
  · unfold find
    dsimp only
    rw [if_pos hplain]
    split
    case isTrue => exact (shallow_pure none).simple n
    case isFalse =>
      refine (shallow_lift ?_).simple n
      rcases findText?_eq_error_or_ok subject text _ with h | ⟨found?, h⟩
      · exact h ▸ nofun
      · exact h ▸ nofun
  · rw [find_eq_findMatch hplain]
    exact findMatch_ne_tooComplex subject hfew start n

theorem replaceAll_ne_tooComplex (hfew : nestingBefore text text.size < maxDepth)
    {replacer : Replacer (Except Error)} (hreplacer : ∀ found, replacer found ≠ .error .tooComplex)
    (limit? : Option Int) (maxLength : Nat) :
    replaceAll subject text replacer limit? maxLength ≠ .error .tooComplex := by
  have hmatch := shallow_matchAt subject (items_ofBytes text) hfew (pure none)
  exact run_ne_error subject (.inr rfl) (fun c => (shallow_matchHere hmatch c).simple) hreplacer
    _ _ _ _

/-- **Nesting depends on the pattern alone.** If fewer bytes of a pattern may nest than there is
room for, then no search for it ever says that it is too complex, whatever the subject, the start, the
limit and the replacement, and at every position of the pattern that a search comes to it is at
most one level deeper than there are such bytes in front of it. -/
theorem nesting_depends_on_pattern (hfew : nestingBefore text text.size < maxDepth) :
    NestsByPattern subject text where
  matching other _ _ s captures hroom := shallow_matchList hfew other hroom s captures
  matchAt := shallow_matchAt subject (items_ofBytes text) hfew
  find := find_ne_tooComplex subject hfew
  findMatch := findMatch_ne_tooComplex subject hfew
  next other := shallow_next (shallow_matchAt subject rfl hfew other)
  replaceAll _ _ _ other other' := by
    have hmatch := shallow_matchAt subject (items_ofBytes text) hfew other
    refine run_eq_runWith (fun s hs => ⟨(hmatch s).eq_unless (other' s), ?_⟩) (Nat.zero_le _) _
    exact (agreeInside_searchFrom subject text s hs).reads
  replaceWith _ limit? maxLength hreplacer :=
    replaceAll_ne_tooComplex subject hfew hreplacer limit? maxLength
  replaceText replacement limit? maxLength :=
    replaceAll_ne_tooComplex subject hfew
      (fun found => ((ownError_expand subject.bytes _ found).map some).2) limit? maxLength

/-- In `(a-)*[(?]` six bytes may nest, although the last two of them do not. -/
theorem nesting_depends_on_pattern_six :
    nestingBefore "(a-)*[(?]".toUTF8 "(a-)*[(?]".toUTF8.size = 6
      ∧ NestsByPattern ⟨"aaa(".toUTF8, .never⟩ "(a-)*[(?]".toUTF8 := by
  have hsix : nestingBefore "(a-)*[(?]".toUTF8 "(a-)*[(?]".toUTF8.size = 6 := by decide
  exact ⟨hsix, nesting_depends_on_pattern _ (by rw [hsix]; decide)⟩

end Engine

end LedgerReports.Pattern
