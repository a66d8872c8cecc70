import LedgerReports.Pattern.Find
import LedgerReports.Proofs.Pattern.Reading
import LedgerReports.Proofs.Pattern.Segments
import Mathlib

/-!
# What a search relies on

A search is at a place of the subject: at a position, with the captures that
have been made so far. It relies on the position being inside the subject and on
every capture beginning at the position or before it and ending inside the
subject (`Inside`); then closing a capture does not count below zero, and what
a back reference, a frontier or the value of a capture reads is there. A place
that a search comes to is never before the one that it has come from, so the
captures are still behind it (`Inside.later`).

That a search with its bounds checked does the same as the search without the
checks, that it does not look outside, and that it comes to an end inside the
subject are said together by `Agree`: each of the three is needed to go on with
the others, since what comes after a part of a search is known to agree only
where that part has led. So each part of a search has one lemma, and so has one
item of a pattern (`agree_search`), given that the two searches agree about
whatever comes after the item.
-/

namespace LedgerReports.Pattern

/-! ## Places in a subject -/

/-- Where a capture ends, as far as that is known. -/
def Capture.stop (c : Capture) : Nat :=
  match c.extent with
  | .closed length => c.start + length
  | .opened | .position => c.start

/-- **A place inside a subject** of `size` bytes: the position is not past its end, and the
captures so far begin at the position or before it and end inside the subject. -/
def Inside (size s : Nat) (captures : Captures) : Prop :=
  s ≤ size ∧ ∀ c ∈ captures, c.start ≤ s ∧ c.stop ≤ size

instance (size s : Nat) (captures : Captures) : Decidable (Inside size s captures) :=
  inferInstanceAs (Decidable (_ ∧ _))

/-- **A match inside a subject** ends after it begins, in a place inside the subject. -/
def Match.Inside (size : Nat) (m : Match) : Prop :=
  m.start ≤ m.stop ∧ Pattern.Inside size m.stop m.captures

instance (size : Nat) (m : Match) : Decidable (m.Inside size) :=
  inferInstanceAs (Decidable (_ ∧ _))

section Inside

variable {size s : Nat} {captures : Captures}

theorem inside_nil (h : s ≤ size) : Inside size s [] := ⟨h, nofun⟩

/-- A later place has the same captures behind it. -/
theorem Inside.later (h : Inside size s captures) {s' : Nat} (hs : s ≤ s') (hs' : s' ≤ size) :
    Inside size s' captures :=
  ⟨hs', fun c hc => ⟨Nat.le_trans (h.2 c hc).1 hs, (h.2 c hc).2⟩⟩

/-- A capture begins at the place. -/
theorem Inside.append (h : Inside size s captures) {c : Capture} (hstart : c.start = s)
    (hstop : c.stop = s) : Inside size s (captures ++ [c]) := by
  refine ⟨h.1, fun c' hc' => ?_⟩
  rcases List.mem_append.mp hc' with hc' | hc'
  · exact h.2 c' hc'
  · rw [List.mem_singleton.mp hc', hstart, hstop]
    exact ⟨Nat.le_refl s, h.1⟩

/-- The capture that is closed is one of the captures, and the others stay as they are. -/
theorem exists_of_close?_eq_some {closed : Captures} (h : captures.close? s = some closed) :
    ∃ before c after, captures = before ++ c :: after ∧ c.extent = .opened
      ∧ closed = before ++ { c with extent := .closed (s - c.start) } :: after := by
  induction captures generalizing closed with
  | nil => cases h
  | cons c rest ih =>
    rw [Captures.close?] at h
    cases hrest : Captures.close? s rest with
    | some later =>
      rw [hrest] at h
      cases h
      obtain ⟨before, c', after, rfl, hopened, rfl⟩ := ih hrest
      exact ⟨c :: before, c', after, rfl, hopened, rfl⟩
    | none =>
      rw [hrest] at h
      dsimp only at h
      split at h
      case isTrue hopened =>
        cases h
        exact ⟨[], c, rest, rfl, hopened, rfl⟩
      case isFalse => cases h

/-- **Closing a capture stays inside.** The capture begins at the place or before it, so that its
length is no less than nothing, and it ends at the place. -/
theorem Inside.close (h : Inside size s captures) {closed : Captures}
    (hclosed : captures.close? s = some closed) : Inside size s closed := by
  obtain ⟨before, c, after, rfl, -, rfl⟩ := exists_of_close?_eq_some hclosed
  have hstart := (h.2 c (by simp)).1
  refine ⟨h.1, fun c' hc' => ?_⟩
  simp only [List.mem_append, List.mem_cons] at hc'
  rcases hc' with hc' | rfl | hc'
  · exact h.2 c' (by simp [hc'])
  · refine ⟨hstart, ?_⟩
    show c.start + (s - c.start) ≤ size
    rw [Nat.add_sub_cancel' hstart]
    exact h.1
  · exact h.2 c' (by simp [hc'])

end Inside

/-! ## Values of captures -/

section Values

variable {bytes : ByteArray} {m : Match} {c : Capture}

theorem reads_value {s : Nat} {captures : Captures} (h : Inside bytes.size s captures)
    (hc : c ∈ captures) : Reads (fun _ => True) (c.value bytes) := by
  have hstop := (h.2 c hc).2
  unfold Capture.stop at hstop
  unfold Capture.value
  cases hextent : c.extent with
  | opened => exact nofun
  | position => trivial
  | closed length =>
    rw [hextent] at hstop
    exact .map (reads_slice ⟨Nat.le_add_right .., hstop⟩) fun _ _ => trivial

theorem reads_whole (h : m.Inside bytes.size) : Reads (fun _ => True) (m.whole bytes) :=
  reads_slice ⟨h.1, h.2.1⟩

theorem reads_capture (h : m.Inside bytes.size) (i : Nat) :
    Reads (fun _ => True) (m.capture bytes i) := by
  unfold Match.capture
  cases hc : m.captures[i]? with
  | some c => exact reads_value h.2 (List.mem_of_getElem? hc)
  | none =>
    dsimp only
    split
    case isTrue => exact .map (reads_whole h) fun _ _ => trivial
    case isFalse => exact nofun

theorem reads_mapM {α β : Type} {f : α → Except Error β} {list : List α}
    (h : ∀ a ∈ list, Reads (fun _ => True) (f a)) : Reads (fun _ => True) (list.mapM f) := by
  induction list with
  | nil => trivial
  | cons a list ih =>
    rw [List.mapM_cons]
    refine .bind (h a List.mem_cons_self) fun b _ => ?_
    exact .bind (ih fun a ha => h a (List.mem_cons_of_mem _ ha)) fun _ _ => trivial

theorem reads_values (h : m.Inside bytes.size) : Reads (fun _ => True) (m.values bytes) :=
  reads_mapM fun _ hc => reads_value h.2 hc

theorem reads_valuesOrWhole (h : m.Inside bytes.size) :
    Reads (fun _ => True) (m.valuesOrWhole bytes) := by
  unfold Match.valuesOrWhole
  split
  case isTrue => exact .bind (reads_whole h) fun _ _ => trivial
  case isFalse => exact reads_values h

theorem reads_expand (h : m.Inside bytes.size) (pieces : List Piece) :
    Reads (fun _ => True) (expand bytes pieces m) := by
  unfold expand
  generalize ByteArray.empty = out
  induction pieces generalizing out with
  | nil => trivial
  | cons piece pieces ih =>
    rw [List.foldlM_cons]
    have hpiece : Reads (fun _ => True) (piece.expand bytes m) := by
      cases piece with
      | byte b => trivial
      | whole => exact reads_whole h
      | capture i => exact .map (reads_capture h i) fun _ _ => trivial
      | invalid => exact nofun
    exact .bind (.bind (Q := fun _ => True) hpiece fun _ _ => trivial) fun out _ => ih out

/-- The digits from 1 on count from 0. -/
theorem toNat_sub_lt_of_within {d : UInt8} (hd : within '1' '9' d = true) :
    (d - Pattern.byte '1').toNat < 9 := by
  obtain ⟨hlow, hhigh⟩ := Bool.and_eq_true_iff.mp hd
  have hlow := of_decide_eq_true hlow
  have hhigh := UInt8.le_iff_toNat_le.mp (of_decide_eq_true hhigh)
  have hone : (Pattern.byte '1').toNat = 49 := rfl
  have hnine : (Pattern.byte '9').toNat = 57 := rfl
  rw [UInt8.toNat_sub_of_le _ _ hlow]
  omega

/-- A replacement text names no capture past the ninth. -/
theorem lt_of_capture_mem_list {i : Nat} {text : List UInt8} (h : .capture i ∈ Piece.list text) :
    i < 9 := by
  fun_induction Piece.list text with
  | case1 => cases h
  | case2 b rest hb ih => exact ih (by simpa using h)
  | case3 => simp at h
  | case4 b hb rest ih => exact ih (by simpa using h)
  | case5 b hb rest _ ih => exact ih (by simpa using h)
  | case6 b hb d rest _ _ hd ih =>
    rcases List.mem_cons.mp h with h | h
    · cases h
      exact toNat_sub_lt_of_within hd
    · exact ih h
  | case7 => simp at h

end Values

/-! ## Searches -/

/-- **A search agrees with another one** – with its checked form: the two are the same,
looking outside is no outcome of them, and what they give satisfies `P`. -/
structure Agree {α : Type} (P : α → Prop) (x y : SearchM α) : Prop where
  /-- The two searches are the same. -/
  eq : x = y
  /-- After any number of steps nothing outside is looked at. -/
  reads : ∀ n, Reads (fun read => P read.1) (x.run n)

section Agree

variable {α β : Type} {P : α → Prop} {Q : β → Prop}

theorem agree_pure {a : α} (h : P a) : Agree P (pure a) (pure a) := ⟨rfl, fun _ => h⟩

theorem agree_throw {e : Error} (h : e ≠ .outOfBounds) : Agree P (throw e) (throw e) :=
  ⟨rfl, fun _ => h⟩

theorem agree_lift {x : Except Error α} (h : Reads P x) : Agree P (liftM x) (liftM x) := by
  refine ⟨rfl, fun n => ?_⟩
  cases x with
  | ok a => exact h
  | error e => exact h

theorem agree_tick (deadline : Deadline) :
    Agree (fun _ => True) (tick deadline) (tick deadline) := by
  refine ⟨rfl, fun n => ?_⟩
  show Reads _ (if _ then _ else _)
  split
  case isTrue => exact nofun
  case isFalse => trivial

theorem Agree.bind {x y : SearchM α} {f g : α → SearchM β} (h : Agree P x y)
    (hf : ∀ a, P a → Agree Q (f a) (g a)) : Agree Q (x >>= f) (y >>= g) := by
  obtain ⟨rfl, hreads⟩ := h
  have hrun (n : Nat) : (x >>= f).run n = (x >>= g).run n
      ∧ Reads (fun read => Q read.1) ((x >>= f).run n) := by
    have hx := hreads n
    rw [StateT.run_bind, StateT.run_bind]
    cases hrun : x.run n with
    | error e =>
      rw [hrun] at hx
      exact ⟨rfl, hx⟩
    | ok read =>
      rw [hrun] at hx
      have h := hf read.1 hx
      exact ⟨congrArg (fun z : SearchM β => z.run read.2) h.eq, h.reads read.2⟩
  exact ⟨funext fun n => (hrun n).1, fun n => (hrun n).2⟩

theorem Agree.imp {P' : α → Prop} {x y : SearchM α} (h : Agree P x y) (hP : ∀ a, P a → P' a) :
    Agree P' x y :=
  ⟨h.eq, fun n => (h.reads n).imp fun _ hread => hP _ hread⟩

theorem Agree.nest {room : Nat} {search search' : Nat → SearchM α}
    (h : ∀ room, Agree P (search room) (search' room)) :
    Agree P (nest room search) (Pattern.nest room search') := by
  cases room with
  | zero => exact agree_throw nofun
  | succ room => exact h room

end Agree

/-! ## The parts of a search -/

section Parts

variable {α : Type} {subject : Subject} {s : Nat}

theorem agree_runEnd {bytes : CharClass} (h : s ≤ subject.bytes.size) :
    Agree (fun stop => s ≤ stop ∧ stop ≤ subject.bytes.size) (subject.runEnd bytes s)
      (subject.runEnd bytes s) := by
  induction hn : subject.bytes.size - s using Nat.strongRecOn generalizing s with
  | ind n ih =>
    rw [Subject.runEnd]
    split
    case isTrue hs =>
      refine (agree_tick _).bind fun _ _ => ?_
      exact (ih _ (by omega) hs.2 rfl).imp fun stop hstop => ⟨by omega, hstop.2⟩
    case isFalse => exact agree_pure ⟨Nat.le_refl s, h⟩

theorem agree_balanceEnd? {opening closing : UInt8} (depth s : Nat) :
    Agree (fun stop? => ∀ stop, stop? = some stop → s < stop ∧ stop ≤ subject.bytes.size)
      (subject.balanceEnd? opening closing depth s)
      (subject.balanceEnd? opening closing depth s) := by
  induction hn : subject.bytes.size - s using Nat.strongRecOn generalizing depth s with
  | ind n ih =>
    rw [Subject.balanceEnd?]
    split
    case isTrue hs =>
      have hlater (depth : Nat) := (ih _ (by omega) depth (s + 1) rfl).imp
        fun stop? hstop stop h => And.imp_left Nat.lt_of_succ_lt (hstop stop h)
      refine (agree_tick _).bind fun _ _ => ?_
      split
      case isTrue =>
        split
        case isTrue =>
          refine agree_pure ?_
          rintro _ ⟨⟩
          exact ⟨Nat.lt_succ_self s, hs⟩
        case isFalse => exact hlater _
      case isFalse =>
        split
        case isTrue => exact hlater _
        case isFalse => exact hlater _
    case isFalse =>
      refine agree_pure ?_
      rintro _ ⟨⟩

/-- The byte before a position inside is inside, and past the end no byte is looked at. -/
theorem reads_atFrontier (set : CharSet) (h : s ≤ subject.bytes.size) :
    Reads (fun _ => True) (subject.atFrontier set s) := by
  unfold Subject.atFrontier
  dsimp only
  split
  case isTrue => exact True.intro
  case isFalse => exact .bind (reads_byteAt (by omega)) fun _ _ => True.intro

theorem reads_referenced {captures : Captures} (h : Inside subject.bytes.size s captures)
    (i : Nat) : Reads (fun _ => True) (subject.referenced captures i) := by
  unfold Subject.referenced
  cases i with
  | zero => exact nofun
  | succ i =>
    dsimp only
    cases hc : captures[i]? with
    | none => exact nofun
    | some c =>
      obtain ⟨start, extent⟩ := c
      have hstop : Capture.stop _ ≤ _ := (h.2 _ (List.mem_of_getElem? hc)).2
      cases extent with
      | opened => exact nofun
      | position => exact reads_slice ⟨Nat.le_refl start, hstop⟩
      | closed length => exact reads_slice ⟨Nat.le_add_right .., hstop⟩

/-- A text that stands at a position inside ends inside. -/
theorem le_of_startsWithAt {text : ByteArray} (h : s ≤ subject.bytes.size)
    (htext : subject.startsWithAt text s = true) : s + text.size ≤ subject.bytes.size := by
  rw [startsWithAt_eq_isPrefixOf, List.isPrefixOf_iff_prefix] at htext
  have hlength := htext.length_le
  simp only [bytesFrom, List.length_drop, Array.length_toList, ByteArray.size_data] at hlength
  omega

theorem agree_backOff {next next' : Nat → SearchM (Option α)} {P : Option α → Prop} {n : Nat}
    (h : ∀ s', s ≤ s' → s' ≤ s + n → Agree P (next s') (next' s')) :
    Agree P (backOff next s n) (backOff next' s n) := by
  induction n with
  | zero => exact h s (Nat.le_refl s) (Nat.le_refl s)
  | succ n ih =>
    refine (h (s + n + 1) (by omega) (Nat.le_refl _)).bind fun found? hfound => ?_
    cases found? with
    | some found => exact agree_pure hfound
    | none => exact ih fun s' hs hs' => h s' hs (by omega)

theorem agree_advance {bytes : CharClass} {next next' : Nat → SearchM (Option α)}
    {P : Option α → Prop} (hs : s ≤ subject.bytes.size)
    (h : ∀ s', s ≤ s' → s' ≤ subject.bytes.size → Agree P (next s') (next' s')) :
    Agree P (advance subject bytes next s) (advance subject bytes next' s) := by
  induction hn : subject.bytes.size - s using Nat.strongRecOn generalizing s with
  | ind n ih =>
    unfold advance
    refine (h s (Nat.le_refl s) hs).bind fun found? hfound => ?_
    cases found? with
    | some found => exact agree_pure hfound
    | none =>
      dsimp only
      split
      case isTrue hlt =>
        exact ih _ (by omega) hlt.2 (fun s' hs' => h s' (Nat.le_of_succ_le hs')) rfl
      case isFalse => exact agree_pure hfound

end Parts

/-- **What a search does with one item**, given what it does after the item. -/
def Item.search (subject : Subject)
    (next : (room s : Nat) → Captures → SearchM (Option (Nat × Captures))) (item : Item)
    (room s : Nat) (captures : Captures) : SearchM (Option (Nat × Captures)) := do
  match item with
  | .openCapture =>
    if captures.length < maxCaptures then
      nest room fun room => next room s (captures ++ [⟨s, .opened⟩])
    else
      throw .tooManyCaptures
  | .positionCapture =>
    if captures.length < maxCaptures then
      nest room fun room => next room s (captures ++ [⟨s, .position⟩])
    else
      throw .tooManyCaptures
  | .closeCapture =>
    match captures.close? s with
    | some captures => nest room fun room => next room s captures
    | none => throw .unopenedCapture
  | .endAnchor =>
    return if s = subject.bytes.size then some (s, captures) else none
  | .balance opening closing =>
    if byteAt? subject.bytes s = some opening then
      match ← subject.balanceEnd? opening closing 1 (s + 1) with
      | some stop => next room stop captures
      | none => return none
    else
      return none
  | .frontier set =>
    if ← subject.atFrontier set s then
      next room s captures
    else
      return none
  | .backReference index =>
    let text ← subject.referenced captures index
    if subject.startsWithAt text s then
      next room (s + text.size) captures
    else
      return none
  | .single bytes repetition =>
    if subject.matchesAt bytes s then
      match repetition with
      | .once => next room (s + 1) captures
      | .optional =>
        match ← nest room fun room => next room (s + 1) captures with
        | some found => return some found
        | none => next room s captures
      | .greedy =>
        let stop ← subject.runEnd bytes s
        backOff (fun s => nest room fun room => next room s captures) s (stop - s)
      | .greedyOnce =>
        let stop ← subject.runEnd bytes (s + 1)
        backOff (fun s => nest room fun room => next room s captures)
          (s + 1) (stop - (s + 1))
      | .lazy =>
        advance subject bytes (fun s => nest room fun room => next room s captures) s
    else
      match repetition with
      | .once | .greedyOnce => return none
      | .optional | .greedy | .lazy => next room s captures
  | .invalid error => throw error

/-- A search does with the first item what has to be done with it, and then searches for the
others. -/
theorem matchList_cons (subject : Subject) (item : Item) (rest : List Item) (room s : Nat)
    (captures : Captures) :
    Item.matchList subject (item :: rest) room s captures = (do
      tick subject.deadline
      item.search subject (Item.matchList subject rest) room s captures) := by
  conv_lhs => unfold Item.matchList
  cases item <;> rfl

/-- What a search from a place gives: a place that is not before it. -/
def Ends (size s : Nat) (found? : Option (Nat × Captures)) : Prop :=
  ∀ stop captures, found? = some (stop, captures) → s ≤ stop ∧ Inside size stop captures

theorem ends_none (size s : Nat) : Ends size s none := nofun

theorem ends_some {size s : Nat} {captures : Captures} (h : Inside size s captures) :
    Ends size s (some (s, captures)) := by
  rintro _ _ ⟨⟩
  exact ⟨Nat.le_refl s, h⟩

theorem Ends.earlier {size s s' : Nat} {found? : Option (Nat × Captures)}
    (h : Ends size s' found?) (hs : s ≤ s') : Ends size s found? :=
  fun stop captures hfound => And.imp_left (Nat.le_trans hs) (h stop captures hfound)

section Step

variable {subject : Subject} {item : Item} {room s : Nat} {captures : Captures}
variable {next next' : (room s : Nat) → Captures → SearchM (Option (Nat × Captures))}

theorem agree_search
    (hnext : ∀ room s captures, Inside subject.bytes.size s captures →
      Agree (Ends subject.bytes.size s) (next room s captures) (next' room s captures))
    (hitem : item ≠ .invalid .outOfBounds) (h : Inside subject.bytes.size s captures) :
    Agree (Ends subject.bytes.size s) (item.search subject next room s captures)
      (item.search subject next' room s captures) := by
  have hlater (room s' : Nat) (hs : s ≤ s') (hs' : s' ≤ subject.bytes.size) :
      Agree (Ends subject.bytes.size s) (next room s' captures) (next' room s' captures) :=
    (hnext room s' captures (h.later hs hs')).imp fun _ hends => hends.earlier hs
  unfold Item.search
  cases item with
  | openCapture =>
    dsimp only
    split
    case isTrue => exact .nest fun room => hnext room s _ (h.append rfl rfl)
    case isFalse => exact agree_throw nofun
  | positionCapture =>
    dsimp only
    split
    case isTrue => exact .nest fun room => hnext room s _ (h.append rfl rfl)
    case isFalse => exact agree_throw nofun
  | closeCapture =>
    dsimp only
    cases hclosed : captures.close? s with
    | some closed => exact .nest fun room => hnext room s _ (h.close hclosed)
    | none => exact agree_throw nofun
  | endAnchor =>
    refine agree_pure ?_
    split
    case isTrue => exact ends_some h
    case isFalse => exact ends_none _ _
  | balance opening closing =>
    dsimp only
    split
    case isTrue =>
      refine (agree_balanceEnd? 1 (s + 1)).bind fun stop? hstop => ?_
      cases stop? with
      | some stop =>
        have hbounds := hstop stop rfl
        exact hlater room stop (by omega) hbounds.2
      | none => exact agree_pure (ends_none _ _)
    case isFalse => exact agree_pure (ends_none _ _)
  | frontier set =>
    refine (agree_lift (reads_atFrontier set h.1)).bind fun there _ => ?_
    split
    case isTrue => exact hlater room s (Nat.le_refl s) h.1
    case isFalse => exact agree_pure (ends_none _ _)
  | backReference index =>
    refine (agree_lift (reads_referenced h index)).bind fun text _ => ?_
    split
    case isTrue htext =>
      exact hlater room _ (Nat.le_add_right ..) (le_of_startsWithAt h.1 htext)
    case isFalse => exact agree_pure (ends_none _ _)
  | single bytes repetition =>
    dsimp only
    split
    case isTrue hmatches =>
      have hs := lt_size_of_matchesAt hmatches
      cases repetition with
      | once => exact hlater room (s + 1) (by omega) hs
      | optional =>
        refine (Agree.nest fun room => hlater room (s + 1) (by omega) hs).bind
          fun found? hfound => ?_
        cases found? with
        | some found => exact agree_pure hfound
        | none => exact hlater room s (Nat.le_refl s) h.1
      | greedy =>
        refine (agree_runEnd h.1).bind fun stop hstop => ?_
        exact agree_backOff fun s' hs hs' => .nest fun room => hlater room s' hs (by omega)
      | greedyOnce =>
        refine (agree_runEnd hs).bind fun stop hstop => ?_
        exact agree_backOff fun s' hs hs' =>
          .nest fun room => hlater room s' (by omega) (by omega)
      | lazy => exact agree_advance h.1 fun s' hs hs' => .nest fun room => hlater room s' hs hs'
    case isFalse =>
      cases repetition with
      | once => exact agree_pure (ends_none _ _)
      | greedyOnce => exact agree_pure (ends_none _ _)
      | optional => exact hlater room s (Nat.le_refl s) h.1
      | greedy => exact hlater room s (Nat.le_refl s) h.1
      | lazy => exact hlater room s (Nat.le_refl s) h.1
  | invalid e => exact agree_throw fun he => hitem (congrArg Item.invalid he)

end Step

end LedgerReports.Pattern
