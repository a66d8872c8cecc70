import LedgerReports.Proofs.Pattern.Bounds
import LedgerReports.Proofs.Pattern.Late
import Mathlib

/-!
# The leftmost match

What a search for a pattern should report is said here without a search. At each
position there is at most one match, the preferred one of the ways to match from
there (`firstMatch?`). A search from a position looks for it there and at every
position after it, unless the pattern is anchored (`lookouts`), and reports the
one at the least position that has one, or nothing if none has (`Reports`). Only
one report is right (`Reports.unique`).

The two searches that a script can make are then compared with that. The search
by way of the items of a pattern reports what it should (`reports_of_yields_find?`),
and so does the search for a plain text (`reports_of_textPosition?`), when what
there is at a position is that the text stands there. For a pattern in which no
byte has a meaning of its own the two are the same. There is one exception: a
closing parenthesis has a meaning, but it is not among the bytes that are looked
for before a pattern is taken as a text. A search by way of the items fails when
it gets there, so it does not report anything else (`eq_textMatch?_of_isPlain`).

A match ends after it begins, in the subject, and its captures are of what is
between (`Reaches.ways`).
-/

namespace LedgerReports.Pattern

/-! ## What a way has come through -/

/-- **What the way to a place of a text has come through**, from where it began: it has not gone
back, nor out of the text, and the captures are of what it has come through. -/
structure Reaches (text : ByteArray) (start s : Nat) (captures : Captures) : Prop where
  /-- The way has not gone back. -/
  start_le : start ≤ s
  /-- The way has not gone out of the text. -/
  le_size : s ≤ text.size
  /-- The captures are of what the way has come through. -/
  between : ∀ c ∈ captures, start ≤ c.start ∧ c.stop ≤ s

/-- Whether the item begins a capture. -/
def Item.captures : Item → Bool
  | openCapture | positionCapture => true
  | _ => false

section Reaches

variable {text : ByteArray} {start s : Nat} {captures : Captures}

theorem length_bytesFrom (text : ByteArray) (s : Nat) :
    (bytesFrom text s).length = text.size - s := by
  rw [bytesFrom, List.length_drop, Array.length_toList, ByteArray.size_data]

theorem runLength_le (text : ByteArray) (bytes : CharClass) (s : Nat) :
    runLength text bytes s ≤ text.size - s := by
  rw [← length_bytesFrom]
  exact (List.takeWhile_prefix _).length_le

theorem le_of_mem_counts {run n : Nat} {repetition : Repetition}
    (h : n ∈ repetition.counts run) : n ≤ run := by
  cases repetition <;> grind [Repetition.counts]

theorem le_of_balancedLength? {opening closing : UInt8} {n : Nat}
    (h : balancedLength? text opening closing s = some n) : n ≤ text.size - s := by
  unfold balancedLength? at h
  split at h
  case isTrue =>
    have hmem := List.mem_of_find?_eq_some h
    rw [List.mem_range'_1, length_bytesFrom] at hmem
    omega
  case isFalse => cases h

theorem Capture.start_le_stop (c : Capture) : c.start ≤ c.stop := by
  unfold Capture.stop
  split <;> omega

/-- The way goes on in the text. -/
theorem Reaches.later (h : Reaches text start s captures) {s' : Nat} (hs : s ≤ s')
    (hs' : s' ≤ text.size) : Reaches text start s' captures :=
  ⟨Nat.le_trans h.start_le hs, hs', fun c hc =>
    ⟨(h.between c hc).1, Nat.le_trans (h.between c hc).2 hs⟩⟩

/-- A capture begins where the way has come to. -/
theorem Reaches.append (h : Reaches text start s captures) {c : Capture} (hstart : c.start = s)
    (hstop : c.stop = s) : Reaches text start s (captures ++ [c]) := by
  refine ⟨h.start_le, h.le_size, fun c' hc' => ?_⟩
  rcases List.mem_append.mp hc' with hc' | hc'
  · exact h.between c' hc'
  · rw [List.mem_singleton.mp hc', hstart, hstop]
    exact ⟨h.start_le, Nat.le_refl s⟩

/-- A capture ends where the way has come to. -/
theorem Reaches.close (h : Reaches text start s captures) {closed : Captures}
    (hclosed : captures.close? s = some closed) : Reaches text start s closed := by
  obtain ⟨before, c, after, rfl, -, rfl⟩ := exists_of_close?_eq_some hclosed
  refine ⟨h.start_le, h.le_size, fun c' hc' => ?_⟩
  have hc := h.between c (by simp)
  simp only [List.mem_append, List.mem_cons] at hc'
  rcases hc' with hc' | rfl | hc'
  · exact h.between c' (by simp [hc'])
  · refine ⟨hc.1, ?_⟩
    show c.start + (s - c.start) ≤ s
    rw [Nat.add_sub_cancel' (Nat.le_trans c.start_le_stop hc.2)]
  · exact h.between c' (by simp [hc'])

/-- **What an item offers goes on** from the place to one that is not before it. -/
theorem Reaches.offers (h : Reaches text start s captures) {item : Item} {way : Nat × Captures}
    (hway : way ∈ item.offers text s captures) : Reaches text start way.1 way.2 := by
  have hsize := h.le_size
  have hlater (n : Nat) (hn : n ≤ text.size - s) : Reaches text start (s + n) captures :=
    h.later (Nat.le_add_right s n) (by omega)
  cases item with
  | openCapture =>
    obtain rfl := List.mem_singleton.mp hway
    exact h.append rfl rfl
  | positionCapture =>
    obtain rfl := List.mem_singleton.mp hway
    exact h.append rfl rfl
  | closeCapture =>
    obtain ⟨closed, hclosed, rfl⟩ := List.mem_map.mp hway
    exact h.close (Option.mem_toList.mp hclosed)
  | endAnchor =>
    rw [Item.offers] at hway
    split at hway
    case isTrue =>
      obtain rfl := List.mem_singleton.mp hway
      exact h
    case isFalse => cases hway
  | balance opening closing =>
    obtain ⟨n, hn, rfl⟩ := List.mem_map.mp hway
    exact hlater n (le_of_balancedLength? (Option.mem_toList.mp hn))
  | frontier set =>
    rw [Item.offers] at hway
    split at hway
    case isTrue =>
      obtain rfl := List.mem_singleton.mp hway
      exact h
    case isFalse => cases hway
  | backReference index =>
    obtain ⟨t, ht, rfl⟩ := List.mem_map.mp hway
    obtain ⟨-, hprefix⟩ := Option.filter_eq_some_iff.mp (Option.mem_toList.mp ht)
    have hlength := (List.isPrefixOf_iff_prefix.mp hprefix).length_le
    rw [length_bytesFrom] at hlength
    exact hlater _ hlength
  | single bytes repetition =>
    obtain ⟨n, hn, rfl⟩ := List.mem_map.mp hway
    exact hlater n (Nat.le_trans (le_of_mem_counts hn) (runLength_le text bytes s))
  | invalid e => cases hway

/-- **A way to match goes on** from the place to one that is not before it. -/
theorem Reaches.ways {items : List Item} (h : Reaches text start s captures)
    {way : Nat × Captures} (hway : way ∈ Pattern.ways text items s captures) :
    Reaches text start way.1 way.2 := by
  induction items generalizing s captures with
  | nil =>
    obtain rfl := List.mem_singleton.mp hway
    exact h
  | cons item rest ih =>
    obtain ⟨offer, hoffer, hway⟩ := List.mem_flatMap.mp hway
    exact ih (h.offers hoffer) hway

/-- An item that begins a capture adds one, and any other item keeps their number. -/
theorem Item.length_of_mem_offers {item : Item} {way : Nat × Captures}
    (hway : way ∈ item.offers text s captures) :
    way.2.length = captures.length + item.captures.toNat := by
  cases item with
  | closeCapture =>
    obtain ⟨closed, hclosed, rfl⟩ := List.mem_map.mp hway
    obtain ⟨before, c, after, rfl, -, rfl⟩ :=
      exists_of_close?_eq_some (Option.mem_toList.mp hclosed)
    simp [Item.captures]
  | _ => grind [Item.offers, Item.captures]

/-- **A way to match has a capture for each item that begins one**, besides those there are
already. -/
theorem length_of_mem_ways {items : List Item} {way : Nat × Captures}
    (hway : way ∈ ways text items s captures) :
    way.2.length = captures.length + items.countP Item.captures := by
  induction items generalizing s captures with
  | nil =>
    obtain rfl := List.mem_singleton.mp hway
    rfl
  | cons item rest ih =>
    obtain ⟨offer, hoffer, hway⟩ := List.mem_flatMap.mp hway
    rw [ih hway, Item.length_of_mem_offers hoffer, List.countP_cons]
    cases item.captures <;> simp [Nat.add_comm, Nat.add_left_comm]

end Reaches

/-! ## The match at a position -/

/-- **The match at a position**: the preferred way to match from there, if there is one. -/
def firstMatch? (text : ByteArray) (pattern : Pattern) (s : Nat) : Option Match :=
  (ways text pattern.items s []).head?.map fun way => ⟨s, way.1, way.2⟩

section Matches

variable {text : ByteArray} {pattern : Pattern} {s : Nat} {m : Match}

theorem firstMatch?_eq_some_iff :
    firstMatch? text pattern s = some m
      ↔ m.start = s ∧ (ways text pattern.items s []).head? = some (m.stop, m.captures) := by
  rw [firstMatch?, Option.map_eq_some_iff]
  constructor
  · rintro ⟨way, hway, rfl⟩
    exact ⟨rfl, hway⟩
  · rintro ⟨rfl, hway⟩
    exact ⟨_, hway, rfl⟩

theorem firstMatch?_eq_none_iff :
    firstMatch? text pattern s = none ↔ ways text pattern.items s [] = [] := by
  rw [firstMatch?, Option.map_eq_none_iff, List.head?_eq_none_iff]

/-- A match ends after it begins, in the text, its captures are of what is between, and there are as
many as the pattern has. -/
theorem reaches_of_firstMatch? (hs : s ≤ text.size) (h : firstMatch? text pattern s = some m) :
    Reaches text m.start m.stop m.captures
      ∧ m.captures.length = pattern.items.countP Item.captures := by
  obtain ⟨rfl, hway⟩ := firstMatch?_eq_some_iff.mp h
  have hstart : Reaches text m.start m.start [] := ⟨Nat.le_refl _, hs, nofun⟩
  have hway := List.mem_of_head? hway
  exact ⟨hstart.ways hway, (length_of_mem_ways hway).trans (Nat.zero_add _)⟩

/-- What a search at a position reports is the match there. -/
theorem eq_firstMatch?_of_yields_matchAt {subject : Subject} {found? : Option Match}
    (hlast : AnchorLast pattern.items) (h : Yields (matchAt subject pattern s) found?) :
    found? = firstMatch? subject.bytes pattern s := by
  obtain ⟨way?, hway, h⟩ := h.of_bind
  rw [h.of_pure, (yieldsFirst_of_anchorLast subject hlast).of_nest hway, firstMatch?]

theorem anchorLast_ofBytes (text : ByteArray) : AnchorLast (ofBytes text).items := by
  unfold ofBytes
  split <;> exact anchorLast_readAll text _

end Matches

/-! ## The positions of a search -/

/-- **The positions at which a search from `s` looks for a pattern**: all from there on, or only that
one if the pattern is anchored. -/
def lookouts (text : ByteArray) (pattern : Pattern) (s : Nat) : Set Nat :=
  {s' | s ≤ s' ∧ s' ≤ text.size ∧ (pattern.anchored = true → s' = s)}

/-- **What should be reported** of what there is at some positions: what there is at the least one
that has anything, if there is one. -/
def Reports (answer : Nat → Option Match) (positions : Set Nat) : Option Match → Prop
  | none => ∀ s ∈ positions, answer s = none
  | some m => ∃ s, IsLeast {s | s ∈ positions ∧ answer s ≠ none} s ∧ answer s = some m

section Reports

variable {answer : Nat → Option Match} {positions : Set Nat} {found? found?' : Option Match}

/-- Only one report is right. -/
theorem Reports.unique (h : Reports answer positions found?)
    (h' : Reports answer positions found?') : found? = found?' := by
  cases found? with
  | none =>
    cases found?' with
    | none => rfl
    | some m' =>
      obtain ⟨s, hleast, -⟩ := h'
      exact absurd (h s hleast.1.1) hleast.1.2
  | some m =>
    obtain ⟨s, hleast, hm⟩ := h
    cases found?' with
    | none => exact absurd (h' s hleast.1.1) hleast.1.2
    | some m' =>
      obtain ⟨s', hleast', hm'⟩ := h'
      obtain rfl := hleast.unique hleast'
      exact hm.symm.trans hm'

/-- There is always something that should be reported. -/
theorem exists_reports (answer : Nat → Option Match) (positions : Set Nat) :
    ∃ found?, Reports answer positions found? := by
  by_cases h : {s | s ∈ positions ∧ answer s ≠ none}.Nonempty
  · have hleast : IsLeast _ _ := ⟨Nat.sInf_mem h, fun _ hs => Nat.sInf_le hs⟩
    obtain ⟨m, hm⟩ := Option.ne_none_iff_exists'.mp hleast.1.2
    exact ⟨some m, _, hleast, hm⟩
  · refine ⟨none, fun s hs => ?_⟩
    by_contra hanswer
    exact h ⟨s, hs, hanswer⟩

variable {text : ByteArray} {pattern : Pattern} {s : Nat} {subject : Subject}

/-- What there is at the first of the positions is reported. -/
theorem reports_here {m : Match} (hs : s ≤ text.size) (h : answer s = some m) :
    Reports answer (lookouts text pattern s) (some m) :=
  ⟨s, ⟨⟨⟨Nat.le_refl s, hs, fun _ => rfl⟩, by rw [h]; nofun⟩, fun _ hs' => hs'.1.1⟩, h⟩

/-- There is nothing at the only position. -/
theorem reports_nowhere (hend : pattern.anchored = true ∨ text.size ≤ s) (h : answer s = none) :
    Reports answer (lookouts text pattern s) none := by
  rintro s' ⟨hs, hs', honly⟩
  obtain rfl : s' = s := by
    rcases hend with hanchored | hend
    · exact honly hanchored
    · omega
  exact h

/-- If there is nothing at the first position, what is reported is what there is at the later
ones. -/
theorem Reports.earlier (hanchored : pattern.anchored ≠ true)
    (h : Reports answer (lookouts text pattern (s + 1)) found?) (hnone : answer s = none) :
    Reports answer (lookouts text pattern s) found? := by
  have hlater (s' : Nat) (hs' : s' ∈ lookouts text pattern s) (hanswer : answer s' ≠ none) :
      s' ∈ lookouts text pattern (s + 1) := by
    have hne : s' ≠ s := fun heq => hanswer (heq ▸ hnone)
    have hlt := hs'.1
    exact ⟨by omega, hs'.2.1, fun h => absurd h hanchored⟩
  cases found? with
  | none =>
    intro s' hs'
    by_contra hanswer
    exact hanswer (h s' (hlater s' hs' hanswer))
  | some m =>
    obtain ⟨s₁, ⟨⟨hs₁, hanswer⟩, hleast⟩, hm⟩ := h
    have hlookout : s₁ ∈ lookouts text pattern s :=
      ⟨Nat.le_of_succ_le hs₁.1, hs₁.2.1, fun h => absurd h hanchored⟩
    exact ⟨s₁, ⟨⟨hlookout, hanswer⟩, fun s' hs' => hleast ⟨hlater s' hs'.1 hs'.2, hs'.2⟩⟩, hm⟩

/-- **The search by way of the items reports what it should**, of whatever it finds at the
positions. -/
theorem reports_of_yields_find? (hs : s ≤ subject.bytes.size)
    (hanswer : ∀ s found?, Yields (matchAt subject pattern s) found? → found? = answer s)
    (h : Yields (find? subject pattern s) found?) :
    Reports answer (lookouts subject.bytes pattern s) found? := by
  induction hn : subject.bytes.size - s using Nat.strongRecOn generalizing s with
  | ind n ih =>
    rw [find?] at h
    obtain ⟨here?, hhere, h⟩ := h.of_bind
    have hhere := hanswer s here? hhere
    cases here? with
    | some m =>
      rw [h.of_pure]
      exact reports_here hs hhere.symm
    | none =>
      dsimp only at h
      split at h
      case isTrue hend =>
        rw [h.of_pure]
        exact reports_nowhere hend hhere.symm
      case isFalse hon =>
        obtain ⟨hanchored, hlt⟩ := not_or.mp hon
        exact (ih _ (by omega) (by omega) h rfl).earlier hanchored hhere.symm

end Reports

/-! ## Searching for a text -/

/-- The match of a text at a position, if the text stands there. -/
def textMatch? (bytes text : ByteArray) (s : Nat) : Option Match :=
  if (bytesFrom text 0).isPrefixOf (bytesFrom bytes s) then some ⟨s, s + text.size, []⟩ else none

section Text

variable {subject : Subject} {text : ByteArray} {pattern : Pattern} {s : Nat}
variable {found? : Option Match}

/-- Where there is no room for a text it does not stand. -/
theorem textMatch?_eq_none {bytes : ByteArray} (hs : s ≤ bytes.size)
    (h : ¬ s + text.size ≤ bytes.size) : textMatch? bytes text s = none := by
  refine if_neg fun hstands => h ?_
  exact le_of_startsWithAt hs ((startsWithAt_eq_isPrefixOf ⟨bytes, .never⟩ text s).trans hstands)

/-- The empty text stands everywhere. -/
theorem textMatch?_of_size_eq_zero {bytes : ByteArray} (h : text.size = 0) :
    textMatch? bytes text s = some ⟨s, s, []⟩ := by
  rw [textMatch?, bytesFrom_of_le (Nat.le_of_eq h), h]
  rfl

/-- The search for the position of a text reports what it should. -/
theorem reports_of_textPosition? {stride origin : Nat} {position? : Option Nat}
    (hanchored : pattern.anchored ≠ true) (hs : s ≤ subject.bytes.size)
    (h : textPosition? subject text stride origin s = .ok position?) :
    Reports (textMatch? subject.bytes text) (lookouts subject.bytes pattern s)
      (position?.map fun start => ⟨start, start + text.size, []⟩) := by
  fun_induction textPosition? subject text stride origin s with
  | case1 => cases h
  | case2 s _ _ hstands =>
    cases h
    rw [startsWithAt_eq_isPrefixOf] at hstands
    exact reports_here hs (if_pos hstands)
  | case3 s hroom _ hstands ih =>
    rw [startsWithAt_eq_isPrefixOf] at hstands
    have hnone : textMatch? subject.bytes text s = none := if_neg hstands
    by_cases hlt : s < subject.bytes.size
    · exact (ih hlt h).earlier hanchored hnone
    · -- only the empty text has room at the end
      rw [textMatch?_of_size_eq_zero (by omega)] at hnone
      cases hnone
  | case4 s hroom =>
    cases h
    rintro s' ⟨hs, hs', -⟩
    exact textMatch?_eq_none hs' (by omega)

/-- **The search for a text reports what it should.** -/
theorem reports_of_findText? (hanchored : pattern.anchored ≠ true) (hs : s ≤ subject.bytes.size)
    (h : findText? subject text s = .ok found?) :
    Reports (textMatch? subject.bytes text) (lookouts subject.bytes pattern s) found? := by
  unfold findText? at h
  split at h
  case isTrue hempty =>
    cases h
    exact reports_here hs (textMatch?_of_size_eq_zero hempty)
  case isFalse =>
    obtain ⟨position?, hposition, h⟩ := exists_of_bind_eq_ok h
    cases h
    exact reports_of_textPosition? hanchored hs hposition

end Text

/-! ## Plain patterns -/

section Plain

variable {subject : Subject} {text : ByteArray} {p room s : Nat}

theorem not_special_of_isPlain (h : isPlain text = true) (hp : p < text.size) (b : UInt8)
    (hb : b ∈ specials) : text[p] ≠ b := by
  have hplain : !specials.contains text[p] := Array.all_eq_true.mp h p hp
  rintro rfl
  rw [List.contains_iff_mem.mpr hb] at hplain
  cases hplain

/-- In a plain pattern there is nothing but bytes that stand for themselves and closing
parentheses. -/
theorem read_of_isPlain (h : isPlain text = true) (hp : p < text.size) :
    Item.read text p = .ok (.closeCapture, p + 1)
      ∨ Item.read text p = .ok (.single (.literal text[p]) .once, p + 1) := by
  have hhere : byteAt text p = .ok text[p] := by rw [byteAt, byteAt?, dif_pos hp]
  have hplain := not_special_of_isPlain h hp
  by_cases hclose : text[p] = byte ')'
  · left
    have hopen : text[p] ≠ byte '(' := hplain _ (by decide)
    simp only [Item.read, hhere, bind, Except.bind, pure, Except.pure, if_neg hopen, if_pos hclose]
  · refine .inr (Item.read_literal hhere hplain hclose ?_)
    unfold byteAt?
    split
    case isTrue hnext => exact Repetition.ofByte?_eq_none (not_special_of_isPlain h hnext)
    case isFalse => rfl

/-- A search for what a plain pattern says from a position on finds it if it stands there. -/
theorem eq_of_yields_plain (h : isPlain text = true) (hp : p ≤ text.size)
    {way? : Option (Nat × Captures)}
    (hway : Yields (Item.matchList subject (Item.readAll text p) room s []) way?) :
    way? = if (bytesFrom text p).isPrefixOf (bytesFrom subject.bytes s) then
      some (s + (text.size - p), []) else none := by
  induction hn : text.size - p generalizing p s with
  | zero =>
    obtain rfl : p = text.size := by omega
    rw [Item.readAll_of_le (Nat.le_refl _), Item.matchList] at hway
    obtain ⟨_, -, hway⟩ := hway.of_bind
    rw [hway.of_pure, bytesFrom_of_le (Nat.le_refl _)]
    rfl
  | succ n ih =>
    have hp : p < text.size := by omega
    rcases read_of_isPlain h hp with hread | hread
    · -- no capture is open that could be closed here, so the search has failed
      rw [Item.readAll_of_read hp hread, matchList_cons] at hway
      obtain ⟨_, -, hway⟩ := hway.of_bind
      exact hway.of_throw.elim
    · rw [Item.readAll_of_read hp hread, matchList_cons] at hway
      obtain ⟨_, -, hway⟩ := hway.of_bind
      simp only [Item.search, Subject.matchesAt, byteAt?_eq_head?] at hway
      rw [bytesFrom_of_lt hp]
      cases hbytes : bytesFrom subject.bytes s with
      | nil =>
        rw [hbytes] at hway
        exact hway.of_pure
      | cons b rest =>
        have hs := lt_size_of_bytesFrom hbytes
        obtain ⟨rfl, rfl⟩ := List.cons.inj ((bytesFrom_of_lt hs).symm.trans hbytes)
        rw [hbytes, List.head?_cons, Option.any_some, CharClass.covers] at hway
        rw [List.isPrefixOf_cons_cons]
        split at hway
        case isTrue hsame =>
          rw [ih hp hway (by omega), hsame, Bool.true_and, Nat.add_assoc, Nat.add_comm 1]
        case isFalse hother =>
          rw [hway.of_pure, Bool.eq_false_iff.mpr hother, Bool.false_and]
          rfl

/-- A plain pattern is not anchored. -/
theorem ofBytes_of_isPlain (h : isPlain text = true) :
    ofBytes text = ⟨false, Item.readAll text 0⟩ := by
  refine if_neg fun hcaret => ?_
  have hp := lt_size_of_byteAt? hcaret
  rw [byteAt?, dif_pos hp] at hcaret
  exact not_special_of_isPlain h hp _ (by decide) (Option.some.inj hcaret)

/-- **At each position a plain pattern matches where it stands as a text**, if the search there
reports anything. -/
theorem eq_textMatch?_of_isPlain (h : isPlain text = true) {found? : Option Match}
    (hfound : Yields (matchAt subject (ofBytes text) s) found?) :
    found? = textMatch? subject.bytes text s := by
  obtain ⟨way?, hway, hfound⟩ := hfound.of_bind
  obtain ⟨room, hway⟩ := hway.of_nest
  have hitems : (ofBytes text).items = Item.readAll text 0 := by
    rw [ofBytes_of_isPlain h]
  rw [hitems] at hway
  rw [hfound.of_pure, eq_of_yields_plain h (Nat.zero_le _) hway, textMatch?, Nat.sub_zero]
  split <;> rfl

end Plain

/-! ## The first match -/

section First

variable {subject subject' : Subject} {pattern : ByteArray} {start : Option Int}
variable {found? found?' : Option Match}

/-- Past the end there is nothing to be reported. -/
theorem reports_past {answer : Nat → Option Match} {text : ByteArray} {pattern : Pattern} {s : Nat}
    (hs : text.size < s) : Reports answer (lookouts text pattern s) none := by
  rintro s' ⟨hle, hle', -⟩
  omega

/-- **The first match is the one at the least position that has one.** -/
theorem reports_of_yields_findMatch (h : Yields (findMatch subject pattern start) found?) :
    Reports (firstMatch? subject.bytes (ofBytes pattern))
      (lookouts subject.bytes (ofBytes pattern) (startOffset start subject.bytes.size)) found? := by
  unfold findMatch at h
  dsimp only at h
  split at h
  case isTrue hs =>
    rw [h.of_pure]
    exact reports_past hs
  case isFalse hs =>
    exact reports_of_yields_find? (Nat.not_lt.mp hs)
      (fun _ _ => eq_firstMatch?_of_yields_matchAt (anchorLast_ofBytes pattern)) h

/-- **Both searches report the same**, also where the first one takes the pattern as a text. -/
theorem eq_of_yields_find (hbytes : subject.bytes = subject'.bytes)
    (h : Yields (find subject pattern start false) found?)
    (h' : Yields (findMatch subject' pattern start) found?') : found? = found?' := by
  by_cases hplain : isPlain pattern = true
  · unfold find at h
    unfold findMatch at h'
    rw [hplain, Bool.or_true] at h
    rw [hbytes] at h
    dsimp only at h h'
    split at h'
    case isTrue hs =>
      rw [if_pos hs] at h
      rw [h.of_pure, h'.of_pure]
    case isFalse hs =>
      rw [if_neg hs, if_pos rfl] at h
      have hs := Nat.not_lt.mp hs
      have hreports := reports_of_yields_find? hs (fun _ _ => eq_textMatch?_of_isPlain hplain) h'
      rw [← hbytes] at hs hreports h
      have hanchored : (ofBytes pattern).anchored ≠ true := by
        rw [ofBytes_of_isPlain hplain]
        nofun
      exact (reports_of_findText? hanchored hs h.of_lift).unique hreports
  · rw [find_eq_findMatch (by rwa [Bool.false_or])] at h
    have hreports := reports_of_yields_findMatch h
    rw [hbytes] at hreports
    exact hreports.unique (reports_of_yields_findMatch h')

end First

end LedgerReports.Pattern
