import LedgerReports.Pattern.Search
import LedgerReports.Proofs.Pattern.Items
import Mathlib

/-!
# The ways to match a pattern

A search gives one match and stops. Which one that should be is said here
without a search: every item *offers*, at a position and with the captures
so far, a list of ways to go on, the preferred one first
(`Item.offers`). The ways to match a list of items are then the offers of
the first one, each followed by the ways to match the rest after it
(`ways`), and that list is in the order of preference as a whole.

`yieldsFirst_of_anchorLast` says that a search which gives an answer gives the
first of these ways, and that there is none if it finds nothing. The
search gets there with shortcuts – a class that matches no byte is passed
over, the last alternative is not nested, an alternative that fails is
forgotten – and none of them changes the answer.

An item that cannot be matched at all because the pattern is badly
written, or because it refers to a capture that is not there, offers
nothing. A search that meets such an item fails, so it gives no answer
that could be wrong.
-/

namespace LedgerReports.Pattern

/-! ## What an item offers -/

/-- The bytes of a text from a position on. -/
def bytesFrom (text : ByteArray) (s : Nat) : List UInt8 := text.data.toList.drop s

/-- How many bytes in a row, from a position on, are of a class. -/
def runLength (text : ByteArray) (bytes : CharClass) (s : Nat) : Nat :=
  ((bytesFrom text s).takeWhile bytes.covers).length

/-- **The counts a repetition offers** where `run` bytes in a row are of
the class: a greedy one the run as a whole and then ever less of it, a
lazy one ever more. -/
def Repetition.counts (run : Nat) : Repetition → List Nat
  | once => if run = 0 then [] else [1]
  | optional => if run = 0 then [0] else [1, 0]
  | greedy => (List.range (run + 1)).reverse
  | greedyOnce => (List.range' 1 run).reverse
  | lazy => List.range (run + 1)

/-- Whether a segment that starts with the opening byte is balanced: it
holds as many closing bytes as opening ones or, where the two are the same
byte, that byte twice. -/
def isBalanced (opening closing : UInt8) (segment : List UInt8) : Bool :=
  segment.count closing == if opening = closing then 2 else segment.count opening

/-- The length of the shortest balanced segment at a position, if the
opening byte stands there and there is one. -/
def balancedLength? (text : ByteArray) (opening closing : UInt8) (s : Nat) : Option Nat :=
  if (bytesFrom text s).head? = some opening then
    (List.range' 1 (bytesFrom text s).length).find? fun n =>
      isBalanced opening closing ((bytesFrom text s).take n)
  else none

/-- Whether a text passes at a position from outside a set into it, a zero
byte standing before its beginning and after its end. -/
def isFrontier (text : ByteArray) (set : CharSet) (s : Nat) : Bool :=
  !set.covers ((text.data.toList.take s).getLast?.getD 0)
    && set.covers ((bytesFrom text s).head?.getD 0)

/-- The text of a capture: none while it is open, the empty one if it is
of a position. -/
def Capture.text? (text : ByteArray) (c : Capture) : Option (List UInt8) :=
  match c.extent with
  | .opened => none
  | .position => some []
  | .closed length => some ((bytesFrom text c.start).take length)

/-- The text of the capture with a 1-based number, if there is one. -/
def Captures.text? (text : ByteArray) (captures : Captures) : Nat → Option (List UInt8)
  | 0 => none
  | i + 1 => captures[i]?.bind (·.text? text)

/-- **What an item offers** at a position: where to go on and with which
captures, the preferred way first. -/
def Item.offers (text : ByteArray) (s : Nat) (captures : Captures) :
    Item → List (Nat × Captures)
  | openCapture => [(s, captures ++ [⟨s, .opened⟩])]
  | positionCapture => [(s, captures ++ [⟨s, .position⟩])]
  | closeCapture => (captures.close? s).toList.map fun closed => (s, closed)
  | endAnchor => if s = text.size then [(s, captures)] else []
  | balance opening closing =>
    (balancedLength? text opening closing s).toList.map fun n => (s + n, captures)
  | frontier set => if isFrontier text set s then [(s, captures)] else []
  | backReference index =>
    ((captures.text? text index).filter fun t => t.isPrefixOf (bytesFrom text s)).toList.map
      fun t => (s + t.length, captures)
  | single bytes repetition =>
    (repetition.counts (runLength text bytes s)).map fun n => (s + n, captures)
  | invalid _ => []

/-- **The ways to match a list of items** from a position on, the
preferred one first: where each ends, and its captures. -/
def ways (text : ByteArray) : List Item → Nat → Captures → List (Nat × Captures)
  | [], s, captures => [(s, captures)]
  | item :: rest, s, captures =>
    (item.offers text s captures).flatMap fun way => ways text rest way.1 way.2

/-- The first way goes on from the first offer that leads anywhere. -/
theorem head?_ways_cons (text : ByteArray) (item : Item) (rest : List Item) (s : Nat)
    (captures : Captures) :
    (ways text (item :: rest) s captures).head?
      = (item.offers text s captures).findSome? fun way =>
          (ways text rest way.1 way.2).head? := by
  rw [ways, List.head?_flatMap]

/-! ## What a search yields

Whether a search gives an answer depends on the steps made before it,
since it may be stopped; which answer it gives does not. -/

/-- A search gives an answer, whatever the number of steps before it. -/
def Yields {α : Type} (x : SearchM α) (a : α) : Prop := ∃ n n', x.run n = .ok (a, n')

section Yields

variable {α β : Type}

theorem Yields.of_run {x : SearchM α} {a : α} {n n' : Nat} (h : x.run n = .ok (a, n')) :
    Yields x a := ⟨n, n', h⟩

theorem Yields.of_bind {x : SearchM α} {f : α → SearchM β} {b : β}
    (h : Yields (x >>= f) b) : ∃ a, Yields x a ∧ Yields (f a) b := by
  obtain ⟨n, n', h⟩ := h
  rw [StateT.run_bind] at h
  cases hx : x.run n with
  | error e =>
    rw [hx] at h
    cases h
  | ok p =>
    rw [hx] at h
    exact ⟨p.1, ⟨n, p.2, hx⟩, ⟨p.2, n', h⟩⟩

theorem Yields.of_pure {a b : α} (h : Yields (pure a) b) : b = a := by
  obtain ⟨n, n', h⟩ := h
  cases h
  rfl

theorem Yields.of_throw {e : Error} {a : α} (h : Yields (throw e) a) : False := by
  obtain ⟨n, n', h⟩ := h
  cases h

theorem Yields.of_lift {x : Except Error α} {a : α}
    (h : Yields (liftM x : SearchM α) a) : x = .ok a := by
  obtain ⟨n, n', h⟩ := h
  cases x with
  | error e => cases h
  | ok b =>
    cases h
    rfl

/-- A search that is nested answers as it does with the room it gets. -/
theorem Yields.of_nest {room : Nat} {search : Nat → SearchM α} {a : α}
    (h : Yields (nest room search) a) : ∃ room', Yields (search room') a := by
  cases room with
  | zero => exact h.of_throw.elim
  | succ room => exact ⟨room, h⟩

end Yields

/-! ## Bytes and runs -/

section Bytes

variable {text : ByteArray} {s : Nat}

theorem bytesFrom_of_lt (h : s < text.size) :
    bytesFrom text s = text[s] :: bytesFrom text (s + 1) :=
  List.drop_eq_getElem_cons h

theorem bytesFrom_of_le (h : text.size ≤ s) : bytesFrom text s = [] :=
  List.drop_eq_nil_of_le h

/-- Only a position of the text has a byte. -/
theorem lt_size_of_bytesFrom {b : UInt8} {rest : List UInt8} (h : bytesFrom text s = b :: rest) :
    s < text.size := by
  by_contra hs
  rw [bytesFrom_of_le (Nat.not_lt.mp hs)] at h
  cases h

/-- The bytes behind the first one. -/
theorem bytesFrom_succ {b : UInt8} {rest : List UInt8} (h : bytesFrom text s = b :: rest) :
    bytesFrom text (s + 1) = rest := by
  rw [bytesFrom_of_lt (lt_size_of_bytesFrom h)] at h
  exact (List.cons.inj h).2

/-- The byte at a position is the first one from there on. -/
theorem byteAt?_eq_head? (text : ByteArray) (s : Nat) :
    byteAt? text s = (bytesFrom text s).head? := by
  unfold byteAt?
  split
  case isTrue h => rw [bytesFrom_of_lt h]; rfl
  case isFalse h => rw [bytesFrom_of_le (by omega)]; rfl

theorem matchesAt_iff (subject : Subject) (bytes : CharClass) (s : Nat) :
    subject.matchesAt bytes s = true ↔ runLength subject.bytes bytes s ≠ 0 := by
  rw [Subject.matchesAt, byteAt?_eq_head?, runLength]
  cases bytesFrom subject.bytes s with
  | nil => simp
  | cons b rest => by_cases h : bytes.covers b = true <;> simp [h]

theorem lt_size_of_matchesAt {subject : Subject} {bytes : CharClass} {s : Nat}
    (h : subject.matchesAt bytes s = true) : s < subject.bytes.size := by
  by_contra hs
  rw [matchesAt_iff, runLength, bytesFrom_of_le (by omega)] at h
  exact h rfl

/-- A run goes on from its first byte. -/
theorem runLength_of_matchesAt {subject : Subject} {bytes : CharClass} {s : Nat}
    (h : subject.matchesAt bytes s = true) :
    runLength subject.bytes bytes s = runLength subject.bytes bytes (s + 1) + 1 := by
  have hs := lt_size_of_matchesAt h
  rw [Subject.matchesAt, byteAt?_eq_head?, bytesFrom_of_lt hs] at h
  have hb : bytes.covers subject.bytes[s] = true := by simpa using h
  rw [runLength, bytesFrom_of_lt hs, List.takeWhile_cons_of_pos hb, List.length_cons,
    runLength]

theorem runLength_of_not_matchesAt {subject : Subject} {bytes : CharClass} {s : Nat}
    (h : ¬subject.matchesAt bytes s = true) : runLength subject.bytes bytes s = 0 := by
  rw [matchesAt_iff] at h
  exact not_not.mp h

end Bytes

/-! ## The parts of a search

What each part of a search yields, when it yields something. -/

section Parts

variable {α : Type} {subject : Subject} {bytes : CharClass} {s : Nat}

/-- The end of a run is as far away as the run is long. -/
theorem eq_add_runLength_of_yields_runEnd {stop : Nat}
    (h : Yields (subject.runEnd bytes s) stop) :
    stop = s + runLength subject.bytes bytes s := by
  induction hn : runLength subject.bytes bytes s generalizing s with
  | zero =>
    have hs : ¬subject.matchesAt bytes s = true := by
      rw [matchesAt_iff, hn]
      exact not_not.mpr rfl
    rw [Subject.runEnd, if_neg (fun hc => hs hc.1)] at h
    exact h.of_pure
  | succ n ih =>
    have hs : subject.matchesAt bytes s = true := by
      rw [matchesAt_iff, hn]
      exact Nat.succ_ne_zero n
    rw [Subject.runEnd, if_pos ⟨hs, lt_size_of_matchesAt hs⟩] at h
    obtain ⟨_, _, h⟩ := h.of_bind
    rw [runLength_of_matchesAt hs] at hn
    rw [ih h (Nat.succ.inj hn)]
    omega

/-- Backing off yields the answer of the last position that has one. -/
theorem eq_findSome?_of_yields_backOff {next : Nat → SearchM (Option α)}
    {answer : Nat → Option α} (hnext : ∀ s r, Yields (next s) r → r = answer s)
    {n : Nat} {r : Option α} (h : Yields (backOff next s n) r) :
    r = (List.range (n + 1)).reverse.findSome? fun k => answer (s + k) := by
  induction n with
  | zero => simpa using hnext s r h
  | succ n ih =>
    obtain ⟨first, hfirst, h⟩ := Yields.of_bind h
    have hanswer := hnext _ _ hfirst
    rw [List.range_succ, List.reverse_append, List.reverse_singleton,
      List.singleton_append, List.findSome?_cons, ← Nat.add_assoc, ← hanswer]
    cases first with
    | some found => exact h.of_pure
    | none => exact ih h

/-- Advancing over bytes of a class yields the answer of the first
position that has one. -/
theorem eq_findSome?_of_yields_advance {next : Nat → SearchM (Option α)}
    {answer : Nat → Option α} (hnext : ∀ s r, Yields (next s) r → r = answer s)
    {r : Option α} (h : Yields (advance subject bytes next s) r) :
    r = (List.range (runLength subject.bytes bytes s + 1)).findSome?
      fun k => answer (s + k) := by
  induction hn : runLength subject.bytes bytes s generalizing s with
  | zero =>
    have hs : ¬subject.matchesAt bytes s = true := by
      rw [matchesAt_iff, hn]
      exact not_not.mpr rfl
    rw [advance, if_neg (fun hc => hs hc.1)] at h
    obtain ⟨first, hfirst, h⟩ := h.of_bind
    have hanswer := hnext _ _ hfirst
    cases first with
    | some found => simpa [← hanswer] using h.of_pure
    | none => simpa [← hanswer] using h.of_pure
  | succ n ih =>
    have hs : subject.matchesAt bytes s = true := by
      rw [matchesAt_iff, hn]
      exact Nat.succ_ne_zero n
    rw [advance, if_pos ⟨hs, lt_size_of_matchesAt hs⟩] at h
    obtain ⟨first, hfirst, h⟩ := h.of_bind
    have hanswer := hnext _ _ hfirst
    rw [List.range_succ_eq_map, List.findSome?_cons, Nat.add_zero, ← hanswer,
      List.findSome?_map]
    cases first with
    | some found => exact h.of_pure
    | none =>
      rw [runLength_of_matchesAt hs] at hn
      rw [ih h (Nat.succ.inj hn)]
      refine congrArg (List.findSome? · _) (funext fun k => ?_)
      rw [Function.comp_apply, Nat.succ_eq_add_one, Nat.add_right_comm, Nat.add_assoc]

/-- Whether a segment closes `depth` opening bytes: it holds that many
closing bytes more than opening ones. -/
def closes (opening closing : UInt8) (depth : Nat) (segment : List UInt8) : Bool :=
  segment.count closing == depth + if opening = closing then 0 else segment.count opening

/-- The length of the shortest segment at the beginning that closes
`depth` opening bytes. -/
def closingLength? (opening closing : UInt8) (depth : Nat) (rest : List UInt8) : Option Nat :=
  (List.range' 1 rest.length).find? fun n => closes opening closing depth (rest.take n)

/-- Reading a byte changes how many opening bytes are left to be closed. -/
theorem closes_cons (opening closing b : UInt8) {depth : Nat} (hdepth : 1 ≤ depth)
    (segment : List UInt8) :
    closes opening closing depth (b :: segment)
      = closes opening closing
        (if b = closing then depth - 1 else if b = opening then depth + 1 else depth)
        segment := by
  simp only [closes, List.count_cons, beq_iff_eq]
  by_cases hc : b = closing <;> by_cases ho : b = opening <;>
    by_cases hoc : opening = closing <;> grind

/-- The shortest beginning of a list that satisfies a condition is its
first element alone, or goes on after it. -/
theorem find?_take_cons (p : List UInt8 → Bool) (b : UInt8) (rest : List UInt8) :
    (List.range' 1 (b :: rest).length).find? (fun n => p ((b :: rest).take n))
      = if p [b] then some 1
        else ((List.range' 1 rest.length).find? fun n => p (b :: rest.take n)).map (· + 1) := by
  rw [List.length_cons, List.range'_succ, List.find?_cons, ← List.map_add_range',
    List.find?_map]
  have hfirst : (b :: rest).take 1 = [b] := rfl
  simp only [hfirst, Function.comp_def, Nat.add_comm]
  cases p [b] <;> rfl

/-- The byte past a balanced pair is where the shortest segment that
closes the opening bytes ends. -/
theorem eq_closingLength?_of_yields_balanceEnd? {opening closing : UInt8} {depth : Nat}
    (hdepth : 1 ≤ depth) {r : Option Nat}
    (h : Yields (subject.balanceEnd? opening closing depth s) r) :
    r = (closingLength? opening closing depth (bytesFrom subject.bytes s)).map (s + ·) := by
  induction hrest : bytesFrom subject.bytes s generalizing s depth with
  | nil =>
    have hs : ¬s < subject.bytes.size := by
      intro hs
      rw [bytesFrom_of_lt hs] at hrest
      cases hrest
    rw [Subject.balanceEnd?, dif_neg hs] at h
    exact h.of_pure
  | cons b rest ih =>
    have hs := lt_size_of_bytesFrom hrest
    rw [bytesFrom_of_lt hs, List.cons.injEq] at hrest
    obtain ⟨hb, hrest⟩ := hrest
    rw [Subject.balanceEnd?, dif_pos hs, hb] at h
    obtain ⟨_, _, h⟩ := h.of_bind
    rw [closingLength?, find?_take_cons]
    have hnil : ∀ d, closes opening closing d [] = (0 == d) := fun d => by simp [closes]
    simp only [closes_cons _ _ _ hdepth, hnil]
    -- what is left to be found, once the depth after the byte is known
    have hgoOn : ∀ d, 1 ≤ d → Yields (subject.balanceEnd? opening closing d (s + 1)) r →
        r = ((closingLength? opening closing d rest).map (· + 1)).map (s + ·) := by
      intro d hd hd'
      rw [ih hd hd' hrest, Option.map_map]
      refine congrArg (Option.map · _) (funext fun n => ?_)
      rw [Function.comp_apply]
      omega
    by_cases hc : b = closing
    · rw [if_pos hc] at h ⊢
      by_cases hone : depth ≤ 1
      · rw [if_pos hone] at h
        have : depth - 1 = 0 := by omega
        rw [this]
        exact h.of_pure
      · rw [if_neg hone] at h
        have : ¬(0 == depth - 1) = true := by simp; omega
        rw [if_neg this]
        exact hgoOn _ (by omega) h
    · rw [if_neg hc] at h ⊢
      by_cases ho : b = opening
      · rw [if_pos ho] at h ⊢
        exact hgoOn _ (by omega) h
      · rw [if_neg ho] at h ⊢
        have : ¬(0 == depth) = true := by simp; omega
        rw [if_neg this]
        exact hgoOn _ hdepth h

/-- A balanced segment closes, after its first byte, what that byte opens. -/
theorem isBalanced_cons (opening closing : UInt8) (segment : List UInt8) :
    isBalanced opening closing (opening :: segment) = closes opening closing 1 segment := by
  simp only [isBalanced, closes, List.count_cons, beq_iff_eq]
  by_cases hoc : opening = closing <;> grind

theorem balancedLength?_eq_closingLength? {opening : UInt8} (closing : UInt8)
    (h : byteAt? subject.bytes s = some opening) :
    balancedLength? subject.bytes opening closing s
      = (closingLength? opening closing 1 (bytesFrom subject.bytes (s + 1))).map (· + 1) := by
  rw [byteAt?_eq_head?] at h
  have hs : s < subject.bytes.size := by
    by_contra hs
    rw [bytesFrom_of_le (by omega)] at h
    cases h
  rw [balancedLength?, if_pos h]
  rw [bytesFrom_of_lt hs] at h ⊢
  obtain rfl : subject.bytes[s] = opening := Option.some.inj h
  rw [find?_take_cons, closingLength?]
  simp only [isBalanced_cons]
  exact if_neg (by simp [closes])

/-- Whether there is a frontier at a position inside the subject. -/
theorem eq_isFrontier_of_atFrontier {set : CharSet} {b : Bool}
    (h : subject.atFrontier set s = .ok b) : b = isFrontier subject.bytes set s := by
  unfold Subject.atFrontier at h
  rw [isFrontier, ← byteAt?_eq_head?]
  cases s with
  | zero =>
    cases h
    rfl
  | succ s =>
    rw [if_neg (Nat.succ_ne_zero s), Nat.add_sub_cancel, byteAt] at h
    cases hprevious : byteAt? subject.bytes s with
    | none =>
      rw [hprevious] at h
      cases h
    | some previous =>
      rw [hprevious] at h
      cases h
      unfold byteAt? at hprevious
      split at hprevious
      case isFalse hs => cases hprevious
      case isTrue hs =>
        cases hprevious
        have hlast : (subject.bytes.data.toList.take (s + 1)).getLast?
            = some subject.bytes[s] := by
          rw [List.take_add_one, List.getElem?_eq_getElem hs]
          exact List.getLast?_concat
        rw [hlast]
        rfl

/-- The bytes of a slice. -/
theorem toList_of_slice {text piece : ByteArray} {start stop : Nat}
    (h : slice text start stop = .ok piece) :
    piece.data.toList = (bytesFrom text start).take (stop - start) := by
  unfold slice at h
  split at h
  case isFalse => cases h
  case isTrue =>
    cases h
    rw [ByteArray.data_extract, Array.toList_extract]
    rfl

/-- A back reference reads the text of the capture. -/
theorem text?_of_referenced {captures : Captures} {index : Nat} {text : ByteArray}
    (h : subject.referenced captures index = .ok text) :
    captures.text? subject.bytes index = some text.data.toList := by
  cases index with
  | zero => cases h
  | succ i =>
    simp only [Subject.referenced] at h
    rw [Captures.text?]
    split at h
    case h_1 start length hcapture =>
      rw [hcapture, toList_of_slice h, Nat.add_sub_cancel_left]
      rfl
    case h_2 start hcapture =>
      rw [hcapture, toList_of_slice h, Nat.sub_self]
      rfl
    case h_3 => cases h
    case h_4 => cases h

/-- A text stands at a position if it is a beginning of what follows. -/
theorem startsWithAt_eq_isPrefixOf (subject : Subject) (text : ByteArray) (s : Nat) :
    subject.startsWithAt text s
      = text.data.toList.isPrefixOf (bytesFrom subject.bytes s) := by
  have hgo : ∀ i, Subject.startsWithAt.go subject text s i
      = (bytesFrom text i).isPrefixOf (bytesFrom subject.bytes (s + i)) := by
    intro i
    fun_induction Subject.startsWithAt.go subject text s i with
    | case1 i hi ih =>
      rw [ih, byteAt?_eq_head?, bytesFrom_of_lt hi, ← Nat.add_assoc]
      by_cases hs : s + i < subject.bytes.size
      · rw [bytesFrom_of_lt hs, List.isPrefixOf_cons_cons, List.head?_cons,
          Option.some_beq_some, BEq.comm]
      · rw [bytesFrom_of_le (Nat.not_lt.mp hs)]
        rfl
    | case2 i hi =>
      rw [bytesFrom_of_le (Nat.not_lt.mp hi)]
      rfl
  exact hgo 0

end Parts

/-! ## The search -/

/-- The first way after a class, by how many of its bytes are taken. -/
theorem head?_ways_single (text : ByteArray) (bytes : CharClass) (repetition : Repetition)
    (rest : List Item) (s : Nat) (captures : Captures) :
    (ways text (.single bytes repetition :: rest) s captures).head?
      = (repetition.counts (runLength text bytes s)).findSome? fun n =>
          (ways text rest (s + n) captures).head? := by
  rw [head?_ways_cons, Item.offers, List.findSome?_map]
  rfl

section Step

variable {subject : Subject} {rest : List Item} {room s : Nat} {captures : Captures}
  {r : Option (Nat × Captures)}

/-- A search for these items yields the first way to match them. -/
def YieldsFirst (subject : Subject) (rest : List Item) : Prop :=
  ∀ room s captures r, Yields (Item.matchList subject rest room s captures) r →
    r = (ways subject.bytes rest s captures).head?

/-- A nesting item searches on for the remaining ones with less room. -/
theorem YieldsFirst.of_nest (hrest : YieldsFirst subject rest)
    (h : Yields (nest room fun room => Item.matchList subject rest room s captures) r) :
    r = (ways subject.bytes rest s captures).head? := by
  obtain ⟨room, h⟩ := h.of_nest
  exact hrest room s captures r h

theorem YieldsFirst.single (hrest : YieldsFirst subject rest) (bytes : CharClass)
    (repetition : Repetition)
    (h : Yields
      (Item.matchList subject (.single bytes repetition :: rest) room s captures) r) :
    r = (ways subject.bytes (.single bytes repetition :: rest) s captures).head? := by
  rw [head?_ways_single]
  obtain ⟨_, _, h⟩ := h.of_bind
  by_cases hs : subject.matchesAt bytes s = true
  · have hrun := runLength_of_matchesAt hs
    have hpos : runLength subject.bytes bytes s ≠ 0 := (matchesAt_iff _ _ _).mp hs
    simp only [if_pos hs] at h
    cases repetition with
    | once =>
      rw [Repetition.counts, if_neg hpos, List.findSome?_singleton]
      exact hrest _ _ _ _ h
    | optional =>
      rw [Repetition.counts, if_neg hpos, List.findSome?_cons, List.findSome?_singleton]
      obtain ⟨first, hfirst, h⟩ := h.of_bind
      rw [← hrest.of_nest hfirst]
      cases first with
      | some found => exact h.of_pure
      | none => exact hrest _ _ _ _ h
    | greedy =>
      obtain ⟨stop, hstop, h⟩ := h.of_bind
      rw [eq_add_runLength_of_yields_runEnd hstop, Nat.add_sub_cancel_left] at h
      exact eq_findSome?_of_yields_backOff (fun _ _ => hrest.of_nest) h
    | greedyOnce =>
      obtain ⟨stop, hstop, h⟩ := h.of_bind
      rw [eq_add_runLength_of_yields_runEnd hstop, Nat.add_sub_cancel_left] at h
      rw [eq_findSome?_of_yields_backOff (fun _ _ => hrest.of_nest) h, Repetition.counts,
        hrun, ← List.map_add_range' 0, ← List.range_eq_range', ← List.map_reverse,
        List.findSome?_map]
      refine congrArg (List.findSome? · _) (funext fun n => ?_)
      rw [Function.comp_apply, Nat.add_assoc]
    | lazy => exact eq_findSome?_of_yields_advance (fun _ _ => hrest.of_nest) h
  · have hnone := runLength_of_not_matchesAt hs
    simp only [if_neg hs] at h
    rw [hnone]
    cases repetition with
    | once => exact h.of_pure
    | greedyOnce => exact h.of_pure
    | optional =>
      rw [Repetition.counts, if_pos rfl, List.findSome?_singleton]
      exact hrest _ _ _ _ h
    | greedy =>
      rw [hrest _ _ _ _ h]
      exact List.findSome?_singleton.symm
    | lazy =>
      rw [hrest _ _ _ _ h]
      exact List.findSome?_singleton.symm

end Step

/-- **A search gives the first way to match the items**, and finds nothing
only if there is no way.

The induction is on the items. What the search does with the items after
the first one is then known at every position and with any captures, and
what is left is that the alternatives are tried in the order in which
they are offered. -/
theorem yieldsFirst_of_anchorLast (subject : Subject) {items : List Item}
    (hlast : AnchorLast items) : YieldsFirst subject items := by
  induction items with
  | nil =>
    intro room s captures r h
    obtain ⟨_, _, h⟩ := h.of_bind
    exact h.of_pure
  | cons item rest ih =>
    intro room s captures r h
    have ih := ih hlast.2
    rw [head?_ways_cons]
    have hitem := h
    obtain ⟨_, _, h⟩ := h.of_bind
    cases item with
    | openCapture =>
      rw [Item.offers, List.findSome?_singleton]
      simp only at h
      split at h
      · exact ih.of_nest h
      · exact h.of_throw.elim
    | positionCapture =>
      rw [Item.offers, List.findSome?_singleton]
      simp only at h
      split at h
      · exact ih.of_nest h
      · exact h.of_throw.elim
    | closeCapture =>
      rw [Item.offers]
      simp only at h
      split at h
      case h_1 closed hclose =>
        rw [hclose]
        simpa using ih.of_nest h
      case h_2 => exact h.of_throw.elim
    | endAnchor =>
      rw [Item.offers, h.of_pure, hlast.1 rfl]
      split <;> rfl
    | balance opening closing =>
      rw [Item.offers]
      simp only at h
      split at h
      case isTrue hs =>
        obtain ⟨stop?, hstop, h⟩ := h.of_bind
        rw [balancedLength?_eq_closingLength? closing hs]
        have hstop := eq_closingLength?_of_yields_balanceEnd? (Nat.le_refl 1) hstop
        cases hlength : closingLength? opening closing 1 (bytesFrom subject.bytes (s + 1)) with
        | none =>
          rw [hlength] at hstop
          subst hstop
          exact h.of_pure
        | some n =>
          rw [hlength] at hstop
          subst hstop
          rw [Option.map_some, Option.toList_some, List.map_singleton,
            List.findSome?_singleton, ← Nat.add_assoc, Nat.add_right_comm]
          exact ih _ _ _ _ h
      case isFalse hs =>
        rw [byteAt?_eq_head?] at hs
        rw [balancedLength?, if_neg hs]
        exact h.of_pure
    | frontier set =>
      rw [Item.offers]
      obtain ⟨b, hb, h⟩ := h.of_bind
      rw [← eq_isFrontier_of_atFrontier hb.of_lift]
      cases b with
      | true => simpa using ih _ _ _ _ h
      | false => exact h.of_pure
    | backReference index =>
      rw [Item.offers]
      obtain ⟨text, htext, h⟩ := h.of_bind
      rw [text?_of_referenced htext.of_lift, Option.filter_some, ← startsWithAt_eq_isPrefixOf]
      split at h
      case isTrue hs =>
        rw [if_pos hs]
        simpa using ih _ _ _ _ h
      case isFalse hs =>
        rw [if_neg hs]
        exact h.of_pure
    | single bytes repetition =>
      rw [← head?_ways_cons]
      exact ih.single bytes repetition hitem
    | invalid error => exact h.of_throw.elim

/-- **The answer of a search is the preferred way to match.** When the
search for what a pattern says from `p` on gives an answer at position `s`
of the subject, that answer is the first one of the ways to match, with
its captures, and nothing is found exactly if there is no way. This holds
for any position in the pattern and in the subject, whatever captures
there are already, however much room for nesting is left and however many
steps were made before. -/
theorem search_gives_first_way (subject : Subject) (pattern : ByteArray) (p room s : Nat)
    (captures : Captures) {r : Option (Nat × Captures)} {steps steps' : Nat}
    (h : (nest room fun room =>
      Item.matchList subject (Item.readAll pattern p) room s captures).run steps
        = .ok (r, steps')) :
    r = (ways subject.bytes (Item.readAll pattern p) s captures).head?
      ∧ (r = none ↔ ways subject.bytes (Item.readAll pattern p) s captures = []) := by
  have hr := (yieldsFirst_of_anchorLast subject (anchorLast_readAll pattern p)).of_nest (Yields.of_run h)
  refine ⟨hr, ?_⟩
  rw [hr]
  exact List.head?_eq_none_iff

/-- In `xaab` from position 1 on, `(a-)%1b` first tries no byte, then one,
which the reference repeats. -/
theorem search_gives_first_way_lazy :
    let subject : Subject := ⟨"xaab".toUTF8, .never⟩
    let pattern := "(a-)%1b".toUTF8
    (nest maxDepth fun room =>
      Item.matchList subject (Item.readAll pattern 0) room 1 []).run 0
        = .ok (some (4, [⟨1, .closed 1⟩]), 9)
    ∧ some (4, [⟨1, .closed 1⟩])
      = (ways subject.bytes (Item.readAll pattern 0) 1 []).head? := by
  have h : (nest maxDepth fun room =>
      Item.matchList ⟨"xaab".toUTF8, .never⟩ (Item.readAll "(a-)%1b".toUTF8 0) room 1 []).run 0
        = .ok (some (4, [⟨1, .closed 1⟩]), 9) := by
    cbv
  exact ⟨h, (search_gives_first_way _ _ _ _ _ _ h).1⟩

end LedgerReports.Pattern
