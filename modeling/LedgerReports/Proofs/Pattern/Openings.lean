import LedgerReports.Proofs.Pattern.Leftmost
import Mathlib

/-!
# The captures that a pattern opens

How many captures a pattern opens can be seen without reading its items. It is the
number of its opening parentheses, apart from those that stand for something else: an
escaped one, a member of a set, or a delimiter of a balanced pair. `openings` counts
them byte by byte, and what it keeps in mind from one byte to the next is what that
byte is read as (`ReadAs`).

The reader of a pattern takes more bytes at a time. Where it reads an item it has
passed by as many openings as the item begins captures (`openings_of_read`). A mistake
in a pattern is an item that offers no way to go on, so a pattern that matches
somewhere has been read without one, to its end (`not_invalid_of_mem_ways`). Hence
every match of a pattern has the same number of captures, in every subject and from
every position (`length_of_yields_some`).
-/

namespace LedgerReports.Pattern

/-! ## Counting byte by byte -/

/-- What a byte of a pattern is read as. -/
inductive ReadAs where
  /-- The beginning of an item, or a byte of one that has no other meaning. -/
  | item
  /-- The byte after an escape byte. -/
  | escaped
  /-- The opening byte of a balanced pair. -/
  | opening
  /-- The closing byte of a balanced pair. -/
  | closing
  /-- The byte after the opening bracket of a set. -/
  | bracket
  /-- A member of a set, whatever it is. -/
  | member
  /-- The byte after an escape byte in a set. -/
  | escapedMember
  /-- A further member of a set, or its closing bracket. -/
  | further
deriving DecidableEq, Repr

/-- What the byte after a member of a set is read as. -/
def ReadAs.afterMember (b : UInt8) : ReadAs := if b = escape then escapedMember else further

/-- What the byte after a byte is read as. -/
def ReadAs.next (b : UInt8) : ReadAs → ReadAs
  | item => if b = escape then escaped else if b = byte '[' then bracket else item
  | escaped => if b = byte 'b' then opening else item
  | opening => closing
  | closing => item
  | bracket => if b = byte '^' then member else afterMember b
  | member => afterMember b
  | escapedMember => further
  | further => if b = byte ']' then item else afterMember b

/-- **The openings among the bytes** of a pattern, the first of which is read as is said: the opening
parentheses that begin an item. -/
def openingsAs : ReadAs → List UInt8 → Nat
  | _, [] => 0
  | read, b :: rest =>
    (if read = .item ∧ b = byte '(' then 1 else 0) + openingsAs (read.next b) rest

/-- **The openings of a pattern.** -/
def openings (pattern : ByteArray) : Nat := openingsAs .item pattern.data.toList

/-- The openings of a pattern from a position on, where an item begins. -/
def openingsFrom (pattern : ByteArray) (p : Nat) : Nat := openingsAs .item (bytesFrom pattern p)

section Reading

variable {pattern : ByteArray} {p stop : Nat} {b : UInt8}

@[simp] theorem openingsAs_nil (read : ReadAs) : openingsAs read [] = 0 := by
  cases read <;> rfl

/-- Only where an item begins is anything counted. -/
theorem openingsAs_of_byteAt? (read : ReadAs) (h : byteAt? pattern p = some b)
    (hread : read ≠ .item) :
    openingsAs read (bytesFrom pattern p)
      = openingsAs (read.next b) (bytesFrom pattern (p + 1)) := by
  rw [byteAt?_eq_head?] at h
  obtain ⟨rest, hrest⟩ := List.head?_eq_some_iff.mp h
  rw [hrest, bytesFrom_succ hrest, openingsAs, if_neg fun hopening => hread hopening.1,
    Nat.zero_add]

theorem openingsAs_of_byteAt?_eq_none (read : ReadAs) (h : byteAt? pattern p = none) :
    openingsAs read (bytesFrom pattern p) = 0 := by
  rw [bytesFrom_of_le (size_le_of_byteAt?_eq_none h), openingsAs_nil]

/-- Where an item begins, an opening parenthesis is counted. -/
theorem openingsFrom_of_byteAt? (h : byteAt? pattern p = some b) :
    openingsFrom pattern p
      = (if b = byte '(' then 1 else 0)
        + openingsAs (ReadAs.next b .item) (bytesFrom pattern (p + 1)) := by
  rw [byteAt?_eq_head?] at h
  obtain ⟨rest, hrest⟩ := List.head?_eq_some_iff.mp h
  rw [openingsFrom, hrest, bytesFrom_succ hrest, openingsAs]
  simp only [true_and]

theorem openingsFrom_of_opening (h : byteAt? pattern p = some (byte '(')) :
    openingsFrom pattern p = 1 + openingsFrom pattern (p + 1) := by
  rw [openingsFrom_of_byteAt? h, if_pos rfl, ReadAs.next, if_neg (by decide), if_neg (by decide),
    openingsFrom]

/-- A byte without a meaning of its own is passed by. -/
theorem openingsFrom_of_ne (h : byteAt? pattern p = some b) (hopening : b ≠ byte '(')
    (hescape : b ≠ escape) (hbracket : b ≠ byte '[') :
    openingsFrom pattern p = openingsFrom pattern (p + 1) := by
  rw [openingsFrom_of_byteAt? h, if_neg hopening, Nat.zero_add, ReadAs.next, if_neg hescape,
    if_neg hbracket, openingsFrom]

/-- Behind an escape byte nothing is counted. -/
theorem openingsFrom_of_escape (h : byteAt? pattern p = some escape) :
    openingsFrom pattern p = openingsAs .escaped (bytesFrom pattern (p + 1)) := by
  rw [openingsFrom_of_byteAt? h, if_neg (by decide), Nat.zero_add, ReadAs.next, if_pos rfl]

/-- An escape byte takes the byte after it along, unless the two begin a balanced pair. -/
theorem openingsFrom_of_escaped (h : byteAt? pattern p = some escape)
    (hnext : byteAt? pattern (p + 1) = some b) (hb : b ≠ byte 'b') :
    openingsFrom pattern p = openingsFrom pattern (p + 2) := by
  rw [openingsFrom_of_escape h, openingsAs_of_byteAt? .escaped hnext (by decide), ReadAs.next,
    if_neg hb, openingsFrom]

/-! ### Sets -/

/-- A member of a set is passed by as a whole. -/
theorem openingsAs_member (pattern : ByteArray) (p : Nat) :
    openingsAs .member (bytesFrom pattern p)
      = openingsAs .further (bytesFrom pattern (memberEnd pattern p)) := by
  cases hb : byteAt? pattern p with
  | none =>
    have hsize := size_le_of_byteAt?_eq_none hb
    have hlt := lt_memberEnd pattern p
    rw [bytesFrom_of_le hsize, bytesFrom_of_le (by omega), openingsAs_nil, openingsAs_nil]
  | some b =>
    rw [openingsAs_of_byteAt? .member hb (by decide), ReadAs.next, ReadAs.afterMember, memberEnd,
      hb]
    by_cases hescape : b = escape
    · rw [if_pos hescape]
      cases hc : byteAt? pattern (p + 1) with
      | none =>
        have hsize := size_le_of_byteAt?_eq_none hc
        rw [if_neg (by omega), bytesFrom_of_le hsize, openingsAs_nil, openingsAs_nil]
      | some c =>
        rw [if_pos ⟨congrArg some hescape, lt_size_of_byteAt? hc⟩,
          openingsAs_of_byteAt? .escapedMember hc (by decide), ReadAs.next]
    · rw [if_neg hescape, if_neg fun h => hescape (Option.some.inj h.1)]

/-- Without a closing bracket a set goes on with a member. -/
theorem openingsAs_further (h : byteAt? pattern p ≠ some (byte ']')) :
    openingsAs .further (bytesFrom pattern p) = openingsAs .member (bytesFrom pattern p) := by
  cases hb : byteAt? pattern p with
  | none => rw [openingsAs_of_byteAt?_eq_none _ hb, openingsAs_of_byteAt?_eq_none _ hb]
  | some b =>
    rw [openingsAs_of_byteAt? .further hb (by decide),
      openingsAs_of_byteAt? .member hb (by decide), ReadAs.next, ReadAs.next,
      if_neg fun hclose : b = byte ']' => h (hclose ▸ hb)]

/-- The members of a set are passed by up to the closing bracket that ends them. -/
theorem openingsAs_of_setEnd (h : setEnd pattern p = .ok stop) :
    openingsAs .member (bytesFrom pattern p) = openingsFrom pattern stop := by
  fun_induction setEnd pattern p with
  | case1 p _ hclose =>
    cases h
    rw [openingsAs_member, openingsAs_of_byteAt? .further hclose (by decide), ReadAs.next,
      if_pos rfl, openingsFrom]
  | case2 p _ hclose ih => rw [openingsAs_member, openingsAs_further hclose, ih h]
  | case3 => cases h

/-- A set is passed by from its opening bracket on. -/
theorem openings_of_readSet {set : CharSet} (hbracket : byteAt? pattern p = some (byte '['))
    (h : CharSet.read pattern p = .ok (set, stop)) :
    openingsFrom pattern p = openingsFrom pattern stop := by
  obtain ⟨stop', hstop, h⟩ := exists_of_bind_eq_ok h
  obtain ⟨items, -, h⟩ := exists_of_bind_eq_ok h
  cases h
  rw [openingsFrom_of_byteAt? hbracket, if_neg (by decide), Nat.zero_add, ReadAs.next,
    if_neg (by decide), if_pos rfl, ← openingsAs_of_setEnd hstop]
  cases hb : byteAt? pattern (p + 1) with
  | none =>
    rw [openingsAs_of_byteAt?_eq_none _ hb]
    exact (openingsAs_of_byteAt?_eq_none _ hb).symm
  | some b =>
    rw [openingsAs_of_byteAt? .bracket hb (by decide), ReadAs.next]
    by_cases hcaret : b = byte '^'
    · rw [if_pos hcaret, if_pos (by rw [hcaret, beq_self_eq_true])]
    · rw [if_neg hcaret, if_neg fun h => hcaret (Option.some.inj (eq_of_beq h)),
        openingsAs_of_byteAt? .member hb (by decide), ReadAs.next]

/-! ### Items -/

/-- A class is passed by as a whole. -/
theorem openings_of_readClass {bytes : CharClass} (hopening : byteAt? pattern p ≠ some (byte '('))
    (hpair : ¬ (byteAt? pattern p = some escape ∧ byteAt? pattern (p + 1) = some (byte 'b')))
    (h : CharClass.read pattern p = .ok (bytes, stop)) :
    openingsFrom pattern p = openingsFrom pattern stop := by
  obtain ⟨b, hb, h⟩ := exists_of_bind_eq_ok h
  have hhere : byteAt? pattern p = some b := byteAt?_of_byteAt hb
  have hopening : b ≠ byte '(' := fun heq => hopening (heq ▸ hhere)
  split at h
  case isTrue hdot =>
    cases h
    exact openingsFrom_of_ne hhere hopening (by rw [hdot]; decide) (by rw [hdot]; decide)
  split at h
  case isTrue hescape =>
    subst hescape
    split at h
    case h_1 c hc =>
      cases h
      exact openingsFrom_of_escaped hhere hc fun heq => hpair ⟨hhere, heq ▸ hc⟩
    case h_2 => cases h
  case isFalse hescape =>
    split at h
    case isTrue hbracket =>
      obtain ⟨⟨set, stop'⟩, hset, h⟩ := exists_of_bind_eq_ok h
      cases h
      exact openings_of_readSet (hbracket ▸ hhere) hset
    case isFalse hbracket =>
      cases h
      exact openingsFrom_of_ne hhere hopening hescape hbracket

/-- A byte that says how often a class is matched is passed by. -/
theorem openingsFrom_of_repetition {repetition : Repetition} (h : byteAt? pattern p = some b)
    (hb : Repetition.ofByte? b = some repetition) :
    openingsFrom pattern p = openingsFrom pattern (p + 1) := by
  have hspecial : b = byte '?' ∨ b = byte '*' ∨ b = byte '+' ∨ b = byte '-' := by
    grind [Repetition.ofByte?]
  refine openingsFrom_of_ne h ?_ ?_ ?_ <;>
    rcases hspecial with rfl | rfl | rfl | rfl <;> decide

theorem openings_of_readSingle {item : Item} (hopening : byteAt? pattern p ≠ some (byte '('))
    (hpair : ¬ (byteAt? pattern p = some escape ∧ byteAt? pattern (p + 1) = some (byte 'b')))
    (h : Item.readSingle pattern p = .ok (item, stop)) :
    item.captures = false ∧ openingsFrom pattern p = openingsFrom pattern stop := by
  obtain ⟨⟨bytes, stop'⟩, hclass, h⟩ := exists_of_bind_eq_ok h
  rw [openings_of_readClass hopening hpair hclass]
  dsimp only at h
  split at h
  case h_1 repetition hrepetition =>
    cases h
    obtain ⟨b, hb, hrepetition⟩ := Option.bind_eq_some_iff.mp hrepetition
    exact ⟨rfl, openingsFrom_of_repetition hb hrepetition⟩
  case h_2 =>
    cases h
    exact ⟨rfl, rfl⟩

theorem openings_of_readFrontier {item : Item}
    (h : Item.readFrontier pattern p = .ok (item, stop)) :
    item.captures = false ∧ openingsFrom pattern p = openingsFrom pattern stop := by
  unfold Item.readFrontier at h
  split at h
  case isTrue hbracket =>
    obtain ⟨⟨set, stop'⟩, hset, h⟩ := exists_of_bind_eq_ok h
    cases h
    exact ⟨rfl, openings_of_readSet hbracket hset⟩
  case isFalse => cases h

/-- **Where an item is read, as many openings are passed by as it begins captures.** -/
theorem openings_of_read {item : Item} (h : Item.read pattern p = .ok (item, stop)) :
    openingsFrom pattern p = item.captures.toNat + openingsFrom pattern stop := by
  obtain ⟨b, hb, h⟩ := exists_of_bind_eq_ok h
  have hhere : byteAt? pattern p = some b := byteAt?_of_byteAt hb
  dsimp only at h
  split at h
  case isTrue hopening =>
    rw [openingsFrom_of_opening (hopening ▸ hhere)]
    split at h
    case isTrue hclose =>
      cases h
      rw [openingsFrom_of_ne hclose (by decide) (by decide) (by decide)]
      rfl
    case isFalse =>
      cases h
      rfl
  case isFalse hopening =>
  have hno : byteAt? pattern p ≠ some (byte '(') := by
    rw [hhere]
    exact fun h => hopening (Option.some.inj h)
  split at h
  case isTrue hclose =>
    cases h
    exact (openingsFrom_of_ne hhere hopening (by rw [hclose]; decide)
      (by rw [hclose]; decide)).trans (Nat.zero_add _).symm
  split at h
  case isTrue hdollar =>
    cases h
    exact (openingsFrom_of_ne hhere hopening (by rw [hdollar.1]; decide)
      (by rw [hdollar.1]; decide)).trans (Nat.zero_add _).symm
  split at h
  case isTrue hpair =>
    split at h
    case h_1 opening closing hfirst hsecond =>
      cases h
      rw [openingsFrom_of_escape (hpair.1 ▸ hhere),
        openingsAs_of_byteAt? .escaped hpair.2 (by decide), ReadAs.next, if_pos rfl,
        openingsAs_of_byteAt? .opening hfirst (by decide), ReadAs.next,
        openingsAs_of_byteAt? .closing hsecond (by decide), ReadAs.next]
      exact (Nat.zero_add _).symm
    case h_2 => cases h
  split at h
  case isTrue hfrontier =>
    obtain ⟨hcaptures, hset⟩ := openings_of_readFrontier h
    rw [openingsFrom_of_escaped (hfrontier.1 ▸ hhere) hfrontier.2 (by decide), hset, hcaptures]
    exact (Nat.zero_add _).symm
  split at h
  case isTrue hdigit =>
    cases h
    cases hd : byteAt? pattern (p + 1) with
    | none =>
      rw [hd] at hdigit
      cases hdigit.2
    | some d =>
      have hletter : d ≠ byte 'b' := by
        rintro rfl
        rw [hd] at hdigit
        exact absurd hdigit.2 (by decide)
      rw [openingsFrom_of_escaped (hdigit.1 ▸ hhere) hd hletter]
      exact (Nat.zero_add _).symm
  case isFalse hpair _ _ =>
    obtain ⟨hcaptures, hsingle⟩ := openings_of_readSingle hno
      (fun h => hpair ⟨Option.some.inj (hhere.symm.trans h.1), h.2⟩) h
    rw [hsingle, hcaptures]
    exact (Nat.zero_add _).symm

end Reading

/-! ## The captures of a match -/

section Matches

variable {text pattern : ByteArray} {items : List Item} {s p stop : Nat} {captures : Captures}

/-- A pattern that matches somewhere has been read without a mistake. -/
theorem not_invalid_of_mem_ways {way : Nat × Captures} (hway : way ∈ ways text items s captures)
    (e : Error) : Item.invalid e ∉ items := by
  induction items generalizing s captures with
  | nil => exact List.not_mem_nil
  | cons item rest ih =>
    obtain ⟨offer, hoffer, hway⟩ := List.mem_flatMap.mp hway
    rw [List.mem_cons, not_or]
    refine ⟨?_, ih hway⟩
    rintro rfl
    cases hoffer

/-- A pattern that is read without a mistake begins as many captures as it has openings. -/
theorem countP_readAll (hvalid : ∀ e, Item.invalid e ∉ Item.readAll pattern p) :
    (Item.readAll pattern p).countP Item.captures = openingsFrom pattern p := by
  induction hn : pattern.size - p using Nat.strongRecOn generalizing p with
  | ind n ih =>
    by_cases hp : p < pattern.size
    · cases hread : Item.read pattern p with
      | error e =>
        rw [Item.readAll_of_error hp hread] at hvalid
        exact absurd List.mem_cons_self (hvalid e)
      | ok read =>
        obtain ⟨item, stop⟩ := read
        have hlt := Item.lt_of_read_eq_ok hread
        rw [Item.readAll_of_read hp hread] at hvalid ⊢
        rw [List.countP_cons, openings_of_read hread,
          ih _ (by omega) (fun e he => hvalid e (List.mem_cons_of_mem _ he)) rfl]
        cases item.captures <;> simp [Nat.add_comm]
    · rw [Item.readAll_of_le (Nat.not_lt.mp hp), openingsFrom, bytesFrom_of_le (Nat.not_lt.mp hp)]
      rfl

/-- **A match has as many captures as the pattern has openings**, from where it is read on. -/
theorem length_of_mem_ways_readAll {way : Nat × Captures}
    (hway : way ∈ ways text (Item.readAll pattern p) s []) :
    way.2.length = openingsFrom pattern p := by
  rw [length_of_mem_ways hway, countP_readAll (not_invalid_of_mem_ways hway)]
  exact Nat.zero_add _

/-- A caret at the beginning opens nothing. -/
theorem openingsFrom_one (h : byteAt? pattern 0 = some (byte '^')) :
    openingsFrom pattern 1 = openings pattern :=
  (openingsFrom_of_ne h (by decide) (by decide) (by decide)).symm

theorem length_of_mem_ways_ofBytes {way : Nat × Captures}
    (hway : way ∈ ways text (ofBytes pattern).items s []) : way.2.length = openings pattern := by
  unfold ofBytes at hway
  split at hway
  case isTrue hcaret =>
    rw [← openingsFrom_one hcaret]
    exact length_of_mem_ways_readAll hway
  case isFalse => exact length_of_mem_ways_readAll hway

/-- **A search gives as many captures as the pattern has openings**, whatever is searched and from
wherever. -/
theorem length_of_yields_some {subject : Subject} (h : Yields
      (nest maxDepth fun room => Item.matchList subject (Item.readAll pattern p) room s [])
      (some (stop, captures))) :
    captures.length = openingsFrom pattern p := by
  have hway := (yieldsFirst_of_anchorLast subject (anchorLast_readAll pattern p)).of_nest h
  exact length_of_mem_ways_readAll (List.mem_of_head? hway.symm)

/-- A plain pattern has no openings. -/
theorem openings_of_isPlain (h : isPlain pattern = true) : openings pattern = 0 := by
  suffices hall : ∀ bytes : List UInt8, (∀ b ∈ bytes, b ∉ specials) →
      openingsAs .item bytes = 0 by
    refine hall _ fun b hb hspecial => ?_
    obtain ⟨i, hi, rfl⟩ := List.getElem_of_mem hb
    exact not_special_of_isPlain h hi _ hspecial rfl
  intro bytes hplain
  induction bytes with
  | nil => rfl
  | cons b rest ih =>
    obtain ⟨hb, hrest⟩ := List.forall_mem_cons.mp hplain
    have hne (c : UInt8) (hc : c ∈ specials) : b ≠ c := fun heq => hb (heq ▸ hc)
    rw [openingsAs, if_neg fun h => hne _ (by decide) h.2, ReadAs.next,
      if_neg (hne _ (by decide)), if_neg (hne _ (by decide)), ih hrest]

end Matches

/-- An escaped parenthesis, a member of a set and a delimiter open nothing. -/
example : openings "(%w*)=%(()[(^](.)%b()".toUTF8 = 3 := by decide

end LedgerReports.Pattern
