import LedgerReports.Pattern.Find
import LedgerReports.Proofs.Pattern.Meter

/-!
# Late searches

A search is late when its deadline has expired before it begins. It is not
stopped for that at once: it looks at the deadline only when it has made the
steps of an interval, so a search that needs fewer steps gives what it would
have given in time, and one that needs as many is stopped there (`StopsIf`,
`Meters.stopsIf`). Which of the two it is depends on the search without a
deadline alone. A search for a plain text counts no steps; it looks at the
deadline before it compares anything, so it is stopped as soon as there is
something to be compared.

The steps that count are those of one search: over all positions from the start
(`stopsIf_findMatch`), from one match of a walk to the next one
(`stopsIf_next`), or, where matches are replaced, from a count that the searches
before it have left (`stopsIf_matchHere`).
-/

namespace LedgerReports.Pattern

/-- **What becomes of a search that is late**, next to what would have come of it in time: it is
stopped if `stops` holds, and otherwise goes on as if it were in time. -/
structure StopsIf {α : Type} (stops : Prop) (late calm : Except Error α) : Prop where
  /-- The search is stopped. -/
  stopped : stops → late = .error .deadlineExceeded
  /-- The search goes on. -/
  same : ¬ stops → late = calm
  /-- In time it is not stopped. -/
  plain : PlainError calm

section StopsIf

variable {α β : Type} {stops : Prop}

/-- What does not look at the deadline is not stopped. -/
theorem stopsIf_of_not {x : Except Error α} (h : ¬ stops) (hx : PlainError x) :
    StopsIf stops x x :=
  ⟨fun hstops => absurd hstops h, fun _ => rfl, hx⟩

theorem StopsIf.map {late calm : Except Error α} (h : StopsIf stops late calm) (f : α → β) :
    StopsIf stops (f <$> late) (f <$> calm) where
  stopped hstops := by
    rw [h.stopped hstops]
    rfl
  same hstops := by rw [h.same hstops]
  plain := h.plain.map f

end StopsIf

section Late

variable {α : Type} {late calm : SearchM α} {y y₀ y₁ : MeterM α} {c : Nat}

theorem cutOff_never (c : Nat) (o : Except Error α × Nat) : cutOff .never c o = o := by
  rw [cutOff, stop?_never]

theorem cutOff_expired_of_lt {o : Except Error α × Nat} (h : o.2 < pollInterval) :
    cutOff .expired c o = o := by
  rw [cutOff, stop?_expired_of_lt h]

theorem cutOff_expired_of_le {o : Except Error α × Nat} (hc : c < pollInterval)
    (h : pollInterval ≤ o.2) :
    cutOff .expired c o = (.error .deadlineExceeded, pollInterval) := by
  rw [cutOff, stop?_expired_of_le hc h]

theorem Meters.run_never (h : Meters .never calm y₁ y₀) (c : Nat) :
    calm.run c = Metered.told (Metered.outcome y₀ c) := by
  rw [h.tells, h.cut, cutOff_never]

/-- **A late search is stopped exactly if it needs the steps of an interval**; the steps that have
been made before it count. -/
theorem Meters.stopsIf (h : Meters .expired late y y₀) (h₀ : Meters .never calm y₁ y₀)
    (hc : c < pollInterval) :
    StopsIf (pollInterval ≤ (Metered.outcome y₀ c).2) (late.run c) (calm.run c) where
  stopped hstop := by
    rw [h.tells, h.cut, cutOff_expired_of_le hc hstop]
    rfl
  same hstop := by
    rw [h.tells, h.cut, cutOff_expired_of_lt (Nat.lt_of_not_le hstop), h₀.run_never]
  plain := by
    rw [h₀.run_never]
    exact (h₀.plain c).map _

/-- **A late search does not go beyond the steps of an interval.** -/
theorem Meters.steps_le (h : Meters .expired late y y₀) (hc : c < pollInterval) :
    (Metered.outcome y c).2 ≤ pollInterval := by
  rw [h.cut]
  by_cases hstop : pollInterval ≤ (Metered.outcome y₀ c).2
  · exact Nat.le_of_eq (congrArg Prod.snd (cutOff_expired_of_le hc hstop))
  · rw [cutOff_expired_of_lt (Nat.lt_of_not_le hstop)]
    exact Nat.le_of_not_le hstop

end Late

section Text

variable {bytes text : ByteArray} {s : Nat}

/-- The search for the position of a text is stopped, or has an answer. -/
theorem textPosition?_eq_error_or_ok (subject : Subject) (text : ByteArray)
    (stride origin s : Nat) :
    textPosition? subject text stride origin s = .error .deadlineExceeded
      ∨ ∃ position?, textPosition? subject text stride origin s = .ok position? := by
  fun_induction textPosition? subject text stride origin s with
  | case1 => exact .inl rfl
  | case2 => exact .inr ⟨_, rfl⟩
  | case3 _ _ _ _ ih => exact ih
  | case4 => exact .inr ⟨_, rfl⟩

/-- The search for a text is stopped, or has an answer. -/
theorem findText?_eq_error_or_ok (subject : Subject) (text : ByteArray) (s : Nat) :
    findText? subject text s = .error .deadlineExceeded
      ∨ ∃ found?, findText? subject text s = .ok found? := by
  unfold findText?
  split
  case isTrue => exact .inr ⟨_, rfl⟩
  case isFalse =>
    dsimp only
    rcases textPosition?_eq_error_or_ok subject text (max 1 (pollBytes / text.size)) s s with
      hlate | ⟨position?, hposition⟩
    · exact .inl (by rw [hlate]; rfl)
    · exact .inr ⟨_, by rw [hposition]; rfl⟩

theorem plainError_textPosition? (stride origin s : Nat) :
    PlainError (textPosition? ⟨bytes, .never⟩ text stride origin s) := by
  fun_induction textPosition? ⟨bytes, .never⟩ text stride origin s with
  | case1 s _ hstop => simp at hstop
  | case2 => exact plainError_ok _
  | case3 _ _ _ _ ih => exact ih
  | case4 => exact plainError_ok none

/-- The first window is the first to be looked at. -/
theorem textPosition?_expired (stride : Nat) (hroom : s + text.size ≤ bytes.size) :
    textPosition? ⟨bytes, .expired⟩ text stride s s = .error .deadlineExceeded := by
  rw [textPosition?, if_pos hroom, Nat.sub_self, Nat.zero_mod, Deadline.passed_expired]
  rfl

/-- Without room there is no window. -/
theorem textPosition?_of_not_le {d : Deadline} (stride origin : Nat)
    (hroom : ¬ s + text.size ≤ bytes.size) :
    textPosition? ⟨bytes, d⟩ text stride origin s = .ok none := by
  rw [textPosition?, if_neg hroom]

/-- **A late search for a text is stopped exactly if there is a text and room for it**: it looks at
the deadline before the first comparison. -/
theorem stopsIf_findText? (bytes text : ByteArray) (s : Nat) :
    StopsIf (text.size ≠ 0 ∧ s + text.size ≤ bytes.size) (findText? ⟨bytes, .expired⟩ text s)
      (findText? ⟨bytes, .never⟩ text s) where
  stopped := by
    rintro ⟨hsize, hroom⟩
    simp only [findText?, if_neg hsize, textPosition?_expired _ hroom]
    rfl
  same h := by
    unfold findText?
    split
    case isTrue => rfl
    case isFalse hsize =>
      have hroom : ¬ s + text.size ≤ bytes.size := fun hroom => h ⟨hsize, hroom⟩
      dsimp only
      rw [textPosition?_of_not_le _ _ hroom, textPosition?_of_not_le _ _ hroom]
  plain := by
    unfold findText?
    split
    case isTrue => exact plainError_ok _
    case isFalse => exact .bind (plainError_textPosition? _ _ _) fun _ => plainError_ok _

end Text

/-! ## The searches of a script -/

/-- The first match of a pattern from a 1-based start, with a counter that stays. -/
def Metered.findMatch (subject : Subject) (pattern : ByteArray) (start : Option Int) :
    MeterM (Option Match) := do
  let s := startOffset start subject.bytes.size
  if subject.bytes.size < s then return none else find? subject (ofBytes pattern) s

/-- The number of steps that a metered search needs, when `c` have been made before it. -/
def Metered.steps {α : Type} (x : MeterM α) (c : Nat) : Nat := (outcome x c).2

/-- Whether a late search for the first match is stopped. As a plain text the pattern has to be
something that there is room for; otherwise the search has to make the steps of an interval. -/
def FindStops (bytes pattern : ByteArray) (start : Option Int) (plain : Bool) : Prop :=
  if plain || isPlain pattern then
    pattern.size ≠ 0 ∧ startOffset start bytes.size + pattern.size ≤ bytes.size
  else
    pollInterval ≤ Metered.steps (Metered.findMatch ⟨bytes, .never⟩ pattern start) 0

instance (bytes pattern : ByteArray) (start : Option Int) (plain : Bool) :
    Decidable (FindStops bytes pattern start plain) :=
  inferInstanceAs (Decidable (ite _ _ _))

section Searches

theorem poll_pos : 0 < pollInterval := by decide

theorem meters_findMatch (subject : Subject) (pattern : ByteArray) (start : Option Int) :
    Meters subject.deadline (findMatch subject pattern start)
      (Metered.findMatch subject pattern start)
      (Metered.findMatch subject.untimed pattern start) := by
  unfold findMatch Metered.findMatch
  show Meters _ _ _
    (if subject.bytes.size < startOffset start subject.bytes.size then _ else _)
  dsimp only
  split
  case isTrue => exact meters_pure none
  case isFalse => exact meters_find? subject (plainErrors_ofBytes pattern) _

variable (bytes : ByteArray)

theorem stopsIf_findMatch (pattern : ByteArray) (start : Option Int) :
    StopsIf (pollInterval ≤ Metered.steps (Metered.findMatch ⟨bytes, .never⟩ pattern start) 0)
      ((findMatch ⟨bytes, .expired⟩ pattern start).run 0)
      ((findMatch ⟨bytes, .never⟩ pattern start).run 0) :=
  (meters_findMatch ⟨bytes, .expired⟩ pattern start).stopsIf
    (meters_findMatch ⟨bytes, .never⟩ pattern start) poll_pos

/-- If the pattern is not taken as a text, the first match is searched for by way of its items. -/
theorem find_eq_findMatch {pattern : ByteArray} {plain : Bool}
    (h : ¬ (plain || isPlain pattern) = true) (subject : Subject) (start : Option Int) :
    find subject pattern start plain = findMatch subject pattern start := by
  simp only [find, findMatch, if_neg h]

theorem stopsIf_find (pattern : ByteArray) (start : Option Int) (plain : Bool) :
    StopsIf (FindStops bytes pattern start plain)
      ((find ⟨bytes, .expired⟩ pattern start plain).run 0)
      ((find ⟨bytes, .never⟩ pattern start plain).run 0) := by
  by_cases hplain : (plain || isPlain pattern) = true
  · rw [FindStops, if_pos hplain]
    simp only [find, if_pos hplain]
    split
    case isTrue hs => exact stopsIf_of_not (fun hroom => by omega) (plainError_ok _)
    case isFalse => exact (stopsIf_findText? bytes pattern _).map fun found? => (found?, 0)
  · rw [find_eq_findMatch hplain, find_eq_findMatch hplain, FindStops, if_neg hplain]
    exact stopsIf_findMatch bytes pattern start

variable {pattern : Pattern} (hpattern : PlainErrors pattern.items)
include hpattern

theorem stopsIf_next (c : Cursor) :
    StopsIf (pollInterval ≤ Metered.steps (Metered.next ⟨bytes, .never⟩ pattern c) 0)
      ((c.next ⟨bytes, .expired⟩ pattern).run 0) ((c.next ⟨bytes, .never⟩ pattern).run 0) :=
  (meters_next ⟨bytes, .expired⟩ hpattern c).stopsIf (meters_next ⟨bytes, .never⟩ hpattern c)
    poll_pos

theorem stopsIf_matchHere (c : Cursor) {n : Nat} (hn : n < pollInterval) :
    StopsIf (pollInterval ≤ Metered.steps (Metered.matchHere ⟨bytes, .never⟩ pattern c) n)
      ((c.matchHere ⟨bytes, .expired⟩ pattern).run n)
      ((c.matchHere ⟨bytes, .never⟩ pattern).run n) :=
  (meters_matchHere ⟨bytes, .expired⟩ hpattern c).stopsIf
    (meters_matchHere ⟨bytes, .never⟩ hpattern c) hn

end Searches

/-- **The steps of the searches are counted**: whatever the deadline is, each search of a script
tells of what its metered form does, which is cut off where the deadline is noticed, and a late one
makes no more steps than those of an interval. -/
structure CountsSteps (bytes text : ByteArray) : Prop where
  /-- The steps of finding the first match, over all positions. -/
  findMatch : ∀ d start, Meters d (Pattern.findMatch ⟨bytes, d⟩ text start)
    (Metered.findMatch ⟨bytes, d⟩ text start) (Metered.findMatch ⟨bytes, .never⟩ text start)
  /-- They are bounded. -/
  findMatch_le : ∀ start,
    Metered.steps (Metered.findMatch ⟨bytes, .expired⟩ text start) 0 ≤ pollInterval
  /-- The steps from one match of a walk to the next. -/
  next : ∀ d (c : Cursor), Meters d (c.next ⟨bytes, d⟩ (ofBytesUnanchored text))
    (Metered.next ⟨bytes, d⟩ (ofBytesUnanchored text) c)
    (Metered.next ⟨bytes, .never⟩ (ofBytesUnanchored text) c)
  /-- They are bounded. -/
  next_le : ∀ c,
    Metered.steps (Metered.next ⟨bytes, .expired⟩ (ofBytesUnanchored text) c) 0 ≤ pollInterval
  /-- The steps of a search at one position, as a replacing makes it. -/
  matchHere : ∀ d (c : Cursor), Meters d (c.matchHere ⟨bytes, d⟩ (ofBytes text))
    (Metered.matchHere ⟨bytes, d⟩ (ofBytes text) c)
    (Metered.matchHere ⟨bytes, .never⟩ (ofBytes text) c)

theorem countsSteps (bytes text : ByteArray) : CountsSteps bytes text where
  findMatch d start := meters_findMatch ⟨bytes, d⟩ text start
  findMatch_le start := (meters_findMatch ⟨bytes, .expired⟩ text start).steps_le poll_pos
  next d c := meters_next ⟨bytes, d⟩ (plainErrors_ofBytesUnanchored text) c
  next_le c :=
    (meters_next ⟨bytes, .expired⟩ (plainErrors_ofBytesUnanchored text) c).steps_le poll_pos
  matchHere d c := meters_matchHere ⟨bytes, d⟩ (plainErrors_ofBytes text) c

end LedgerReports.Pattern
