import LedgerReports.Pattern.Basic

/-!
# The items of a pattern

`Item.readAll` reads a pattern from a position to its end. It is given
here by what it reads first: an item and the items after it
(`Item.readAll_of_read`), a mistake (`Item.readAll_of_error`), or nothing
at the end (`Item.readAll_of_le`).

Among the items of a pattern the anchor at the end of the subject is
special: it ends a search without a look at what follows it. Nothing does,
as `anchorLast_readAll` says, since a dollar sign means the end of the
subject only as the last byte of a pattern.
-/

namespace LedgerReports.Pattern

section Items

variable {pattern : ByteArray} {p stop : Nat} {item : Item}

theorem Item.readAll_go_eq (pattern : ByteArray) (p : Nat) (done : List Item) :
    Item.readAll.go pattern p done = done.reverse ++ Item.readAll pattern p := by
  unfold Item.readAll
  induction hn : pattern.size - p using Nat.strongRecOn generalizing p done with
  | ind n ih =>
    rw [Item.readAll.go, Item.readAll.go]
    split
    case isFalse => rw [List.reverse_nil, List.append_nil]
    case isTrue hp =>
      split
      case h_1 e hread => rw [List.reverse_cons, List.reverse_singleton]
      case h_2 item stop hread =>
        have hlt := Item.lt_of_read_eq_ok hread
        rw [ih (pattern.size - stop) (by omega) stop (item :: done) rfl,
          ih (pattern.size - stop) (by omega) stop [item] rfl, List.reverse_cons,
          List.reverse_singleton, List.append_assoc]

/-- The items of a pattern are the first one and those after it. -/
theorem Item.readAll_of_read (hp : p < pattern.size)
    (h : Item.read pattern p = .ok (item, stop)) :
    Item.readAll pattern p = item :: Item.readAll pattern stop := by
  rw [Item.readAll, Item.readAll.go, if_pos hp]
  split
  case h_1 e hread =>
    rw [h] at hread
    cases hread
  case h_2 item' stop' hread =>
    rw [h] at hread
    cases hread
    exact Item.readAll_go_eq pattern stop [item]

/-- A mistake ends the items. -/
theorem Item.readAll_of_error {e : Error} (hp : p < pattern.size)
    (h : Item.read pattern p = .error e) : Item.readAll pattern p = [.invalid e] := by
  rw [Item.readAll, Item.readAll.go, if_pos hp]
  split
  case h_1 e' hread =>
    rw [h] at hread
    cases hread
    rfl
  case h_2 item stop hread =>
    rw [h] at hread
    cases hread

theorem Item.readAll_of_le (hp : pattern.size ≤ p) : Item.readAll pattern p = [] := by
  rw [Item.readAll, Item.readAll.go, if_neg (by omega)]
  rfl

/-- A byte without a meaning of its own repeats nothing. -/
theorem Repetition.ofByte?_eq_none {b : UInt8} (h : ∀ c ∈ specials, b ≠ c) :
    Repetition.ofByte? b = none := by
  rw [Repetition.ofByte?, if_neg (h _ (by decide)), if_neg (h _ (by decide)),
    if_neg (h _ (by decide)), if_neg (h _ (by decide))]

/-- **A byte without a meaning of its own stands for itself**, if nothing after it repeats it. -/
theorem Item.read_literal {b : UInt8} (hhere : byteAt pattern p = .ok b)
    (h : ∀ c ∈ specials, b ≠ c) (hclose : b ≠ byte ')')
    (honce : (byteAt? pattern (p + 1)).bind Repetition.ofByte? = none) :
    Item.read pattern p = .ok (.single (.literal b) .once, p + 1) := by
  have hopen : b ≠ byte '(' := h _ (by decide)
  have hdollar : b ≠ byte '$' := h _ (by decide)
  have hescape : b ≠ escape := h _ (by decide)
  have hdot : b ≠ byte '.' := h _ (by decide)
  have hbracket : b ≠ byte '[' := h _ (by decide)
  simp only [Item.read, Item.readSingle, CharClass.read, hhere, bind, Except.bind, pure,
    Except.pure, hopen, hclose, hdollar, hescape, hdot, hbracket, if_false, false_and, honce]

theorem size_le_of_byteAt?_eq_none {text : ByteArray} {i : Nat} (h : byteAt? text i = none) :
    text.size ≤ i := by
  unfold byteAt? at h
  split at h
  case isTrue => cases h
  case isFalse hi => exact Nat.not_lt.mp hi

theorem lt_size_of_byteAt? {text : ByteArray} {s : Nat} {b : UInt8}
    (h : byteAt? text s = some b) : s < text.size := by
  unfold byteAt? at h
  split at h
  case isTrue hs => exact hs
  case isFalse => cases h

theorem Item.readSingle_ne_endAnchor :
    Item.readSingle pattern p ≠ .ok (.endAnchor, stop) := by
  intro h
  simp only [Item.readSingle, bind, Except.bind, pure, Except.pure] at h
  split at h
  · cases h
  · split at h <;> cases h

theorem Item.readFrontier_ne_endAnchor :
    Item.readFrontier pattern p ≠ .ok (.endAnchor, stop) := by
  intro h
  simp only [Item.readFrontier, bind, Except.bind, pure, Except.pure] at h
  split at h
  · split at h <;> cases h
  · cases h

/-- The end of the subject is asked for only where the pattern ends. -/
theorem Item.size_le_of_read_endAnchor (h : Item.read pattern p = .ok (.endAnchor, stop)) :
    pattern.size ≤ stop := by
  simp only [Item.read, bind, Except.bind, pure, Except.pure] at h
  split at h
  · cases h
  split at h
  · split at h <;> cases h
  split at h
  · cases h
  split at h
  case isTrue hdollar =>
    cases h
    exact size_le_of_byteAt?_eq_none hdollar.2
  split at h
  · split at h <;> cases h
  split at h
  · exact (Item.readFrontier_ne_endAnchor h).elim
  split at h
  · cases h
  · exact (Item.readSingle_ne_endAnchor h).elim

/-- Whether an anchor at the end of the subject stands only at the end of
the items. -/
def AnchorLast : List Item → Prop
  | [] => True
  | item :: rest => (item = .endAnchor → rest = []) ∧ AnchorLast rest

/-- In a pattern an anchor at the end stands only at the end. -/
theorem anchorLast_readAll (pattern : ByteArray) (p : Nat) :
    AnchorLast (Item.readAll pattern p) := by
  induction hn : pattern.size - p using Nat.strongRecOn generalizing p with
  | ind n ih =>
    by_cases hp : p < pattern.size
    · cases hread : Item.read pattern p with
      | error e =>
        rw [Item.readAll_of_error hp hread]
        refine ⟨?_, trivial⟩
        rintro ⟨⟩
      | ok read =>
        obtain ⟨item, stop⟩ := read
        have hlt := Item.lt_of_read_eq_ok hread
        rw [Item.readAll_of_read hp hread]
        refine ⟨?_, ih _ (by omega) stop rfl⟩
        rintro rfl
        exact Item.readAll_of_le (Item.size_le_of_read_endAnchor hread)
    · rw [Item.readAll_of_le (Nat.not_lt.mp hp)]
      trivial

end Items

end LedgerReports.Pattern
