import LedgerReports.Pattern.Replace
import LedgerReports.Proofs.Pattern.Items
import Mathlib

/-!
# Reading without looking outside

A part of a pattern or of a subject is read at positions that the reader takes
to lie inside. Where it is wrong, the outcome is `Error.outOfBounds`, and no
check of the reader itself ever raises this error. So that nothing outside is
read is the statement that this is not the outcome, together with what is known
of what has been read (`Reads`): a class, a set or an item ends after it begins,
and inside the pattern.

The reader looks up to three bytes ahead, and what allows it to do so differs
from place to place. The members of a set lie in front of a closing bracket that
has been found before (`reads_setItems`), so the byte after a member is there to
be looked at, even if the member is the last one and the byte is the bracket. A
repetition or a delimiter has been seen before it is passed over.
-/

namespace LedgerReports.Pattern

/-- **Something is read without looking outside**, and if it could be read it
satisfies `P`. -/
def Reads {α : Type} (P : α → Prop) : Except Error α → Prop
  | .ok a => P a
  | .error e => e ≠ .outOfBounds

section Reads

variable {α β : Type} {P : α → Prop} {Q : β → Prop}

theorem Reads.bind {x : Except Error α} {f : α → Except Error β} (h : Reads P x)
    (hf : ∀ a, P a → Reads Q (f a)) : Reads Q (x >>= f) := by
  cases x with
  | ok a => exact hf a h
  | error e => exact h

theorem Reads.map {x : Except Error α} {f : α → β} (h : Reads P x) (hf : ∀ a, P a → Q (f a)) :
    Reads Q (f <$> x) := by
  cases x with
  | ok a => exact hf a h
  | error e => exact h

theorem Reads.imp {P' : α → Prop} {x : Except Error α} (h : Reads P x) (hP : ∀ a, P a → P' a) :
    Reads P' x := by
  cases x with
  | ok a => exact hP a h
  | error e => exact h

/-- What has been read has been read one part after the other. -/
theorem exists_of_bind_eq_ok {x : Except Error α} {f : α → Except Error β} {b : β}
    (h : x >>= f = .ok b) : ∃ a, x = .ok a ∧ f a = .ok b := by
  cases x with
  | ok a => exact ⟨a, rfl, h⟩
  | error e => cases h

theorem exists_of_map_eq_ok {x : Except Error α} {f : α → β} {b : β} (h : f <$> x = .ok b) :
    ∃ a, x = .ok a ∧ b = f a := by
  cases x with
  | ok a =>
    cases h
    exact ⟨a, rfl, rfl⟩
  | error e => cases h

theorem reads_byteAt {text : ByteArray} {i : Nat} (h : i < text.size) :
    Reads (fun _ => True) (byteAt text i) := by
  simp [byteAt, byteAt?, h, Reads]

/-- A byte that has been read stands where it has been looked for. -/
theorem byteAt?_of_byteAt {text : ByteArray} {i : Nat} {b : UInt8} (h : byteAt text i = .ok b) :
    byteAt? text i = some b := by
  unfold byteAt at h
  split at h
  case h_1 b' hb =>
    cases h
    exact hb
  case h_2 => cases h

theorem reads_slice {text : ByteArray} {start stop : Nat} (h : start ≤ stop ∧ stop ≤ text.size) :
    Reads (fun _ => True) (slice text start stop) := by
  simp [slice, h, Reads]

end Reads

/-! ## Patterns -/

section Patterns

variable {pattern : ByteArray} {p : Nat}

theorem reads_setEnd (pattern : ByteArray) (p : Nat) :
    Reads (fun stop => p + 1 < stop ∧ stop ≤ pattern.size) (setEnd pattern p) := by
  fun_induction setEnd pattern p with
  | case1 p _ hclose =>
    have hlt := lt_memberEnd pattern p
    have hsize := lt_size_of_byteAt? hclose
    exact ⟨by omega, hsize⟩
  | case2 p _ _ ih =>
    have hlt := lt_memberEnd pattern p
    exact ih.imp fun stop hstop => ⟨by omega, hstop.2⟩
  | case3 => rintro ⟨⟩

/-- The members of a set stand in front of a byte of the pattern. -/
theorem reads_setItems {close : Nat} (hclose : close < pattern.size) (p : Nat) :
    Reads (fun _ => True) (setItems pattern close p) := by
  induction hn : close - p using Nat.strongRecOn generalizing p with
  | ind n ih =>
    unfold setItems
    split
    case isFalse => trivial
    case isTrue hp =>
      refine .bind (reads_byteAt (by omega)) fun b _ => ?_
      refine .bind (reads_byteAt (by omega)) fun following _ => ?_
      split
      case isTrue => exact .bind (ih _ (by omega) (p + 2) rfl) fun _ _ => trivial
      case isFalse =>
        split
        case isTrue hrange =>
          refine .bind (reads_byteAt (by omega)) fun last _ => ?_
          exact .bind (ih _ (by omega) (p + 3) rfl) fun _ _ => trivial
        case isFalse => exact .bind (ih _ (by omega) (p + 1) rfl) fun _ _ => trivial

theorem reads_set (pattern : ByteArray) (p : Nat) :
    Reads (fun read => p + 2 < read.2 ∧ read.2 ≤ pattern.size) (CharSet.read pattern p) := by
  unfold CharSet.read
  refine .bind (reads_setEnd pattern _) fun stop hstop => ?_
  have hlt : p + 2 < stop := by
    have := hstop.1
    split at this <;> omega
  exact .bind (reads_setItems (by omega) _) fun _ _ => ⟨hlt, hstop.2⟩

theorem reads_class (hp : p < pattern.size) :
    Reads (fun read => p < read.2 ∧ read.2 ≤ pattern.size) (CharClass.read pattern p) := by
  unfold CharClass.read
  refine .bind (reads_byteAt hp) fun b _ => ?_
  split
  case isTrue => exact ⟨by omega, hp⟩
  split
  case isTrue =>
    cases hfollowing : byteAt? pattern (p + 1) with
    | some following => exact ⟨by omega, lt_size_of_byteAt? hfollowing⟩
    | none => exact nofun
  split
  case isTrue => exact .bind (reads_set pattern p) fun read hread => ⟨by omega, hread.2⟩
  case isFalse => exact ⟨by omega, hp⟩

/-- What an item has to be for a search: it ends after it begins, and inside the
pattern, and it is no mistake. -/
def Item.Read (pattern : ByteArray) (p : Nat) (read : Item × Nat) : Prop :=
  (p < read.2 ∧ read.2 ≤ pattern.size) ∧ ∀ e, read.1 ≠ .invalid e

theorem reads_single (hp : p < pattern.size) :
    Reads (Item.Read pattern p) (Item.readSingle pattern p) := by
  unfold Item.readSingle
  refine .bind (reads_class hp) fun ⟨bytes, stop⟩ hread => ?_
  dsimp only at hread ⊢
  cases hrepetition : (byteAt? pattern stop).bind Repetition.ofByte? with
  | some repetition =>
    obtain ⟨b, hb, -⟩ := Option.bind_eq_some_iff.mp hrepetition
    exact ⟨⟨by omega, lt_size_of_byteAt? hb⟩, nofun⟩
  | none => exact ⟨hread, nofun⟩

theorem reads_frontier (pattern : ByteArray) (p : Nat) :
    Reads (Item.Read pattern p) (Item.readFrontier pattern p) := by
  unfold Item.readFrontier
  split
  case isTrue => exact .bind (reads_set pattern p) fun read hread => ⟨⟨by omega, hread.2⟩, nofun⟩
  case isFalse => exact nofun

/-- **An item of a pattern is read inside the pattern**, and so is the next one. -/
theorem reads_item (hp : p < pattern.size) :
    Reads (Item.Read pattern p) (Item.read pattern p) := by
  unfold Item.read
  refine .bind (reads_byteAt hp) fun b _ => ?_
  dsimp only
  split
  case isTrue =>
    split
    case isTrue hfollowing => exact ⟨⟨by omega, lt_size_of_byteAt? hfollowing⟩, nofun⟩
    case isFalse => exact ⟨⟨by omega, hp⟩, nofun⟩
  split
  case isTrue => exact ⟨⟨by omega, hp⟩, nofun⟩
  split
  case isTrue => exact ⟨⟨by omega, hp⟩, nofun⟩
  split
  case isTrue =>
    cases hopening : byteAt? pattern (p + 2) with
    | none => exact nofun
    | some opening =>
      cases hclosing : byteAt? pattern (p + 3) with
      | none => exact nofun
      | some closing => exact ⟨⟨by omega, lt_size_of_byteAt? hclosing⟩, nofun⟩
  split
  case isTrue =>
    refine (reads_frontier pattern (p + 2)).imp fun read hread => ⟨⟨?_, hread.1.2⟩, hread.2⟩
    have := hread.1.1
    omega
  split
  case isTrue hdigit =>
    cases hfollowing : byteAt? pattern (p + 1) with
    | none => simp [hfollowing] at hdigit
    | some d => exact ⟨⟨by omega, lt_size_of_byteAt? hfollowing⟩, nofun⟩
  case isFalse => exact reads_single hp

/-- Past the end of a pattern there is no item to be read. -/
theorem Item.lt_size_of_read_eq_ok {read : Item × Nat} (h : Item.read pattern p = .ok read) :
    p < pattern.size := by
  refine Nat.lt_of_not_le fun hp => ?_
  simp [Item.read, byteAt, byteAt?, Nat.not_lt.mpr hp, bind, Except.bind] at h

end Patterns

end LedgerReports.Pattern
