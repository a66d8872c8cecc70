import LedgerReports.Proofs.Pattern.Leftmost
import Mathlib

/-!
# The matches of a subject, one after the other

The matches of a pattern in a subject follow one another: each is the match at the
least position, from where the last one ended, that has one which does not end
there too. `Successive` says which they are, without a search. They do not overlap,
and each ends later than the one before it (`Successive.ordered`), so there is at
most one for each place where a match can end (`Successive.length_le`).

Two searches go through the matches of a subject. A cursor moves from one match to
the next, and can be kept in between; it meets them in their order, and then none
(`Successive.of_yields_next`). A replacing cuts the subject at all of them
(`Cuts.successive`), also if it has to stop after as many as there can be: the last
of them ends with the subject, and then there is no more that counts.
-/

namespace LedgerReports.Pattern

/-- **No match counts at a position**: there is none, or it ends where the last one did. -/
def NoneCounts (text : ByteArray) (pattern : Pattern) (last : Option Nat) (s : Nat) : Prop :=
  ∀ m, firstMatch? text pattern s = some m → last = some m.stop

/-- **The matches of a pattern in a text**, from where a cursor stands. -/
inductive Successive (text : ByteArray) (pattern : Pattern) : Cursor → List Match → Prop where
  /-- At no position up to the end is there a match that counts. -/
  | nil {c : Cursor}
      (hnone : ∀ s, c.position ≤ s → s ≤ text.size → NoneCounts text pattern c.lastStop s) :
      Successive text pattern c []
  /-- There is a match that counts at the least position, and the others come after it. -/
  | cons {c : Cursor} {m : Match} {later : List Match} (hstart : c.position ≤ m.start)
      (hsize : m.start ≤ text.size)
      (hbefore : ∀ s, c.position ≤ s → s < m.start → NoneCounts text pattern c.lastStop s)
      (hfound : firstMatch? text pattern m.start = some m) (hcounts : c.lastStop ≠ some m.stop)
      (hlater : Successive text pattern (.past m) later) : Successive text pattern c (m :: later)

/-! ## Their order -/

/-- The least position at which a match that counts can end. -/
def Cursor.leastStop (c : Cursor) : Nat :=
  match c.lastStop with
  | none => 0
  | some stop => stop + 1

/-- The last match ended where the cursor stands, or before. -/
def Cursor.Behind (c : Cursor) : Prop := ∀ stop, c.lastStop = some stop → stop ≤ c.position

section Order

variable {text : ByteArray} {pattern : Pattern} {c : Cursor} {m : Match} {found : List Match}

theorem behind_start (s : Nat) : (Cursor.start s).Behind := nofun

theorem behind_past (m : Match) : (Cursor.past m).Behind := by
  rintro _ ⟨⟩
  exact Nat.le_refl _

theorem leastStop_le_of_counts (hbehind : c.Behind) (hposition : c.position ≤ m.stop)
    (hcounts : c.lastStop ≠ some m.stop) : c.leastStop ≤ m.stop := by
  unfold Cursor.leastStop
  split
  case h_1 => exact Nat.zero_le _
  case h_2 stop hstop =>
    have hle := hbehind stop hstop
    have hne : stop ≠ m.stop := fun heq => hcounts (heq ▸ hstop)
    omega

/-- A match ends after it begins, in the text. -/
theorem bounds_of_firstMatch? (hsize : m.start ≤ text.size)
    (hfound : firstMatch? text pattern m.start = some m) : m.start ≤ m.stop ∧ m.stop ≤ text.size :=
  have hreaches := (reaches_of_firstMatch? hsize hfound).1
  ⟨hreaches.start_le, hreaches.le_size⟩

/-- **The matches come one after the other**: from where the cursor stands, none begins before the
one before it has ended, and each ends later. -/
theorem Successive.ordered (h : Successive text pattern c found) (hbehind : c.Behind) :
    (∀ m ∈ found, c.position ≤ m.start ∧ c.leastStop ≤ m.stop)
      ∧ found.Pairwise fun m m' => m.start ≤ m'.start ∧ m.stop < m'.stop ∧ m.stop ≤ m'.start := by
  induction h with
  | nil => exact ⟨nofun, .nil⟩
  | @cons c m later hstart hsize _ hfound hcounts _ ih =>
    obtain ⟨hlater, hpairwise⟩ := ih (behind_past m)
    have hbounds := bounds_of_firstMatch? hsize hfound
    have hleast := leastStop_le_of_counts hbehind (Nat.le_trans hstart hbounds.1) hcounts
    have hafter (m' : Match) (hm' : m' ∈ later) : m.stop ≤ m'.start ∧ m.stop < m'.stop :=
      hlater m' hm'
    refine ⟨fun m' hm' => ?_, List.pairwise_cons.mpr ⟨fun m' hm' => ?_, hpairwise⟩⟩
    · rcases List.mem_cons.mp hm' with rfl | hm'
      · exact ⟨hstart, hleast⟩
      · have := hafter m' hm'
        omega
    · have := hafter m' hm'
      omega

/-- **There are no more matches than places where one can end.** -/
theorem Successive.length_le (h : Successive text pattern c found) (hbehind : c.Behind)
    (hleast : c.leastStop ≤ text.size + 1) : found.length + c.leastStop ≤ text.size + 1 := by
  induction h with
  | nil => rwa [List.length_nil, Nat.zero_add]
  | @cons c m later hstart hsize _ hfound hcounts _ ih =>
    have hbounds := bounds_of_firstMatch? hsize hfound
    have hless := leastStop_le_of_counts hbehind (Nat.le_trans hstart hbounds.1) hcounts
    have hpast : (Cursor.past m).leastStop = m.stop + 1 := rfl
    have hlater := ih (behind_past m) (by omega)
    rw [List.length_cons]
    omega

end Order

/-! ## Going through them -/

section Walk

variable {subject : Subject} {pattern : Pattern} {c : Cursor} {found : List Match}

/-- A search that reports a match that counts has found the match at its position. -/
theorem of_yields_matchHere (hlast : AnchorLast pattern.items) {found? : Option Match}
    (h : Yields (c.matchHere subject pattern) found?) :
    match found? with
    | some m => m.start = c.position ∧ firstMatch? subject.bytes pattern c.position = some m
      ∧ c.lastStop ≠ some m.stop
    | none => NoneCounts subject.bytes pattern c.lastStop c.position := by
  cases found? with
  | some m =>
    obtain ⟨hfound, hcounts⟩ := of_yields_matchHere_some h
    exact ⟨start_of_yields_matchAt hfound, (eq_firstMatch?_of_yields_matchAt hlast hfound).symm,
      hcounts⟩
  | none =>
    obtain ⟨found?, hfound, hpasses⟩ := passes_of_yields_matchHere_none h
    intro m hm
    exact hpasses m ((eq_firstMatch?_of_yields_matchAt hlast hfound).trans hm)

/-- Where no match counts, the matches are those from the next position on. -/
theorem Successive.skip {text : ByteArray} (h : Successive text pattern c found)
    (hnone : NoneCounts text pattern c.lastStop c.position) :
    Successive text pattern c.skip found := by
  have hskip : c.skip.position = c.position + 1 := rfl
  cases h with
  | nil h => exact .nil fun s hs => h s (by omega)
  | @cons _ m later hstart hsize hbefore hfound hcounts hlater =>
    have hne : c.position ≠ m.start := fun heq => hcounts (hnone m (heq ▸ hfound))
    exact .cons (by omega) hsize (fun s hs => hbefore s (by omega)) hfound hcounts hlater

/-- **A cursor meets the matches in their order**: what it goes on to is the first one, and
from there on the others follow. After the last one it meets none. -/
theorem Successive.of_yields_next (hlast : AnchorLast pattern.items)
    (h : Successive subject.bytes pattern c found) {found? : Option Match} {c' : Cursor}
    (hnext : Yields (c.next subject pattern) (found?, c')) :
    found? = found.head? ∧ Successive subject.bytes pattern c' found.tail := by
  induction hn : subject.bytes.size + 1 - c.position using Nat.strongRecOn generalizing c with
  | ind n ih =>
    rw [Cursor.next] at hnext
    split at hnext
    case isTrue hposition =>
      obtain ⟨here?, hhere, hnext⟩ := hnext.of_bind
      have hhere := of_yields_matchHere hlast hhere
      cases here? with
      | some m =>
        obtain ⟨hstart, hm, hcounts⟩ := hhere
        cases hnext.of_pure
        cases h with
        | nil hnone => exact absurd (hnone _ (Nat.le_refl _) hposition m hm) hcounts
        | @cons _ m' later hstart' _ hbefore hfound _ hlater =>
          -- if the first match began later, none would count where the cursor stands
          have hsame : c.position = m'.start := by
            by_contra hne
            exact hcounts (hbefore _ (Nat.le_refl _) (by omega) m hm)
          rw [hsame, hfound] at hm
          cases hm
          exact ⟨rfl, hlater⟩
      | none =>
        have hskip : c.skip.position = c.position + 1 := rfl
        exact ih _ (by omega) (h.skip hhere) hnext rfl
    case isFalse hposition =>
      cases hnext.of_pure
      cases h with
      | nil hnone => exact ⟨rfl, .nil hnone⟩
      | cons hstart hsize => omega

/-- **A replacing cuts the subject at its matches**, if it looks for all of them or has replaced as
many as there can be. -/
theorem Cuts.successive (hlast : AnchorLast pattern.items) {complete : Prop}
    {segments : List Segment} {rest : ByteArray}
    (h : Cuts subject pattern complete c segments rest) (hbehind : c.Behind)
    (hend : complete ∨ subject.bytes.size + 1 ≤ segments.length + c.leastStop) :
    Successive subject.bytes pattern c (segments.map (·.found)) := by
  have hpassed {last : Option Nat} {s : Nat} (h : Passes subject pattern last s) :
      NoneCounts subject.bytes pattern last s := by
    obtain ⟨found?, hfound, hpasses⟩ := h
    exact fun m hm => hpasses m ((eq_firstMatch?_of_yields_matchAt hlast hfound).trans hm)
  induction h with
  | @rest c hposition hpasses =>
    refine .nil fun s hs hsize => ?_
    rcases hend with hcomplete | hend
    · exact hpassed (hpasses hcomplete s hs hsize)
    · -- the last match has ended with the subject, where every later one would end too
      intro m hm
      unfold Cursor.leastStop at hend
      split at hend
      case h_1 => simp at hend
      case h_2 stop hstop =>
        have hle := hbehind stop hstop
        obtain ⟨rfl, -⟩ := firstMatch?_eq_some_iff.mp hm
        have hbounds := bounds_of_firstMatch? hsize hm
        rw [List.length_nil] at hend
        rw [hstop, show stop = m.stop by omega]
  | @segment c g segments rest hstart hgap hpasses hfound hcounts hstop _ ih =>
    have hleast := leastStop_le_of_counts hbehind (Nat.le_trans hstart hstop.1) hcounts
    have hpast : (Cursor.past g.found).leastStop = g.found.stop + 1 := rfl
    refine .cons hstart (Nat.le_trans hstop.1 hstop.2) (fun s hs hs' => hpassed (hpasses s hs hs'))
      (eq_firstMatch?_of_yields_matchAt hlast hfound).symm hcounts
      (ih (behind_past _) (hend.imp_right fun hend => ?_))
    rw [List.length_cons] at hend
    omega

end Walk

end LedgerReports.Pattern
