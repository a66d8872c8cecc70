import LedgerReports.Proofs.Pattern.Escaped
import LedgerReports.Proofs.Script.Finding
import Mathlib

/-!
# Finding a text

A script has two ways to find a text whatever its bytes are: to say that it is
not a pattern, or to escape all bytes of it that might have a meaning.
`find_escaped_agrees_with_plain` says that they come to the same thing, which is
the first position from the start on at which the text stands, and that nothing
but a deadline can make either of them fail.
-/

namespace LedgerReports.Script

open Pattern

/-- The positions of a subject at which a text stands, from a 1-based start on. -/
def textPositions (bytes text : ByteArray) (start : Option Int) : Set Nat :=
  {s | startOffset start bytes.size ≤ s ∧ s ≤ bytes.size
    ∧ bytesFrom text 0 <+: bytesFrom bytes s}

/-- **What there is to be given for a text** by a call that finds it. -/
inductive GivesText (bytes text : ByteArray) (start : Option Int) : Array Value → Prop where
  /-- The text stands nowhere. -/
  | nothing (hnowhere : textPositions bytes text start = ∅) : GivesText bytes text start #[.nil]
  /-- The text stands first at the least position: where it begins and ends is given. -/
  | first {s : Nat} (hleast : IsLeast (textPositions bytes text start) s) :
      GivesText bytes text start #[.ofInt (s + 1), .ofInt (s + text.size)]

/-- **The answer of a call** that finds something: the call gives it under all conditions and on any
machine, unless it is stopped by the deadline, and it is not stopped if there is none. Nothing on
the machine changes but the count of steps. -/
structure Finds (c : Call) (values : Array Value) : Prop where
  /-- The call is stopped or gives the answer. -/
  stopped_or_ok : ∀ setting m, Stopped ((findCall c).run setting m)
    ∨ ∃ steps, (findCall c).run setting m = .ok values { m with steps := m.steps + steps }
  /-- Without a deadline the call gives the answer. -/
  untimed : ∀ (setting : Setting) m, m.journal.deadlinePassed = false →
    ∃ steps, (findCall c).run setting.untimed m
      = .ok values { m with steps := m.steps + steps }

/-- What a match without captures is given as. -/
def boundsOf : Option Match → Array Value
  | none => #[.nil]
  | some found => #[.ofInt (found.start + 1), .ofInt found.stop]

section Answers

variable {c : Call} {bytes text pattern : ByteArray} {start : Option Int} {found? : Option Match}

/-- A text stands where there is a match of it. -/
theorem textPositions_eq (bytes text : ByteArray) (start : Option Int) :
    {s | s ∈ lookouts bytes (ofBytes (escaped text)) (startOffset start bytes.size)
      ∧ textMatch? bytes text s ≠ none} = textPositions bytes text start := by
  have hanchored : (ofBytes (escaped text)).anchored ≠ true := by
    rw [ofBytes_escaped]
    exact Bool.false_ne_true
  ext s
  constructor
  · rintro ⟨⟨hstart, hs, -⟩, hmatch⟩
    refine ⟨hstart, hs, ?_⟩
    by_contra hstands
    exact hmatch (if_neg (mt List.isPrefixOf_iff_prefix.mp hstands))
  · rintro ⟨hstart, hs, hstands⟩
    refine ⟨⟨hstart, hs, fun h => absurd h hanchored⟩, ?_⟩
    rw [textMatch?, if_pos (List.isPrefixOf_iff_prefix.mpr hstands)]
    exact Option.some_ne_none _

theorem eq_of_textMatch? {s : Nat} {found : Match} (h : textMatch? bytes text s = some found) :
    found = ⟨s, s + text.size, []⟩ := by
  unfold textMatch? at h
  split at h
  case isTrue => exact (Option.some.inj h).symm
  case isFalse => cases h

/-- **What should be reported of a text** is what there is to be given for it. -/
theorem givesText_of_reports (h : ReportsText bytes text start found?) :
    GivesText bytes text start (boundsOf found?) ∧ ∀ found ∈ found?, found.captures = [] := by
  cases found? with
  | none =>
    refine ⟨.nothing ?_, nofun⟩
    rw [← textPositions_eq, Set.eq_empty_iff_forall_notMem]
    exact fun s hs => hs.2 (h s hs.1)
  | some found =>
    obtain ⟨s, hleast, hfound⟩ := h
    rw [textPositions_eq] at hleast
    obtain rfl := eq_of_textMatch? hfound
    refine ⟨.first hleast, ?_⟩
    rintro _ ⟨⟩
    rfl

/-- **A call gives what its search answers**, if that has no captures. -/
theorem finds_of_answers (hc : c.Searches bytes pattern start)
    (hcaptures : ∀ found ∈ found?, found.captures = [])
    (h : ∀ deadline, Answers (find ⟨bytes, deadline⟩ pattern start (c.arg 3).truthy) found?) :
    Finds c (boundsOf found?) := by
  have hanswer (setting : Setting) (m : Machine) : Stopped ((findCall c).run setting m)
      ∨ ∃ steps, (findCall c).run setting m
        = .ok (boundsOf found?) { m with steps := m.steps + steps } := by
    rw [findCall, searchArguments_eq hc, pure_bind, ScriptM.run_bind, run_subjectOf]
    dsimp only
    rcases h _ 0 with hlate | ⟨steps, hsearch⟩
    · rw [runSearch, hlate]
      exact .inl (((stopped_searched setting m).bind _).bind _)
    · refine .inr ⟨steps, ?_⟩
      simp only [runSearch, hsearch, searched, ScriptM.run_bind, ScriptM.run_pure,
        ScriptM.run_modify]
      cases found? with
      | none => exact ScriptM.run_pure ..
      | some found =>
        have hvalues : found.values bytes = .ok [] := by
          rw [Match.values, hcaptures found rfl]
          rfl
        simp only [hvalues, ofCaptures, List.mapM_nil, ScriptM.run_bind, ScriptM.run_pure]
        rfl
  exact ⟨hanswer, fun setting m hm =>
    (hanswer _ m).resolve_left (stopsExactly_findCall c hm).untimed⟩

end Answers

/-- **Finding an escaped text agrees with finding the text**, whatever its bytes are. Of a call that
finds the escaped text, and of one that finds the text and is told that it is not a pattern, both
from the same start in the same subject, there is one answer: nil if the text stands nowhere, and
otherwise where it stands first. Both calls give it, and none of them fails but for its deadline. -/
theorem find_escaped_agrees_with_plain {c c' : Call} {bytes text : ByteArray} {start : Option Int}
    (hc : c.Searches bytes (escaped text) start) (hitems : (c.arg 3).truthy = false)
    (hc' : c'.Searches bytes text start) (hplain : (c'.arg 3).truthy = true) :
    ∃ values, GivesText bytes text start values ∧ Finds c values ∧ Finds c' values := by
  obtain ⟨found?, hreports⟩ : ∃ found?, ReportsText bytes text start found? := exists_reports _ _
  obtain ⟨hgives, hcaptures⟩ := givesText_of_reports hreports
  refine ⟨boundsOf found?, hgives, ?_, ?_⟩
  · refine finds_of_answers hc hcaptures fun deadline => ?_
    rw [hitems]
    exact answers_find_escaped hreports
  · refine finds_of_answers hc' hcaptures fun deadline => ?_
    rw [hplain]
    exact answers_find_plain hreports

/-- From the second byte from the end of `a-b-b`, `-b` is looked for as it is and as `%-b`. -/
theorem find_escaped_agrees_with_plain_from_the_end :
    let call (pattern : String) (plain : Value) : Call :=
      { function := .string .find
        args := #[.string "a-b-b".toUTF8, .string pattern.toUTF8, .ofInt (-2), plain]
        stack := .bottom, origin := none, callWith := fun _ _ _ => pure #[] }
    escaped "-b".toUTF8 = "%-b".toUTF8
      ∧ ∃ values, GivesText "a-b-b".toUTF8 "-b".toUTF8 (some (-2)) values
        ∧ Finds (call "%-b" .nil) values ∧ Finds (call "-b" (.bool true)) values := by
  intro call
  have hescaped : escaped "-b".toUTF8 = "%-b".toUTF8 := by decide
  have hc : (call "%-b" .nil).Searches "a-b-b".toUTF8 (escaped "-b".toUTF8) (some (-2)) :=
    ⟨rfl, hescaped ▸ rfl, rfl⟩
  exact ⟨hescaped, find_escaped_agrees_with_plain hc rfl ⟨rfl, rfl, rfl⟩ rfl⟩

end LedgerReports.Script
