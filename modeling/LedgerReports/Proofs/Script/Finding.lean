import LedgerReports.Proofs.Pattern.Leftmost
import LedgerReports.Proofs.Script.LateSearches
import Mathlib

/-!
# Finding and matching

A script has two functions that look for the first match of a pattern. One gives
its position and its captures, the other only the captures, or the text of the
match if there are none. They do not search in the same way: the first one takes
a pattern in which no byte has a meaning of its own as a text. `find_and_match_agree`
says that this makes no difference, and what both give.
-/

namespace LedgerReports.Script

open Pattern

variable {setting : Setting} {m m' : Machine}

/-! ## What a call gives -/

/-- A search that has gone well has given an answer, and its steps have been counted. -/
theorem run_runSearch_eq_ok {α : Type} {search : SearchM α} {a : α}
    (h : (runSearch search).run setting m = .ok a m') :
    ∃ steps, search.run 0 = .ok (a, steps) ∧ m' = { m with steps := m.steps + steps } := by
  obtain ⟨⟨b, steps⟩, _, hrun, h⟩ := run_bind_eq_ok h
  obtain ⟨hsearch, rfl⟩ := run_searched_eq_ok hrun
  obtain ⟨_, _, hmodify, h⟩ := run_bind_eq_ok h
  rw [ScriptM.run_modify] at hmodify
  cases hmodify
  obtain ⟨rfl, rfl⟩ := run_pure_eq_ok h
  exact ⟨steps, hsearch, rfl⟩

/-- A captured value as a script sees it. -/
def capturedValue : Captured → Value
  | .text bytes => .string bytes
  | .position index => .ofInt index

/-- Room for a string is made without a look at the walks. -/
theorem walks_of_run_newString {bytes : ByteArray} {v : Value}
    (h : (newString bytes).run setting m = .ok v m') : m'.walks = m.walks := by
  obtain ⟨_, m₁, hrun, h⟩ := run_bind_eq_ok h
  obtain ⟨-, rfl⟩ := run_pure_eq_ok h
  rw [allocate, ScriptM.run_bind, ScriptM.run_read] at hrun
  dsimp only at hrun
  split at hrun
  case isTrue =>
    obtain ⟨_, _, hraise, -⟩ := run_bind_eq_ok hrun
    cases hraise
  case isFalse =>
    rw [ScriptM.run_modify] at hrun
    cases hrun
    rfl

theorem run_ofCaptured_eq_ok {captured : Captured} {v : Value}
    (h : (ofCaptured captured).run setting m = .ok v m') :
    v = capturedValue captured ∧ m'.walks = m.walks := by
  cases captured with
  | text bytes => exact ⟨run_newString_eq_ok h, walks_of_run_newString h⟩
  | position index =>
    obtain ⟨rfl, rfl⟩ := run_pure_eq_ok h
    exact ⟨rfl, rfl⟩

theorem run_mapM_ofCaptured_eq_ok {captured : List Captured} {values : List Value}
    (h : (captured.mapM ofCaptured).run setting m = .ok values m') :
    values = captured.map capturedValue ∧ m'.walks = m.walks := by
  induction captured generalizing values m with
  | nil =>
    obtain ⟨rfl, rfl⟩ := run_pure_eq_ok h
    exact ⟨rfl, rfl⟩
  | cons captured rest ih =>
    rw [List.mapM_cons] at h
    obtain ⟨v, m₁, hv, h⟩ := run_bind_eq_ok h
    obtain ⟨vs, _, hvs, h⟩ := run_bind_eq_ok h
    obtain ⟨rfl, rfl⟩ := run_pure_eq_ok h
    obtain ⟨rfl, hwalks⟩ := run_ofCaptured_eq_ok hv
    obtain ⟨rfl, hwalks'⟩ := ih hvs
    exact ⟨rfl, hwalks'.trans hwalks⟩

/-- The captured values are given one after the other, and the walks stay as they are. -/
theorem run_ofCaptures_eq_ok {captured : List Captured} {values : Array Value}
    (h : (ofCaptures captured).run setting m = .ok values m') :
    values = (captured.map capturedValue).toArray ∧ m'.walks = m.walks := by
  obtain ⟨list, _, hlist, h⟩ := run_bind_eq_ok h
  obtain ⟨rfl, rfl⟩ := run_pure_eq_ok h
  obtain ⟨rfl, hwalks⟩ := run_mapM_ofCaptured_eq_ok hlist
  exact ⟨rfl, hwalks⟩

/-- The values of a match are those of its captures, or its text if there are none. -/
theorem eq_of_valuesOrWhole_eq_ok {found : Match} {bytes : ByteArray} {captured : List Captured}
    (h : found.valuesOrWhole bytes = .ok captured) :
    if found.captures.isEmpty then captured = [.text (found.text bytes)]
    else found.values bytes = .ok captured := by
  unfold Match.valuesOrWhole at h
  split
  case isTrue hempty =>
    rw [if_pos hempty] at h
    obtain ⟨text, hwhole, h⟩ := exists_of_bind_eq_ok h
    cases h
    rw [(eq_extract_of_slice hwhole).1]
    rfl
  case isFalse hsome => rwa [if_neg hsome] at h

section Calls

variable {c : Call} {bytes pattern : ByteArray} {start : Option Int} {values : Array Value}

/-- What a call that finds the first match gives is what its search has found. -/
theorem found_of_run_findCall (hc : c.Searches bytes pattern start)
    (h : (findCall c).run setting m = .ok values m') :
    ∃ (subject : Subject) (found? : Option Match), subject.bytes = bytes
      ∧ Yields (find subject pattern start (c.arg 3).truthy) found?
      ∧ match found? with
        | none => values = #[.nil]
        | some found => ∃ captured, found.values bytes = .ok captured
          ∧ values = #[.ofInt (found.start + 1), .ofInt found.stop]
            ++ (captured.map capturedValue).toArray := by
  rw [findCall, searchArguments_eq hc, pure_bind] at h
  obtain ⟨subject, _, hrun, h⟩ := run_bind_eq_ok h
  obtain ⟨hbytes, rfl⟩ := run_subjectOf_eq_ok hrun
  obtain ⟨found?, _, hrun, h⟩ := run_bind_eq_ok h
  obtain ⟨steps, hsearch, -⟩ := run_runSearch_eq_ok hrun
  refine ⟨subject, found?, hbytes.symm, .of_run hsearch, ?_⟩
  cases found? with
  | none => exact (run_pure_eq_ok h).1.symm
  | some found =>
    obtain ⟨captured, _, hrun, h⟩ := run_bind_eq_ok h
    obtain ⟨hcaptured, rfl⟩ := run_searched_eq_ok hrun
    obtain ⟨list, _, hrun, h⟩ := run_bind_eq_ok h
    rw [← (run_pure_eq_ok h).1, (run_ofCaptures_eq_ok hrun).1]
    exact ⟨captured, hcaptured, rfl⟩

/-- What a call that gives the captures of the first match gives is what its search has found. -/
theorem found_of_run_matchCall (hc : c.Searches bytes pattern start)
    (h : (matchCall c).run setting m = .ok values m') :
    ∃ (subject : Subject) (found? : Option Match), subject.bytes = bytes
      ∧ Yields (findMatch subject pattern start) found?
      ∧ match found? with
        | none => values = #[.nil]
        | some found => ∃ captured, found.valuesOrWhole bytes = .ok captured
          ∧ values = (captured.map capturedValue).toArray := by
  rw [matchCall, searchArguments_eq hc, pure_bind] at h
  obtain ⟨subject, _, hrun, h⟩ := run_bind_eq_ok h
  obtain ⟨hbytes, rfl⟩ := run_subjectOf_eq_ok hrun
  obtain ⟨found?, _, hrun, h⟩ := run_bind_eq_ok h
  obtain ⟨steps, hsearch, -⟩ := run_runSearch_eq_ok hrun
  refine ⟨subject, found?, hbytes.symm, .of_run hsearch, ?_⟩
  cases found? with
  | none => exact (run_pure_eq_ok h).1.symm
  | some found =>
    obtain ⟨captured, _, hrun, h⟩ := run_bind_eq_ok h
    obtain ⟨hcaptured, rfl⟩ := run_searched_eq_ok hrun
    exact ⟨captured, hcaptured, (run_ofCaptures_eq_ok h).1⟩

end Calls

/-! ## Both calls -/

/-- There are as many values as captures. -/
theorem length_of_values_eq_ok {found : Match} {bytes : ByteArray} {captured : List Captured}
    (h : found.values bytes = .ok captured) : captured.length = found.captures.length := by
  unfold Match.values at h
  generalize found.captures = captures at h ⊢
  induction captures generalizing captured with
  | nil =>
    cases h
    rfl
  | cons capture rest ih =>
    rw [List.mapM_cons] at h
    obtain ⟨value, -, h⟩ := exists_of_bind_eq_ok h
    obtain ⟨values, hvalues, h⟩ := exists_of_bind_eq_ok h
    cases h
    exact congrArg (· + 1) (ih hvalues)

/-- The positions of a text at which a pattern matches, among those at which a search from a 1-based
start looks for it. -/
def matchPositions (bytes pattern : ByteArray) (start : Option Int) : Set Nat :=
  {s | s ∈ lookouts bytes (ofBytes pattern) (startOffset start bytes.size)
    ∧ ways bytes (ofBytes pattern).items s [] ≠ []}

/-- **What there is to be given for a pattern** by a call that finds the first match, and by one that
gives its captures. -/
inductive GivesFirst (bytes pattern : ByteArray) (start : Option Int) :
    (found matched : Array Value) → Prop where
  /-- The pattern matches nowhere, and both calls give nil. -/
  | nothing (hnowhere : matchPositions bytes pattern start = ∅) :
      GivesFirst bytes pattern start #[.nil] #[.nil]
  /-- The pattern matches first at the least position. The one call gives where the preferred way
  to match from there begins and ends, and then the captures; the other gives the same captures,
  or what has been matched if the pattern has none. -/
  | first {found : Match} {captured : List Captured}
      (hleast : IsLeast (matchPositions bytes pattern start) found.start)
      (hway : (ways bytes (ofBytes pattern).items found.start []).head?
        = some (found.stop, found.captures))
      (hbounds : 1 ≤ found.start + 1 ∧ found.start + 1 ≤ found.stop + 1
        ∧ found.stop + 1 ≤ bytes.size + 1)
      (hcaptured : found.values bytes = .ok captured)
      (hcount : captured.length = (ofBytes pattern).items.countP Item.captures)
      (hbetween : ∀ capture ∈ found.captures,
        found.start ≤ capture.start ∧ capture.start ≤ capture.stop ∧ capture.stop ≤ found.stop) :
      GivesFirst bytes pattern start
        (#[.ofInt (found.start + 1), .ofInt found.stop] ++ (captured.map capturedValue).toArray)
        ((if captured.isEmpty then [.text (found.text bytes)] else captured).map
          capturedValue).toArray

/-- **Finding and matching agree**, also where a pattern is found as a text and matched by its items.
If a call that finds a pattern, not told to take it as a text, and a call that matches it both give
a value, they give nil together, or what there is at the least position at which the pattern
matches, from the start that both are given. The captures that they give are of what is between the
beginning and the end of the match. -/
theorem find_and_match_agree {c c' : Call} {setting setting' : Setting}
    {m₀ m₁ m₀' m₁' : Machine} {values values' : Array Value} {bytes pattern : ByteArray}
    {start : Option Int} (hc : c.Searches bytes pattern start)
    (hplain : (c.arg 3).truthy = false) (hc' : c'.Searches bytes pattern start)
    (hfind : (findCall c).run setting m₀ = .ok values m₁)
    (hmatch : (matchCall c').run setting' m₀' = .ok values' m₁') :
    GivesFirst bytes pattern start values values' := by
  obtain ⟨subject, found?, rfl, hyields, hvalues⟩ := found_of_run_findCall hc hfind
  obtain ⟨subject', found?', hbytes, hyields', hvalues'⟩ := found_of_run_matchCall hc' hmatch
  rw [hplain] at hyields
  obtain rfl := eq_of_yields_find hbytes.symm hyields hyields'
  have hreports := reports_of_yields_findMatch hyields'
  rw [hbytes] at hreports
  have hpositions : {s | s ∈ lookouts subject.bytes (ofBytes pattern)
      (startOffset start subject.bytes.size)
        ∧ firstMatch? subject.bytes (ofBytes pattern) s ≠ none}
      = matchPositions subject.bytes pattern start := by
    ext s
    exact and_congr_right fun _ => not_congr firstMatch?_eq_none_iff
  cases found? with
  | none =>
    rw [hvalues, hvalues']
    refine .nothing ?_
    rw [← hpositions, Set.eq_empty_iff_forall_notMem]
    exact fun s hs => hs.2 (hreports s hs.1)
  | some found =>
    obtain ⟨captured, hcaptured, hvalues⟩ := hvalues
    obtain ⟨captured', hcaptured', hvalues'⟩ := hvalues'
    obtain ⟨s, hleast, hfound⟩ := hreports
    obtain ⟨rfl, hway⟩ := firstMatch?_eq_some_iff.mp hfound
    obtain ⟨hreaches, hcount⟩ := reaches_of_firstMatch? hleast.1.1.2.1 hfound
    have hlength := length_of_values_eq_ok hcaptured
    have hmatched : captured' = if captured.isEmpty then [.text (found.text subject.bytes)]
        else captured := by
      have hsame : captured.isEmpty = found.captures.isEmpty := by
        rw [Bool.eq_iff_iff, List.isEmpty_iff_length_eq_zero, hlength,
          List.isEmpty_iff_length_eq_zero]
      have hvalue := eq_of_valuesOrWhole_eq_ok hcaptured'
      rw [hsame]
      split at hvalue
      case isTrue hempty => rw [if_pos hempty, hvalue]
      case isFalse hsome =>
        cases hcaptured.symm.trans hvalue
        rw [if_neg hsome]
    have hstop := hreaches.start_le
    have hsize := hreaches.le_size
    rw [hvalues, hvalues', hmatched]
    refine .first (hpositions ▸ hleast) hway (by omega) hcaptured (hlength.trans hcount)
      fun capture hc => ?_
    have hbetween := hreaches.between capture hc
    exact ⟨hbetween.1, capture.start_le_stop, hbetween.2⟩

/-- In `xaab`, from its third byte before the end on, `(a)b` matches at the third byte and captures
that. -/
theorem find_and_match_agree_from_the_end :
    let call (function : Builtin) : Call :=
      { function, args := #[.string "xaab".toUTF8, .string "(a)b".toUTF8, .ofInt (-3)]
        stack := .bottom, origin := none, callWith := fun _ _ _ => pure #[] }
    let setting : Setting := { ledger := ({} : Store).view default, maxReplaced := 100 }
    let found := #[.ofInt 3, .ofInt 4, .string "a".toUTF8]
    let matched := #[.string "a".toUTF8]
    (findCall (call (.string .find))).run setting {} = .ok found { steps := 9, allocated := 25 }
      ∧ (matchCall (call (.string .match))).run setting {}
        = .ok matched { steps := 9, allocated := 25 }
      ∧ GivesFirst "xaab".toUTF8 "(a)b".toUTF8 (some (-3)) found matched := by
  intro call setting found matched
  have hc (function : Builtin) :
      (call function).Searches "xaab".toUTF8 "(a)b".toUTF8 (some (-3)) :=
    ⟨rfl, rfl, rfl⟩
  have hsubject : (subjectOf "xaab".toUTF8).run setting {} = .ok ⟨"xaab".toUTF8, .never⟩ {} :=
    run_subjectOf ..
  have hplain : ((call (.string .find)).arg 3).truthy = false := rfl
  have hfound : (find ⟨"xaab".toUTF8, .never⟩ "(a)b".toUTF8 (some (-3)) false).run 0
      = .ok (some ⟨2, 4, [⟨2, .closed 1⟩]⟩, 9) := by
    cbv
  have hmatched : (findMatch ⟨"xaab".toUTF8, .never⟩ "(a)b".toUTF8 (some (-3))).run 0
      = .ok (some ⟨2, 4, [⟨2, .closed 1⟩]⟩, 9) := by
    cbv
  have hvalues : (⟨2, 4, [⟨2, .closed 1⟩]⟩ : Match).values "xaab".toUTF8
      = .ok [.text "a".toUTF8] := by
    cbv
  have hvaluesOrWhole : (⟨2, 4, [⟨2, .closed 1⟩]⟩ : Match).valuesOrWhole "xaab".toUTF8
      = .ok [.text "a".toUTF8] := hvalues
  have hfind : (findCall (call (.string .find))).run setting {}
      = .ok found { steps := 9, allocated := 25 } := by
    simp only [findCall, searchArguments_eq (hc _), pure_bind, ScriptM.run_bind, hsubject,
      runSearch, hplain, hfound, searched, ScriptM.run_pure, ScriptM.run_modify, hvalues,
      ofCaptures, List.mapM_cons, List.mapM_nil, ofCaptured]
    rw [run_newString rfl]
    rfl
  have hmatch : (matchCall (call (.string .match))).run setting {}
      = .ok matched { steps := 9, allocated := 25 } := by
    simp only [matchCall, searchArguments_eq (hc _), pure_bind, ScriptM.run_bind, hsubject,
      runSearch, hmatched, searched, ScriptM.run_pure, ScriptM.run_modify, hvaluesOrWhole,
      ofCaptures, List.mapM_cons, List.mapM_nil, ofCaptured]
    rw [run_newString rfl]
    rfl
  exact ⟨hfind, hmatch, find_and_match_agree (hc _) hplain (hc _) hfind hmatch⟩

end LedgerReports.Script
