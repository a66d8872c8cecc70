import LedgerReports.Proofs.Pattern.Openings
import LedgerReports.Proofs.Script.Iterating
import Mathlib

/-!
# How many values a pattern gives

A script takes the values of a match apart by their number, so a pattern must not
give sometimes more of them and sometimes fewer. That it does not is
`pattern_gives_fixed_number_of_values`: the number depends on nothing but the
openings of the pattern, not on what is searched, nor from where, nor on which items
have matched nothing at all.

One case is special. A match without captures gives its text where it would give
nothing otherwise, so a pattern without openings gives one value, as does one with a
single opening.
-/

namespace LedgerReports.Script

open Pattern

/-! ## The matches that are found -/

section Found

variable {subject : Subject} {pattern : ByteArray} {found : Match}

/-- What a walk goes on to is a match of the pattern. -/
theorem firstMatch?_of_yields_next {pattern : Pattern} (hlast : AnchorLast pattern.items)
    {c c' : Cursor} (h : Yields (c.next subject pattern) (some found, c')) :
    firstMatch? subject.bytes pattern found.start = some found := by
  induction hn : subject.bytes.size + 1 - c.position using Nat.strongRecOn generalizing c with
  | ind n ih =>
    rw [Cursor.next] at h
    split at h
    case isTrue hposition =>
      obtain ⟨here?, hhere, h⟩ := h.of_bind
      cases here? with
      | some m =>
        cases h.of_pure
        obtain ⟨hstart, hm, -⟩ := of_yields_matchHere hlast hhere
        rwa [hstart]
      | none =>
        have hskip : c.skip.position = c.position + 1 := rfl
        exact ih _ (by omega) h rfl
    case isFalse => cases h.of_pure

theorem length_of_firstMatch? {text : ByteArray} {s : Nat}
    (h : firstMatch? text (ofBytes pattern) s = some found) :
    found.captures.length = openings pattern :=
  length_of_mem_ways_ofBytes (List.mem_of_head? (firstMatch?_eq_some_iff.mp h).2)

/-- What a walk goes on to has as many captures as the pattern has openings. -/
theorem length_of_yields_next {c c' : Cursor}
    (h : Yields (c.next subject (ofBytesUnanchored pattern)) (some found, c')) :
    found.captures.length = openings pattern := by
  have hfound := firstMatch?_of_yields_next (anchorLast_readAll pattern 0) h
  exact length_of_mem_ways_readAll (List.mem_of_head? (firstMatch?_eq_some_iff.mp hfound).2)

/-- What a search finds has as many captures as the pattern has openings. -/
theorem length_of_yields_findMatch {start : Option Int}
    (h : Yields (findMatch subject pattern start) (some found)) :
    found.captures.length = openings pattern := by
  obtain ⟨s, -, hfound⟩ := reports_of_yields_findMatch h
  exact length_of_firstMatch? hfound

/-- A text that is found has no captures. -/
theorem captures_of_findText? {text : ByteArray} {s : Nat}
    (h : findText? subject text s = .ok (some found)) : found.captures = [] := by
  unfold findText? at h
  split at h
  case isTrue =>
    cases h
    rfl
  case isFalse =>
    obtain ⟨position?, -, h⟩ := exists_of_bind_eq_ok h
    obtain ⟨start, -, rfl⟩ := Option.map_eq_some_iff.mp (Except.ok.inj h)
    rfl

/-- So has what a search finds that may take the pattern as a text. -/
theorem length_of_yields_find {start : Option Int}
    (h : Yields (find subject pattern start false) (some found)) :
    found.captures.length = openings pattern := by
  by_cases hplain : isPlain pattern = true
  · unfold find at h
    dsimp only at h
    split at h
    case isTrue => cases h.of_pure
    case isFalse =>
      rw [hplain, Bool.or_true, if_pos rfl] at h
      rw [captures_of_findText? h.of_lift, openings_of_isPlain hplain]
      rfl
  · rw [find_eq_findMatch (by rwa [Bool.false_or])] at h
    exact length_of_yields_findMatch h

end Found

/-! ## The values that are given -/

/-- **There are as many values** as is said, and none of them is nil. -/
def HasValues (values : Array Value) (n : Nat) : Prop := .nil ∉ values ∧ values.size = n

section Values

variable {found : Match} {bytes : ByteArray} {captured : List Captured}

theorem hasValues_captured (captured : List Captured) :
    HasValues (captured.map capturedValue).toArray captured.length := by
  refine ⟨fun hnil => ?_, by simp⟩
  obtain ⟨c, -, hc⟩ := List.mem_map.mp (Array.mem_def.mp hnil)
  cases c <;> cases hc

/-- A match without captures gives one value, its text. -/
theorem length_of_valuesOrWhole_eq_ok (h : found.valuesOrWhole bytes = .ok captured) :
    captured.length = max 1 found.captures.length := by
  have hvalue := eq_of_valuesOrWhole_eq_ok h
  split at hvalue
  case isTrue hempty =>
    rw [hvalue, List.isEmpty_iff.mp hempty]
    rfl
  case isFalse hsome =>
    rw [List.isEmpty_iff_length_eq_zero] at hsome
    rw [length_of_values_eq_ok hvalue]
    omega

end Values

/-- **What is given for a search**: as many values as is said if it has found something, and otherwise
what stands for nothing. -/
def GivesFor (nothing values : Array Value) (n : Nat) : Option Match → Prop
  | none => values = nothing
  | some _ => HasValues values n

/-- **A pattern gives a fixed number of values**, wherever it matches. -/
structure GivesAsMany (pattern : ByteArray) (n : Nat) : Prop where
  /-- A search that begins with no captures ends with as many, whatever is searched, until when and
  from where, if it finds anything. -/
  captures : ∀ (subject : Subject) (s steps steps' stop : Nat) (captures : Captures),
    (nest maxDepth fun room => Item.matchList subject (Item.readAll pattern 0) room s []).run steps
      = .ok (some (stop, captures), steps') → captures.length = n
  /-- A call that gives the captures of the first match gives as many values, or one if there are
  no captures. If its search has found nothing it gives nil. -/
  matched : ∀ (c : Call) (setting : Setting) (m m' : Machine) (bytes : ByteArray)
    (start : Option Int) (values : Array Value), c.Searches bytes pattern start →
    (matchCall c).run setting m = .ok values m' →
    ∃ (subject : Subject) (found? : Option Match), subject.bytes = bytes
      ∧ Yields (findMatch subject pattern start) found?
      ∧ GivesFor #[.nil] values (max 1 n) found?
  /-- A call that finds the first match, not told to take the pattern as a text, gives two values
  more than there are captures. If its search has found nothing it gives nil. -/
  found : ∀ (c : Call) (setting : Setting) (m m' : Machine) (bytes : ByteArray)
    (start : Option Int) (values : Array Value), c.Searches bytes pattern start →
    (c.arg 3).truthy = false → (findCall c).run setting m = .ok values m' →
    ∃ (subject : Subject) (found? : Option Match), subject.bytes = bytes
      ∧ Yields (find subject pattern start false) found?
      ∧ GivesFor #[.nil] values (n + 2) found?
  /-- Each turn of a walk through the matches gives as many values, or one if there are no captures.
  A turn that meets no match gives none. -/
  met : ∀ (c : Call) (setting : Setting) (m m' : Machine) (bytes : ByteArray)
    (start : Option Int) (values : Array Value), c.Searches bytes pattern start →
    (gmatchCall c).run setting m = .ok values m' →
    ∃ id, values = #[.builtin (.matches id)] ∧ ∀ turns : List (Turn id),
      Follow id m'.walks[id]? turns →
      ∀ turn ∈ turns, ∃ found?, turn.Meets bytes (ofBytesUnanchored pattern) found?
        ∧ GivesFor #[] turn.values (max 1 n) found?

section Calls

variable {c : Call} {setting : Setting} {m m' : Machine} {bytes pattern : ByteArray}
  {start : Option Int} {values : Array Value}

theorem givesFor_of_run_matchCall (hc : c.Searches bytes pattern start)
    (h : (matchCall c).run setting m = .ok values m') :
    ∃ (subject : Subject) (found? : Option Match), subject.bytes = bytes
      ∧ Yields (findMatch subject pattern start) found?
      ∧ GivesFor #[.nil] values (max 1 (openings pattern)) found? := by
  obtain ⟨subject, found?, hbytes, hyields, hvalues⟩ := found_of_run_matchCall hc h
  refine ⟨subject, found?, hbytes, hyields, ?_⟩
  cases found? with
  | none => exact hvalues
  | some found =>
    obtain ⟨captured, hcaptured, rfl⟩ := hvalues
    rw [← length_of_yields_findMatch hyields, ← length_of_valuesOrWhole_eq_ok hcaptured]
    exact hasValues_captured captured

theorem givesFor_of_run_findCall (hc : c.Searches bytes pattern start)
    (hplain : (c.arg 3).truthy = false) (h : (findCall c).run setting m = .ok values m') :
    ∃ (subject : Subject) (found? : Option Match), subject.bytes = bytes
      ∧ Yields (find subject pattern start false) found?
      ∧ GivesFor #[.nil] values (openings pattern + 2) found? := by
  obtain ⟨subject, found?, hbytes, hyields, hvalues⟩ := found_of_run_findCall hc h
  rw [hplain] at hyields
  refine ⟨subject, found?, hbytes, hyields, ?_⟩
  cases found? with
  | none => exact hvalues
  | some found =>
    obtain ⟨captured, hcaptured, rfl⟩ := hvalues
    rw [← length_of_yields_find hyields, ← length_of_values_eq_ok hcaptured]
    obtain ⟨hnil, hsize⟩ := hasValues_captured captured
    refine ⟨fun h => ?_, ?_⟩
    · rcases Array.mem_append.mp h with h | h
      · simp [Value.ofInt] at h
      · exact hnil h
    · rw [Array.size_append, hsize]
      exact Nat.add_comm 2 _

/-- The turns of a walk give as many values as the pattern has openings, wherever the walk
stands. -/
theorem givesFor_of_follow {id : Nat} {cursor : Cursor} {turns : List (Turn id)}
    (hturns : Follow id (some ⟨bytes, ofBytesUnanchored pattern, cursor⟩) turns) :
    ∀ turn ∈ turns, ∃ found?, turn.Meets bytes (ofBytesUnanchored pattern) found?
      ∧ GivesFor #[] turn.values (max 1 (openings pattern)) found? := by
  induction turns generalizing cursor with
  | nil => exact fun _ h => absurd h List.not_mem_nil
  | cons first turns ih =>
    obtain ⟨hwalk, hturns⟩ := hturns
    obtain ⟨found?, cursor', subject, hmeets, -, hyields, hafter⟩ := first.exists_meets hwalk
    rw [hafter] at hturns
    refine List.forall_mem_cons.mpr ⟨⟨found?, hmeets, ?_⟩, ih hturns⟩
    have hshows := hmeets.shows
    cases found? with
    | none => exact hshows
    | some found =>
      obtain ⟨captured, hcaptured, hvalues⟩ := hshows
      rw [hvalues, ← length_of_yields_next hyields, ← length_of_valuesOrWhole_eq_ok hcaptured]
      exact hasValues_captured captured

end Calls

/-- **A pattern gives as many values as it has openings**, wherever it matches: one value for each,
or the text of the match if there are none. -/
theorem pattern_gives_fixed_number_of_values (pattern : ByteArray) :
    GivesAsMany pattern (openings pattern) where
  captures _ _ _ _ _ _ h := length_of_yields_some (.of_run h)
  matched _ _ _ _ _ _ _ := givesFor_of_run_matchCall
  found _ _ _ _ _ _ _ := givesFor_of_run_findCall
  met c setting m m' bytes start values hc h := by
    obtain ⟨id, hvalues, hwalk⟩ := exists_walk_of_run_gmatchCall hc h
    refine ⟨id, hvalues, fun turns hturns => ?_⟩
    rw [hwalk] at hturns
    exact givesFor_of_follow hturns

end LedgerReports.Script
