import LedgerReports.Proofs.Pattern.Succession
import LedgerReports.Proofs.Script.Finding
import LedgerReports.Proofs.Script.Substitution
import Mathlib

/-!
# Iterating over matches and replacing them

A script can go through the matches of a pattern in two ways. It can replace them
all in one call, or begin a walk and go on with it turn by turn; the walk is kept
by the machine in between, while the script may do anything else. Both are
compared with the matches of the subject one after the other (`Successive`), and
so with each other: `gmatch_meets_what_gsub_replaces` says that the turns of a walk
meet the matches that are replaced, and none after the last one.
-/

namespace LedgerReports.Script

open Pattern

/-! ## The turns of a walk -/

/-- **A turn of a walk** goes on with it, on some machine, and gives values. -/
structure Turn (id : Nat) where
  /-- The run that the turn is a part of. -/
  setting : Setting
  /-- The machine before the turn. -/
  machine : Machine
  /-- What the turn gives. -/
  values : Array Value
  /-- The machine after the turn. -/
  after : Machine
  /-- The turn gives the values. -/
  run : (nextMatch id).run setting machine = .ok values after

/-- **Turns follow one another**: each finds the walk as the one before has left it, whatever else
has been done in between. -/
def Follow (id : Nat) : Option MatchWalk → List (Turn id) → Prop
  | _, [] => True
  | walk?, turn :: turns =>
    turn.machine.walks[id]? = walk? ∧ Follow id turn.after.walks[id]? turns

/-- **What is given for a match**: its captures, or its text if there are none. Without a match there
is nothing to be given. -/
def Shows (bytes : ByteArray) (values : Array Value) : Option Match → Prop
  | none => values = #[]
  | some found => ∃ captured, found.valuesOrWhole bytes = .ok captured
    ∧ values = (captured.map capturedValue).toArray

/-- **What a turn meets**, when it goes on with a walk through the matches of a pattern. -/
structure Turn.Meets {id : Nat} (turn : Turn id) (bytes : ByteArray) (pattern : Pattern)
    (found? : Option Match) : Prop where
  /-- The search of the turn finds it, from where the walk stands, and the walk then stands past
  it. -/
  searched : ∃ (subject : Subject) (cursor cursor' : Cursor) (steps : Nat),
    turn.machine.walks[id]? = some ⟨bytes, pattern, cursor⟩
      ∧ (subjectOf bytes).run turn.setting turn.machine = .ok subject turn.machine
      ∧ (cursor.next subject pattern).run 0 = .ok ((found?, cursor'), steps)
      ∧ turn.after.walks[id]? = some ⟨bytes, pattern, cursor'⟩
  /-- It is given. -/
  shows : Shows bytes turn.values found?

section Turns

variable {id : Nat} {bytes : ByteArray} {pattern : Pattern} {cursor : Cursor} {found : List Match}

/-- A turn gives what its search finds, and keeps where the walk stands then. -/
theorem run_nextMatch {setting : Setting} {m : Machine} {walk : MatchWalk} {subject : Subject}
    {found? : Option Match} {steps : Nat} (hwalk : m.walks[id]? = some walk)
    (hsubject : (subjectOf walk.subject).run setting m = .ok subject m)
    (hsearch : (walk.cursor.next subject walk.pattern).run 0 = .ok ((found?, cursor), steps)) :
    (nextMatch id).run setting m
      = (found?.elim (pure #[]) fun found =>
          searched (found.valuesOrWhole walk.subject) >>= ofCaptures).run setting
        { m with
          steps := m.steps + steps
          walks := m.walks.setIfInBounds id { walk with cursor } } := by
  rw [nextMatch, ScriptM.run_bind, ScriptM.run_get]
  dsimp only
  rw [hwalk]
  dsimp only
  simp only [ScriptM.run_bind, hsubject, runSearch, hsearch, searched, ScriptM.run_pure,
    ScriptM.run_modify]
  cases found? <;> rfl

/-- What a turn has done. -/
theorem Turn.exists_meets (turn : Turn id)
    (hwalk : turn.machine.walks[id]? = some ⟨bytes, pattern, cursor⟩) :
    ∃ found? cursor' subject, turn.Meets bytes pattern found? ∧ subject.bytes = bytes
      ∧ Yields (cursor.next subject pattern) (found?, cursor')
      ∧ turn.after.walks[id]? = some ⟨bytes, pattern, cursor'⟩ := by
  have h := turn.run
  rw [nextMatch, ScriptM.run_bind, ScriptM.run_get] at h
  dsimp only at h
  rw [hwalk] at h
  obtain ⟨subject, _, hsubject, h⟩ := run_bind_eq_ok h
  obtain ⟨hbytes, rfl⟩ := run_subjectOf_eq_ok hsubject
  obtain ⟨⟨found?, cursor'⟩, _, hrun, h⟩ := run_bind_eq_ok h
  obtain ⟨steps, hsearch, rfl⟩ := run_runSearch_eq_ok hrun
  obtain ⟨_, m₁, hmodify, h⟩ := run_bind_eq_ok h
  have hkept : m₁.walks[id]? = some ⟨bytes, pattern, cursor'⟩ := by
    rw [ScriptM.run_modify] at hmodify
    cases hmodify
    exact Array.getElem?_setIfInBounds_self_of_lt (Array.getElem?_eq_some_iff.mp hwalk).1
  suffices hafter : turn.after.walks = m₁.walks ∧ Shows bytes turn.values found? by
    rw [← hafter.1] at hkept
    exact ⟨found?, cursor', subject,
      ⟨⟨subject, cursor, cursor', steps, hwalk, hsubject, hsearch, hkept⟩, hafter.2⟩, hbytes.symm,
      .of_run hsearch, hkept⟩
  cases found? with
  | none =>
    obtain ⟨hvalues, hafter⟩ := run_pure_eq_ok h
    rw [← hafter]
    exact ⟨rfl, hvalues.symm⟩
  | some found =>
    obtain ⟨captured, _, hrun, h⟩ := run_bind_eq_ok h
    obtain ⟨hcaptured, rfl⟩ := run_searched_eq_ok hrun
    obtain ⟨hvalues, hwalks⟩ := run_ofCaptures_eq_ok h
    exact ⟨hwalks, captured, hcaptured, hvalues⟩

/-- **A turn meets the next match**, and leaves the walk past it. -/
theorem Turn.meets_next (turn : Turn id) (hlast : AnchorLast pattern.items)
    (hwalk : turn.machine.walks[id]? = some ⟨bytes, pattern, cursor⟩)
    (h : Successive bytes pattern cursor found) :
    turn.Meets bytes pattern found.head?
      ∧ ∃ cursor', turn.after.walks[id]? = some ⟨bytes, pattern, cursor'⟩
        ∧ Successive bytes pattern cursor' found.tail := by
  obtain ⟨found?, cursor', subject, hmeets, rfl, hyields, hafter⟩ := turn.exists_meets hwalk
  obtain ⟨rfl, hlater⟩ := h.of_yields_next hlast hyields
  exact ⟨hmeets, cursor', hafter, hlater⟩

/-- **The turns meet the matches one after the other.** -/
theorem meets_of_follow {turns : List (Turn id)} (hlast : AnchorLast pattern.items)
    (hturns : Follow id (some ⟨bytes, pattern, cursor⟩) turns)
    (h : Successive bytes pattern cursor found) {i : Nat} {turn : Turn id}
    (hturn : turns[i]? = some turn) : turn.Meets bytes pattern found[i]? := by
  induction turns generalizing cursor found i with
  | nil => cases hturn
  | cons first turns ih =>
    obtain ⟨hwalk, hturns⟩ := hturns
    obtain ⟨hmeets, cursor', hafter, hlater⟩ := first.meets_next hlast hwalk h
    cases i with
    | zero =>
      cases hturn
      rwa [← List.head?_eq_getElem?]
    | succ i =>
      rw [hafter] at hturns
      have hmeets := ih hturns hlater hturn
      rwa [List.getElem?_tail] at hmeets

/-- A turn that meets a match gives a value. -/
theorem Turn.Meets.values_eq_empty_iff {turn : Turn id} {found? : Option Match}
    (h : turn.Meets bytes pattern found?) : turn.values = #[] ↔ found? = none := by
  have hshows := h.shows
  cases found? with
  | none => exact ⟨fun _ => rfl, fun _ => hshows⟩
  | some found =>
    obtain ⟨captured, hcaptured, hvalues⟩ := hshows
    refine iff_of_false (fun hempty => ?_) nofun
    rw [hvalues, Array.mk.injEq, List.map_eq_nil_iff] at hempty
    have hvalue := eq_of_valuesOrWhole_eq_ok hcaptured
    rw [hempty] at hvalue
    split at hvalue
    case isTrue => cases hvalue
    case isFalse hsome =>
      rw [List.isEmpty_iff_length_eq_zero, ← length_of_values_eq_ok hvalue] at hsome
      exact hsome rfl

/-- A walk begins where it is told to, at the latest past the end of the subject. -/
theorem exists_walk_of_run_gmatchCall {c : Call} {setting : Setting} {m m' : Machine}
    {values : Array Value} {text : ByteArray} {start : Option Int}
    (hc : c.Searches bytes text start) (h : (gmatchCall c).run setting m = .ok values m') :
    ∃ id, values = #[.builtin (.matches id)]
      ∧ m'.walks[id]? = some ⟨bytes, ofBytesUnanchored text,
          .start (min (startOffset start bytes.size) (bytes.size + 1))⟩ := by
  rw [gmatchCall, searchArguments_eq hc, pure_bind] at h
  simp only [ScriptM.run_bind, ScriptM.run_get, ScriptM.run_modify, ScriptM.run_pure] at h
  cases h
  exact ⟨_, rfl, Array.getElem?_push_size⟩

/-- A walk begins at the beginning of the subject, unless it is told where. -/
theorem walk_of_run_gmatchCall {c : Call} {setting : Setting} {m m' : Machine}
    {values : Array Value} {text : ByteArray} (hc : c.Searches bytes text none)
    (h : (gmatchCall c).run setting m = .ok values m') :
    ∃ id, values = #[.builtin (.matches id)]
      ∧ m'.walks[id]? = some ⟨bytes, ofBytesUnanchored text, .start 0⟩ := by
  have hfirst : min (startOffset none bytes.size) (bytes.size + 1) = 0 := Nat.zero_min _
  rw [← hfirst]
  exact exists_walk_of_run_gmatchCall hc h

end Turns

/-! ## Replacing and iterating -/

/-- **A call replaces matches** in a subject: the subject is cut at them, and what is given is the
gaps with what the third argument says in their places, and their number. -/
def Replaces (setting : Setting) (c : Call) (m : Machine) (bytes : ByteArray) (pattern : Pattern)
    (found : List Match) (values : Array Value) : Prop :=
  ∃ (subject : Subject) (segments : List Segment) (rest : ByteArray) (m₁ : Machine),
    subject.bytes = bytes
      ∧ Cuts subject pattern False (.start 0) segments rest
      ∧ found = segments.map (·.found)
      ∧ Threads (Image setting c bytes) m (segments.map Segment.substitution) m₁
      ∧ values = #[.string (joined (·.image) segments rest), .ofInt found.length]

/-- **A walk meets matches**: turn by turn, however many there are, they are met in their order, and
no value is given by any turn after the last of them. -/
def WalkMeets (id : Nat) (walk? : Option MatchWalk) (bytes : ByteArray) (pattern : Pattern)
    (found : List Match) : Prop :=
  ∀ turns : List (Turn id), Follow id walk? turns →
    ∀ i turn, turns[i]? = some turn →
      turn.Meets bytes pattern found[i]? ∧ (turn.values = #[] ↔ found.length ≤ i)

section Both

variable {bytes pattern : ByteArray} {setting : Setting} {m m' : Machine} {c : Call}

/-- A pattern is read in the same way for both, unless it begins with a caret. -/
theorem ofBytes_eq_of_ne (h : byteAt? pattern 0 ≠ some (byte '^')) :
    ofBytes pattern = ofBytesUnanchored pattern := if_neg h

/-- **A call without a limit replaces all matches.** The limit that it has instead is the number of
places where a match can end. -/
theorem replaces_of_run_gsubCall {values : Array Value}
    (hbytes : Value.asBytes (c.arg 0) = .ok bytes)
    (hpattern : Value.asBytes (c.arg 1) = .ok pattern)
    (hlimit : Value.asOptional Value.asInt64 (c.arg 3) = .ok none)
    (hcaret : byteAt? pattern 0 ≠ some (byte '^'))
    (h : (gsubCall c).run setting m = .ok values m') :
    ∃ found, Successive bytes (ofBytes pattern) (.start 0) found
      ∧ Replaces setting c m bytes (ofBytes pattern) found values := by
  obtain ⟨subject, pattern', limit?, rep, replaced, m₁, hbytes', hpattern', hlimit', hrep, -,
    hreplaced, rfl⟩ := run_gsubCall_eq_ok h
  obtain rfl : bytes = subject.bytes := Except.ok.inj (hbytes.symm.trans hbytes')
  cases hpattern.symm.trans hpattern'
  cases hlimit.symm.trans hlimit'
  obtain ⟨segments, rest, hfinishes⟩ :=
    finishes_of_run (Nat.zero_le _) (stepsLeft_start_lt subject) hreplaced
  have hcount : replaced.count = segments.length := by
    rw [hfinishes.count]
    exact Nat.zero_add _
  have hcuts := hfinishes.cuts
  refine ⟨segments.map (·.found), hcuts.successive (anchorLast_ofBytes pattern) (behind_start 0) ?_,
    subject, segments, rest, m₁, rfl, hcuts.imp False.elim, rfl,
    hfinishes.threads.imp (image_of_run_replacer hrep).2, ?_⟩
  · have hanchored : (ofBytes pattern).anchored = false := by
      rw [ofBytes_eq_of_ne hcaret]
      rfl
    have hleast : (Cursor.start 0).leastStop = 0 := rfl
    by_cases hlt : segments.length < subject.bytes.size + 1
    · refine .inl ⟨hanchored, ?_⟩
      rw [hcount]
      exact Int.ofNat_lt.mpr hlt
    · exact .inr (by omega)
  · rw [hfinishes.result_eq, hcount, List.length_map]

/-- **Iterating meets what replacing replaces.** If a call that replaces all matches of a pattern,
which does not begin with a caret, gives a value, then a walk through the matches of the same
pattern in the same subject meets, turn by turn, the matches that have been replaced, as long as no
turn raises an error; and each turn after them gives no value. The matches are those of the subject
one after the other: none begins before the last one has ended, each ends later than it, and there
is at most one more of them than there are bytes. -/
theorem gmatch_meets_what_gsub_replaces {c c' : Call} {setting setting' : Setting}
    {m m' n n' : Machine} {values iterator : Array Value} {bytes pattern : ByteArray}
    (hbytes : Value.asBytes (c.arg 0) = .ok bytes)
    (hpattern : Value.asBytes (c.arg 1) = .ok pattern)
    (hlimit : Value.asOptional Value.asInt64 (c.arg 3) = .ok none)
    (hc' : c'.Searches bytes pattern none) (hcaret : byteAt? pattern 0 ≠ some (byte '^'))
    (hgsub : (gsubCall c).run setting m = .ok values m')
    (hgmatch : (gmatchCall c').run setting' n = .ok iterator n') :
    ∃ (found : List Match) (id : Nat),
      Replaces setting c m bytes (ofBytes pattern) found values
      ∧ iterator = #[.builtin (.matches id)]
      ∧ WalkMeets id n'.walks[id]? bytes (ofBytes pattern) found
      ∧ Successive bytes (ofBytes pattern) (.start 0) found
      ∧ (found.Pairwise fun first later =>
        first.start ≤ later.start ∧ first.stop < later.stop ∧ first.stop ≤ later.start)
      ∧ found.length ≤ bytes.size + 1 := by
  obtain ⟨found, hsuccessive, hreplaces⟩ :=
    replaces_of_run_gsubCall hbytes hpattern hlimit hcaret hgsub
  obtain ⟨id, hiterator, hwalk⟩ := walk_of_run_gmatchCall hc' hgmatch
  have hordered := (hsuccessive.ordered (behind_start 0)).2
  have hlength := hsuccessive.length_le (behind_start 0) (Nat.zero_le _)
  refine ⟨found, id, hreplaces, hiterator, fun turns hturns i turn hturn => ?_, hsuccessive,
    hordered, hlength⟩
  rw [hwalk, ← ofBytes_eq_of_ne hcaret] at hturns
  have hmeets := meets_of_follow (anchorLast_ofBytes pattern) hturns hsuccessive hturn
  refine ⟨hmeets, ?_⟩
  rw [hmeets.values_eq_empty_iff, List.getElem?_eq_none_iff]

/-- In `a` the pattern `a*` matches once: the empty match at the end does not count, since the match
before it ends there. -/
theorem gmatch_meets_what_gsub_replaces_once :
    let call (function : Builtin) (args : Array Value) : Call :=
      { function, args, stack := .bottom, origin := none, callWith := fun _ _ _ => pure #[] }
    let replacing := call (.string .gsub)
      #[.string "a".toUTF8, .string "a*".toUTF8, .string "<%0>".toUTF8]
    let iterating := call (.string .gmatch) #[.string "a".toUTF8, .string "a*".toUTF8]
    let setting : Setting := { ledger := ({} : Store).view default, maxReplaced := 100 }
    let values := #[Value.string "<a>".toUTF8, .ofInt 1]
    let iterator := #[Value.builtin (.matches 0)]
    let begun : Machine :=
      { walks := #[⟨"a".toUTF8, ofBytesUnanchored "a*".toUTF8, .start 0⟩] }
    (gsubCall replacing).run setting {} = .ok values { allocated := 27 }
      ∧ (gmatchCall iterating).run setting {} = .ok iterator begun
      ∧ (∃ first second : Turn 0, Follow 0 begun.walks[0]? [first, second]
        ∧ first.values = #[.string "a".toUTF8] ∧ second.values = #[])
      ∧ ∃ (found : List Match) (id : Nat),
        Replaces setting replacing {} "a".toUTF8 (ofBytes "a*".toUTF8) found values
        ∧ iterator = #[.builtin (.matches id)]
        ∧ WalkMeets id begun.walks[id]? "a".toUTF8 (ofBytes "a*".toUTF8) found
        ∧ Successive "a".toUTF8 (ofBytes "a*".toUTF8) (.start 0) found
        ∧ (found.Pairwise fun first later =>
          first.start ≤ later.start ∧ first.stop < later.stop ∧ first.stop ≤ later.start)
        ∧ found.length ≤ "a".toUTF8.size + 1 := by
  intro call replacing iterating setting values iterator begun
  have hsubject (m : Machine) (hm : m.journal.deadlinePassed = false) :
      (subjectOf "a".toUTF8).run setting m = .ok ⟨"a".toUTF8, .never⟩ m := by
    rw [run_subjectOf, hm]
    rfl
  have hreplaced :
      replaceAll ⟨"a".toUTF8, .never⟩ "a*".toUTF8 (.ofText "a".toUTF8 "<%0>".toUTF8) none 100
        = .ok ⟨"<a>".toUTF8, 1, true⟩ := by
    cbv
  have hgsub : (gsubCall replacing).run setting {} = .ok values { allocated := 27 } := by
    rw [run_gsubCall_of_text (c := replacing) rfl rfl rfl rfl (hsubject {} rfl) hreplaced,
      if_pos rfl, ScriptM.run_bind, run_newString rfl]
    exact ScriptM.run_pure ..
  have hc' : iterating.Searches "a".toUTF8 "a*".toUTF8 none := ⟨rfl, rfl, rfl⟩
  have hgmatch : (gmatchCall iterating).run setting {} = .ok iterator begun := by
    rw [gmatchCall, searchArguments_eq hc', pure_bind]
    simp only [ScriptM.run_bind, ScriptM.run_get, ScriptM.run_modify, ScriptM.run_pure]
    rfl
  have hfirst : ((Cursor.start 0).next ⟨"a".toUTF8, .never⟩ (ofBytesUnanchored "a*".toUTF8)).run 0
      = .ok ((some ⟨0, 1, []⟩, .past ⟨0, 1, []⟩), 3) := by
    cbv
  have hsecond : ((Cursor.past ⟨0, 1, []⟩).next ⟨"a".toUTF8, .never⟩
      (ofBytesUnanchored "a*".toUTF8)).run 0 = .ok ((none, ⟨2, some 1⟩), 2) := by
    cbv
  have hwhole : (⟨0, 1, []⟩ : Match).valuesOrWhole "a".toUTF8 = .ok [.text "a".toUTF8] := by
    cbv
  let met : Machine :=
    { steps := 3, allocated := 25
      walks := #[⟨"a".toUTF8, ofBytesUnanchored "a*".toUTF8, .past ⟨0, 1, []⟩⟩] }
  let ended : Machine :=
    { steps := 5, allocated := 25
      walks := #[⟨"a".toUTF8, ofBytesUnanchored "a*".toUTF8, ⟨2, some 1⟩⟩] }
  have hmet : (nextMatch 0).run setting begun = .ok #[.string "a".toUTF8] met := by
    have hwalk : begun.walks[0]?
        = some ⟨"a".toUTF8, ofBytesUnanchored "a*".toUTF8, .start 0⟩ := rfl
    rw [run_nextMatch hwalk (hsubject begun rfl) hfirst, Option.elim_some]
    simp only [hwhole, searched, pure_bind, ofCaptures, List.mapM_cons, List.mapM_nil, ofCaptured,
      ScriptM.run_bind]
    rw [run_newString rfl]
    simp only [ScriptM.run_pure]
    rfl
  have hended : (nextMatch 0).run setting met = .ok #[] ended := by
    have hwalk : met.walks[0]?
        = some ⟨"a".toUTF8, ofBytesUnanchored "a*".toUTF8, .past ⟨0, 1, []⟩⟩ := rfl
    rw [run_nextMatch hwalk (hsubject met rfl) hsecond, Option.elim_none]
    exact ScriptM.run_pure ..
  exact ⟨hgsub, hgmatch, ⟨⟨_, _, _, _, hmet⟩, ⟨_, _, _, _, hended⟩, ⟨rfl, rfl, trivial⟩, rfl, rfl⟩,
    gmatch_meets_what_gsub_replaces rfl rfl rfl hc' (by decide) hgsub hgmatch⟩

end Both

end LedgerReports.Script
