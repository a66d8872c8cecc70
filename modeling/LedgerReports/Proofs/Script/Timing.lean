import LedgerReports.Proofs.Script.LateReplacing

/-!
# The deadline and the answers of a search

A deadline never changes an answer. Whatever a script searches for, and however
the search is called, with a deadline that has expired it gives what it would
give without one, or the error that the deadline has been exceeded; and it is
known from the search without a deadline which of the two it is
(`deadline_only_stops`).

For what a match is replaced with a script may call functions of its own. These
may look at the deadline too, and the machine does so whenever it calls one; a
replacing that is stopped for this reason has not come to the end of an interval.
-/

namespace LedgerReports.Script

open Pattern

/-- **A deadline only stops the searches of a script**, under some conditions and on a machine. -/
structure DeadlineOnlyStops (setting : Setting) (m : Machine) : Prop where
  /-- Finding the first match: as a plain text, if there is something to be compared, and by way of
  the items of the pattern, if the search needs the steps of an interval. -/
  find : ∀ c, StopsExactly (FindStops c) ((findCall c).run setting.late m)
    ((findCall c).run setting.untimed m)
  /-- The captures of the first match. -/
  captures : ∀ c, StopsExactly (MatchStops c) ((matchCall c).run setting.late m)
    ((matchCall c).run setting.untimed m)
  /-- Each step of a walk, with a count of its own. -/
  next : ∀ id, StopsExactly (NextStops m id) ((nextMatch id).run setting.late m)
    ((nextMatch id).run setting.untimed m)
  /-- Replacing the matches by a text, with one count for all searches. -/
  replaceText : ∀ c text, (c.arg 2).toBytes? = some text →
    StopsExactly (GsubStops c setting m) ((gsubCall c).run setting.late m)
      ((gsubCall c).run setting.untimed m)
  /-- Replacing the matches in any way. The functions that are called do the same when they are
  late, or are stopped if that is allowed; if it is not, nothing but the count stops the
  replacing. -/
  replace : ∀ (c : Call) allowed, c.actor.MayStop allowed setting →
    ((gsubCall c).run setting.late m = (gsubCall c).run setting.untimed m
      ∨ Stopped ((gsubCall c).run setting.late m))
    ∧ StopsIf allowed (GsubStops c setting m) ((gsubCall c).run setting.late m)
      ((gsubCall c).run setting.untimed m)
  /-- Calls by the machine are stopped when they are late. -/
  timedCalls : ∀ (c : Call) nesting, c.callWith = callAt nesting → c.actor.MayStop True setting
  /-- Calls that are not timed are not stopped. -/
  untimedCalls : ∀ (c : Call) nesting,
    (c.callWith = fun stack f args => withReader Setting.untimed (callAt nesting stack f args)) →
      c.actor.MayStop False setting
  /-- The steps that count are those that the searches make. -/
  counts : ∀ bytes text, CountsSteps bytes text
  /-- A late replacing makes no more steps than those of an interval. -/
  replace_le : ∀ bytes text rep limit? maxLength,
    replaceAllSteps setting.late .expired bytes text rep limit? maxLength m ≤ pollInterval

/-- **A deadline never changes an answer.** A search that begins when the deadline has expired gives
what it gives without a deadline, or is stopped, and is stopped exactly if without a deadline it
needs the steps of an interval, or, for a plain text, if there is a text and room for it. -/
theorem deadline_only_stops (setting : Setting) {m : Machine}
    (hm : m.journal.deadlinePassed = false) (hwalks : m.WalksRead) :
    DeadlineOnlyStops setting m where
  find c := stopsExactly_findCall c hm
  captures c := stopsExactly_matchCall c hm
  next id := stopsExactly_nextMatch id hm hwalks
  replaceText c text htext := stopsExactly_gsubCall htext hm
  replace c allowed hcalls :=
    have h := stopsIf_gsubCall hcalls hm
    ⟨h.answer, h⟩
  timedCalls c nesting hcall f args := by
    show MayStop True setting (c.callWith _ f args)
    rw [hcall]
    exact mayStop_callAt nesting _ f args
  untimedCalls c nesting hcall f args := by
    show MayStop False setting (c.callWith _ f args)
    rw [hcall]
    exact mayStop_untimed _
  counts := countsSteps
  replace_le bytes text rep limit? maxLength :=
    replacingSteps_expired_le (plainErrors_ofBytes text) _ poll_pos

/-- A walk through the letters of `abc` is begun. Then a late search for `b` as a plain text is
stopped, and one for `abcd`, for which there is no room in `abc`, is not. -/
theorem deadline_only_stops_find :
    let setting : Setting := { ledger := ({} : Store).view default }
    let call (function : StringFunction) (text : String) : Call :=
      { function := .string function
        args := #[.string "abc".toUTF8, .string text.toUTF8, .nil, .bool true]
        stack := .bottom, origin := none, callWith := callAt maxNesting }
    let m : Machine := Outcome.machine ((gmatchCall (call .gmatch "%a")).run setting {})
    m.journal.deadlinePassed = false ∧ m.WalksRead ∧ DeadlineOnlyStops setting m
      ∧ Stopped ((findCall (call .find "b")).run setting.late m)
      ∧ ¬ Stopped ((findCall (call .find "abcd")).run setting.late m) := by
  intro setting call m
  have hsearches (function : StringFunction) (text : String) :
      (call function text).Searches "abc".toUTF8 text.toUTF8 none :=
    ⟨rfl, rfl, rfl⟩
  have hm : m.journal.deadlinePassed = false := by
    have hargs := searchArguments_eq (hsearches .gmatch "%a")
    simp only [m, gmatchCall, hargs, pure_bind, ScriptM.run_bind, ScriptM.run_get,
      ScriptM.run_modify, ScriptM.run_pure]
    rfl
  have hwalks : m.WalksRead := keepsWalks_gmatchCall (call .gmatch "%a") {} nofun
  have h := deadline_only_stops setting hm hwalks
  refine ⟨hm, hwalks, h, ?_, ?_⟩
  · rw [(h.find _).stopped_iff]
    exact ⟨_, _, _, hsearches .find "b", by decide⟩
  · rw [(h.find _).stopped_iff]
    rintro ⟨bytes, pattern, start, hargs, hstops⟩
    obtain ⟨rfl, rfl, rfl⟩ := (hsearches .find "abcd").eq hargs
    revert hstops
    decide

end LedgerReports.Script
