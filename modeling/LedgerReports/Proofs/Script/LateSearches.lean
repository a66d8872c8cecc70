import LedgerReports.Proofs.Pattern.Late
import LedgerReports.Proofs.Script.Lateness
import LedgerReports.Proofs.Script.Walks
import Mathlib

/-!
# Searches of a late run

The functions of a script that search by pattern are compared with themselves in
a late run. Each gives in the late run what it gives without a deadline, or it is
stopped, and what decides is the number of steps that its search makes without a
deadline.

Here are the functions that make one search, `find`, `match` and the step of a
walk over the matches. For them all is read off the search
(`stopsExactly_runSearch`).
-/

namespace LedgerReports.Script

open Pattern

/-! ## Stopping at the right time -/

/-- **What becomes of a step that is late**, next to what becomes of it without a deadline: if
`stops` holds it is stopped, and otherwise it does the same, unless it may be stopped for another
reason. -/
structure StopsIf {α : Type} (allowed stops : Prop) (late untimed : Outcome α) : Prop where
  /-- The step is stopped. -/
  stopped : stops → Stopped late
  /-- The step does the same. -/
  same : ¬ stops → late = untimed ∨ allowed ∧ Stopped late

/-- **A step that is late is stopped exactly if** `stops` holds. -/
structure StopsExactly {α : Type} (stops : Prop) (late untimed : Outcome α) : Prop where
  /-- The step does the same or is stopped. -/
  answer : late = untimed ∨ Stopped late
  /-- What decides which of the two it is. -/
  stopped_iff : Stopped late ↔ stops
  /-- Without a deadline the step is not stopped. -/
  untimed : ¬ Stopped untimed

section Rules

variable {α β : Type} {allowed stops stops' : Prop} {setting : Setting} {m : Machine}
variable {late untimed : Outcome α}

theorem StopsIf.answer (h : StopsIf allowed stops late untimed) :
    late = untimed ∨ Stopped late := by
  by_cases hstops : stops
  · exact .inr (h.stopped hstops)
  · exact (h.same hstops).imp_right And.right

/-- If nothing else stops the step, and nothing stops it without a deadline, it is known when it is
stopped. -/
theorem StopsIf.exactly (h : StopsIf False stops late untimed) (hnot : ¬ Stopped untimed) :
    StopsExactly stops late untimed where
  answer := h.answer
  stopped_iff := by
    refine ⟨fun hstopped => ?_, h.stopped⟩
    by_contra hstops
    have hsame := (h.same hstops).resolve_right And.left
    exact hnot (hsame ▸ hstopped)
  untimed := hnot

theorem StopsExactly.stopsIf (h : StopsExactly stops late untimed) :
    StopsIf allowed stops late untimed where
  stopped := h.stopped_iff.mpr
  same hstops := .inl (h.answer.resolve_right fun hstopped => hstops (h.stopped_iff.mp hstopped))

theorem StopsIf.congr (h : StopsIf allowed stops late untimed) (hiff : stops ↔ stops') :
    StopsIf allowed stops' late untimed :=
  propext hiff ▸ h

theorem StopsExactly.congr (h : StopsExactly stops late untimed) (hiff : stops ↔ stops') :
    StopsExactly stops' late untimed :=
  propext hiff ▸ h

variable {x x₀ : ScriptM α} {f f₀ : α → ScriptM β}

/-- A part that may be stopped, and then the part that decides. -/
theorem StopsIf.of_bind
    (hx : x.run setting.late m = x₀.run setting.untimed m
      ∨ allowed ∧ Stopped (x.run setting.late m))
    (hok : ∀ a m₁, x₀.run setting.untimed m = .ok a m₁ →
      StopsIf allowed stops ((f a).run setting.late m₁) ((f₀ a).run setting.untimed m₁))
    (herror : ∀ v m₁, x₀.run setting.untimed m = .error v m₁ → ¬ stops) :
    StopsIf allowed stops ((x >>= f).run setting.late m) ((x₀ >>= f₀).run setting.untimed m) := by
  rcases hx with hsame | ⟨hallowed, hstopped⟩
  · rw [ScriptM.run_bind, ScriptM.run_bind, hsame]
    cases hrun : x₀.run setting.untimed m with
    | ok a m₁ => exact hok a m₁ hrun
    | error v m₁ => exact ⟨fun hstops => absurd hstops (herror v m₁ hrun), fun _ => .inl rfl⟩
  · have hafter := hstopped.bind f
    exact ⟨fun _ => hafter, fun _ => .inr ⟨hallowed, hafter⟩⟩

/-- The part that decides, and then a part that may be stopped. -/
theorem StopsIf.bind
    (h : StopsIf allowed stops (x.run setting.late m) (x₀.run setting.untimed m))
    (hf : ∀ a, MayStop allowed setting (f a)) :
    StopsIf allowed stops ((x >>= f).run setting.late m) ((x₀ >>= f).run setting.untimed m) where
  stopped hstops := (h.stopped hstops).bind f
  same hstops := by
    rcases h.same hstops with hsame | ⟨hallowed, hstopped⟩
    · rw [ScriptM.run_bind, ScriptM.run_bind, hsame]
      cases x₀.run setting.untimed m with
      | ok a m₁ => exact hf a m₁
      | error v m₁ => exact .inl rfl
    · exact .inr ⟨hallowed, hstopped.bind f⟩

theorem StopsExactly.bind
    (h : StopsExactly stops (x.run setting.late m) (x₀.run setting.untimed m))
    (hf : ∀ a, Timeless setting (f a)) :
    StopsExactly stops ((x >>= f).run setting.late m) ((x₀ >>= f).run setting.untimed m) := by
  refine (h.stopsIf.bind fun a => (hf a).mayStop).exactly ?_
  have hnot := h.untimed
  rw [ScriptM.run_bind]
  cases hrun : x₀.run setting.untimed m with
  | ok a m₁ => exact (hf a m₁).2
  | error v m₁ => exact not_stopped_of_error (hrun ▸ hnot)

theorem Timeless.stopsIf (h : Timeless setting x) (hstops : ¬ stops) (m : Machine) :
    StopsIf allowed stops (x.run setting.late m) (x.run setting.untimed m) where
  stopped h := absurd h hstops
  same _ := .inl (h m).1

theorem Timeless.stopsExactly (h : Timeless setting x) (hstops : ¬ stops) (m : Machine) :
    StopsExactly stops (x.run setting.late m) (x.run setting.untimed m) :=
  (h.stopsIf hstops m).exactly (h m).2

end Rules

/-! ## One search -/

section Search

variable {α : Type} {stops : Prop} {setting : Setting}

/-- **A search in a script is stopped exactly if the search is.** -/
theorem stopsExactly_runSearch {search search₀ : Pattern.SearchM α}
    (h : Pattern.StopsIf stops (search.run 0) (search₀.run 0)) (m : Machine) :
    StopsExactly stops ((runSearch search).run setting.late m)
      ((runSearch search₀).run setting.untimed m) := by
  have hsearched : StopsExactly stops ((searched (search.run 0)).run setting.late m)
      ((searched (search₀.run 0)).run setting.untimed m) := by
    refine StopsIf.exactly ⟨fun hstops => ?_, fun hstops => ?_⟩ (timeless_searched h.plain m).2
    · rw [h.stopped hstops]
      exact stopped_searched _ m
    · rw [h.same hstops]
      exact .inl (timeless_searched h.plain m).1
  exact hsearched.bind fun _ => (timeless_modify _).bind fun _ => timeless_pure _

variable (bytes : ByteArray) {m : Machine}

theorem run_subjectOf_late (setting : Setting) (m : Machine) :
    (subjectOf bytes).run setting.late m = .ok ⟨bytes, .expired⟩ m := by
  have hremaining : setting.late.deadline.remaining m.steps = .expired :=
    congrArg Deadline.after (Nat.zero_sub _)
  rw [run_subjectOf, hremaining, ite_self]

theorem run_subjectOf_untimed (setting : Setting) (hm : m.journal.deadlinePassed = false) :
    (subjectOf bytes).run setting.untimed m = .ok ⟨bytes, .never⟩ m := by
  rw [run_subjectOf, hm]
  rfl

/-- Something is done with a subject that is late, or has no deadline. -/
theorem stopsExactly_subjectOf {f : Subject → ScriptM α}
    (hm : m.journal.deadlinePassed = false)
    (h : StopsExactly stops ((f ⟨bytes, .expired⟩).run setting.late m)
      ((f ⟨bytes, .never⟩).run setting.untimed m)) :
    StopsExactly stops ((subjectOf bytes >>= f).run setting.late m)
      ((subjectOf bytes >>= f).run setting.untimed m) := by
  rw [ScriptM.run_bind, ScriptM.run_bind, run_subjectOf_late, run_subjectOf_untimed bytes _ hm]
  exact h

end Search

/-! ## Finding and iterating -/

/-- What a call searches, for what, and from where. -/
structure Call.Searches (c : Call) (bytes pattern : ByteArray) (start : Option Int) : Prop where
  /-- The first argument is what is searched. -/
  bytes : Value.asBytes (c.arg 0) = .ok bytes
  /-- The second argument is what is searched for. -/
  pattern : Value.asBytes (c.arg 1) = .ok pattern
  /-- The third argument is the start. -/
  start : Value.asOptional Value.asInt64 (c.arg 2) = .ok start

/-- Whether a late call that finds the first match is stopped. -/
def FindStops (c : Call) : Prop :=
  ∃ bytes pattern start, c.Searches bytes pattern start
    ∧ Pattern.FindStops bytes pattern start (c.arg 3).truthy

/-- Whether a late call that gives the captures of the first match is stopped. -/
def MatchStops (c : Call) : Prop :=
  ∃ bytes pattern start, c.Searches bytes pattern start
    ∧ pollInterval ≤ Metered.steps (Metered.findMatch ⟨bytes, .never⟩ pattern start) 0

/-- Whether a late step of a walk is stopped. -/
def NextStops (m : Machine) (id : Nat) : Prop :=
  ∃ walk, m.walks[id]? = some walk
    ∧ pollInterval ≤ Metered.steps (Metered.next ⟨walk.subject, .never⟩ walk.pattern walk.cursor) 0

section Finding

variable {α : Type} {setting : Setting} {m : Machine} {c : Call}

theorem read_eq_pure {i : Nat} {convert : Value → Except HostError α} {a : α}
    (h : convert (c.arg i) = .ok a) : c.read i convert = pure a := by
  rw [Call.read, h]

theorem searchArguments_eq {bytes pattern : ByteArray} {start : Option Int}
    (h : c.Searches bytes pattern start) : searchArguments c = pure (bytes, pattern, start) := by
  rw [searchArguments, read_eq_pure h.bytes, read_eq_pure h.pattern, read_eq_pure h.start,
    pure_bind, pure_bind, pure_bind]

theorem timeless_searchArguments (c : Call) : Timeless setting (searchArguments c) :=
  (timeless_read _ _ _).bind fun _ => (timeless_read _ _ _).bind fun _ =>
    (timeless_read _ _ _).bind fun _ => timeless_pure _

theorem searches_of_run_eq_ok {a : ByteArray × ByteArray × Option Int} {m' : Machine}
    (h : (searchArguments c).run setting m = .ok a m') : c.Searches a.1 a.2.1 a.2.2 := by
  obtain ⟨bytes, _, hrun, h⟩ := run_bind_eq_ok h
  obtain ⟨hbytes, rfl⟩ := run_read_eq_ok hrun
  obtain ⟨pattern, _, hrun, h⟩ := run_bind_eq_ok h
  obtain ⟨hpattern, rfl⟩ := run_read_eq_ok hrun
  obtain ⟨start, _, hrun, h⟩ := run_bind_eq_ok h
  obtain ⟨hstart, rfl⟩ := run_read_eq_ok hrun
  obtain ⟨rfl, rfl⟩ := run_pure_eq_ok h
  exact ⟨hbytes, hpattern, hstart⟩

/-- A call can search for one thing only. -/
theorem Call.Searches.eq {bytes pattern bytes' pattern' : ByteArray} {start start' : Option Int}
    (h : c.Searches bytes pattern start) (h' : c.Searches bytes' pattern' start') :
    bytes = bytes' ∧ pattern = pattern' ∧ start = start' := by
  cases h.bytes.symm.trans h'.bytes
  cases h.pattern.symm.trans h'.pattern
  cases h.start.symm.trans h'.start
  exact ⟨rfl, rfl, rfl⟩

/-- A call that cannot be understood does not get to a search. -/
theorem stopsExactly_of_searches {stops : ByteArray → ByteArray → Option Int → Prop}
    {f : ByteArray × ByteArray × Option Int → ScriptM α}
    (h : ∀ bytes pattern start, StopsExactly (stops bytes pattern start)
      ((f (bytes, pattern, start)).run setting.late m)
      ((f (bytes, pattern, start)).run setting.untimed m)) :
    StopsExactly (∃ bytes pattern start, c.Searches bytes pattern start ∧ stops bytes pattern start)
      ((searchArguments c >>= f).run setting.late m)
      ((searchArguments c >>= f).run setting.untimed m) := by
  by_cases hargs : ∃ bytes pattern start, c.Searches bytes pattern start
  · obtain ⟨bytes, pattern, start, hargs⟩ := hargs
    rw [searchArguments_eq hargs, pure_bind]
    refine (h bytes pattern start).congr ⟨fun h => ⟨_, _, _, hargs, h⟩, ?_⟩
    rintro ⟨_, _, _, h, hstops⟩
    obtain ⟨rfl, rfl, rfl⟩ := hargs.eq h
    exact hstops
  · have htimeless : Timeless setting (searchArguments c) := timeless_searchArguments c
    obtain ⟨hsame, hnot⟩ := htimeless m
    rw [ScriptM.run_bind, ScriptM.run_bind, hsame]
    cases hrun : (searchArguments c).run setting.untimed m with
    | ok a m₁ => exact (hargs ⟨_, _, _, searches_of_run_eq_ok hrun⟩).elim
    | error v m₁ =>
      refine StopsIf.exactly ⟨?_, fun _ => .inl rfl⟩ (not_stopped_of_error (hrun ▸ hnot))
      rintro ⟨bytes, pattern, start, h, -⟩
      exact (hargs ⟨bytes, pattern, start, h⟩).elim

/-- **Finding the first match.** -/
theorem stopsExactly_findCall (c : Call) (hm : m.journal.deadlinePassed = false) :
    StopsExactly (FindStops c) ((findCall c).run setting.late m)
      ((findCall c).run setting.untimed m) := by
  refine stopsExactly_of_searches fun bytes pattern start => stopsExactly_subjectOf bytes hm ?_
  refine (stopsExactly_runSearch (stopsIf_find bytes pattern start _) m).bind fun found? => ?_
  cases found? with
  | none => exact timeless_pure _
  | some found =>
    refine (timeless_searched (ownError_values bytes found).plain).bind fun captures => ?_
    exact (timeless_ofCaptures captures).bind fun _ => timeless_pure _

/-- **The captures of the first match.** -/
theorem stopsExactly_matchCall (c : Call) (hm : m.journal.deadlinePassed = false) :
    StopsExactly (MatchStops c) ((matchCall c).run setting.late m)
      ((matchCall c).run setting.untimed m) := by
  refine stopsExactly_of_searches fun bytes pattern start => stopsExactly_subjectOf bytes hm ?_
  refine (stopsExactly_runSearch (stopsIf_findMatch bytes pattern start) m).bind fun found? => ?_
  cases found? with
  | none => exact timeless_pure _
  | some found =>
    exact (timeless_searched (ownError_valuesOrWhole bytes found).plain).bind fun captures =>
      timeless_ofCaptures captures

/-- **The next match of a walk.** -/
theorem stopsExactly_nextMatch (id : Nat) (hm : m.journal.deadlinePassed = false)
    (hwalks : m.WalksRead) :
    StopsExactly (NextStops m id) ((nextMatch id).run setting.late m)
      ((nextMatch id).run setting.untimed m) := by
  unfold nextMatch
  rw [ScriptM.run_bind, ScriptM.run_bind, ScriptM.run_get, ScriptM.run_get]
  dsimp only
  cases hwalk : m.walks[id]? with
  | none =>
    refine (timeless_pure _).stopsExactly ?_ m
    rintro ⟨walk, hsome, -⟩
    rw [hwalk] at hsome
    cases hsome
  | some walk =>
    obtain ⟨text, htext⟩ := hwalks walk (Array.mem_of_getElem? hwalk)
    have hplain : PlainErrors walk.pattern.items := htext ▸ plainErrors_ofBytesUnanchored text
    have hsearch : StopsExactly _ ((subjectOf walk.subject >>= fun subject =>
          runSearch (walk.cursor.next subject walk.pattern)).run setting.late m)
        ((subjectOf walk.subject >>= fun subject =>
          runSearch (walk.cursor.next subject walk.pattern)).run setting.untimed m) :=
      stopsExactly_subjectOf walk.subject hm
        (stopsExactly_runSearch (stopsIf_next walk.subject hplain walk.cursor) m)
    dsimp only
    rw [← bind_assoc]
    refine (hsearch.bind ?_).congr ⟨fun h => ⟨walk, hwalk, h⟩, ?_⟩
    · intro found
      refine (timeless_modify _).bind fun _ => ?_
      cases found.1 with
      | none => exact timeless_pure _
      | some found =>
        exact (timeless_searched (ownError_valuesOrWhole _ _).plain).bind fun captures =>
          timeless_ofCaptures captures
    · rintro ⟨walk', hwalk', h⟩
      cases hwalk.symm.trans hwalk'
      exact h

end Finding

end LedgerReports.Script
