import LedgerReports.Proofs.Pattern.PlainErrors
import LedgerReports.Proofs.Script.Results
import LedgerReports.Script.Run

/-!
# Steps of a late run

A run is late when its deadline has expired before it begins. Two runs are
compared here, one that is late and one that has no deadline, step by step and
from the same machine. A step that does not look at the deadline does the same
in both (`Timeless`). A step that does look at it does the same or is stopped,
which is that it raises the error of the deadline (`MayStop`); being stopped goes
through what comes after a step, and also through the host, which raises the
error again as it is (`mayStop_throughHost`).

Whether a step may be stopped at all depends on the functions that it calls. So
a parameter says whether these may be: a call by the machine is stopped whenever
it is late (`mayStop_callAt`), and if no call looks at the deadline then no step
here does, except for the searches.
-/

namespace LedgerReports.Script

open Pattern (PlainError)

/-! ## Being stopped -/

/-- The conditions of a run that is late from the start. -/
def Setting.late (setting : Setting) : Setting := { setting with deadline := .expired }

/-- The conditions of a run that has no deadline. -/
def Setting.untimed (setting : Setting) : Setting := { setting with deadline := .never }

/-- **A step is stopped**: it raises the error that the deadline has been exceeded. -/
def Stopped {α : Type} (r : Outcome α) : Prop :=
  ∃ id m, r = .error (.object id (.failure .deadline)) m

/-- **A step has nothing to do with the deadline**: late or not, it does the same, and does not
raise the error of the deadline. -/
def Timeless {α : Type} (setting : Setting) (x : ScriptM α) : Prop :=
  ∀ m, x.run setting.late m = x.run setting.untimed m ∧ ¬ Stopped (x.run setting.untimed m)

/-- **A step does the same when it is late, or it is stopped**, if that is allowed. -/
def MayStop {α : Type} (allowed : Prop) (setting : Setting) (x : ScriptM α) : Prop :=
  ∀ m, x.run setting.late m = x.run setting.untimed m ∨ allowed ∧ Stopped (x.run setting.late m)

section Rules

variable {α β : Type} {allowed : Prop} {setting : Setting} {x : ScriptM α} {f : α → ScriptM β}

theorem not_stopped_ok (a : α) (m : Machine) : ¬ Stopped (.ok a m : Outcome α) := by
  rintro ⟨id, m', h⟩
  cases h

theorem not_stopped_error {v : Value} (hv : ∀ id, v ≠ .object id (.failure .deadline))
    (m : Machine) : ¬ Stopped (.error v m : Outcome α) := by
  rintro ⟨id, m', h⟩
  cases h
  exact hv id rfl

/-- Whether an error stops a step does not depend on what the step would have given. -/
theorem not_stopped_of_error {v : Value} {m : Machine} (h : ¬ Stopped (.error v m : Outcome α)) :
    ¬ Stopped (.error v m : Outcome β) := by
  refine not_stopped_error (fun id hv => h ?_) m
  rw [hv]
  exact ⟨id, m, rfl⟩

/-- What comes after a step that is stopped is stopped. -/
theorem Stopped.bind {m : Machine} (h : Stopped (x.run setting m)) (f : α → ScriptM β) :
    Stopped ((x >>= f).run setting m) := by
  obtain ⟨id, m', h⟩ := h
  rw [ScriptM.run_bind, h]
  exact ⟨id, m', rfl⟩

theorem timeless_pure (a : α) : Timeless setting (pure a : ScriptM α) := by
  intro m
  rw [ScriptM.run_pure, ScriptM.run_pure]
  exact ⟨rfl, not_stopped_ok a m⟩

theorem timeless_throw {v : Value} (hv : ∀ id, v ≠ .object id (.failure .deadline)) :
    Timeless setting (throw v : ScriptM α) := by
  intro m
  rw [ScriptM.run_throw, ScriptM.run_throw]
  exact ⟨rfl, not_stopped_error hv m⟩

theorem timeless_get : Timeless setting (getThe Machine) := by
  intro m
  rw [ScriptM.run_get, ScriptM.run_get]
  exact ⟨rfl, not_stopped_ok m m⟩

theorem timeless_modify (g : Machine → Machine) : Timeless setting (modifyThe Machine g) := by
  intro m
  rw [ScriptM.run_modify, ScriptM.run_modify]
  exact ⟨rfl, not_stopped_ok _ _⟩

theorem Timeless.bind (hx : Timeless setting x) (hf : ∀ a, Timeless setting (f a)) :
    Timeless setting (x >>= f) := by
  intro m
  obtain ⟨hsame, hnot⟩ := hx m
  rw [ScriptM.run_bind, ScriptM.run_bind, hsame]
  cases hrun : x.run setting.untimed m with
  | ok a m₁ => exact hf a m₁
  | error v m₁ => exact ⟨rfl, not_stopped_of_error (hrun ▸ hnot)⟩

theorem Timeless.mayStop (h : Timeless setting x) : MayStop allowed setting x :=
  fun m => .inl (h m).1

theorem MayStop.bind (hx : MayStop allowed setting x) (hf : ∀ a, MayStop allowed setting (f a)) :
    MayStop allowed setting (x >>= f) := by
  intro m
  rcases hx m with hsame | ⟨hallowed, hstopped⟩
  · rw [ScriptM.run_bind, ScriptM.run_bind, hsame]
    cases x.run setting.untimed m with
    | ok a m₁ => exact hf a m₁
    | error v m₁ => exact .inl rfl
  · exact .inr ⟨hallowed, hstopped.bind f⟩

end Rules

/-! ## Errors -/

section Errors

variable {α : Type} {allowed : Prop} {setting : Setting}

/-- The object that stands for an error of the host. -/
theorem run_raiseHost (e : HostError) (setting : Setting) (m : Machine) :
    (raiseHost e : ScriptM α).run setting m
      = .error (.object m.nextId (.failure e)) { m with nextId := m.nextId + 1 } := by
  simp only [raiseHost, newObject, newId, ScriptM.run_bind, ScriptM.run_get, ScriptM.run_modify,
    ScriptM.run_pure, ScriptM.run_throw]

theorem timeless_raiseHost {e : HostError} (he : e ≠ .deadline) :
    Timeless setting (raiseHost e : ScriptM α) := by
  intro m
  rw [run_raiseHost, run_raiseHost]
  refine ⟨rfl, not_stopped_error (fun id h => he ?_) _⟩
  injection h with _ h
  injection h

theorem stopped_raiseHost (setting : Setting) (m : Machine) :
    Stopped ((raiseHost .deadline : ScriptM α).run setting m) := by
  rw [run_raiseHost]
  exact ⟨_, _, rfl⟩

theorem mayStop_raiseHost (e : HostError) :
    MayStop allowed setting (raiseHost e : ScriptM α) := by
  intro m
  rw [run_raiseHost, run_raiseHost]
  exact .inl rfl

theorem timeless_raiseText (text : String) :
    Timeless setting (raiseText text : ScriptM α) :=
  timeless_throw nofun

/-- An error about an argument is not about the deadline. -/
theorem timeless_read (c : Call) (i : Nat) (convert : Value → Except HostError α) :
    Timeless setting (c.read i convert) := by
  unfold Call.read
  split
  · exact timeless_pure _
  · exact timeless_raiseHost nofun

theorem timeless_searched {x : Except Pattern.Error α} (hx : PlainError x) :
    Timeless setting (searched x) := by
  cases x with
  | ok a => exact timeless_pure a
  | error e =>
    have he : e ≠ .deadlineExceeded := fun he => hx (congrArg Except.error he)
    rw [searched, raisePattern, if_neg he]
    exact timeless_raiseHost fun h => Pattern.message_ne_of_ne he (HostError.runtime.inj h)

end Errors

/-! ## Values -/

section Values

variable {setting : Setting}

/-- Memory is asked for whatever the deadline is. -/
theorem timeless_newString (bytes : ByteArray) : Timeless setting (newString bytes) := by
  have hwithin (limit : Nat) : Timeless setting (do
      if 0 < limit ∧ limit < bytes.size + 24 then raiseText outOfMemory
      modifyThe Machine fun m => { m with allocated := m.allocated + (bytes.size + 24) }) := by
    split
    · exact (timeless_raiseText _).bind fun _ => timeless_modify _
    · exact timeless_modify _
  have hallocate : Timeless setting (allocate (bytes.size + 24)) := by
    intro m
    unfold allocate
    rw [ScriptM.run_bind, ScriptM.run_bind, ScriptM.run_read, ScriptM.run_read]
    exact hwithin setting.memoryLimit m
  exact hallocate.bind fun _ => timeless_pure _

theorem timeless_ofCaptured (captured : Pattern.Captured) :
    Timeless setting (ofCaptured captured) := by
  cases captured with
  | text bytes => exact timeless_newString bytes
  | position index => exact timeless_pure _

theorem timeless_ofCaptures (captures : List Pattern.Captured) :
    Timeless setting (ofCaptures captures) := by
  have hvalues : Timeless setting (captures.mapM ofCaptured) := by
    induction captures with
    | nil => exact timeless_pure []
    | cons captured captures ih =>
      rw [List.mapM_cons]
      exact (timeless_ofCaptured captured).bind fun _ => ih.bind fun _ => timeless_pure _
  exact hvalues.bind fun _ => timeless_pure _

theorem timeless_getTable (id : Nat) : Timeless setting (getTable id) :=
  timeless_get.bind fun _ => timeless_pure _

theorem timeless_metamethod (v : Value) (event : String) :
    Timeless setting (metamethod v event) := by
  have hmetatable (v : Value) : Timeless setting (metatable? v) := by
    unfold metatable?
    split
    · exact (timeless_getTable _).bind fun _ => timeless_pure _
    · exact timeless_pure _
    · exact timeless_pure _
  unfold metamethod
  split
  · split <;> exact timeless_pure _
  · refine (hmetatable _).bind fun id? => ?_
    split
    · exact (timeless_getTable _).bind fun _ => timeless_pure _
    · exact timeless_pure _

theorem timeless_shownTypeName (v : Value) : Timeless setting (shownTypeName v) := by
  unfold shownTypeName
  split
  · exact timeless_pure _
  · refine (timeless_metamethod _ _).bind fun name => ?_
    split <;> exact timeless_pure _
  · exact timeless_pure _

theorem timeless_raiseType {α : Type} (actor : Actor) (operation : String) (v : Value)
    (origin : Option Origin) :
    Timeless setting (actor.raiseType operation v origin : ScriptM α) :=
  (timeless_shownTypeName v).bind fun _ => timeless_raiseText _

end Values

/-! ## Calls -/

/-- An actor whose calls do the same when they are late, or are stopped, if that is allowed. -/
def Actor.MayStop (allowed : Prop) (setting : Setting) (actor : Actor) : Prop :=
  ∀ f args, Script.MayStop allowed setting (actor.call f args)

section Calls

variable {allowed : Prop} {setting : Setting} {actor : Actor}

theorem Actor.MayStop.callForOne (h : actor.MayStop allowed setting) (f : Value)
    (args : Array Value) : Script.MayStop allowed setting (actor.callForOne f args) :=
  (h f args).bind fun _ => (timeless_pure _).mayStop

/-- An access goes through tables until it comes to a function. -/
theorem Actor.MayStop.index (h : actor.MayStop allowed setting) (v key : Value)
    (origin : Option Origin) : Script.MayStop allowed setting (actor.index v key origin) := by
  unfold Actor.index
  generalize Actor.maxChain = n
  induction n generalizing v origin with
  | zero => exact (timeless_raiseText _).mayStop
  | succ n ih =>
    unfold Actor.index.go
    split
    · refine (timeless_getTable _).mayStop.bind fun t => ?_
      split
      · split
        · exact (timeless_pure _).mayStop
        · refine (timeless_getTable _).mayStop.bind fun table => ?_
          split
          · exact (timeless_pure _).mayStop
          · split
            · exact h.callForOne _ _
            · exact ih _ _
      · exact (timeless_pure _).mayStop
    · refine (timeless_metamethod _ _).mayStop.bind fun handler => ?_
      split
      · exact (timeless_raiseType _ _ _ _).mayStop
      · split
        · exact h.callForOne _ _
        · exact ih _ _

theorem Actor.MayStop.text? (h : actor.MayStop allowed setting) (v : Value) :
    Script.MayStop allowed setting (actor.text? v) := by
  unfold Actor.text?
  refine (timeless_metamethod _ _).mayStop.bind fun handler => ?_
  split
  · split
    case h_6 => exact (timeless_shownTypeName _).mayStop.bind fun _ => (timeless_pure _).mayStop
    all_goals exact (timeless_pure _).mayStop
  · exact (h.callForOne _ _).bind fun _ => (timeless_pure _).mayStop

variable {c : Call} {α : Type} {x : ScriptM α}

theorem mayStop_ofRaised (h : c.actor.MayStop allowed setting) (e : Value) :
    MayStop allowed setting (HostError.ofRaised c e) := by
  unfold HostError.ofRaised
  split
  · exact (timeless_pure _).mayStop
  · exact (h.text? _).bind fun _ => (timeless_pure _).mayStop

/-- **What is stopped on behalf of the host is stopped**: the error of the deadline is an error of
the host, which is raised again as it is. -/
theorem mayStop_throughHost (h : c.actor.MayStop allowed setting)
    (hx : MayStop allowed setting x) : MayStop allowed setting (c.throughHost x) := by
  intro m
  unfold Call.throughHost
  rw [ScriptM.run_tryCatch, ScriptM.run_tryCatch]
  rcases hx m with hsame | ⟨hallowed, id, m', hstopped⟩
  · rw [hsame]
    cases x.run setting.untimed m with
    | ok a m₁ => exact .inl rfl
    | error e m₁ => exact (mayStop_ofRaised h e).bind (fun cause => mayStop_raiseHost cause) m₁
  · refine .inr ⟨hallowed, ?_⟩
    rw [hstopped]
    dsimp only [HostError.ofRaised]
    rw [pure_bind]
    exact stopped_raiseHost _ m'

/-- Being late is noticed by a call of the machine before anything else. -/
theorem stopped_checkDeadline (setting : Setting) (m : Machine) :
    Stopped (checkDeadline.run setting.late m) := by
  obtain ⟨m', hlate⟩ : ∃ m', isLate.run setting.late m = .ok true m' := by
    have hpassed : setting.late.deadline.passed m.steps = true := Deadline.passed_expired _
    rw [isLate, ScriptM.run_bind, ScriptM.run_get]
    dsimp only
    split
    · exact ⟨m, ScriptM.run_pure ..⟩
    · rw [ScriptM.run_bind, ScriptM.run_read]
      dsimp only
      rw [if_pos hpassed, ScriptM.run_bind, run_noteDeadline]
      exact ⟨_, ScriptM.run_pure ..⟩
  rw [checkDeadline, ScriptM.run_bind, hlate]
  exact stopped_raiseHost _ m'

/-- **A call of the machine is stopped whenever it is late**, or it fails for lack of room. -/
theorem mayStop_callAt (nesting : Nat) (stack : Stack) (f : Value) (args : Array Value) :
    MayStop True setting (callAt nesting stack f args) := by
  cases nesting with
  | zero => exact (timeless_raiseText _).mayStop
  | succ nesting =>
    intro m
    rw [callAt]
    exact .inr ⟨trivial, (stopped_checkDeadline setting m).bind _⟩

/-- A call that is not timed does the same. -/
theorem mayStop_untimed (x : ScriptM α) :
    MayStop allowed setting (withReader Setting.untimed x) := by
  intro m
  rw [ScriptM.run_withReader, ScriptM.run_withReader]
  exact .inl rfl

end Calls

/-! ## Searches in a script -/

section Searches

variable {α : Type} {allowed : Prop} {setting : Setting}

/-- A search that is stopped raises the error of the deadline, once it has been noted why. -/
theorem run_searched_deadlineExceeded (setting : Setting) (m : Machine) :
    (searched (.error .deadlineExceeded) : ScriptM α).run setting m
      = (raiseHost .deadline : ScriptM α).run setting (if m.journal.deadlinePassed then m
          else { m with journal := .deadlinePassed :: m.journal }) := by
  rw [searched, raisePattern, if_pos rfl, ScriptM.run_bind, ScriptM.run_get]
  dsimp only
  split
  · rw [ScriptM.run_bind, run_raiseHost, run_raiseHost]
  · rw [ScriptM.run_bind, run_noteDeadline]
    dsimp only
    rw [ScriptM.run_bind, run_raiseHost, run_raiseHost]

theorem stopped_searched (setting : Setting) (m : Machine) :
    Stopped ((searched (.error .deadlineExceeded) : ScriptM α).run setting m) := by
  rw [run_searched_deadlineExceeded]
  exact stopped_raiseHost ..

/-- The result of a search is taken over whatever the deadline is. -/
theorem mayStop_searched (x : Except Pattern.Error α) : MayStop allowed setting (searched x) := by
  by_cases hx : PlainError x
  · exact (timeless_searched hx).mayStop
  · intro m
    have hx : x = .error .deadlineExceeded := Classical.not_not.mp hx
    rw [hx, run_searched_deadlineExceeded, run_searched_deadlineExceeded]
    exact mayStop_raiseHost _ _

theorem mayStop_replacementOf (v : Value) : MayStop allowed setting (replacementOf v) := by
  unfold replacementOf
  split
  · exact (timeless_pure _).mayStop
  · exact (timeless_pure _).mayStop
  · split
    · exact (timeless_pure _).mayStop
    · exact mayStop_raiseHost _

end Searches

end LedgerReports.Script
