import LedgerReports.Script.Run

/-!
# The steps of a run and what is noted of them

A run is made of steps, and a script decides which ones there are and which
errors it catches. `Takes` says that a run, begun somewhere, comes to take a
step somewhere: the step is the run itself, or a part of one of the two parts
that the run was put together from. It says nothing on what becomes of the
step. A function of the host that is called deep inside a protected call in
a metatable's function is a step of the run just as the first one is.

What is noted during a step is there at the end of the run
(`Takes.continues_end`), because no step takes anything out of the journal.
So two facts about the end of a run follow from what is known of a single
step of it: that the deadline was seen to have passed
(`SeesDeadline.deadlinePassed`), and that an answer of the ledger put the host
at fault. The first such answer stays the first (`Takes.firstFault?`).
-/

namespace LedgerReports.Script

variable {α β γ : Type} {setting : Setting}

/-! ## The steps of a run -/

/-- **A run comes to take a step**: `Takes setting x m y m'` says that `x`, begun on
the machine `m`, takes the step `y` on the machine `m'`. -/
inductive Takes (setting : Setting) :
    {α β : Type} → ScriptM α → Machine → ScriptM β → Machine → Prop where
  /-- The step is the run. -/
  | self {α : Type} (x : ScriptM α) (m : Machine) : Takes setting x m x m
  /-- The step is part of the first of two parts. -/
  | first {α β γ : Type} {x : ScriptM α} {f : α → ScriptM γ} {y : ScriptM β} {m m' : Machine}
      (h : Takes setting x m y m') : Takes setting (x >>= f) m y m'
  /-- The step is part of the second of two parts. -/
  | next {α β γ : Type} {x : ScriptM α} {f : α → ScriptM γ} {y : ScriptM β} {a : α}
      {m m₁ m' : Machine} (hx : x.run setting m = .ok a m₁) (h : Takes setting (f a) m₁ y m') :
      Takes setting (x >>= f) m y m'
  /-- The step is part of what is tried. -/
  | tried {α β : Type} {x : ScriptM α} {handle : Value → ScriptM α} {y : ScriptM β}
      {m m' : Machine} (h : Takes setting x m y m') :
      Takes setting (tryCatch x handle) m y m'
  /-- The step is part of what is done about an error. -/
  | caught {α β : Type} {x : ScriptM α} {handle : Value → ScriptM α} {y : ScriptM β} {e : Value}
      {m m₁ m' : Machine} (hx : x.run setting m = .error e m₁)
      (h : Takes setting (handle e) m₁ y m') :
      Takes setting (tryCatch x handle) m y m'

/-- The machine after a step. -/
def ScriptM.after (x : ScriptM α) (setting : Setting) (m : Machine) : Machine :=
  Outcome.machine (x.run setting m)

theorem ScriptM.after_of_ok {x : ScriptM α} {a : α} {m m' : Machine}
    (h : x.run setting m = .ok a m') : x.after setting m = m' := by
  rw [ScriptM.after, h]
  rfl

theorem ScriptM.after_of_error {x : ScriptM α} {v : Value} {m m' : Machine}
    (h : x.run setting m = .error v m') : x.after setting m = m' := by
  rw [ScriptM.after, h]
  rfl

/-- **A step keeps something that holds of the machine**, whatever comes of the step. -/
def ScriptM.Keeps (x : ScriptM α) (setting : Setting) (P : Machine → Prop) : Prop :=
  ∀ m, P m → P (x.after setting m)

/-- What two steps keep is kept by one after the other. -/
theorem ScriptM.Keeps.bind {x : ScriptM α} {f : α → ScriptM β} {P : Machine → Prop}
    (hx : x.Keeps setting P) (hf : ∀ a, (f a).Keeps setting P) : (x >>= f).Keeps setting P := by
  intro m hm
  have hfirst := hx m hm
  rw [ScriptM.after, ScriptM.run_bind]
  cases hrun : x.run setting m with
  | ok a m₁ =>
    rw [ScriptM.after_of_ok hrun] at hfirst
    exact hf a m₁ hfirst
  | error v m₁ =>
    rw [ScriptM.after_of_error hrun] at hfirst
    exact hfirst

namespace Takes

variable {x : ScriptM α} {y : ScriptM β} {z : ScriptM γ} {m m' m'' : Machine}

/-- The steps of a step are steps of the run. -/
theorem trans (h : Takes setting x m y m') (h' : Takes setting y m' z m'') :
    Takes setting x m z m'' := by
  induction h with
  | self => exact h'
  | first _ ih => exact .first (ih h')
  | next hx _ ih => exact .next hx (ih h')
  | tried _ ih => exact .tried (ih h')
  | caught hx _ ih => exact .caught hx (ih h')

/-- **What has been noted after a step of a run has been noted after the run**,
whether the step raised an error or not and whatever was done about it. -/
theorem continues_end (h : Takes setting x m y m') :
    (x.after setting m).journal.Continues setting.ledger (y.after setting m').journal := by
  induction h with
  | self => exact .refl _
  | @first _ _ _ x f _ m _ _ ih =>
    refine .trans ?_ ih
    rw [ScriptM.after, ScriptM.run_bind, ScriptM.after]
    cases x.run setting m with
    | ok a m₁ => exact (f a).continues setting m₁
    | error e m₁ => exact .refl _
  | next hx _ ih =>
    rw [ScriptM.after, ScriptM.run_bind, hx]
    exact ih
  | @tried _ _ x handle _ m _ _ ih =>
    refine .trans ?_ ih
    rw [ScriptM.after, ScriptM.run_tryCatch, ScriptM.after]
    cases x.run setting m with
    | ok a m₁ => exact .refl _
    | error e m₁ => exact (handle e).continues setting m₁
  | caught hx _ ih =>
    rw [ScriptM.after, ScriptM.run_tryCatch, hx]
    exact ih

end Takes

/-! ## What continues a journal -/

namespace Journal

variable {new old : Journal} {ledger : Ledger.View}

theorem Continues.deadlinePassed (h : new.Continues ledger old) (hold : old.deadlinePassed = true) :
    new.deadlinePassed = true := by
  obtain ⟨events, rfl, -⟩ := h
  rw [Journal.deadlinePassed, List.any_append]
  exact Bool.or_eq_true_iff.mpr (.inr hold)

/-- A fault that was noted first stays the first one. -/
theorem Continues.firstFault? (h : new.Continues ledger old) {f : Failure}
    (hold : old.firstFault? = some f) : new.firstFault? = some f := by
  obtain ⟨events, rfl, -⟩ := h
  rw [Journal.firstFault?, List.reverse_append, List.findSome?_append]
  exact Option.or_eq_some_iff.mpr (.inl hold)

/-- What is noted first, in a journal that begins empty, was due. -/
theorem Continues.isFault_of_firstFault? (h : new.Continues ledger []) {f : Failure}
    (hf : new.firstFault? = some f) : f.isFault = true ∧ ledger.Gives f := by
  obtain ⟨events, rfl, hdue⟩ := h
  obtain ⟨e, he, hfault⟩ := List.exists_of_findSome?_eq_some hf
  rw [List.append_nil, List.mem_reverse] at he
  cases e with
  | deadlinePassed => cases hfault
  | fault g =>
    cases hfault
    exact hdue _ he

theorem firstFault?_note {j : Journal} (h : j.firstFault? = none) (f : Failure) :
    Journal.firstFault? (.fault f :: j) = some f := by
  rw [Journal.firstFault?] at h ⊢
  rw [List.reverse_cons, List.findSome?_append, h]
  rfl

end Journal

/-! ## Looks at the deadline -/

/-- A look at the deadline answers what the journal says afterwards. It
leaves the machine alone as long as there is nothing to note. -/
theorem run_isLate (setting : Setting) (m : Machine) :
    ∃ m', isLate.run setting m = .ok m'.journal.deadlinePassed m'
      ∧ (m'.journal.deadlinePassed = false → m' = m) := by
  rw [isLate, ScriptM.run_bind, ScriptM.run_get]
  cases hnoted : m.journal.deadlinePassed with
  | true => exact ⟨m, by simp [hnoted], fun _ => rfl⟩
  | false =>
    simp only [hnoted, Bool.false_eq_true, if_false, ScriptM.run_bind, ScriptM.run_read]
    cases hpassed : setting.deadline.passed m.steps with
    | true =>
      refine ⟨{ m with journal := .deadlinePassed :: m.journal }, ?_, fun h => ?_⟩
      · simp only [if_true, ScriptM.run_bind, run_noteDeadline, ScriptM.run_pure]
        rfl
      · cases h
    | false => exact ⟨m, by simp [hnoted], fun _ => rfl⟩

/-- **A run sees that the deadline has passed**: it looks at it and finds
that it has, or a search that it makes is broken off for it. -/
def SeesDeadline (setting : Setting) (x : ScriptM α) (m : Machine) : Prop :=
  (∃ m' m'', Takes setting x m isLate m' ∧ isLate.run setting m' = .ok true m'')
  ∨ ∃ (β : Type) (m' : Machine),
      Takes setting x m (searched (.error .deadlineExceeded : Except Pattern.Error β)) m'

/-- A search that is broken off for the deadline leaves a note. -/
theorem deadlinePassed_after_searched (m : Machine) :
    ((searched (.error .deadlineExceeded : Except Pattern.Error β)).after setting
      m).journal.deadlinePassed = true := by
  by_cases hnoted : m.journal.deadlinePassed = true
  · exact (ScriptM.continues _ setting m).deadlinePassed hnoted
  · have h : Takes setting (searched (.error .deadlineExceeded : Except Pattern.Error β)) m
        noteDeadline m := by
      rw [searched, raisePattern, if_pos rfl]
      refine .next (ScriptM.run_get setting m) ?_
      dsimp only
      rw [if_neg hnoted]
      exact .first (.self _ m)
    refine h.continues_end.deadlinePassed ?_
    rw [ScriptM.after, run_noteDeadline]
    rfl

variable {x : ScriptM α} {m m' : Machine}

/-- **That the deadline has passed is known at the end of a run that has seen
it**, however it went on. -/
theorem SeesDeadline.deadlinePassed (h : SeesDeadline setting x m) :
    (x.after setting m).journal.deadlinePassed = true := by
  obtain ⟨m', m'', h, hlate⟩ | ⟨β, m', h⟩ := h
  · refine h.continues_end.deadlinePassed ?_
    obtain ⟨m₁, h₁, -⟩ := run_isLate setting m'
    rw [ScriptM.after, h₁]
    rw [h₁] at hlate
    injection hlate
  · exact h.continues_end.deadlinePassed (deadlinePassed_after_searched m')

/-! ## Answers of the ledger -/

/-- **The first answer of the ledger that puts the host at fault is the first
fault that is known at the end of the run.** -/
theorem Takes.firstFault? {question : Ledger.Question β} {f : Failure}
    (h : Takes setting x m (consult question) m') (hfirst : m'.journal.firstFault? = none)
    (hanswer : setting.ledger.answer question = .error f) (hf : f.isFault = true) :
    (x.after setting m).journal.firstFault? = some f := by
  refine h.continues_end.firstFault? ?_
  rw [ScriptM.after, run_consult_of_fault m' hanswer hf]
  exact Journal.firstFault?_note hfirst f

end LedgerReports.Script
