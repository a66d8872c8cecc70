import LedgerReports.Script.Library.Matching

/-!
# What a step that gives a value has done

A step either gives a value or raises an error. From the value that it gives
one can work back: the parts of the step have given values too, and each
part was begun on the machine that the part before it has left
(`run_bind_eq_ok`). Raising an error gives no value, so a check has been
passed, and what has been read could be read.

A search runs outside of the script, which only takes its result over. It makes
no difference when that is done: after each part of the search, or once at its
end (`searched_bind`).
-/

namespace LedgerReports.Script

variable {α β : Type} {setting : Setting} {m m' : Machine}

theorem run_bind_eq_ok {x : ScriptM α} {f : α → ScriptM β} {b : β}
    (h : (x >>= f).run setting m = .ok b m') :
    ∃ a m₁, x.run setting m = .ok a m₁ ∧ (f a).run setting m₁ = .ok b m' := by
  rw [ScriptM.run_bind] at h
  cases hx : x.run setting m with
  | ok a m₁ =>
    rw [hx] at h
    exact ⟨a, m₁, rfl, h⟩
  | error e m₁ =>
    rw [hx] at h
    cases h

theorem run_pure_eq_ok {a b : α} (h : (pure a : ScriptM α).run setting m = .ok b m') :
    a = b ∧ m = m' := by
  rw [ScriptM.run_pure] at h
  cases h
  exact ⟨rfl, rfl⟩

/-- The host raises an error, whatever value was asked for. -/
theorem run_raiseHost_eq_error (e : HostError) (setting : Setting) (m : Machine) :
    ∃ v m', ∀ γ : Type, (raiseHost e : ScriptM γ).run setting m = .error v m' := by
  cases hnew : (newObject (.failure e)).run setting m with
  | ok v m' =>
    refine ⟨v, m', fun γ => ?_⟩
    rw [raiseHost, ScriptM.run_bind, hnew]
    exact ScriptM.run_throw setting m' v
  | error v m' =>
    refine ⟨v, m', fun γ => ?_⟩
    rw [raiseHost, ScriptM.run_bind, hnew]

/-- A search raises its error, whatever was searched for. -/
theorem run_raisePattern_eq_error (e : Pattern.Error) (setting : Setting) (m : Machine) :
    ∃ v m', ∀ γ : Type, (raisePattern e : ScriptM γ).run setting m = .error v m' := by
  by_cases hdeadline : e = .deadlineExceeded
  · -- the machine on which the error is raised, once it has been noted why
    obtain ⟨m₁, hm₁⟩ : ∃ m₁, m₁ = if m.journal.deadlinePassed then m
        else { m with journal := .deadlinePassed :: m.journal } := ⟨_, rfl⟩
    obtain ⟨v, m', hraise⟩ := run_raiseHost_eq_error .deadline setting m₁
    refine ⟨v, m', fun γ => ?_⟩
    rw [raisePattern, if_pos hdeadline, ScriptM.run_bind, ScriptM.run_get]
    by_cases hnoted : m.journal.deadlinePassed = true
    · rw [if_pos hnoted] at hm₁
      dsimp only
      rw [if_pos hnoted, ScriptM.run_bind, ← hm₁, hraise]
    · rw [if_neg hnoted] at hm₁
      dsimp only
      rw [if_neg hnoted, ScriptM.run_bind, run_noteDeadline, ← hm₁]
      dsimp only
      rw [ScriptM.run_bind, hraise]
  · obtain ⟨v, m', hraise⟩ := run_raiseHost_eq_error (.runtime e.message) setting m
    refine ⟨v, m', fun γ => ?_⟩
    rw [raisePattern, if_neg hdeadline]
    exact hraise γ

theorem run_raiseHost_ne_ok {e : HostError} {a : α}
    (h : (raiseHost e : ScriptM α).run setting m = .ok a m') : False := by
  obtain ⟨v, m₁, hraise⟩ := run_raiseHost_eq_error e setting m
  rw [hraise] at h
  cases h

/-- A search that has gone well has done nothing to the machine. -/
theorem run_searched_eq_ok {x : Except Pattern.Error α} {a : α}
    (h : (searched x).run setting m = .ok a m') : x = .ok a ∧ m = m' := by
  cases x with
  | ok b =>
    obtain ⟨rfl, rfl⟩ := run_pure_eq_ok h
    exact ⟨rfl, rfl⟩
  | error e =>
    obtain ⟨v, m₁, hraise⟩ := run_raisePattern_eq_error e setting m
    rw [searched, hraise] at h
    cases h

/-- An argument that can be read is read. -/
theorem run_read {c : Call} {i : Nat} {convert : Value → Except HostError α} {a : α}
    (h : convert (c.arg i) = .ok a) : (c.read i convert).run setting m = .ok a m := by
  rw [Call.read, h]
  exact ScriptM.run_pure setting m a

/-- An argument that has been read could be read. -/
theorem run_read_eq_ok {c : Call} {i : Nat} {convert : Value → Except HostError α} {a : α}
    (h : (c.read i convert).run setting m = .ok a m') : convert (c.arg i) = .ok a ∧ m = m' := by
  rw [Call.read] at h
  cases hconvert : convert (c.arg i) with
  | ok b =>
    rw [hconvert] at h
    obtain ⟨rfl, rfl⟩ := run_pure_eq_ok h
    exact ⟨rfl, rfl⟩
  | error e =>
    rw [hconvert] at h
    exact (run_raiseHost_ne_ok h).elim

/-- Searches one after the other are one search. -/
theorem searched_bind (x : Except Pattern.Error α) (f : α → Except Pattern.Error β) :
    searched (x >>= f) = searched x >>= fun a => searched (f a) := by
  ext setting m
  rw [ScriptM.run_bind]
  cases x with
  | ok a =>
    rw [searched, ScriptM.run_pure]
    rfl
  | error e =>
    obtain ⟨v, m', hraise⟩ := run_raisePattern_eq_error e setting m
    rw [searched, hraise]
    exact hraise β

instance : LawfulMonadLift (Except Pattern.Error) ScriptM where
  monadLift_pure _ := rfl
  monadLift_bind := searched_bind

theorem searched_map (f : α → β) (x : Except Pattern.Error α) :
    searched (f <$> x) = f <$> searched x := by
  rw [map_eq_pure_bind, map_eq_pure_bind, searched_bind]
  rfl

theorem run_map_eq_ok {f : α → β} {x : ScriptM α} {b : β}
    (h : (f <$> x).run setting m = .ok b m') : ∃ a, x.run setting m = .ok a m' ∧ b = f a := by
  obtain ⟨a, m₁, hx, h⟩ := run_bind_eq_ok h
  obtain ⟨rfl, rfl⟩ := run_pure_eq_ok h
  exact ⟨a, hx, rfl⟩

/-- There is room for a string that is within the limit, if there is one. -/
theorem run_newString_of_room {bytes : ByteArray}
    (h : setting.memoryLimit = 0 ∨ bytes.size + 24 ≤ setting.memoryLimit) :
    (newString bytes).run setting m
      = .ok (.string bytes) { m with allocated := m.allocated + (bytes.size + 24) } := by
  have hroom : ¬ (0 < setting.memoryLimit ∧ setting.memoryLimit < bytes.size + 24) := by omega
  simp only [newString, allocate, ScriptM.run_bind, ScriptM.run_read, hroom, if_false,
    ScriptM.run_pure, ScriptM.run_modify]

/-- Without a limit there is always room for a string. -/
theorem run_newString {bytes : ByteArray} (h : setting.memoryLimit = 0) :
    (newString bytes).run setting m
      = .ok (.string bytes) { m with allocated := m.allocated + (bytes.size + 24) } :=
  run_newString_of_room (.inl h)

theorem run_newString_eq_ok {bytes : ByteArray} {v : Value}
    (h : (newString bytes).run setting m = .ok v m') : v = .string bytes := by
  obtain ⟨_, _, _, h⟩ := run_bind_eq_ok h
  exact (run_pure_eq_ok h).1.symm

end LedgerReports.Script
