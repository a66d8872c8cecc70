import LedgerReports.Proofs.Script.Journal
import LedgerReports.Proofs.Script.Lateness
import LedgerReports.Proofs.Script.Substitution

/-!
# Walks through the matches of a pattern

A walk is begun by one call and goes on by others, each of which finds the place
where the one before has left it. In between it is kept by the machine, and what
is known of its pattern is what the machine is known to keep: that it was read
from a text (`Machine.WalksRead`). The call that begins a walk keeps this so, and
so does each step of a walk, whatever comes of them.
-/

namespace LedgerReports.Script

open Pattern

/-- **The walks of a machine are walks through the matches of patterns.** -/
def Machine.WalksRead (m : Machine) : Prop :=
  ∀ walk ∈ m.walks, ∃ text, walk.pattern = ofBytesUnanchored text

/-- A step keeps it so that the walks are walks through the matches of patterns, whatever comes of
the step. -/
def KeepsWalks {α : Type} (setting : Setting) (x : ScriptM α) : Prop :=
  ∀ m, m.WalksRead → (Outcome.machine (x.run setting m)).WalksRead

section Walks

variable {α β : Type} {setting : Setting}

theorem keepsWalks_pure (a : α) : KeepsWalks setting (pure a : ScriptM α) := by
  intro m hm
  rw [ScriptM.run_pure]
  exact hm

theorem keepsWalks_throw (v : Value) : KeepsWalks setting (throw v : ScriptM α) := by
  intro m hm
  rw [ScriptM.run_throw]
  exact hm

theorem keepsWalks_modify {f : Machine → Machine} (hf : ∀ m, m.WalksRead → (f m).WalksRead) :
    KeepsWalks setting (modifyThe Machine f) := by
  intro m hm
  rw [ScriptM.run_modify]
  exact hf m hm

theorem KeepsWalks.bind {x : ScriptM α} {f : α → ScriptM β} (hx : KeepsWalks setting x)
    (hf : ∀ a, KeepsWalks setting (f a)) : KeepsWalks setting (x >>= f) :=
  ScriptM.Keeps.bind hx hf

/-- What is read of the machine has walks through the matches of patterns too. -/
theorem keepsWalks_get_bind {f : Machine → ScriptM α}
    (hf : ∀ m, m.WalksRead → KeepsWalks setting (f m)) :
    KeepsWalks setting (getThe Machine >>= f) := by
  intro m hm
  rw [ScriptM.run_bind, ScriptM.run_get]
  exact hf m hm m hm

theorem keepsWalks_raiseHost (e : HostError) : KeepsWalks setting (raiseHost e : ScriptM α) := by
  intro m hm
  rw [run_raiseHost]
  exact hm

theorem keepsWalks_read (c : Call) (i : Nat) (convert : Value → Except HostError α) :
    KeepsWalks setting (c.read i convert) := by
  unfold Call.read
  split
  · exact keepsWalks_pure _
  · exact keepsWalks_raiseHost _

theorem keepsWalks_searchArguments (c : Call) : KeepsWalks setting (searchArguments c) :=
  (keepsWalks_read _ _ _).bind fun _ => (keepsWalks_read _ _ _).bind fun _ =>
    (keepsWalks_read _ _ _).bind fun _ => keepsWalks_pure _

theorem keepsWalks_searched (x : Except Pattern.Error α) : KeepsWalks setting (searched x) := by
  cases x with
  | ok a => exact keepsWalks_pure a
  | error e =>
    by_cases he : e = .deadlineExceeded
    · intro m hm
      rw [he, run_searched_deadlineExceeded]
      refine keepsWalks_raiseHost .deadline _ ?_
      split <;> exact hm
    · rw [searched, raisePattern, if_neg he]
      exact keepsWalks_raiseHost _

theorem keepsWalks_ofCaptures (captures : List Captured) :
    KeepsWalks setting (ofCaptures captures) := by
  have hwithin (limit bytes : Nat) : KeepsWalks setting (do
      if 0 < limit ∧ limit < bytes then raiseText outOfMemory
      modifyThe Machine fun m => { m with allocated := m.allocated + bytes }) := by
    split
    · exact (keepsWalks_throw _).bind fun _ => keepsWalks_modify fun _ hm => hm
    · exact keepsWalks_modify fun _ hm => hm
  have hstring (bytes : ByteArray) : KeepsWalks setting (newString bytes) := by
    refine KeepsWalks.bind (fun m hm => ?_) fun _ => keepsWalks_pure _
    unfold allocate
    rw [ScriptM.run_bind, ScriptM.run_read]
    exact hwithin setting.memoryLimit _ m hm
  have hvalues : KeepsWalks setting (captures.mapM ofCaptured) := by
    induction captures with
    | nil => exact keepsWalks_pure []
    | cons captured captures ih =>
      have hcaptured : KeepsWalks setting (ofCaptured captured) := by
        cases captured with
        | text bytes => exact hstring bytes
        | position index => exact keepsWalks_pure _
      rw [List.mapM_cons]
      exact hcaptured.bind fun _ => ih.bind fun _ => keepsWalks_pure _
  exact hvalues.bind fun _ => keepsWalks_pure _

/-- A walk that is begun is a walk through the matches of a pattern. -/
theorem keepsWalks_gmatchCall (c : Call) : KeepsWalks setting (gmatchCall c) := by
  refine (keepsWalks_searchArguments c).bind fun (bytes, pattern, start) => ?_
  refine keepsWalks_get_bind fun m _ => ?_
  refine (keepsWalks_modify fun m hm walk hwalk => ?_).bind fun _ => keepsWalks_pure _
  rcases Array.mem_push.mp hwalk with hwalk | rfl
  · exact hm walk hwalk
  · exact ⟨pattern, rfl⟩

/-- A walk that goes on stays a walk through the matches of its pattern. -/
theorem keepsWalks_nextMatch (id : Nat) : KeepsWalks setting (nextMatch id) := by
  refine keepsWalks_get_bind fun m hm => ?_
  cases hwalk : m.walks[id]? with
  | none => exact keepsWalks_pure _
  | some walk =>
    obtain ⟨text, htext⟩ := hm walk (Array.mem_of_getElem? hwalk)
    have hsubject : KeepsWalks setting (subjectOf walk.subject) := by
      intro m hm
      rw [run_subjectOf]
      exact hm
    refine hsubject.bind fun subject => ?_
    have hsearch : KeepsWalks setting (runSearch (walk.cursor.next subject walk.pattern)) := by
      refine (keepsWalks_searched _).bind fun ⟨found, steps⟩ => ?_
      have hcounted : KeepsWalks setting
          (modifyThe Machine fun m => { m with steps := m.steps + steps }) :=
        keepsWalks_modify fun _ hm => hm
      exact hcounted.bind fun _ => keepsWalks_pure found
    refine hsearch.bind fun (found?, cursor) => ?_
    refine (keepsWalks_modify fun m hm walk' hwalk' => ?_).bind fun _ => ?_
    · rcases Array.mem_or_eq_of_mem_setIfInBounds hwalk' with hwalk' | rfl
      · exact hm walk' hwalk'
      · exact ⟨text, htext⟩
    · cases found? with
      | none => exact keepsWalks_pure _
      | some found =>
        exact (keepsWalks_searched _).bind fun captures => keepsWalks_ofCaptures captures

end Walks

end LedgerReports.Script
