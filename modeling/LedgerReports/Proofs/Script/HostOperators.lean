import LedgerReports.Proofs.Script.TabulationFailures

/-!
# Operators of days and balances

Days and balances bring operators of their own. A script applies one by calling
the host's function for it with the two operands (`Call.operate`), and what that
comes to does not depend on the machine: either a step gives a value of some kind
on every machine (`Gives`), or it raises an error on every one (`Raises`). So
applications can be put together without saying which machine each of them meets.
-/

namespace LedgerReports.Script

variable {α β : Type}

/-! ## What a step comes to -/

/-- **A step gives a value of some kind**, whatever the conditions and the machine. -/
def Gives (x : ScriptM α) (P : α → Prop) : Prop :=
  ∀ setting m, ∃ a m', x.run setting m = .ok a m' ∧ P a

/-- **A step raises an error of the host**, whatever the conditions and the machine. -/
def Raises (x : ScriptM α) (e : HostError) : Prop :=
  ∀ setting m, ∃ id m', x.run setting m = .error (.object id (.failure e)) m'

section Rules

variable {x : ScriptM α} {f : α → ScriptM β} {P P' : α → Prop} {Q : β → Prop} {e : HostError}

theorem gives_pure {a : α} (h : P a) : Gives (pure a) P :=
  fun setting m => ⟨a, m, ScriptM.run_pure setting m a, h⟩

theorem gives_newObject (o : HostObject) : Gives (newObject o) fun v => ∃ id, v = .object id o :=
  fun setting m => ⟨_, _, run_newObject o setting m, m.nextId, rfl⟩

theorem raises_raiseHost (e : HostError) : Raises (raiseHost e : ScriptM α) e :=
  fun setting m => ⟨_, _, run_raiseHost e setting m⟩

theorem Gives.imp (hx : Gives x P) (h : ∀ a, P a → P' a) : Gives x P' := by
  intro setting m
  obtain ⟨a, m', hrun, ha⟩ := hx setting m
  exact ⟨a, m', hrun, h a ha⟩

theorem Gives.bind (hx : Gives x P) (hf : ∀ a, P a → Gives (f a) Q) : Gives (x >>= f) Q := by
  intro setting m
  obtain ⟨a, m₁, hrun, ha⟩ := hx setting m
  rw [ScriptM.run_bind, hrun]
  exact hf a ha setting m₁

/-- An error is raised after a value has been given. -/
theorem Gives.raises (hx : Gives x P) (hf : ∀ a, P a → Raises (f a) e) : Raises (x >>= f) e := by
  intro setting m
  obtain ⟨a, m₁, hrun, ha⟩ := hx setting m
  rw [ScriptM.run_bind, hrun]
  exact hf a ha setting m₁

/-- Nothing is done after an error. -/
theorem Raises.bind (hx : Raises x e) (f : α → ScriptM β) : Raises (x >>= f) e := by
  intro setting m
  obtain ⟨id, m₁, hrun⟩ := hx setting m
  rw [ScriptM.run_bind, hrun]
  exact ⟨id, m₁, rfl⟩

end Rules

/-! ## Applying an operator -/

/-- Applies an operator of the objects of a kind to two values: a call of the host's function for
it, of which the first result is taken. -/
def Call.operate (c : Call) (kind : HostKind) (op : HostOperator) (v w : Value) :
    ScriptM Value := do
  let values ← HostFunction.run (.operator kind op) { c with args := #[v, w] }
  return values.getD 0 .nil

/-- Whether an operator computes or compares. -/
def HostOperator.computes : HostOperator → Bool
  | add | sub | neg | eq | lt | le => true
  | index | newIndex | toString => false

section Operate

variable {op : HostOperator}

/-- One result is taken as it is given. -/
theorem bind_one_getD (x : ScriptM Value) :
    ((do return one (← x)) >>= fun values => pure (values.getD 0 .nil)) = x := by
  rw [bind_assoc]
  simp only [pure_bind, one]
  exact bind_pure x

/-- An operator that computes gets a day on its left. -/
theorem operate_date (hop : op.computes = true) (c : Call) (i : Nat) (d : Date) (w : Value) :
    c.operate .date op (.object i (.date d)) w
      = op.runOnDates { c with args := #[.object i (.date d), w] }
          (HostKind.date.typeName ++ "." ++ op.event) d := by
  have hread : Call.readFor { c with args := #[.object i (.date d), w] }
      (HostKind.date.typeName ++ "." ++ op.event) 0 (HostOperator.asKind .date)
        = pure (.date d) := rfl
  rw [Call.operate, HostFunction.run, HostOperator.run, hread, pure_bind]
  cases op with
  | index | newIndex | toString => cases hop
  | _ => exact bind_one_getD _

/-- So it is with balances. -/
theorem operate_balance (hop : op.computes = true) (c : Call) (i : Nat) (b : Balance) (w : Value) :
    c.operate .balance op (.object i (.balance b)) w
      = op.runOnBalances { c with args := #[.object i (.balance b), w] }
          (HostKind.balance.typeName ++ "." ++ op.event) b := by
  have hread : Call.readFor { c with args := #[.object i (.balance b), w] }
      (HostKind.balance.typeName ++ "." ++ op.event) 0 (HostOperator.asKind .balance)
        = pure (.balance b) := rfl
  rw [Call.operate, HostFunction.run, HostOperator.run, hread, pure_bind]
  cases op with
  | index | newIndex | toString => cases hop
  | _ => exact bind_one_getD _

end Operate

end LedgerReports.Script
