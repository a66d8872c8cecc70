/-!
# Deadlines

A run is stopped cooperatively: the code that may take long counts its steps and asks, from time to
time, whether the deadline has passed. Time is counted in steps, so that a run is a function of its
inputs: `Deadline.passed` answers from the number of steps made so far and from nothing else.
-/

namespace LedgerReports

/-- When a computation has to stop. -/
inductive Deadline where
  /-- The computation may take as long as it likes. -/
  | never
  /-- The computation may make this many steps; with `0` it is late from the start. -/
  | after (steps : Nat)
deriving DecidableEq, Repr

namespace Deadline

/-- A deadline that has already passed. -/
def expired : Deadline := .after 0

/-- Whether the deadline has passed once `elapsed` steps have been made. -/
def passed : Deadline → Nat → Bool
  | never, _ => false
  | after steps, elapsed => decide (steps ≤ elapsed)

@[simp] theorem passed_never (n : Nat) : never.passed n = false := rfl

@[simp] theorem passed_after (k n : Nat) : (after k).passed n = decide (k ≤ n) := rfl

@[simp] theorem passed_expired (n : Nat) : expired.passed n = true := by
  simp [expired]

/-- The deadline as seen by a part of the computation that starts after `elapsed` steps. -/
def remaining : Deadline → Nat → Deadline
  | never, _ => never
  | after steps, elapsed => after (steps - elapsed)

end Deadline

end LedgerReports
