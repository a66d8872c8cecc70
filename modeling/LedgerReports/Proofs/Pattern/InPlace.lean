import LedgerReports.Proofs.Pattern.Meter
import Mathlib

/-!
# Matching in place

A search passes its captures along, so that an alternative that is given up leaves
nothing behind. It can also keep one list of captures, and change it where it is: a
capture is pushed when it is opened, it is closed where it stands, and both are taken
back when what comes after has found nothing. The depth is then a counter too, which
goes up and down again. Here is the engine in this form (`Matcher.doMatch`). Everything
in it is kept when it fails.

Nothing in it looks after the captures but the two functions that open and close them.
The loops and choices around these go on with whatever captures they find. That this is
all right, because they find those that they have left, is shown with the rules for the
outcomes of this module in `LedgerReports.Proofs.Pattern.Restoring`.
-/

namespace LedgerReports.Pattern

/-- **What a matcher keeps** while it works. -/
structure Matcher where
  /-- The captures so far, in the order in which they were opened. -/
  captures : Captures
  /-- How deep the search nests. -/
  depth : Nat
  /-- The steps made so far. -/
  steps : Nat
deriving DecidableEq, Repr

/-- A search that works on a matcher, which stays as it is when the search fails. -/
abbrev MatcherM := ExceptT Error (StateM Matcher)

/-- The number of the last capture that is open. -/
def Captures.lastOpen? : Captures → Option Nat
  | [] => none
  | c :: rest =>
    match Captures.lastOpen? rest with
    | some i => some (i + 1)
    | none => if c.extent = .opened then some 0 else none

/-- The captures with another extent for one of them. -/
def Captures.withExtent (captures : Captures) (i : Nat) (extent : Capture → Extent) : Captures :=
  captures.modify i fun c => { c with extent := extent c }

namespace Matcher

section Engine

variable {α : Type}

/-- Does a part of a search that only counts its steps. -/
def counting (part : MeterM α) : MatcherM α := do
  let (result, steps) := Metered.outcome part (← get).steps
  modify fun m => { m with steps }
  liftM result

/-- Changes the captures. -/
def modifyCaptures (f : Captures → Captures) : MatcherM Unit :=
  modify fun m => { m with captures := f m.captures }

/-- Makes a search one level deeper, and comes up again whatever the search has come to. -/
def deeper (search : MatcherM α) : MatcherM α := do
  if (← get).depth = maxDepth then throw .tooComplex
  modify fun m => { m with depth := m.depth + 1 }
  let result ← ExceptT.lift search.run
  modify fun m => { m with depth := m.depth - 1 }
  liftM result

/-- Opens a capture and searches on. If nothing is found the capture is taken away again. -/
def startCapture (c : Capture) (search : MatcherM (Option Nat)) : MatcherM (Option Nat) := do
  if maxCaptures ≤ (← get).captures.length then throw .tooManyCaptures
  modifyCaptures (· ++ [c])
  let stop? ← deeper search
  if stop? = none then modifyCaptures List.dropLast
  return stop?

/-- Closes the last open capture at `s` and searches on. If nothing is found the capture is opened
again. -/
def endCapture (s : Nat) (search : MatcherM (Option Nat)) : MatcherM (Option Nat) := do
  match (← get).captures.lastOpen? with
  | none => throw .unopenedCapture
  | some i =>
    modifyCaptures (·.withExtent i fun c => .closed (s - c.start))
    let stop? ← deeper search
    if stop? = none then modifyCaptures (·.withExtent i fun _ => .opened)
    return stop?

/-- Makes another search if the first one finds nothing. -/
def orElse (first second : MatcherM (Option Nat)) : MatcherM (Option Nat) := do
  match ← first with
  | some stop => return some stop
  | none => second

/-- Searches on from `s + count`, from `s + count - 1`, and so on down to `s`. -/
def backOff (next : Nat → MatcherM (Option Nat)) (s : Nat) : Nat → MatcherM (Option Nat)
  | 0 => next s
  | count + 1 => orElse (next (s + count + 1)) (backOff next s count)

variable (subject : Subject)

/-- Searches on from `s`, from `s + 1`, and so on as long as the bytes passed are of the class. -/
def advance (bytes : CharClass) (next : Nat → MatcherM (Option Nat)) (s : Nat) :
    MatcherM (Option Nat) :=
  orElse (next s) <|
    if subject.matchesAt bytes s ∧ s < subject.bytes.size then advance bytes next (s + 1)
    else return none
termination_by subject.bytes.size - s

/-- What is done with one item at `s`, given what is done after it. -/
def search (next : Nat → MatcherM (Option Nat)) (item : Item) (s : Nat) :
    MatcherM (Option Nat) := do
  match item with
  | .openCapture => startCapture ⟨s, .opened⟩ (next s)
  | .positionCapture => startCapture ⟨s, .position⟩ (next s)
  | .closeCapture => endCapture s (next s)
  | .endAnchor => return if s = subject.bytes.size then some s else none
  | .balance opening closing =>
    if byteAt? subject.bytes s = some opening then
      match ← counting (Metered.balanceEnd? subject opening closing 1 (s + 1)) with
      | some stop => next stop
      | none => return none
    else
      return none
  | .frontier set =>
    if ← subject.atFrontier set s then next s else return none
  | .backReference index =>
    let text ← subject.referenced (← get).captures index
    if subject.startsWithAt text s then next (s + text.size) else return none
  | .single bytes repetition =>
    if subject.matchesAt bytes s then
      match repetition with
      | .once => next (s + 1)
      | .optional => orElse (deeper (next (s + 1))) (next s)
      | .greedy =>
        let stop ← counting (Metered.runEnd subject bytes s)
        backOff (fun s => deeper (next s)) s (stop - s)
      | .greedyOnce =>
        let stop ← counting (Metered.runEnd subject bytes (s + 1))
        backOff (fun s => deeper (next s)) (s + 1) (stop - (s + 1))
      | .lazy => advance subject bytes (fun s => deeper (next s)) s
    else
      match repetition with
      | .once | .greedyOnce => return none
      | .optional | .greedy | .lazy => next s
  | .invalid error => throw error

/-- Matches a pattern from `p` on against the subject from `s` on, and gives where the match
ends. -/
def matchHere (text : ByteArray) (p s : Nat) : MatcherM (Option Nat) := do
  counting (Metered.tick subject.deadline)
  if p = text.size then return some s
  else
    match hread : Item.read text p with
    | .error e => throw e
    | .ok (item, stop) =>
      have := Item.lt_of_read_eq_ok hread
      have := Item.lt_size_of_read_eq_ok hread
      search subject (fun s => matchHere text stop s) item s
termination_by text.size - p

/-- Matches a pattern from `p` on against the subject from `s` on, one level deeper. -/
def doMatch (text : ByteArray) (p s : Nat) : MatcherM (Option Nat) :=
  deeper (matchHere subject text p s)

end Engine

/-! ## Outcomes -/

section Outcome

variable {α β : Type}

/-- What comes of a search that begins with a matcher, and the matcher then. -/
def outcome (x : MatcherM α) (m : Matcher) : Except Error α × Matcher := x.run.run m

variable {m : Matcher}

@[simp] theorem outcome_pure (a : α) : outcome (pure a) m = (.ok a, m) := rfl

@[simp] theorem outcome_throw (e : Error) : outcome (throw e : MatcherM α) m = (.error e, m) := rfl

@[simp] theorem outcome_liftM (x : Except Error α) : outcome (liftM x) m = (x, m) := rfl

@[simp] theorem outcome_get : outcome get m = (.ok m, m) := rfl

@[simp] theorem outcome_modifyCaptures (f : Captures → Captures) :
    outcome (modifyCaptures f) m = (.ok (), { m with captures := f m.captures }) := rfl

theorem outcome_bind (x : MatcherM α) (f : α → MatcherM β) :
    outcome (x >>= f) m
      = match outcome x m with
        | (.ok a, m) => outcome (f a) m
        | (.error e, m) => (.error e, m) := by
  unfold outcome
  rw [ExceptT.run_bind, StateT.run_bind]
  generalize x.run.run m = o
  obtain ⟨result, m'⟩ := o
  cases result <;> rfl

@[simp] theorem outcome_counting (part : MeterM α) :
    outcome (counting part) m
      = ((Metered.outcome part m.steps).1,
          { m with steps := (Metered.outcome part m.steps).2 }) := rfl

/-- **A deeper search comes up again**, unless there is no room for it. -/
theorem outcome_deeper (x : MatcherM α) :
    outcome (deeper x) m
      = if m.depth = maxDepth then (.error .tooComplex, m)
        else
          let o := outcome x { m with depth := m.depth + 1 }
          (o.1, { o.2 with depth := o.2.depth - 1 }) := by
  rw [deeper, outcome_bind, outcome_get]
  dsimp only
  split
  case isTrue => rfl
  case isFalse => rfl

theorem outcome_orElse (first second : MatcherM (Option Nat)) :
    outcome (orElse first second) m
      = match outcome first m with
        | (.ok none, m') => outcome second m'
        | o => o := by
  rw [orElse, outcome_bind]
  generalize outcome first m = o
  obtain ⟨e | _ | stop, m'⟩ := o <;> rfl

/-- What comes of a search when a change of the captures is taken back if nothing is found. -/
def undone (undo : Captures → Captures) :
    Except Error (Option Nat) × Matcher → Except Error (Option Nat) × Matcher
  | (.ok none, m) => (.ok none, { m with captures := undo m.captures })
  | o => o

theorem outcome_undoing (undo : Captures → Captures) (x : MatcherM (Option Nat)) :
    outcome (do
      let stop? ← x
      if stop? = none then modifyCaptures undo
      return stop?) m = undone undo (outcome x m) := by
  rw [outcome_bind]
  generalize outcome x m = o
  obtain ⟨e | _ | stop, m'⟩ := o <;> rfl

/-- A capture that was opened is taken away if nothing is found. -/
theorem outcome_startCapture (c : Capture) (x : MatcherM (Option Nat)) :
    outcome (startCapture c x) m
      = if maxCaptures ≤ m.captures.length then (.error .tooManyCaptures, m)
        else
          undone List.dropLast (outcome (deeper x) { m with captures := m.captures ++ [c] }) := by
  rw [startCapture, outcome_bind, outcome_get]
  dsimp only
  split
  case isTrue => rfl
  case isFalse =>
    rw [outcome_bind, outcome_modifyCaptures]
    exact outcome_undoing List.dropLast (deeper x)

/-- A capture that was closed is opened again if nothing is found. -/
theorem outcome_endCapture (s : Nat) (x : MatcherM (Option Nat)) :
    outcome (endCapture s x) m
      = match m.captures.lastOpen? with
        | none => (.error .unopenedCapture, m)
        | some i =>
          undone (·.withExtent i fun _ => .opened) (outcome (deeper x)
            { m with captures := m.captures.withExtent i fun c => .closed (s - c.start) }) := by
  rw [endCapture, outcome_bind, outcome_get]
  dsimp only
  cases m.captures.lastOpen? with
  | none => rfl
  | some i =>
    dsimp only
    rw [outcome_bind, outcome_modifyCaptures]
    exact outcome_undoing (·.withExtent i fun _ => .opened) (deeper x)

end Outcome

end Matcher

end LedgerReports.Pattern
