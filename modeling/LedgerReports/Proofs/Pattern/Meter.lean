import LedgerReports.Pattern.Cursor
import LedgerReports.Proofs.Pattern.Bounds
import LedgerReports.Proofs.Pattern.PlainErrors

/-!
# Counting the steps of a search

A search that fails does not tell how many steps it has made. Here is the same
search with a counter that stays: `Metered.matchList` counts where
`Item.matchList` does, and so on for each part of a search and for the loops
around it, up to a search from a start and to a walk from one match to the next.

A metered search is compared with itself without a deadline. Until the deadline
is noticed the two make the same steps, so the one is the other, cut off at the
first step at which it looks at the deadline and the deadline has passed
(`cutOff`). This, and that the counter is no invention – a search is its metered
form, with the count of a failure forgotten – is what `Meters` says, and it is
carried from the parts of a search to the whole: a failure goes through every
choice, since only a search that has found nothing is given up for the next one.
A search without a deadline never reports that one has passed, provided that the
pattern does not do so itself, which is no mistake that can be read in a pattern
(`plainErrors_readAll`).
-/

namespace LedgerReports.Pattern

/-! ## The engine with a counter that stays -/

/-- A search whose count of steps stays when it fails. -/
abbrev MeterM := ExceptT Error (StateM Nat)

namespace Metered

/-- Counts a step, and looks at the deadline at each multiple of `pollInterval`. -/
def tick (deadline : Deadline) : MeterM Unit := do
  modify (· + 1)
  let steps ← get
  if steps % pollInterval = 0 && deadline.passed steps then throw .deadlineExceeded

section Engine

variable {α : Type} (subject : Subject)

/-- Where the run of bytes of the class that starts at `s` ends. -/
def runEnd (bytes : CharClass) (s : Nat) : MeterM Nat := do
  if subject.matchesAt bytes s ∧ s < subject.bytes.size then
    tick subject.deadline
    runEnd bytes (s + 1)
  else
    return s
termination_by subject.bytes.size - s

/-- The position past the closing byte that balances the opening one. -/
def balanceEnd? (opening closing : UInt8) (depth s : Nat) : MeterM (Option Nat) := do
  if h : s < subject.bytes.size then
    tick subject.deadline
    if subject.bytes[s] = closing then
      if depth ≤ 1 then return some (s + 1)
      else balanceEnd? opening closing (depth - 1) (s + 1)
    else if subject.bytes[s] = opening then
      balanceEnd? opening closing (depth + 1) (s + 1)
    else
      balanceEnd? opening closing depth (s + 1)
  else
    return none
termination_by subject.bytes.size - s

/-- Tries the continuation at `s + count`, at `s + count - 1`, and so on down to `s`. -/
def backOff (next : Nat → MeterM (Option α)) (s : Nat) : Nat → MeterM (Option α)
  | 0 => next s
  | count + 1 => do
    match ← next (s + count + 1) with
    | some found => return some found
    | none => backOff next s count

/-- Tries the continuation at `s`, at `s + 1`, and so on as long as the bytes passed are of the
class. -/
def advance (bytes : CharClass) (next : Nat → MeterM (Option α)) (s : Nat) :
    MeterM (Option α) := do
  match ← next s with
  | some found => return some found
  | none =>
    if subject.matchesAt bytes s ∧ s < subject.bytes.size then
      advance bytes next (s + 1)
    else
      return none
termination_by subject.bytes.size - s

/-- Enters the search for the items after a nesting one, for which `room` levels are left. -/
def nest (room : Nat) (search : Nat → MeterM α) : MeterM α :=
  match room with
  | 0 => throw .tooComplex
  | room + 1 => search room

/-- What a search does with one item, given what it does after the item. -/
def search (next : (room s : Nat) → Captures → MeterM (Option (Nat × Captures))) (item : Item)
    (room s : Nat) (captures : Captures) : MeterM (Option (Nat × Captures)) := do
  match item with
  | .openCapture =>
    if captures.length < maxCaptures then
      nest room fun room => next room s (captures ++ [⟨s, .opened⟩])
    else
      throw .tooManyCaptures
  | .positionCapture =>
    if captures.length < maxCaptures then
      nest room fun room => next room s (captures ++ [⟨s, .position⟩])
    else
      throw .tooManyCaptures
  | .closeCapture =>
    match captures.close? s with
    | some captures => nest room fun room => next room s captures
    | none => throw .unopenedCapture
  | .endAnchor =>
    return if s = subject.bytes.size then some (s, captures) else none
  | .balance opening closing =>
    if byteAt? subject.bytes s = some opening then
      match ← balanceEnd? subject opening closing 1 (s + 1) with
      | some stop => next room stop captures
      | none => return none
    else
      return none
  | .frontier set =>
    if ← subject.atFrontier set s then
      next room s captures
    else
      return none
  | .backReference index =>
    let text ← subject.referenced captures index
    if subject.startsWithAt text s then
      next room (s + text.size) captures
    else
      return none
  | .single bytes repetition =>
    if subject.matchesAt bytes s then
      match repetition with
      | .once => next room (s + 1) captures
      | .optional =>
        match ← nest room fun room => next room (s + 1) captures with
        | some found => return some found
        | none => next room s captures
      | .greedy =>
        let stop ← runEnd subject bytes s
        backOff (fun s => nest room fun room => next room s captures) s (stop - s)
      | .greedyOnce =>
        let stop ← runEnd subject bytes (s + 1)
        backOff (fun s => nest room fun room => next room s captures)
          (s + 1) (stop - (s + 1))
      | .lazy =>
        advance subject bytes (fun s => nest room fun room => next room s captures) s
    else
      match repetition with
      | .once | .greedyOnce => return none
      | .optional | .greedy | .lazy => next room s captures
  | .invalid error => throw error

/-- The first way to match the items from position `s` of the subject. -/
def matchList : List Item → (room s : Nat) → Captures → MeterM (Option (Nat × Captures))
  | [], _, s, captures => do
    tick subject.deadline
    return some (s, captures)
  | item :: rest, room, s, captures => do
    tick subject.deadline
    search subject (matchList rest) item room s captures

variable (pattern : Pattern)

/-- The first way to match the pattern at position `s` of the subject. -/
def matchAt (s : Nat) : MeterM (Option Match) := do
  let found ← nest maxDepth fun room => matchList subject pattern.items room s []
  return found.map fun (stop, captures) => ⟨s, stop, captures⟩

/-- The leftmost match at `s` or after it; of an anchored pattern, the match at `s`. -/
def find? (s : Nat) : MeterM (Option Match) := do
  match ← matchAt subject pattern s with
  | some found => return some found
  | none =>
    if pattern.anchored ∨ subject.bytes.size ≤ s then return none
    else find? (s + 1)
termination_by subject.bytes.size - s

/-- The match where the cursor stands, if there is one and it counts. -/
def matchHere (c : Cursor) : MeterM (Option Match) := do
  let found ← matchAt subject pattern c.position
  return found.filter fun m => c.lastStop ≠ some m.stop

/-- The next match that counts, and the cursor past it. -/
def next (c : Cursor) : MeterM (Option Match × Cursor) := do
  if c.position ≤ subject.bytes.size then
    match ← matchHere subject pattern c with
    | some m => return (some m, .past m)
    | none => next c.skip
  else
    return (none, c)
termination_by subject.bytes.size + 1 - c.position
decreasing_by
  simp only [Cursor.skip]
  omega

end Engine

/-! ### Outcomes -/

section Outcome

variable {α β : Type}

/-- What comes of a search that begins with a count of `c` steps, and the count then. -/
def outcome (x : MeterM α) (c : Nat) : Except Error α × Nat := x.run.run c

/-- What a search tells of it: the count only if it does not fail. -/
def told (o : Except Error α × Nat) : Except Error (α × Nat) := (·, o.2) <$> o.1

variable {c : Nat}

@[simp] theorem outcome_pure (a : α) : outcome (pure a) c = (.ok a, c) := rfl

@[simp] theorem outcome_throw (e : Error) : outcome (throw e : MeterM α) c = (.error e, c) := rfl

@[simp] theorem outcome_liftM (x : Except Error α) : outcome (liftM x) c = (x, c) := rfl

theorem outcome_bind (x : MeterM α) (f : α → MeterM β) :
    outcome (x >>= f) c
      = match outcome x c with
        | (.ok a, c) => outcome (f a) c
        | (.error e, c) => (.error e, c) := by
  unfold outcome
  rw [ExceptT.run_bind, StateT.run_bind]
  generalize x.run.run c = o
  obtain ⟨result, c'⟩ := o
  cases result <;> rfl

theorem outcome_tick (d : Deadline) :
    outcome (tick d) c
      = if (c + 1) % pollInterval = 0 && d.passed (c + 1) then (.error .deadlineExceeded, c + 1)
        else (.ok (), c + 1) := by
  show outcome (if (c + 1) % pollInterval = 0 && d.passed (c + 1)
    then throw .deadlineExceeded else pure ()) (c + 1) = _
  split <;> rfl

end Outcome

end Metered

/-! ## Cutting off at the deadline -/

/-- The first step after number `c`, and up to number `n`, at which the deadline is looked at and
has passed. -/
def stop? (d : Deadline) (c n : Nat) : Option Nat :=
  (List.range' (c + 1) (n - c)).find? fun k => k % pollInterval = 0 && d.passed k

section Stop

variable {d : Deadline} {c n : Nat}

@[simp] theorem stop?_self (d : Deadline) (c : Nat) : stop? d c c = none := by
  rw [stop?, Nat.sub_self]
  rfl

theorem stop?_succ (d : Deadline) (c : Nat) :
    stop? d c (c + 1)
      = if (c + 1) % pollInterval = 0 && d.passed (c + 1) then some (c + 1) else none := by
  rw [stop?, Nat.add_sub_cancel_left, List.range'_one, List.find?_singleton]

/-- Steps are made one part after the other. -/
theorem stop?_trans {k : Nat} (hk : c ≤ k) (hn : k ≤ n) :
    stop? d c n = (stop? d c k).or (stop? d k n) := by
  have hsteps : List.range' (c + 1) (n - c)
      = List.range' (c + 1) (k - c) ++ List.range' (k + 1) (n - k) := by
    have hend : k + 1 = c + 1 + 1 * (k - c) := by omega
    rw [hend, List.range'_append]
    congr 1
    omega
  rw [stop?, hsteps, List.find?_append]
  rfl

@[simp] theorem stop?_never (c n : Nat) : stop? .never c n = none := by
  simp [stop?]

theorem stop?_expired_of_lt (hn : n < pollInterval) : stop? .expired c n = none := by
  rw [stop?, List.find?_eq_none]
  intro k hk
  rw [List.mem_range'_1] at hk
  have hmod : k % pollInterval = k := Nat.mod_eq_of_lt (by omega)
  simp only [hmod, Deadline.passed_expired, Bool.and_true, decide_eq_true_eq]
  omega

/-- **An expired deadline is noticed when the steps of an interval have been made.** -/
theorem stop?_expired_of_le (hc : c < pollInterval) (hn : pollInterval ≤ n) :
    stop? .expired c n = some pollInterval := by
  have hlast : pollInterval - 1 + 1 = pollInterval := rfl
  rw [stop?_trans (Nat.le_sub_one_of_lt hc) (Nat.le_trans (Nat.sub_le ..) hn),
    stop?_expired_of_lt (Nat.sub_lt (by decide) Nat.one_pos),
    stop?_trans (Nat.le_succ _) (hlast ▸ hn), stop?_succ, hlast]
  rfl

end Stop

/-- What is left of a search without a deadline when it has one. -/
def cutOff {α : Type} (d : Deadline) (c : Nat) (o : Except Error α × Nat) : Except Error α × Nat :=
  match stop? d c o.2 with
  | some k => (.error .deadlineExceeded, k)
  | none => o

/-- **A search is metered**: `y` is the search `x` with a counter that stays, and `y₀` is the same
without a deadline. -/
structure Meters {α : Type} (d : Deadline) (x : SearchM α) (y y₀ : MeterM α) : Prop where
  /-- The search tells of what the metered one does. -/
  tells : ∀ c, x.run c = Metered.told (Metered.outcome y c)
  /-- The deadline cuts off what is done without it. -/
  cut : ∀ c, Metered.outcome y c = cutOff d c (Metered.outcome y₀ c)
  /-- No step is taken back. -/
  le : ∀ c, c ≤ (Metered.outcome y₀ c).2
  /-- Without a deadline none is exceeded. -/
  plain : ∀ c, PlainError (Metered.outcome y₀ c).1

section Meters

variable {α β : Type} {d : Deadline} {x : SearchM α} {y y₀ : MeterM α}

theorem meters_pure (a : α) : Meters d (pure a) (pure a) (pure a) where
  tells _ := rfl
  cut c := by rw [Metered.outcome_pure, cutOff, stop?_self]
  le c := Nat.le_refl c
  plain _ := plainError_ok a

theorem meters_liftM {e : Except Error α} (h : PlainError e) :
    Meters d (liftM e) (liftM e) (liftM e) where
  tells _ := by cases e <;> rfl
  cut c := by rw [Metered.outcome_liftM, cutOff, stop?_self]
  le c := Nat.le_refl c
  plain _ := h

theorem meters_throw {e : Error} (h : e ≠ .deadlineExceeded) :
    Meters d (throw e : SearchM α) (throw e) (throw e) :=
  meters_liftM (e := .error e) fun he => h (Except.error.inj he)

theorem meters_tick (d : Deadline) :
    Meters d (tick d) (Metered.tick d) (Metered.tick .never) where
  tells c := by
    rw [Metered.outcome_tick]
    show (if _ then _ else _) = _
    split <;> rfl
  cut c := by
    rw [Metered.outcome_tick .never]
    simp only [Deadline.passed_never, Bool.and_false, Bool.false_eq_true, if_false]
    rw [cutOff, stop?_succ, Metered.outcome_tick]
    split <;> rfl
  le c := by
    rw [Metered.outcome_tick]
    split <;> exact Nat.le_succ c
  plain c := by
    rw [Metered.outcome_tick, Deadline.passed_never, Bool.and_false, if_neg Bool.false_ne_true]
    exact plainError_ok ()

/-- **One part of a search and then the next.** If the deadline is noticed in the first part, it is
the first part that is cut off; otherwise the next part begins where it began without a deadline. -/
theorem Meters.bind (h : Meters d x y y₀) {f : α → SearchM β} {g g₀ : α → MeterM β}
    (hf : ∀ a, Meters d (f a) (g a) (g₀ a)) : Meters d (x >>= f) (y >>= g) (y₀ >>= g₀) where
  tells c := by
    rw [StateT.run_bind, h.tells, Metered.outcome_bind]
    obtain ⟨result, n⟩ := Metered.outcome y c
    cases result with
    | error e => rfl
    | ok a => exact (hf a).tells n
  cut c := by
    have hle := h.le c
    rw [Metered.outcome_bind, h.cut, Metered.outcome_bind]
    generalize Metered.outcome y₀ c = o at hle ⊢
    obtain ⟨result, n⟩ := o
    cases result with
    | error e =>
      simp only [cutOff]
      cases stop? d c n <;> rfl
    | ok a =>
      simp only [cutOff, stop?_trans hle ((hf a).le n)]
      cases stop? d c n with
      | some k => rfl
      | none => exact (hf a).cut n
  le c := by
    have hle := h.le c
    rw [Metered.outcome_bind]
    generalize Metered.outcome y₀ c = o at hle ⊢
    obtain ⟨result, n⟩ := o
    cases result with
    | error e => exact hle
    | ok a => exact Nat.le_trans hle ((hf a).le n)
  plain c := by
    have hplain := h.plain c
    rw [Metered.outcome_bind]
    generalize Metered.outcome y₀ c = o at hplain ⊢
    obtain ⟨result, n⟩ := o
    cases result with
    | error e => exact fun he => hplain (congrArg Except.error (Except.error.inj he))
    | ok a => exact (hf a).plain n

theorem Meters.nest {room : Nat} {f : Nat → SearchM α} {g g₀ : Nat → MeterM α}
    (h : ∀ room, Meters d (f room) (g room) (g₀ room)) :
    Meters d (Pattern.nest room f) (Metered.nest room g) (Metered.nest room g₀) := by
  cases room with
  | zero => exact meters_throw nofun
  | succ room => exact h room

end Meters

/-! ## The parts of a search -/

/-- The subject without a deadline. -/
def Subject.untimed (subject : Subject) : Subject := { subject with deadline := .never }

theorem startsWithAt_untimed (subject : Subject) (text : ByteArray) (s : Nat) :
    subject.untimed.startsWithAt text s = subject.startsWithAt text s := by
  rw [startsWithAt_eq_isPrefixOf, startsWithAt_eq_isPrefixOf]
  rfl

section Parts

variable {α : Type} (subject : Subject)

theorem meters_runEnd (bytes : CharClass) (s : Nat) :
    Meters subject.deadline (subject.runEnd bytes s) (Metered.runEnd subject bytes s)
      (Metered.runEnd subject.untimed bytes s) := by
  induction hn : subject.bytes.size - s using Nat.strongRecOn generalizing s with
  | ind n ih =>
    unfold Subject.runEnd Metered.runEnd
    show Meters _ _ _ (if subject.matchesAt bytes s ∧ s < subject.bytes.size then _ else _)
    split
    case isTrue => exact (meters_tick _).bind fun _ => ih _ (by omega) (s + 1) rfl
    case isFalse => exact meters_pure s

theorem meters_balanceEnd? (opening closing : UInt8) (depth s : Nat) :
    Meters subject.deadline (subject.balanceEnd? opening closing depth s)
      (Metered.balanceEnd? subject opening closing depth s)
      (Metered.balanceEnd? subject.untimed opening closing depth s) := by
  induction hn : subject.bytes.size - s using Nat.strongRecOn generalizing depth s with
  | ind n ih =>
    unfold Subject.balanceEnd? Metered.balanceEnd?
    show Meters _ _ _ (if h : s < subject.bytes.size then _ else _)
    split
    case isTrue =>
      have hlater (depth : Nat) := ih _ (by omega) depth (s + 1) rfl
      refine (meters_tick _).bind fun _ => ?_
      show Meters _ _ _ (if subject.bytes[s] = closing then _ else _)
      split
      case isTrue =>
        split
        case isTrue => exact meters_pure _
        case isFalse => exact hlater _
      case isFalse =>
        show Meters _ _ _ (if subject.bytes[s] = opening then _ else _)
        split
        case isTrue => exact hlater _
        case isFalse => exact hlater _
    case isFalse => exact meters_pure none

variable {d : Deadline} {next : Nat → SearchM (Option α)} {meter meter₀ : Nat → MeterM (Option α)}

theorem meters_backOff (h : ∀ s, Meters d (next s) (meter s) (meter₀ s)) (s n : Nat) :
    Meters d (backOff next s n) (Metered.backOff meter s n) (Metered.backOff meter₀ s n) := by
  induction n with
  | zero => exact h s
  | succ n ih =>
    refine (h (s + n + 1)).bind fun found? => ?_
    cases found? with
    | some found => exact meters_pure _
    | none => exact ih

theorem meters_advance (h : ∀ s, Meters d (next s) (meter s) (meter₀ s)) (bytes : CharClass)
    (s : Nat) :
    Meters d (advance subject bytes next s) (Metered.advance subject bytes meter s)
      (Metered.advance subject.untimed bytes meter₀ s) := by
  induction hn : subject.bytes.size - s using Nat.strongRecOn generalizing s with
  | ind n ih =>
    unfold advance Metered.advance
    refine (h s).bind fun found? => ?_
    cases found? with
    | some found => exact meters_pure _
    | none =>
      show Meters _ _ _ (if subject.matchesAt bytes s ∧ s < subject.bytes.size then _ else _)
      dsimp only
      split
      case isTrue => exact ih _ (by omega) (s + 1) rfl
      case isFalse => exact meters_pure none

end Parts

/-! ## Searches -/

section Step

variable {subject : Subject}
variable {next : (room s : Nat) → Captures → SearchM (Option (Nat × Captures))}
variable {meter meter₀ : (room s : Nat) → Captures → MeterM (Option (Nat × Captures))}

/-- What is done with one item is metered if what comes after it is. -/
theorem meters_search
    (h : ∀ room s captures, Meters subject.deadline (next room s captures)
      (meter room s captures) (meter₀ room s captures))
    {item : Item} (hitem : item ≠ .invalid .deadlineExceeded) (room s : Nat)
    (captures : Captures) :
    Meters subject.deadline (item.search subject next room s captures)
      (Metered.search subject meter item room s captures)
      (Metered.search subject.untimed meter₀ item room s captures) := by
  have hnest (s : Nat) (captures : Captures) :
      Meters subject.deadline (nest room fun room => next room s captures)
        (Metered.nest room fun room => meter room s captures)
        (Metered.nest room fun room => meter₀ room s captures) :=
    .nest fun room => h room s captures
  unfold Item.search Metered.search
  cases item with
  | openCapture =>
    dsimp only
    split
    case isTrue => exact hnest ..
    case isFalse => exact meters_throw nofun
  | positionCapture =>
    dsimp only
    split
    case isTrue => exact hnest ..
    case isFalse => exact meters_throw nofun
  | closeCapture =>
    dsimp only
    cases captures.close? s with
    | some closed => exact hnest ..
    | none => exact meters_throw nofun
  | endAnchor => exact meters_pure _
  | balance opening closing =>
    show Meters _ _ _ (if byteAt? subject.bytes s = some opening then _ else _)
    dsimp only
    split
    case isTrue =>
      refine (meters_balanceEnd? subject opening closing 1 (s + 1)).bind fun stop? => ?_
      cases stop? with
      | some stop => exact h ..
      | none => exact meters_pure none
    case isFalse => exact meters_pure none
  | frontier set =>
    refine (meters_liftM (ownError_atFrontier subject set s).plain).bind fun there => ?_
    split
    case isTrue => exact h ..
    case isFalse => exact meters_pure none
  | backReference index =>
    refine (meters_liftM (ownError_referenced subject captures index).plain).bind fun text => ?_
    rw [startsWithAt_untimed]
    split
    case isTrue => exact h ..
    case isFalse => exact meters_pure none
  | single bytes repetition =>
    show Meters _ _ _ (if subject.matchesAt bytes s then _ else _)
    dsimp only
    split
    case isTrue =>
      cases repetition with
      | once => exact h ..
      | optional =>
        refine (hnest ..).bind fun found? => ?_
        cases found? with
        | some found => exact meters_pure _
        | none => exact h ..
      | greedy =>
        refine (meters_runEnd subject bytes s).bind fun stop => ?_
        exact meters_backOff (fun s => hnest s captures) ..
      | greedyOnce =>
        refine (meters_runEnd subject bytes (s + 1)).bind fun stop => ?_
        exact meters_backOff (fun s => hnest s captures) ..
      | lazy => exact meters_advance subject (fun s => hnest s captures) ..
    case isFalse =>
      cases repetition with
      | once => exact meters_pure none
      | greedyOnce => exact meters_pure none
      | optional => exact h ..
      | greedy => exact h ..
      | lazy => exact h ..
  | invalid e => exact meters_throw fun he => hitem (congrArg Item.invalid he)

end Step

section Search

variable (subject : Subject) {pattern : Pattern}

/-- **Matching is metered**, item by item. -/
theorem meters_matchList {items : List Item} (hitems : PlainErrors items) (room s : Nat)
    (captures : Captures) :
    Meters subject.deadline (Item.matchList subject items room s captures)
      (Metered.matchList subject items room s captures)
      (Metered.matchList subject.untimed items room s captures) := by
  induction items generalizing room s captures with
  | nil =>
    rw [Item.matchList]
    exact (meters_tick _).bind fun _ => meters_pure _
  | cons item rest ih =>
    rw [PlainErrors, List.mem_cons, not_or] at hitems
    rw [matchList_cons]
    refine (meters_tick _).bind fun _ => ?_
    exact meters_search (ih hitems.2) (Ne.symm hitems.1) room s captures

variable (hpattern : PlainErrors pattern.items)
include hpattern

theorem meters_matchAt (s : Nat) :
    Meters subject.deadline (matchAt subject pattern s) (Metered.matchAt subject pattern s)
      (Metered.matchAt subject.untimed pattern s) :=
  (Meters.nest fun room => meters_matchList subject hpattern room s []).bind
    fun _ => meters_pure _

/-- **A search from a start is metered**, over all positions that it tries. -/
theorem meters_find? (s : Nat) :
    Meters subject.deadline (find? subject pattern s) (Metered.find? subject pattern s)
      (Metered.find? subject.untimed pattern s) := by
  induction hn : subject.bytes.size - s using Nat.strongRecOn generalizing s with
  | ind n ih =>
    unfold find? Metered.find?
    refine (meters_matchAt subject hpattern s).bind fun found? => ?_
    cases found? with
    | some found => exact meters_pure _
    | none =>
      show Meters _ _ _ (if pattern.anchored ∨ subject.bytes.size ≤ s then _ else _)
      dsimp only
      split
      case isTrue => exact meters_pure none
      case isFalse => exact ih _ (by omega) (s + 1) rfl

theorem meters_matchHere (c : Cursor) :
    Meters subject.deadline (c.matchHere subject pattern) (Metered.matchHere subject pattern c)
      (Metered.matchHere subject.untimed pattern c) :=
  (meters_matchAt subject hpattern c.position).bind fun _ => meters_pure _

/-- **One step of a walk is metered**, over all positions that it passes. -/
theorem meters_next (c : Cursor) :
    Meters subject.deadline (c.next subject pattern) (Metered.next subject pattern c)
      (Metered.next subject.untimed pattern c) := by
  induction hn : subject.bytes.size + 1 - c.position using Nat.strongRecOn generalizing c with
  | ind n ih =>
    unfold Cursor.next Metered.next
    show Meters _ _ _ (if c.position ≤ subject.bytes.size then _ else _)
    split
    case isTrue =>
      refine (meters_matchHere subject hpattern c).bind fun found? => ?_
      cases found? with
      | some m => exact meters_pure _
      | none =>
        have hskip : c.skip.position = c.position + 1 := rfl
        exact ih _ (by omega) c.skip rfl
    case isFalse => exact meters_pure _

end Search

end LedgerReports.Pattern
