import LedgerReports.Proofs.Pattern.InPlace
import Mathlib

/-!
# What a matcher finds again

A matcher that works in place gives up an alternative by returning, and goes on with
the captures that it then finds. `Restores` says what these are. A search that has
found nothing has left them as they were. One that has found something has only gone
on: it has ended at the position or behind it, in the subject, what was open may have
been closed up to there, and there may be new captures of what lies between (`Grows`).
However a search ends, the depth is the one with which it has begun.

This is also why the matcher that works in place finds what the search finds that
passes its captures along. `Backtracks` says both of a search in place, and it has one
rule for each way in which searches are put together. Only two of them change the
captures, `Backtracks.startCapture` and `Backtracks.endCapture`, and `Backtracks.orElse`
is the one that relies on what is left: the second search is made with the captures of
the first one. The induction is on what is left of the pattern.
-/

namespace LedgerReports.Pattern

open Matcher (outcome)

/-! ## What is left -/

/-- **A capture is kept** up to a position: it is as it was, or it was open and has been closed at
the position or before it. -/
structure Capture.Kept (stop : Nat) (c c' : Capture) : Prop where
  /-- The capture begins where it began. -/
  start_eq : c'.start = c.start
  /-- It ends where it ended, if it had an end. -/
  extent : c'.extent = c.extent
    ∨ c.extent = .opened ∧ ∃ length, c'.extent = .closed length ∧ c'.start + length ≤ stop

/-- **The captures have grown** while a search has come from one position to another. -/
structure Grows (s stop : Nat) (before after : Captures) : Prop where
  /-- None has been taken away. -/
  length_le : before.length ≤ after.length
  /-- Those there were are kept. -/
  kept : ∀ (i : Nat) (c c' : Capture), before[i]? = some c → after[i]? = some c' → c.Kept stop c'
  /-- The new ones are of what lies between. -/
  new : ∀ (i : Nat) (c' : Capture), before.length ≤ i → after[i]? = some c' →
    s ≤ c'.start ∧ c'.stop ≤ stop

/-- **What a search leaves**, which has begun at `s` with some captures and at some depth. -/
structure Restores (size s : Nat) (captures : Captures) (depth : Nat)
    (o : Except Error (Option Nat) × Matcher) : Prop where
  /-- The depth is the same, whatever the search has come to. -/
  depth_eq : o.2.depth = depth
  /-- If nothing has been found then all captures are as they were. -/
  captures_eq : o.1 = .ok none → o.2.captures = captures
  /-- If something has been found then it ends at `s` or behind it, in the subject, and the captures
  have grown up to there. -/
  grows : ∀ stop, o.1 = .ok (some stop) →
    s ≤ stop ∧ stop ≤ size ∧ Grows s stop captures o.2.captures

section Captures

variable {s s' stop i : Nat} {before after captures : Captures} {c c' : Capture}

theorem Capture.kept_refl (stop : Nat) (c : Capture) : c.Kept stop c := ⟨rfl, .inl rfl⟩

/-- A capture that is kept ends at the position, if it did so before. -/
theorem Capture.Kept.stop_le (h : c.Kept stop c') (hstop : c.stop ≤ stop) : c'.stop ≤ stop := by
  obtain ⟨hstart, hextent | ⟨-, length, hextent, hle⟩⟩ := h
  · unfold Capture.stop at hstop ⊢
    rwa [hextent, hstart]
  · unfold Capture.stop
    rwa [hextent]

theorem Grows.refl (s stop : Nat) (captures : Captures) : Grows s stop captures captures where
  length_le := Nat.le_refl _
  kept i c c' hc hc' := by
    cases hc.symm.trans hc'
    exact c.kept_refl stop
  new i c' hi hc' := by
    rw [List.getElem?_eq_none hi] at hc'
    cases hc'

/-- What has grown from a later position has grown from an earlier one. -/
theorem Grows.earlier (h : Grows s' stop before after) (hs : s ≤ s') :
    Grows s stop before after :=
  ⟨h.length_le, h.kept, fun i c' hi hc' => And.imp_left (Nat.le_trans hs) (h.new i c' hi hc')⟩

/-- A capture that was opened is a new one. -/
theorem Grows.of_append (h : Grows s stop (before ++ [c]) after) (hstart : s ≤ c.start)
    (hstop : c.stop ≤ stop) : Grows s stop before after := by
  have hlength : (before ++ [c]).length = before.length + 1 := List.length_append
  refine ⟨?_, fun i c₀ c' hc₀ hc' => ?_, fun i c' hi hc' => ?_⟩
  · have hle := h.length_le
    omega
  · have hi := (List.getElem?_eq_some_iff.mp hc₀).1
    exact h.kept i c₀ c' ((List.getElem?_append_left hi).trans hc₀) hc'
  · rcases Nat.eq_or_lt_of_le hi with rfl | hlt
    · have hkept := h.kept _ c c' List.getElem?_concat_length hc'
      exact ⟨hkept.start_eq ▸ hstart, hkept.stop_le hstop⟩
    · exact h.new i c' (by omega) hc'

/-! ### Closing and opening again -/

/-- The last open capture is open. -/
theorem exists_of_lastOpen? (h : captures.lastOpen? = some i) :
    ∃ c, captures[i]? = some c ∧ c.extent = .opened := by
  induction captures generalizing i with
  | nil => cases h
  | cons c rest ih =>
    rw [Captures.lastOpen?] at h
    cases hrest : Captures.lastOpen? rest with
    | some j =>
      rw [hrest] at h
      cases h
      exact ih hrest
    | none =>
      rw [hrest] at h
      dsimp only at h
      split at h
      case isTrue hopened =>
        cases h
        exact ⟨c, rfl, hopened⟩
      case isFalse => cases h

/-- The last open capture is the one that is closed. -/
theorem close?_eq (s : Nat) (captures : Captures) :
    captures.close? s
      = captures.lastOpen?.map fun i => captures.withExtent i fun c => .closed (s - c.start) := by
  induction captures with
  | nil => rfl
  | cons c rest ih =>
    rw [Captures.close?, Captures.lastOpen?, ih]
    cases Captures.lastOpen? rest with
    | some i => rfl
    | none =>
      dsimp only [Option.map_none]
      split <;> rfl

theorem getElem?_withExtent (hc : captures[i]? = some c) (extent : Capture → Extent) :
    (captures.withExtent i extent)[i]? = some { c with extent := extent c } := by
  rw [Captures.withExtent, List.getElem?_modify_eq, hc]
  rfl

theorem getElem?_withExtent_ne {j : Nat} (h : i ≠ j) (extent : Capture → Extent) :
    (captures.withExtent i extent)[j]? = captures[j]? := List.getElem?_modify_ne _ _ h

/-- A capture that was open and has been opened again is as it was. -/
theorem withExtent_opened (hc : captures[i]? = some c) (hopened : c.extent = .opened)
    (extent : Capture → Extent) :
    (captures.withExtent i extent).withExtent i (fun _ => .opened) = captures := by
  refine List.ext_getElem? fun j => ?_
  by_cases hj : i = j
  · subst hj
    rw [getElem?_withExtent (getElem?_withExtent hc extent), hc, ← hopened]
  · rw [getElem?_withExtent_ne hj, getElem?_withExtent_ne hj]

/-- A capture that was closed has been kept. -/
theorem Grows.of_close (hc : before[i]? = some c) (hopened : c.extent = .opened)
    (hstart : c.start ≤ s) (hs : s ≤ stop)
    (h : Grows s stop (before.withExtent i fun c => .closed (s - c.start)) after) :
    Grows s stop before after := by
  have hlength : (before.withExtent i fun c => .closed (s - c.start)).length = before.length :=
    List.length_modify ..
  refine ⟨hlength ▸ h.length_le, fun j c₀ c' hc₀ hc' => ?_,
    fun j c' hj => h.new j c' (hlength ▸ hj)⟩
  by_cases hj : i = j
  · subst hj
    cases hc.symm.trans hc₀
    obtain ⟨hstart', hextent | ⟨hclosed, -⟩⟩ :=
      h.kept i _ c' (getElem?_withExtent hc _) hc'
    · refine ⟨hstart', .inr ⟨hopened, s - c.start, hextent, ?_⟩⟩
      rw [hstart']
      show c.start + (s - c.start) ≤ stop
      omega
    · cases hclosed
  · exact h.kept j c₀ c' ((getElem?_withExtent_ne hj _).trans hc₀) hc'

end Captures

/-! ## Searching in place -/

/-- What a search in place tells: where it ends, with the captures then, and the steps. -/
def Matcher.told (o : Except Error (Option Nat) × Matcher) :
    Except Error (Option (Nat × Captures) × Nat) :=
  (fun stop? => (stop?.map fun stop => (stop, o.2.captures), o.2.steps)) <$> o.1

/-- **A search in place backtracks**: `y` leaves what it should when it begins at `s` with some
captures, and it tells what the search `x` gives that passes the captures along. -/
structure Backtracks (size s : Nat) (captures : Captures) (y : MatcherM (Option Nat))
    (x : (room : Nat) → SearchM (Option (Nat × Captures))) : Prop where
  /-- At any depth the search leaves what it should. -/
  restores : ∀ depth steps,
    Restores size s captures depth (outcome y ⟨captures, depth, steps⟩)
  /-- At a depth that is not too great it tells what the other search gives. -/
  follows : ∀ depth steps, depth ≤ maxDepth →
    (x (maxDepth - depth)).run steps = Matcher.told (outcome y ⟨captures, depth, steps⟩)

section Rules

variable {α : Type} {size s s' : Nat} {captures : Captures} {y y₁ y₂ : MatcherM (Option Nat)}
  {x x₁ x₂ : (room : Nat) → SearchM (Option (Nat × Captures))}

/-- A search that fails leaves anything but another depth. -/
theorem restores_error {depth : Nat} {m : Matcher} {e : Error} (h : m.depth = depth) :
    Restores size s captures depth (.error e, m) := ⟨h, nofun, nofun⟩

theorem Restores.earlier {depth : Nat} {o : Except Error (Option Nat) × Matcher}
    (h : Restores size s' captures depth o) (hs : s ≤ s') : Restores size s captures depth o :=
  ⟨h.depth_eq, h.captures_eq, fun stop ho =>
    have hgrows := h.grows stop ho
    ⟨Nat.le_trans hs hgrows.1, hgrows.2.1, hgrows.2.2.earlier hs⟩⟩

/-- **A change of the captures that is taken back** when nothing has been found leaves what it
should, if the search that it was made for does and the captures have grown by the change too. -/
theorem Restores.undone {changed : Captures} {undo : Captures → Captures} {depth : Nat}
    {o : Except Error (Option Nat) × Matcher} (h : Restores size s changed depth o)
    (hundo : undo changed = captures) (hgrows : ∀ stop after, s ≤ stop →
      Grows s stop changed after → Grows s stop captures after) :
    Restores size s captures depth (Matcher.undone undo o) := by
  obtain ⟨e | _ | stop, m⟩ := o
  · exact restores_error h.depth_eq
  · exact ⟨h.depth_eq, fun _ => (congrArg undo (h.captures_eq rfl)).trans hundo, nofun⟩
  · refine ⟨h.depth_eq, nofun, fun stop' hstop' => ?_⟩
    obtain ⟨hle, hsize, hafter⟩ := h.grows stop' hstop'
    exact ⟨hle, hsize, hgrows stop' _ hle hafter⟩

/-- When nothing has been found the captures are not told. -/
theorem told_undone (undo : Captures → Captures) (o : Except Error (Option Nat) × Matcher) :
    Matcher.told (Matcher.undone undo o) = Matcher.told o := by
  obtain ⟨e | _ | stop, m⟩ := o <;> rfl

theorem backtracks_throw (e : Error) :
    Backtracks size s captures (throw e) (fun _ => throw e) where
  restores _ _ := restores_error rfl
  follows _ _ _ := rfl

theorem backtracks_none : Backtracks size s captures (pure none) (fun _ => pure none) where
  restores _ _ := ⟨rfl, fun _ => rfl, nofun⟩
  follows _ _ _ := rfl

theorem backtracks_some (hs : s ≤ size) :
    Backtracks size s captures (pure (some s)) (fun _ => pure (some (s, captures))) where
  restores _ _ := by
    refine ⟨rfl, nofun, fun stop hstop => ?_⟩
    cases hstop
    exact ⟨Nat.le_refl s, hs, .refl s s captures⟩
  follows _ _ _ := rfl

/-- A search that begins later. -/
theorem Backtracks.earlier (h : Backtracks size s' captures y x) (hs : s ≤ s') :
    Backtracks size s captures y x :=
  ⟨fun depth steps => (h.restores depth steps).earlier hs, h.follows⟩

/-- A part that only counts its steps leaves the captures and the depth. -/
theorem Backtracks.counting_bind {P : α → Prop} {part : MeterM α} {z : SearchM α}
    {f : α → MatcherM (Option Nat)} {g : α → (room : Nat) → SearchM (Option (Nat × Captures))}
    (htells : ∀ n, z.run n = Metered.told (Metered.outcome part n))
    (hagree : Agree P z z) (h : ∀ a, P a → Backtracks size s captures (f a) (g a)) :
    Backtracks size s captures (Matcher.counting part >>= f)
      (fun room => z >>= fun a => g a room) := by
  constructor
  · intro depth steps
    have hread := hagree.reads steps
    rw [htells] at hread
    rw [Matcher.outcome_bind, Matcher.outcome_counting]
    dsimp only
    generalize Metered.outcome part steps = o at hread
    obtain ⟨e | a, n⟩ := o
    · exact restores_error rfl
    · exact (h a hread).restores depth n
  · intro depth steps hdepth
    have hread := hagree.reads steps
    rw [htells] at hread
    rw [Matcher.outcome_bind, Matcher.outcome_counting, StateT.run_bind, htells]
    dsimp only
    generalize Metered.outcome part steps = o at hread
    obtain ⟨e | a, n⟩ := o
    · rfl
    · exact (h a hread).follows depth n hdepth

/-- What is read of the subject may fail, and changes nothing. -/
theorem Backtracks.liftM_bind {P : α → Prop} {r : Except Error α}
    {f : α → MatcherM (Option Nat)} {g : α → (room : Nat) → SearchM (Option (Nat × Captures))}
    (hreads : Reads P r) (h : ∀ a, P a → Backtracks size s captures (f a) (g a)) :
    Backtracks size s captures (liftM r >>= f) (fun room => liftM r >>= fun a => g a room) := by
  cases r with
  | error e => exact ⟨fun _ _ => restores_error rfl, fun _ _ _ => rfl⟩
  | ok a => exact ⟨(h a hreads).restores, (h a hreads).follows⟩

/-- What depends on the captures is done with those there are. -/
theorem Backtracks.get_bind {f : Matcher → MatcherM (Option Nat)}
    (h : ∀ m : Matcher, m.captures = captures → Backtracks size s captures (f m) x) :
    Backtracks size s captures (get >>= f) x :=
  ⟨fun depth steps => (h ⟨captures, depth, steps⟩ rfl).restores depth steps,
    fun depth steps => (h ⟨captures, depth, steps⟩ rfl).follows depth steps⟩

/-- **A deeper search** has one level less, and comes up again. -/
theorem Backtracks.deeper (h : Backtracks size s captures y x) :
    Backtracks size s captures (Matcher.deeper y) (fun room => nest room x) := by
  constructor
  · intro depth steps
    rw [Matcher.outcome_deeper]
    split
    case isTrue => exact restores_error rfl
    case isFalse =>
      have hrestores := h.restores (depth + 1) steps
      refine ⟨?_, hrestores.captures_eq, hrestores.grows⟩
      show (outcome y ⟨captures, depth + 1, steps⟩).2.depth - 1 = depth
      rw [hrestores.depth_eq]
      rfl
  · intro depth steps hdepth
    rw [Matcher.outcome_deeper]
    dsimp only
    split
    case isTrue hfull =>
      rw [hfull, Nat.sub_self]
      rfl
    case isFalse hroom =>
      have hlevel : maxDepth - depth = maxDepth - (depth + 1) + 1 := by omega
      rw [hlevel]
      exact h.follows (depth + 1) steps (by omega)

/-- **A second search** is made with the captures that the first one has found. -/
theorem Backtracks.orElse {k : Option (Nat × Captures) → Nat → SearchM (Option (Nat × Captures))}
    (h₁ : Backtracks size s captures y₁ x₁) (h₂ : Backtracks size s captures y₂ (k none))
    (hsome : ∀ found room, k (some found) room = pure (some found)) :
    Backtracks size s captures (Matcher.orElse y₁ y₂)
      (fun room => x₁ room >>= fun found? => k found? room) := by
  constructor
  · intro depth steps
    have hrestores := h₁.restores depth steps
    rw [Matcher.outcome_orElse]
    generalize outcome y₁ ⟨captures, depth, steps⟩ = o at hrestores
    obtain ⟨e | _ | stop, captures', depth', steps'⟩ := o
    · exact hrestores
    · obtain rfl : depth' = depth := hrestores.depth_eq
      obtain rfl : captures' = captures := hrestores.captures_eq rfl
      exact h₂.restores depth' steps'
    · exact hrestores
  · intro depth steps hdepth
    have hrestores := h₁.restores depth steps
    rw [StateT.run_bind, h₁.follows depth steps hdepth, Matcher.outcome_orElse]
    generalize outcome y₁ ⟨captures, depth, steps⟩ = o at hrestores
    obtain ⟨e | _ | stop, captures', depth', steps'⟩ := o
    · rfl
    · obtain rfl : depth' = depth := hrestores.depth_eq
      obtain rfl : captures' = captures := hrestores.captures_eq rfl
      exact h₂.follows depth' steps' hdepth
    · exact congrArg (fun z : SearchM _ => z.run steps') (hsome _ _)

/-- **A capture is opened**, and taken away again if nothing is found. -/
theorem Backtracks.startCapture {c : Capture} (hstart : s ≤ c.start) (hstop : c.stop ≤ s)
    (h : Backtracks size s (captures ++ [c]) y x) :
    Backtracks size s captures (Matcher.startCapture c y) (fun room =>
      if captures.length < maxCaptures then nest room x else throw .tooManyCaptures) := by
  constructor
  · intro depth steps
    rw [Matcher.outcome_startCapture]
    split
    case isTrue => exact restores_error rfl
    case isFalse =>
      refine (h.deeper.restores depth steps).undone List.dropLast_concat fun stop _ hle hgrows => ?_
      exact hgrows.of_append hstart (Nat.le_trans hstop hle)
  · intro depth steps hdepth
    rw [Matcher.outcome_startCapture]
    dsimp only
    split
    case isTrue hroom =>
      rw [if_neg (Nat.not_le.mpr hroom), told_undone]
      exact h.deeper.follows depth steps hdepth
    case isFalse hfull =>
      rw [if_pos (Nat.not_lt.mp hfull)]
      rfl

/-- **A capture is closed**, and opened again if nothing is found. -/
theorem Backtracks.endCapture {x : Captures → (room : Nat) → SearchM (Option (Nat × Captures))}
    (hinside : Inside size s captures)
    (h : ∀ closed, captures.close? s = some closed → Backtracks size s closed y (x closed)) :
    Backtracks size s captures (Matcher.endCapture s y) (fun room =>
      match captures.close? s with
      | some closed => nest room (x closed)
      | none => throw .unopenedCapture) := by
  rw [close?_eq] at h ⊢
  cases hopen : captures.lastOpen? with
  | none =>
    constructor
    · intro depth steps
      rw [Matcher.outcome_endCapture, hopen]
      exact restores_error rfl
    · intro depth steps hdepth
      rw [Matcher.outcome_endCapture, hopen]
      rfl
  | some i =>
    obtain ⟨c, hc, hopened⟩ := exists_of_lastOpen? hopen
    have hstart := (hinside.2 c (List.mem_of_getElem? hc)).1
    let closed := captures.withExtent i fun c => .closed (s - c.start)
    have hdeeper : Backtracks size s closed (Matcher.deeper y) (fun room => nest room (x closed)) :=
      (h closed (by rw [hopen]; rfl)).deeper
    constructor
    · intro depth steps
      rw [Matcher.outcome_endCapture, hopen]
      exact (hdeeper.restores depth steps).undone (withExtent_opened hc hopened _)
        fun stop _ hle hgrows => hgrows.of_close hc hopened hstart hle
    · intro depth steps hdepth
      rw [Matcher.outcome_endCapture, hopen]
      exact (hdeeper.follows depth steps hdepth).trans (told_undone _ _).symm

/-- The loop of a greedy item makes one search after the other, from the farthest position on. -/
theorem Backtracks.backOff {next : Nat → MatcherM (Option Nat)}
    {next' : Nat → (room : Nat) → SearchM (Option (Nat × Captures))} {first n : Nat}
    (h : ∀ s', first ≤ s' → s' ≤ first + n → Backtracks size s captures (next s') (next' s')) :
    Backtracks size s captures (Matcher.backOff next first n)
      (fun room => Pattern.backOff (fun s => next' s room) first n) := by
  induction n with
  | zero => exact h first (Nat.le_refl first) (Nat.le_refl first)
  | succ n ih =>
    exact (h (first + n + 1) (by omega) (Nat.le_refl _)).orElse
      (ih fun s' hs hs' => h s' hs (by omega)) fun _ _ => rfl

/-- The loop of a lazy item makes one search after the other, from the nearest position on. -/
theorem Backtracks.advance {subject : Subject} {bytes : CharClass}
    {next : Nat → MatcherM (Option Nat)}
    {next' : Nat → (room : Nat) → SearchM (Option (Nat × Captures))} {first : Nat}
    (hfirst : first ≤ subject.bytes.size)
    (h : ∀ s', first ≤ s' → s' ≤ subject.bytes.size →
      Backtracks size s captures (next s') (next' s')) :
    Backtracks size s captures (Matcher.advance subject bytes next first)
      (fun room => Pattern.advance subject bytes (fun s => next' s room) first) := by
  induction hn : subject.bytes.size - first using Nat.strongRecOn generalizing first with
  | ind n ih =>
    have hunfold (room : Nat) := Pattern.advance.eq_1 subject bytes (fun s => next' s room) first
    simp only [hunfold]
    rw [Matcher.advance]
    refine (h first (Nat.le_refl first) hfirst).orElse ?_ fun _ _ => rfl
    dsimp only
    split
    case isTrue hlt => exact ih _ (by omega) hlt.2 (fun s' hs => h s' (Nat.le_of_succ_le hs)) rfl
    case isFalse => exact backtracks_none

end Rules

/-! ## One item -/

section Step

variable {subject : Subject} {item : Item} {s : Nat} {captures : Captures}
  {next : Nat → MatcherM (Option Nat)}
  {next' : (room s : Nat) → Captures → SearchM (Option (Nat × Captures))}

/-- **What an item does in place backtracks**, if what comes after it does. -/
theorem backtracks_search
    (hnext : ∀ s captures, Inside subject.bytes.size s captures →
      Backtracks subject.bytes.size s captures (next s) (fun room => next' room s captures))
    (h : Inside subject.bytes.size s captures) :
    Backtracks subject.bytes.size s captures (Matcher.search subject next item s)
      (fun room => item.search subject next' room s captures) := by
  have hlater (s' : Nat) (hs : s ≤ s') (hs' : s' ≤ subject.bytes.size) :
      Backtracks subject.bytes.size s captures (next s') (fun room => next' room s' captures) :=
    (hnext s' captures (h.later hs hs')).earlier hs
  unfold Matcher.search Item.search
  cases item with
  | openCapture =>
    exact .startCapture (Nat.le_refl s) (Nat.le_refl s) (hnext s _ (h.append rfl rfl))
  | positionCapture =>
    exact .startCapture (Nat.le_refl s) (Nat.le_refl s) (hnext s _ (h.append rfl rfl))
  | closeCapture => exact .endCapture h fun closed hclosed => hnext s closed (h.close hclosed)
  | endAnchor =>
    dsimp only
    split
    case isTrue => exact backtracks_some h.1
    case isFalse => exact backtracks_none
  | balance opening closing =>
    dsimp only
    split
    case isTrue =>
      refine .counting_bind (meters_balanceEnd? subject opening closing 1 (s + 1)).tells
        (agree_balanceEnd? 1 (s + 1)) fun stop? hstop => ?_
      cases stop? with
      | some stop =>
        have hbounds := hstop stop rfl
        exact hlater stop (by omega) hbounds.2
      | none => exact backtracks_none
    case isFalse => exact backtracks_none
  | frontier set =>
    refine .liftM_bind (reads_atFrontier set h.1) fun there _ => ?_
    cases there with
    | true => exact hlater s (Nat.le_refl s) h.1
    | false => exact backtracks_none
  | backReference index =>
    refine .get_bind fun m hm => ?_
    dsimp only
    rw [hm]
    refine .liftM_bind (reads_referenced h index) fun text _ => ?_
    split
    case isTrue htext => exact hlater _ (Nat.le_add_right ..) (le_of_startsWithAt h.1 htext)
    case isFalse => exact backtracks_none
  | single bytes repetition =>
    dsimp only
    split
    case isTrue hmatches =>
      have hs := lt_size_of_matchesAt hmatches
      cases repetition with
      | once => exact hlater (s + 1) (Nat.le_succ s) hs
      | optional =>
        exact (hlater (s + 1) (Nat.le_succ s) hs).deeper.orElse (hlater s (Nat.le_refl s) h.1)
          fun _ _ => rfl
      | greedy =>
        refine .counting_bind (meters_runEnd subject bytes s).tells (agree_runEnd h.1)
          fun stop hstop => ?_
        exact .backOff fun s' hs hs' => (hlater s' hs (by omega)).deeper
      | greedyOnce =>
        refine .counting_bind (meters_runEnd subject bytes (s + 1)).tells (agree_runEnd hs)
          fun stop hstop => ?_
        exact .backOff fun s' hs hs' => (hlater s' (by omega) (by omega)).deeper
      | lazy => exact .advance h.1 fun s' hs hs' => (hlater s' hs hs').deeper
    case isFalse =>
      cases repetition with
      | once => exact backtracks_none
      | greedyOnce => exact backtracks_none
      | optional => exact hlater s (Nat.le_refl s) h.1
      | greedy => exact hlater s (Nat.le_refl s) h.1
      | lazy => exact hlater s (Nat.le_refl s) h.1
  | invalid e => exact backtracks_throw e

end Step

/-! ## A whole search -/

section Run

variable {subject : Subject} {text : ByteArray} {p s : Nat} {captures : Captures}

/-- **Matching in place backtracks**, from a position of the pattern and a place inside the
subject. -/
theorem backtracks_matchHere (hp : p ≤ text.size) (h : Inside subject.bytes.size s captures) :
    Backtracks subject.bytes.size s captures (Matcher.matchHere subject text p s)
      (fun room => Item.matchList subject (Item.readAll text p) room s captures) := by
  induction hn : text.size - p using Nat.strongRecOn generalizing p s captures with
  | ind n ih =>
    rw [Matcher.matchHere]
    have htells := (meters_tick subject.deadline).tells
    by_cases hend : p = text.size
    · rw [Item.readAll_of_le (Nat.le_of_eq hend.symm), if_pos hend]
      simp only [Item.matchList]
      exact .counting_bind htells (agree_tick _) fun _ _ => backtracks_some h.1
    · have hlt : p < text.size := by omega
      have hitem := reads_item hlt
      rw [if_neg hend]
      split
      case h_1 e hread =>
        rw [Item.readAll_of_error hlt hread]
        simp only [matchList_cons]
        exact .counting_bind htells (agree_tick _) fun _ _ => backtracks_throw e
      case h_2 item stop hread =>
        rw [hread] at hitem
        obtain ⟨⟨hstop, hsize⟩, -⟩ := hitem
        rw [Item.readAll_of_read hlt hread]
        simp only [matchList_cons]
        refine .counting_bind htells (agree_tick _) fun _ _ => ?_
        exact backtracks_search (fun s captures h => ih _ (by omega) hsize h rfl) h

end Run

/-- **Backtracking restores the matcher.** A search in place begins at a position of the pattern and
one of the subject, with captures that begin there or before and end in the subject, and at any
depth. If it finds nothing then all captures are as they were. If it finds something then that ends
at the position or behind it, in the subject; the captures there were begin where they began, and
only those that were open may have been closed, at the end of what was found or before it. The depth
is the same in any case, also if the search fails.

So it does not matter that the matcher works in place: unless it is deeper than it can be, it finds
what the search finds that passes its captures along, with the same captures and after as many
steps, or fails as that does. -/
theorem backtracking_restores_matcher (subject : Subject) (text : ByteArray) (p s : Nat)
    (m : Matcher) (hp : p ≤ text.size) (h : Inside subject.bytes.size s m.captures) :
    Restores subject.bytes.size s m.captures m.depth (outcome (Matcher.doMatch subject text p s) m)
      ∧ (m.depth ≤ maxDepth →
        (nest (maxDepth - m.depth) fun room =>
          Item.matchList subject (Item.readAll text p) room s m.captures).run m.steps
            = Matcher.told (outcome (Matcher.doMatch subject text p s) m)) := by
  have hbacktracks := (backtracks_matchHere hp h).deeper
  exact ⟨hbacktracks.restores m.depth m.steps, hbacktracks.follows m.depth m.steps⟩

/-- The pattern `a*)(.)b` is tried at the two bytes `a` of `xaac`, with a capture open there. It
closes this capture and opens another one, three times over, and finds nothing, as the search does
that passes its captures along. -/
theorem nothing_found_leaves_capture_open :
    let subject : Subject := ⟨"xaac".toUTF8, .never⟩
    let pattern := "a*)(.)b".toUTF8
    let o := outcome (Matcher.doMatch subject pattern 0 1) ⟨[⟨1, .opened⟩], 1, 0⟩
    o.1 = .ok none ∧ o.2.captures = [⟨1, .opened⟩] ∧ o.2.depth = 1
      ∧ (nest (maxDepth - 1) fun room =>
          Item.matchList subject (Item.readAll pattern 0) room 1 [⟨1, .opened⟩]).run 0
            = Matcher.told o := by
  obtain ⟨hrestores, hfollows⟩ := backtracking_restores_matcher ⟨"xaac".toUTF8, .never⟩
    "a*)(.)b".toUTF8 0 1 ⟨[⟨1, .opened⟩], 1, 0⟩ (by decide) (by decide)
  have hnone : (outcome (Matcher.doMatch ⟨"xaac".toUTF8, .never⟩ "a*)(.)b".toUTF8 0 1)
      ⟨[⟨1, .opened⟩], 1, 0⟩).1 = .ok none := by cbv
  exact ⟨hnone, hrestores.captures_eq hnone, hrestores.depth_eq, hfollows (by decide)⟩

end LedgerReports.Pattern
