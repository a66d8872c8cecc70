import LedgerReports.Proofs.Script.LateSearches
import Mathlib

/-!
# Replacing in a late run

A replacing makes many searches, and its count of steps goes on from one to the
next (`replacingSteps`). In between it asks what a match is to be replaced with,
which may call functions of the script. So the two runs, the late one and the one
without a deadline, are compared step by step (`stopsIf_run`): until the count
reaches the end of an interval they do the same on the same machine, unless a
call is stopped before. The induction is on the number of steps that may still be
made; what it needs is that the count is still short of the end of the interval,
and a search that has given something in time leaves it there.
-/

namespace LedgerReports.Script

open Pattern

/-! ## The steps of a replacing -/

section Steps

variable (bytes : ByteArray) (pattern : Pattern) (rep : Replacer ScriptM) (limit : Int)
variable (maxLength : Nat)

/-- What a step of a replacing does once it has searched. -/
def afterSearch (r : Replacing) : Option Match × Nat → ScriptM Replacing.Progress
  | (some found, steps) => do
    let kept ← searched (found.whole bytes)
    let image ← rep found
    searched (({ r with steps }.afterMatch found kept image).settle pattern maxLength)
  | (none, steps) =>
    match byteAt? bytes r.cursor.position with
    | some b => searched (({ r with steps }.afterByte b).settle pattern maxLength)
    | none => return .done { r with steps }

theorem step_eq (d : Deadline) (r : Replacing) :
    r.step ⟨bytes, d⟩ pattern rep maxLength
      = searched ((r.cursor.matchHere ⟨bytes, d⟩ pattern).run r.steps)
        >>= afterSearch bytes pattern rep maxLength r := by
  unfold Replacing.step
  refine bind_congr fun ⟨found?, steps⟩ => ?_
  cases found? with
  | some found => rfl
  | none =>
    unfold afterSearch
    dsimp only
    cases byteAt? bytes r.cursor.position <;> rfl

/-- The count when a search ends that a replacing makes, whatever comes of it. -/
def searchSteps (d : Deadline) (r : Replacing) : Nat :=
  Metered.steps (Metered.matchHere ⟨bytes, d⟩ pattern r.cursor) r.steps

/-- **The count of a replacing** when it is over, whatever comes of it. -/
def replacingSteps (setting : Setting) (d : Deadline) : Nat → Replacing → Machine → Nat
  | 0, r, _ => r.steps
  | budget + 1, r, m =>
    if limit ≤ r.count then r.steps
    else
      match (r.step ⟨bytes, d⟩ pattern rep maxLength).run setting m with
      | .ok (.onward r) m => replacingSteps setting d budget r m
      | .ok (.done r) _ => r.steps
      | .error _ _ => searchSteps bytes pattern d r

end Steps

/-- The count that a step has left. -/
def progressSteps : Replacing.Progress → Nat
  | .onward r | .done r => r.steps

section Count

variable {setting : Setting} {bytes : ByteArray} {pattern : Pattern} {rep : Replacer ScriptM}
variable {limit : Int} {maxLength : Nat} {d : Deadline} {r : Replacing} {m m' : Machine}

theorem steps_of_settle {progress : Replacing.Progress}
    (h : r.settle pattern maxLength = .ok progress) : progressSteps progress = r.steps := by
  rw [settle_eq_ok h]
  split <;> rfl

/-- What comes after a search leaves the count. -/
theorem steps_of_run_afterSearch {found? : Option Match} {n : Nat} {progress : Replacing.Progress}
    (h : (afterSearch bytes pattern rep maxLength r (found?, n)).run setting m
      = .ok progress m') : progressSteps progress = n := by
  cases found? with
  | some found =>
    obtain ⟨kept, _, -, h⟩ := run_bind_eq_ok h
    obtain ⟨image, _, -, h⟩ := run_bind_eq_ok h
    exact steps_of_settle (run_searched_eq_ok h).1
  | none =>
    dsimp only [afterSearch] at h
    split at h
    · exact steps_of_settle (run_searched_eq_ok h).1
    · obtain ⟨rfl, -⟩ := run_pure_eq_ok h
      rfl

/-- What a search tells of the count is the count. -/
theorem searchSteps_of_run (hpattern : PlainErrors pattern.items) {found? : Option Match} {n : Nat}
    (h : (r.cursor.matchHere ⟨bytes, d⟩ pattern).run r.steps = .ok (found?, n)) :
    searchSteps bytes pattern d r = n := by
  rw [(meters_matchHere ⟨bytes, d⟩ hpattern r.cursor).tells] at h
  unfold searchSteps Metered.steps
  generalize Metered.outcome _ r.steps = o at h ⊢
  obtain ⟨result, k⟩ := o
  cases result with
  | error e => cases h
  | ok a =>
    cases h
    rfl

/-- A step that goes well leaves the count of its search. -/
theorem progressSteps_of_run_step (hpattern : PlainErrors pattern.items)
    {progress : Replacing.Progress}
    (h : (r.step ⟨bytes, d⟩ pattern rep maxLength).run setting m = .ok progress m') :
    progressSteps progress = searchSteps bytes pattern d r := by
  rw [step_eq] at h
  obtain ⟨⟨found?, n⟩, _, hrun, h⟩ := run_bind_eq_ok h
  rw [steps_of_run_afterSearch h, searchSteps_of_run hpattern (run_searched_eq_ok hrun).1]

/-- **How a replacing counts**: it is over before it searches, or its first search is the last one,
or the first step leaves the count of its search to the steps that come after. -/
theorem replacingSteps_cases (hpattern : PlainErrors pattern.items) (budget : Nat) (r : Replacing)
    (m : Machine) :
    (limit ≤ r.count
      ∧ replacingSteps bytes pattern rep limit maxLength setting d (budget + 1) r m = r.steps)
    ∨ replacingSteps bytes pattern rep limit maxLength setting d (budget + 1) r m
        = searchSteps bytes pattern d r
    ∨ ∃ r' m', (r.step ⟨bytes, d⟩ pattern rep maxLength).run setting m = .ok (.onward r') m'
        ∧ r'.steps = searchSteps bytes pattern d r
        ∧ replacingSteps bytes pattern rep limit maxLength setting d (budget + 1) r m
          = replacingSteps bytes pattern rep limit maxLength setting d budget r' m' := by
  rw [replacingSteps]
  split
  case isTrue hlimit => exact .inl ⟨hlimit, rfl⟩
  case isFalse =>
    cases hrun : (r.step ⟨bytes, d⟩ pattern rep maxLength).run setting m with
    | error v m' => exact .inr (.inl rfl)
    | ok progress m' =>
      have hsteps := progressSteps_of_run_step hpattern hrun
      cases progress with
      | onward r' => exact .inr (.inr ⟨r', m', rfl, hsteps, rfl⟩)
      | done r' => exact .inr (.inl hsteps)

/-- Without a deadline the count only grows. -/
theorem le_searchSteps (hpattern : PlainErrors pattern.items) (r : Replacing) :
    r.steps ≤ searchSteps bytes pattern .never r :=
  (meters_matchHere ⟨bytes, .never⟩ hpattern r.cursor).le r.steps

theorem le_replacingSteps (hpattern : PlainErrors pattern.items) (budget : Nat) (r : Replacing)
    (m : Machine) :
    r.steps ≤ replacingSteps bytes pattern rep limit maxLength setting .never budget r m := by
  induction budget generalizing r m with
  | zero => exact Nat.le_refl _
  | succ budget ih =>
    have hle : r.steps ≤ searchSteps bytes pattern .never r := le_searchSteps hpattern r
    rcases replacingSteps_cases hpattern budget r m with
      ⟨-, heq⟩ | heq | ⟨r', m', -, hsteps, heq⟩
    · exact Nat.le_of_eq heq.symm
    · exact heq ▸ hle
    · exact heq ▸ Nat.le_trans (hsteps ▸ hle) (ih r' m')

/-- The count of a replacing is no less than the one of its first search. -/
theorem searchSteps_le_replacingSteps (hpattern : PlainErrors pattern.items)
    (hlimit : ¬ limit ≤ r.count) (budget : Nat) :
    searchSteps bytes pattern .never r
      ≤ replacingSteps bytes pattern rep limit maxLength setting .never (budget + 1) r m := by
  rcases replacingSteps_cases hpattern budget r m with
    ⟨h, -⟩ | heq | ⟨r', m', -, hsteps, heq⟩
  · exact absurd h hlimit
  · exact Nat.le_of_eq heq.symm
  · exact heq ▸ hsteps ▸ le_replacingSteps hpattern budget r' m'

/-- A late step that goes well has not come to the end of the interval. -/
theorem searchSteps_lt_of_run_step (hpattern : PlainErrors pattern.items)
    (hr : r.steps < pollInterval) {progress : Replacing.Progress}
    (h : (r.step ⟨bytes, .expired⟩ pattern rep maxLength).run setting m = .ok progress m') :
    searchSteps bytes pattern .expired r < pollInterval := by
  have hstops := stopsIf_matchHere bytes hpattern r.cursor hr
  rw [step_eq] at h
  obtain ⟨⟨found?, n⟩, _, hrun, -⟩ := run_bind_eq_ok h
  have hlate := (run_searched_eq_ok hrun).1
  by_cases hsteps : pollInterval ≤ searchSteps bytes pattern .never r
  · rw [hstops.stopped hsteps] at hlate
    cases hlate
  · have huntimed := (hstops.same hsteps).symm.trans hlate
    rw [searchSteps_of_run hpattern hlate, ← searchSteps_of_run hpattern huntimed]
    exact Nat.lt_of_not_le hsteps

/-- **A late replacing does not go beyond the steps of an interval.** -/
theorem replacingSteps_expired_le (hpattern : PlainErrors pattern.items) (budget : Nat)
    (hr : r.steps < pollInterval) :
    replacingSteps bytes pattern rep limit maxLength setting .expired budget r m
      ≤ pollInterval := by
  induction budget generalizing r m with
  | zero => exact Nat.le_of_lt hr
  | succ budget ih =>
    have hle : searchSteps bytes pattern .expired r ≤ pollInterval :=
      (meters_matchHere ⟨bytes, .expired⟩ hpattern r.cursor).steps_le hr
    rcases replacingSteps_cases hpattern budget r m with
      ⟨-, heq⟩ | heq | ⟨r', m', hrun, hsteps, heq⟩
    · exact heq ▸ Nat.le_of_lt hr
    · exact heq ▸ hle
    · exact heq ▸ ih (hsteps ▸ searchSteps_lt_of_run_step hpattern hr hrun)

end Count

/-! ## Two replacings -/

section Replace

variable {allowed : Prop} {setting : Setting} {bytes : ByteArray} {pattern : Pattern}
variable {rep : Replacer ScriptM} {limit : Int} {maxLength : Nat} {r : Replacing} {m : Machine}

theorem mayStop_afterSearch (hrep : ∀ found, MayStop allowed setting (rep found)) (r : Replacing)
    (read : Option Match × Nat) :
    MayStop allowed setting (afterSearch bytes pattern rep maxLength r read) := by
  obtain ⟨found?, n⟩ := read
  cases found? with
  | some found =>
    refine (mayStop_searched _).bind fun kept => (hrep found).bind fun image => ?_
    exact mayStop_searched _
  | none =>
    dsimp only [afterSearch]
    split
    · exact mayStop_searched _
    · exact (timeless_pure _).mayStop

/-- A step whose search comes to the end of an interval is stopped. -/
theorem stopped_step (hpattern : PlainErrors pattern.items) (hr : r.steps < pollInterval)
    (hsteps : pollInterval ≤ searchSteps bytes pattern .never r) :
    Stopped ((r.step ⟨bytes, .expired⟩ pattern rep maxLength).run setting.late m) := by
  rw [step_eq, (stopsIf_matchHere bytes hpattern r.cursor hr).stopped hsteps]
  exact (stopped_searched _ m).bind _

/-- A step whose search does not come to the end of an interval does the same, or a call is
stopped. -/
theorem mayStop_step (hpattern : PlainErrors pattern.items)
    (hrep : ∀ found, MayStop allowed setting (rep found)) (hr : r.steps < pollInterval)
    (hsteps : ¬ pollInterval ≤ searchSteps bytes pattern .never r) (m : Machine) :
    (r.step ⟨bytes, .expired⟩ pattern rep maxLength).run setting.late m
        = (r.step ⟨bytes, .never⟩ pattern rep maxLength).run setting.untimed m
      ∨ allowed
        ∧ Stopped ((r.step ⟨bytes, .expired⟩ pattern rep maxLength).run setting.late m) := by
  rw [step_eq, step_eq, (stopsIf_matchHere bytes hpattern r.cursor hr).same hsteps]
  exact (mayStop_searched _).bind (mayStop_afterSearch hrep r) m

/-- **A replacing is stopped exactly if it comes to the end of an interval**, unless a call is
stopped before. -/
theorem stopsIf_run (hpattern : PlainErrors pattern.items)
    (hrep : ∀ found, MayStop allowed setting (rep found)) (budget : Nat)
    (hr : r.steps < pollInterval) (m : Machine) :
    StopsIf allowed
      (pollInterval ≤ replacingSteps bytes pattern rep limit maxLength setting.untimed .never
        budget r m)
      ((Replacing.run ⟨bytes, .expired⟩ pattern rep limit maxLength budget r).run setting.late m)
      ((Replacing.run ⟨bytes, .never⟩ pattern rep limit maxLength budget r).run
        setting.untimed m) := by
  induction budget generalizing r m with
  | zero => exact (timeless_pure _).stopsIf (Nat.not_le.mpr hr) m
  | succ budget ih =>
    by_cases hlimit : limit ≤ r.count
    · rw [replacingSteps, Replacing.run, Replacing.run, if_pos hlimit, if_pos hlimit, if_pos hlimit]
      exact (timeless_pure _).stopsIf (Nat.not_le.mpr hr) m
    · have hfirst : searchSteps bytes pattern .never r ≤ replacingSteps bytes pattern rep limit
          maxLength setting.untimed .never (budget + 1) r m :=
        searchSteps_le_replacingSteps hpattern hlimit budget
      rw [Replacing.run, Replacing.run, if_neg hlimit, if_neg hlimit]
      -- either the first search comes to the end of the interval, or what it leaves of the interval
      -- is where the induction goes on
      by_cases hsteps : pollInterval ≤ searchSteps bytes pattern .never r
      · exact ⟨fun _ => (stopped_step hpattern hr hsteps).bind _,
          fun h => absurd (Nat.le_trans hsteps hfirst) h⟩
      · rw [replacingSteps, if_neg hlimit]
        refine .of_bind (mayStop_step hpattern hrep hr hsteps m) (fun progress m₁ hrun => ?_)
          fun v m₁ hrun => ?_
        · rw [hrun]
          have hcount := progressSteps_of_run_step hpattern hrun
          cases progress with
          | onward r' =>
            have hr' : r'.steps = _ := hcount
            exact ih (hr' ▸ Nat.lt_of_not_le hsteps) m₁
          | done r' =>
            have hr' : r'.steps = _ := hcount
            exact (timeless_pure _).stopsIf (hr' ▸ hsteps) m₁
        · rw [hrun]
          exact hsteps

end Replace

/-! ## Calls -/

/-- What a call replaces, where, how often, and with what. -/
structure Call.Replaces (c : Call) (text target : ByteArray) (limit? : Option Int)
    (rep : Replacer ScriptM) : Prop where
  /-- The first argument is where matches are replaced. -/
  bytes : Value.asBytes (c.arg 0) = .ok text
  /-- The second argument is what is replaced. -/
  pattern : Value.asBytes (c.arg 1) = .ok target
  /-- The fourth argument is the limit. -/
  limit : Value.asOptional Value.asInt64 (c.arg 3) = .ok limit?
  /-- The third argument says what matches are replaced with. -/
  replacer : replacer c text = pure rep

/-- The count of a replacing of all matches when it is over. -/
def replaceAllSteps (setting : Setting) (d : Deadline) (bytes pattern : ByteArray)
    (rep : Replacer ScriptM) (limit? : Option Int) (maxLength : Nat) (m : Machine) : Nat :=
  replacingSteps bytes (ofBytes pattern) rep (limit?.getD (bytes.size + 1)) maxLength setting d
    (2 * (bytes.size + 1)) {} m

/-- Whether a late call that replaces matches is stopped. -/
def GsubStops (c : Call) (setting : Setting) (m : Machine) : Prop :=
  ∃ bytes pattern limit? rep, c.Replaces bytes pattern limit? rep
    ∧ pollInterval
      ≤ replaceAllSteps setting.untimed .never bytes pattern rep limit? setting.maxReplaced m

section Call

variable {allowed : Prop} {setting : Setting} {c : Call} {bytes pattern : ByteArray}
variable {limit? : Option Int} {rep : Replacer ScriptM} {m : Machine}

/-- The arguments of a call. -/
def gsubArguments (c : Call) : ScriptM (ByteArray × ByteArray × Option Int × Replacer ScriptM) := do
  let bytes ← c.read 0 Value.asBytes
  let pattern ← c.read 1 Value.asBytes
  let limit ← c.read 3 (Value.asOptional Value.asInt64)
  let rep ← replacer c bytes
  return (bytes, pattern, limit, rep)

/-- What is done with the arguments of a call. -/
def gsubWith : ByteArray × ByteArray × Option Int × Replacer ScriptM → ScriptM (Array Value)
  | (bytes, pattern, limit, rep) => do
    let subject ← subjectOf bytes
    let maxLength := (← readThe Setting).maxReplaced
    let replaced ← replaceAll subject pattern rep limit maxLength
    let result ← if replaced.changed then newString replaced.text else pure (.string bytes)
    return #[result, .ofInt replaced.count]

theorem gsubCall_eq (c : Call) : gsubCall c = gsubArguments c >>= gsubWith := by
  simp only [gsubCall, gsubArguments, gsubWith, bind_assoc, pure_bind]

theorem gsubArguments_eq (h : c.Replaces bytes pattern limit? rep) :
    gsubArguments c = pure (bytes, pattern, limit?, rep) := by
  rw [gsubArguments, read_eq_pure h.bytes, read_eq_pure h.pattern, read_eq_pure h.limit,
    pure_bind, pure_bind, pure_bind, h.replacer, pure_bind]

theorem pure_inj {α : Type} {a b : α} (h : (pure a : ScriptM α) = pure b) (setting : Setting) :
    a = b := by
  have hrun := congrArg (fun x : ScriptM α => x.run setting {}) h
  simp only [ScriptM.run_pure] at hrun
  cases hrun
  rfl

/-- A call can replace one thing in one way only. -/
theorem Call.Replaces.eq {bytes' pattern' : ByteArray} {limit' : Option Int}
    {rep' : Replacer ScriptM} (h : c.Replaces bytes pattern limit? rep)
    (h' : c.Replaces bytes' pattern' limit' rep') (setting : Setting) :
    bytes = bytes' ∧ pattern = pattern' ∧ limit? = limit' ∧ rep = rep' := by
  cases h.bytes.symm.trans h'.bytes
  cases h.pattern.symm.trans h'.pattern
  cases h.limit.symm.trans h'.limit
  exact ⟨rfl, rfl, rfl, pure_inj (h.replacer.symm.trans h'.replacer) setting⟩

/-- The third argument says something, or the call is refused. -/
theorem replacer_cases (c : Call) (bytes : ByteArray) :
    (∃ rep, replacer c bytes = pure rep) ∨ ∃ e, replacer c bytes = raiseHost e := by
  unfold replacer
  split
  case h_1 => exact .inl ⟨_, rfl⟩
  case h_2 =>
    split
    case isTrue => exact .inl ⟨_, rfl⟩
    case isFalse =>
      split
      case h_1 => exact .inl ⟨_, rfl⟩
      case h_2 => exact .inr ⟨_, rfl⟩

/-- What the third argument says asks the functions of the call. -/
theorem mayStop_of_replacer (hcalls : c.actor.MayStop allowed setting)
    (h : replacer c bytes = pure rep) (found : Match) : MayStop allowed setting (rep found) := by
  unfold replacer at h
  split at h
  case h_1 id _ =>
    cases pure_inj h setting
    refine (mayStop_searched _).bind fun captured => ?_
    refine (timeless_ofCaptured captured).mayStop.bind fun key => ?_
    refine (mayStop_throughHost hcalls (hcalls.index _ _ _)).bind fun v => ?_
    exact mayStop_replacementOf v
  case h_2 =>
    split at h
    case isTrue =>
      cases pure_inj h setting
      refine (mayStop_searched _).bind fun captures => ?_
      refine (timeless_ofCaptures captures).mayStop.bind fun args => ?_
      have hcall : MayStop allowed setting (c.call (c.arg 2) args) := hcalls (c.arg 2) args
      exact (mayStop_throughHost hcalls hcall).bind fun values => mayStop_replacementOf _
    case isFalse =>
      split at h
      case h_1 =>
        cases pure_inj h setting
        exact (mayStop_searched _).bind fun image => (timeless_pure _).mayStop
      case h_2 =>
        have hrun := congrArg (fun x : ScriptM (Replacer ScriptM) => x.run setting {}) h
        exact (run_raiseHost_ne_ok (hrun.trans (ScriptM.run_pure ..))).elim

/-- A call whose arguments can be used. -/
theorem stopsIf_gsubWith (hrep : ∀ found, MayStop allowed setting (rep found))
    (hm : m.journal.deadlinePassed = false) (bytes pattern : ByteArray) (limit? : Option Int) :
    StopsIf allowed
      (pollInterval
        ≤ replaceAllSteps setting.untimed .never bytes pattern rep limit? setting.maxReplaced m)
      ((gsubWith (bytes, pattern, limit?, rep)).run setting.late m)
      ((gsubWith (bytes, pattern, limit?, rep)).run setting.untimed m) := by
  have hreplaced : StopsIf allowed
      (pollInterval
        ≤ replaceAllSteps setting.untimed .never bytes pattern rep limit? setting.maxReplaced m)
      ((replaceAll ⟨bytes, .expired⟩ pattern rep limit? setting.maxReplaced).run setting.late m)
      ((replaceAll ⟨bytes, .never⟩ pattern rep limit? setting.maxReplaced).run
        setting.untimed m) :=
    stopsIf_run (plainErrors_ofBytes pattern) hrep _ poll_pos m
  unfold gsubWith
  dsimp only
  rw [ScriptM.run_bind, ScriptM.run_bind, run_subjectOf_late, run_subjectOf_untimed bytes _ hm]
  dsimp only
  rw [ScriptM.run_bind, ScriptM.run_bind, ScriptM.run_read, ScriptM.run_read]
  refine hreplaced.bind fun replaced => ?_
  split
  · exact ((timeless_newString _).bind fun _ => timeless_pure _).mayStop
  · exact ((timeless_pure _).bind fun _ => timeless_pure _).mayStop

/-- The arguments of a call have nothing to do with the deadline. -/
theorem run_gsubArguments_late (c : Call) (setting : Setting) (m : Machine) :
    (gsubArguments c).run setting.late m = (gsubArguments c).run setting.untimed m := by
  have hmay : MayStop False setting (gsubArguments c) := by
    refine (timeless_read _ _ _).mayStop.bind fun bytes => ?_
    refine (timeless_read _ _ _).mayStop.bind fun pattern => ?_
    refine (timeless_read _ _ _).mayStop.bind fun limit => ?_
    rcases replacer_cases c bytes with ⟨rep, hrep⟩ | ⟨e, he⟩
    · rw [hrep]
      exact ((timeless_pure _).bind fun _ => timeless_pure _).mayStop
    · rw [he]
      exact (mayStop_raiseHost e).bind fun _ => (timeless_pure _).mayStop
  exact (hmay m).resolve_right And.left

theorem replaces_of_run_eq_ok
    {a : ByteArray × ByteArray × Option Int × Replacer ScriptM} {m' : Machine}
    (h : (gsubArguments c).run setting m = .ok a m') :
    ∃ bytes pattern limit? rep, c.Replaces bytes pattern limit? rep := by
  obtain ⟨bytes, _, hrun, h⟩ := run_bind_eq_ok h
  obtain ⟨hbytes, rfl⟩ := run_read_eq_ok hrun
  obtain ⟨pattern, _, hrun, h⟩ := run_bind_eq_ok h
  obtain ⟨hpattern, rfl⟩ := run_read_eq_ok hrun
  obtain ⟨limit?, _, hrun, h⟩ := run_bind_eq_ok h
  obtain ⟨hlimit, rfl⟩ := run_read_eq_ok hrun
  obtain ⟨_, _, hrun, -⟩ := run_bind_eq_ok h
  rcases replacer_cases c bytes with ⟨rep, hrep⟩ | ⟨e, he⟩
  · exact ⟨bytes, pattern, limit?, rep, hbytes, hpattern, hlimit, hrep⟩
  · rw [he] at hrun
    exact (run_raiseHost_ne_ok hrun).elim

/-- A call that cannot be understood does not get to a search. -/
theorem stopsIf_of_replaces
    (hwith : ∀ bytes pattern limit? rep, c.Replaces bytes pattern limit? rep →
      StopsIf allowed
        (pollInterval
          ≤ replaceAllSteps setting.untimed .never bytes pattern rep limit? setting.maxReplaced m)
        ((gsubWith (bytes, pattern, limit?, rep)).run setting.late m)
        ((gsubWith (bytes, pattern, limit?, rep)).run setting.untimed m)) :
    StopsIf allowed (GsubStops c setting m) ((gsubCall c).run setting.late m)
      ((gsubCall c).run setting.untimed m) := by
  rw [gsubCall_eq, GsubStops]
  by_cases hargs : ∃ bytes pattern limit? rep, c.Replaces bytes pattern limit? rep
  · obtain ⟨bytes, pattern, limit?, rep, hargs⟩ := hargs
    rw [gsubArguments_eq hargs, pure_bind]
    refine (hwith _ _ _ _ hargs).congr ⟨fun h => ⟨_, _, _, _, hargs, h⟩, ?_⟩
    rintro ⟨_, _, _, _, h, hsteps⟩
    obtain ⟨rfl, rfl, rfl, rfl⟩ := hargs.eq h setting
    exact hsteps
  · refine .of_bind (.inl (run_gsubArguments_late c setting m)) (fun a m₁ hrun => ?_)
      fun _ _ _ => ?_
    · exact (hargs (replaces_of_run_eq_ok hrun)).elim
    · rintro ⟨bytes, pattern, limit?, rep, h, -⟩
      exact hargs ⟨bytes, pattern, limit?, rep, h⟩

/-- **Replacing the matches of a pattern**, whatever they are replaced with. -/
theorem stopsIf_gsubCall (hcalls : c.actor.MayStop allowed setting)
    (hm : m.journal.deadlinePassed = false) :
    StopsIf allowed (GsubStops c setting m) ((gsubCall c).run setting.late m)
      ((gsubCall c).run setting.untimed m) :=
  stopsIf_of_replaces fun _ _ _ _ h =>
    stopsIf_gsubWith (mayStop_of_replacer hcalls h.replacer) hm _ _ _

end Call

/-! ## Replacement texts -/

section Text

variable {bytes pattern text : ByteArray} {setting : Setting} {c : Call} {m : Machine}

/-- With a replacement text, and without a deadline, none is exceeded. -/
theorem plainError_run {pattern : Pattern} (hpattern : PlainErrors pattern.items)
    {g : Replacer (Except Pattern.Error)} (hg : ∀ found, PlainError (g found)) (limit : Int)
    (maxLength budget : Nat) (r : Replacing) :
    PlainError (Replacing.run ⟨bytes, .never⟩ pattern g limit maxLength budget r) := by
  refine run_ne_error ⟨bytes, .never⟩ (.inl rfl) (fun c steps => ?_) hg limit maxLength budget r
  have hmeters := meters_matchHere ⟨bytes, .never⟩ hpattern c
  rw [hmeters.run_never]
  exact (hmeters.plain steps).map _

theorem replacer_eq_of_text (htext : (c.arg 2).toBytes? = some text) (bytes : ByteArray) :
    replacer c bytes = pure fun found => searched (Replacer.ofText bytes text found) := by
  have hsearched : (fun found => some <$> searched (expand bytes (Piece.list text.toList) found))
      = fun found => searched (Replacer.ofText bytes text found) :=
    funext fun found => (searched_map some _).symm
  rw [← hsearched]
  unfold replacer
  cases hv : c.arg 2 with
  | string s =>
    rw [hv] at htext
    cases htext
    rfl
  | number n =>
    rw [hv] at htext
    cases htext
    rfl
  | _ =>
    rw [hv] at htext
    cases htext

/-- Without a deadline a call with a replacement text is not stopped. -/
theorem not_stopped_gsubWith (hm : m.journal.deadlinePassed = false) (limit? : Option Int) :
    ¬ Stopped ((gsubWith (bytes, pattern, limit?,
      fun found => searched (Replacer.ofText bytes text found))).run setting.untimed m) := by
  have hplain : PlainError (replaceAll ⟨bytes, .never⟩ pattern (.ofText bytes text) limit?
      setting.maxReplaced) :=
    plainError_run (plainErrors_ofBytes pattern)
      (fun found => (ownError_expand bytes _ found).plain.map some) _ _ _ _
  unfold gsubWith
  dsimp only
  rw [ScriptM.run_bind, run_subjectOf_untimed bytes _ hm]
  dsimp only
  rw [ScriptM.run_bind, ScriptM.run_read]
  dsimp only
  rw [searched_replaceAll]
  refine ((timeless_searched hplain).bind (fun replaced => ?_) m).2
  split
  · exact (timeless_newString _).bind fun _ => timeless_pure _
  · exact (timeless_pure _).bind fun _ => timeless_pure _

/-- **Replacing by a text.** -/
theorem stopsExactly_gsubCall (htext : (c.arg 2).toBytes? = some text)
    (hm : m.journal.deadlinePassed = false) :
    StopsExactly (GsubStops c setting m) ((gsubCall c).run setting.late m)
      ((gsubCall c).run setting.untimed m) := by
  -- the third argument, when the first one is known
  have hrep {bytes pattern : ByteArray} {limit? : Option Int} {rep : Replacer ScriptM}
      (h : c.Replaces bytes pattern limit? rep) :
      rep = fun found => searched (Replacer.ofText bytes text found) :=
    pure_inj (h.replacer.symm.trans (replacer_eq_of_text htext bytes)) setting
  refine StopsIf.exactly (stopsIf_of_replaces fun bytes pattern limit? rep h => ?_) ?_
  · rw [hrep h]
    exact stopsIf_gsubWith (fun found => mayStop_searched _) hm ..
  rw [gsubCall_eq]
  by_cases hargs : ∃ bytes pattern limit? rep, c.Replaces bytes pattern limit? rep
  · obtain ⟨bytes, pattern, limit?, rep, hargs⟩ := hargs
    rw [gsubArguments_eq hargs, pure_bind, hrep hargs]
    exact not_stopped_gsubWith hm limit?
  · have htimeless : Timeless setting (gsubArguments c) := by
      refine (timeless_read _ _ _).bind fun bytes => (timeless_read _ _ _).bind fun pattern => ?_
      refine (timeless_read _ _ _).bind fun limit => ?_
      rw [replacer_eq_of_text htext, pure_bind]
      exact timeless_pure _
    have hnot := (htimeless m).2
    rw [ScriptM.run_bind]
    cases hrun : (gsubArguments c).run setting.untimed m with
    | ok a m₁ => exact (hargs (replaces_of_run_eq_ok hrun)).elim
    | error v m₁ => exact not_stopped_of_error (hrun ▸ hnot)

end Text

end LedgerReports.Script
