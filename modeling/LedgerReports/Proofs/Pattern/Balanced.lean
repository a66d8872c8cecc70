import LedgerReports.Proofs.Pattern.Leftmost
import Mathlib

/-!
# Balanced pairs

A balanced pair begins with an opening byte and ends where a closing one balances it.
Where that is can be said without counting up and down: it is the least position
behind the beginning up to which there are as many closing bytes as opening ones. If
both are the same byte then there is nothing to be nested, and the pair ends with the
next such byte (`balancedEnds`).

The search for it reads byte after byte and makes a step for each, so that a deadline
may stop it. If it is not stopped, it gives that position, or none if there is none
(`balanced_pair_ends_at_least`).
-/

namespace LedgerReports.Pattern

/-- The bytes of a text from one position up to another one. -/
def segment (text : ByteArray) (s e : Nat) : List UInt8 := (text.extract s e).data.toList

/-- **The positions where a balanced pair that begins at a position may end**: there are as many
closing bytes as opening ones, or the same byte once more if the two are the same. -/
def balancedEnds (text : ByteArray) (opening closing : UInt8) (s : Nat) : Set Nat :=
  {e | byteAt? text s = some opening ∧ s < e ∧ e ≤ text.size
    ∧ if opening = closing then s + 1 < e ∧ byteAt? text (e - 1) = some closing
      else (segment text s e).count closing = (segment text s e).count opening}

/-- The search for the position where a balanced pair that begins at a position ends. -/
def Subject.balanced? (subject : Subject) (opening closing : UInt8) (s : Nat) :
    SearchM (Option Nat) := do
  if byteAt? subject.bytes s = some opening then
    subject.balanceEnd? opening closing 1 (s + 1)
  else
    return none

/-! ## The least position -/

section Least

variable {text : ByteArray} {opening closing : UInt8} {s e : Nat} {found? : Option Nat}

/-- Among natural numbers there is no least one only if there is none at all. -/
theorem eq_none_iff_eq_empty {positions : Set Nat}
    (h : ∀ e, found? = some e ↔ IsLeast positions e) : found? = none ↔ positions = ∅ := by
  constructor
  · intro hnone
    by_contra hsome
    have hleast : IsLeast positions (sInf positions) :=
      ⟨Nat.sInf_mem (Set.nonempty_iff_ne_empty.mpr hsome), fun _ => Nat.sInf_le⟩
    have hfound := (h _).mpr hleast
    rw [hnone] at hfound
    cases hfound
  · rintro rfl
    exact Option.eq_none_iff_forall_ne_some.mpr fun e he => ((h e).mp he).1

/-- The least position is as far away as the least distance. -/
theorem map_add_eq_some_iff_isLeast {distances positions : Set Nat}
    (hfound : ∀ n, found? = some n ↔ IsLeast distances n)
    (hmem : ∀ n, s + n ∈ positions ↔ n ∈ distances) (hle : ∀ e ∈ positions, s ≤ e) :
    found?.map (s + ·) = some e ↔ IsLeast positions e := by
  rw [Option.map_eq_some_iff]
  constructor
  · rintro ⟨n, hn, rfl⟩
    obtain ⟨hn, hleast⟩ := (hfound n).mp hn
    refine ⟨(hmem n).mpr hn, fun e he => ?_⟩
    obtain ⟨k, rfl⟩ := Nat.exists_eq_add_of_le (hle e he)
    exact Nat.add_le_add_left (hleast ((hmem k).mp he)) s
  · rintro ⟨he, hleast⟩
    obtain ⟨n, rfl⟩ := Nat.exists_eq_add_of_le (hle e he)
    refine ⟨n, (hfound n).mpr ⟨(hmem n).mp he, fun k hk => ?_⟩, rfl⟩
    exact Nat.le_of_add_le_add_left (hleast ((hmem k).mpr hk))

/-- What is found among the numbers of a range is the least one that satisfies the condition. -/
theorem find?_range'_eq_some_iff_isLeast {p : Nat → Bool} {first count k : Nat} :
    (List.range' first count).find? p = some k
      ↔ IsLeast {k | first ≤ k ∧ k < first + count ∧ p k = true} k := by
  rw [List.find?_range'_eq_some, List.mem_range'_1]
  constructor
  · rintro ⟨hk, hbounds, hbefore⟩
    refine ⟨⟨hbounds.1, hbounds.2, hk⟩, fun j hj => Nat.le_of_not_lt fun hlt => ?_⟩
    have hnot := hbefore j hj.1 hlt
    rw [hj.2.2] at hnot
    cases hnot
  · rintro ⟨⟨hfirst, hlast, hk⟩, hleast⟩
    refine ⟨hk, ⟨hfirst, hlast⟩, fun j hj hlt => ?_⟩
    rw [Bool.not_eq_true']
    refine Bool.eq_false_iff.mpr fun hpj => ?_
    have hle := hleast ⟨hj, Nat.lt_trans hlt hlast, hpj⟩
    omega

/-- What is found in a list stands at the least place. -/
theorem findIdx?_beq_eq_some_iff_isLeast {b : UInt8} {bytes : List UInt8} {i : Nat} :
    bytes.findIdx? (· == b) = some i ↔ IsLeast {i | bytes[i]? = some b} i := by
  rw [List.findIdx?_eq_some_iff_getElem]
  constructor
  · rintro ⟨hi, hhere, hbefore⟩
    refine ⟨List.getElem?_eq_some_iff.mpr ⟨hi, beq_iff_eq.mp hhere⟩, fun j hj => ?_⟩
    obtain ⟨hlt, hj⟩ := List.getElem?_eq_some_iff.mp hj
    exact Nat.le_of_not_lt fun hji => hbefore j hji (beq_iff_eq.mpr hj)
  · rintro ⟨hhere, hleast⟩
    obtain ⟨hi, hhere⟩ := List.getElem?_eq_some_iff.mp hhere
    refine ⟨hi, beq_iff_eq.mpr hhere, fun j hji hj => ?_⟩
    have hle := hleast (List.getElem?_eq_some_iff.mpr ⟨Nat.lt_trans hji hi, beq_iff_eq.mp hj⟩)
    omega

theorem segment_eq_take (text : ByteArray) (s n : Nat) :
    segment text s (s + n) = (bytesFrom text s).take n := by
  rw [segment, ByteArray.data_extract, Array.toList_extract, List.extract_eq_take_drop,
    Nat.add_sub_cancel_left, bytesFrom]

/-- With a closing byte of its own a pair ends at the least position up to which there are as many of
both. -/
theorem balancedLength?_eq_some_iff_of_ne (hne : opening ≠ closing)
    (hs : byteAt? text s = some opening) :
    (balancedLength? text opening closing s).map (s + ·) = some e
      ↔ IsLeast (balancedEnds text opening closing s) e := by
  have hlength := length_bytesFrom text s
  have hsize := lt_size_of_byteAt? hs
  rw [balancedLength?, if_pos ((byteAt?_eq_head? text s).symm.trans hs)]
  refine map_add_eq_some_iff_isLeast (fun n => find?_range'_eq_some_iff_isLeast) (fun n => ?_)
    fun e he => Nat.le_of_lt he.2.1
  show _ ∧ _ ∧ _ ∧ (if opening = closing then _ else _) ↔ _ ∧ _ ∧ (_ == ite _ _ _) = true
  rw [if_neg hne, if_neg hne, segment_eq_take, beq_iff_eq, hlength]
  refine ⟨fun h => ⟨by omega, by omega, h.2.2.2⟩, fun h => ⟨hs, by omega, by omega, h.2.2⟩⟩

/-- A byte that closes what it opens does so where it stands next. -/
theorem closingLength?_self (b : UInt8) (rest : List UInt8) :
    closingLength? b b 1 rest = (rest.findIdx? (· == b)).map (· + 1) := by
  induction rest with
  | nil => rfl
  | cons c rest ih =>
    have hnil (depth : Nat) : closes b b depth [] = (0 == depth) := by simp [closes]
    rw [closingLength?, find?_take_cons, List.findIdx?_cons]
    simp only [closes_cons _ _ _ (Nat.le_refl 1), hnil]
    by_cases hc : c = b
    · simp [hc]
    · simp only [hc, if_false, beq_iff_eq, Nat.zero_ne_one]
      rw [← closingLength?, ih]

/-- Such a pair ends behind the least position at which the byte stands again. -/
theorem balancedLength?_self_eq_some_iff (hs : byteAt? text s = some closing) :
    (balancedLength? text closing closing s).map (s + ·) = some e
      ↔ IsLeast (balancedEnds text closing closing s) e := by
  have hbytes (i : Nat) : (bytesFrom text (s + 1))[i]? = byteAt? text (s + 1 + i) := by
    rw [byteAt?_eq_head?, bytesFrom, bytesFrom, List.getElem?_drop, List.head?_drop]
  have hfound : (balancedLength? text closing closing s).map (s + ·)
      = ((bytesFrom text (s + 1)).findIdx? (· == closing)).map (s + 2 + ·) := by
    rw [@balancedLength?_eq_closingLength? ⟨text, .never⟩ s closing closing hs,
      closingLength?_self, Option.map_map, Option.map_map]
    exact congrArg (Option.map · _) (funext fun i => by simp only [Function.comp_apply]; omega)
  rw [hfound]
  refine map_add_eq_some_iff_isLeast (fun i => findIdx?_beq_eq_some_iff_isLeast) (fun i => ?_)
    fun e he => (if_pos rfl ▸ he.2.2.2 : s + 1 < e ∧ _).1
  show _ ∧ _ ∧ _ ∧ (if closing = closing then _ else _) ↔ _ = _
  have hlast : s + 2 + i - 1 = s + 1 + i := by omega
  rw [if_pos rfl, hbytes, hlast]
  refine ⟨fun h => h.2.2.2.2, fun h => ?_⟩
  have hsize := lt_size_of_byteAt? h
  exact ⟨hs, by omega, by omega, by omega, h⟩

/-- **A balanced pair ends at the least position where it may.** -/
theorem balancedLength?_eq_some_iff :
    (balancedLength? text opening closing s).map (s + ·) = some e
      ↔ IsLeast (balancedEnds text opening closing s) e := by
  by_cases hs : byteAt? text s = some opening
  · by_cases hsame : opening = closing
    · subst hsame
      exact balancedLength?_self_eq_some_iff hs
    · exact balancedLength?_eq_some_iff_of_ne hsame hs
  · rw [balancedLength?, if_neg fun h => hs ((byteAt?_eq_head? text s).trans h)]
    refine ⟨fun h => ?_, fun h => absurd h.1.1 hs⟩
    cases h

end Least

/-! ## The search -/

/-- **A search is only stopped by its deadline**: otherwise it gives something. -/
def OnlyStopped {α : Type} (deadline : Deadline) (x : SearchM α) : Prop :=
  ∀ n, (∃ k, n < k ∧ deadline.passed k = true ∧ x.run n = .error .deadlineExceeded)
    ∨ ∃ a n', n ≤ n' ∧ x.run n = .ok (a, n')

section Search

variable {α β : Type} {deadline : Deadline} {subject : Subject} {opening closing : UInt8} {s : Nat}

theorem onlyStopped_pure (a : α) : OnlyStopped deadline (pure a) :=
  fun n => .inr ⟨a, n, Nat.le_refl n, rfl⟩

theorem onlyStopped_tick : OnlyStopped deadline (tick deadline) := by
  intro n
  by_cases hstop : ((n + 1) % pollInterval = 0 && deadline.passed (n + 1)) = true
  · have hpassed := (Bool.and_eq_true_iff.mp hstop).2
    exact .inl ⟨n + 1, Nat.lt_succ_self n, hpassed, if_pos hstop⟩
  · exact .inr ⟨(), n + 1, Nat.le_succ n, if_neg hstop⟩

theorem OnlyStopped.bind {x : SearchM α} {f : α → SearchM β} (hx : OnlyStopped deadline x)
    (hf : ∀ a, OnlyStopped deadline (f a)) : OnlyStopped deadline (x >>= f) := by
  intro n
  rw [StateT.run_bind]
  rcases hx n with ⟨k, hk, hpassed, hrun⟩ | ⟨a, n₁, hn₁, hrun⟩
  · rw [hrun]
    exact .inl ⟨k, hk, hpassed, rfl⟩
  · rw [hrun]
    rcases hf a n₁ with ⟨k, hk, hpassed, hrun⟩ | ⟨b, n₂, hn₂, hrun⟩
    · exact .inl ⟨k, Nat.lt_of_le_of_lt hn₁ hk, hpassed, hrun⟩
    · exact .inr ⟨b, n₂, Nat.le_trans hn₁ hn₂, hrun⟩

theorem onlyStopped_balanceEnd? (subject : Subject) (opening closing : UInt8) (depth s : Nat) :
    OnlyStopped subject.deadline (subject.balanceEnd? opening closing depth s) := by
  induction hn : subject.bytes.size - s using Nat.strongRecOn generalizing depth s with
  | ind n ih =>
    rw [Subject.balanceEnd?]
    split
    case isTrue hs =>
      have hlater (depth : Nat) := ih _ (by omega) depth (s + 1) rfl
      refine onlyStopped_tick.bind fun _ => ?_
      split
      case isTrue =>
        split
        case isTrue => exact onlyStopped_pure _
        case isFalse => exact hlater _
      case isFalse =>
        split
        case isTrue => exact hlater _
        case isFalse => exact hlater _
    case isFalse => exact onlyStopped_pure none

theorem onlyStopped_balanced? (subject : Subject) (opening closing : UInt8) (s : Nat) :
    OnlyStopped subject.deadline (subject.balanced? opening closing s) := by
  unfold Subject.balanced?
  split
  case isTrue => exact onlyStopped_balanceEnd? subject opening closing 1 (s + 1)
  case isFalse => exact onlyStopped_pure none

/-- What the search gives is as far away as the shortest balanced segment is long. -/
theorem eq_of_yields_balanced? {stop? : Option Nat}
    (h : Yields (subject.balanced? opening closing s) stop?) :
    stop? = (balancedLength? subject.bytes opening closing s).map (s + ·) := by
  unfold Subject.balanced? at h
  split at h
  case isTrue hs =>
    rw [eq_closingLength?_of_yields_balanceEnd? (Nat.le_refl 1) h,
      balancedLength?_eq_closingLength? closing hs, Option.map_map]
    exact congrArg (Option.map · _) (funext fun n => by simp only [Function.comp_apply]; omega)
  case isFalse hs =>
    rw [balancedLength?, if_neg fun head => hs ((byteAt?_eq_head? _ s).trans head)]
    exact h.of_pure

/-- A balanced pair is searched for, and the items behind it from where it ends. -/
theorem matchList_balance (subject : Subject) (opening closing : UInt8) (rest : List Item)
    (room s : Nat) (captures : Captures) :
    Item.matchList subject (.balance opening closing :: rest) room s captures = (do
      tick subject.deadline
      match ← subject.balanced? opening closing s with
      | some stop => Item.matchList subject rest room stop captures
      | none => return none) := by
  rw [matchList_cons]
  unfold Item.search Subject.balanced?
  dsimp only
  split <;> rfl

/-- A balanced pair is written with its two bytes behind `%b`. -/
theorem readAll_balance {text : ByteArray} {p : Nat} (hescape : byteAt? text p = some escape)
    (hb : byteAt? text (p + 1) = some (byte 'b')) (hopening : byteAt? text (p + 2) = some opening)
    (hclosing : byteAt? text (p + 3) = some closing) :
    Item.readAll text p = .balance opening closing :: Item.readAll text (p + 4) := by
  have hhere : byteAt text p = .ok escape := by rw [byteAt, hescape]
  have hopen : escape ≠ byte '(' := by decide
  have hclose : escape ≠ byte ')' := by decide
  have hdollar : escape ≠ byte '$' := by decide
  refine Item.readAll_of_read (lt_size_of_byteAt? hescape) ?_
  simp only [Item.read, hhere, hb, hopening, hclosing, hopen, hclose, hdollar, bind, Except.bind,
    pure, Except.pure, if_false, false_and, and_self, if_true]

end Search

/-- **A balanced pair is matched up to where it ends first.** -/
structure MatchesBalanced (opening closing : UInt8) : Prop where
  /-- In a pattern the pair is written with its two bytes behind `%b`. -/
  written : ∀ text p, byteAt? text p = some escape → byteAt? text (p + 1) = some (byte 'b') →
    byteAt? text (p + 2) = some opening → byteAt? text (p + 3) = some closing →
    Item.readAll text p = .balance opening closing :: Item.readAll text (p + 4)
  /-- Matching searches for it where it stands, and goes on behind it. -/
  matched : ∀ (subject : Subject) (rest : List Item) (room s : Nat) (captures : Captures),
    Item.matchList subject (.balance opening closing :: rest) room s captures = (do
      tick subject.deadline
      match ← subject.balanced? opening closing s with
      | some stop => Item.matchList subject rest room stop captures
      | none => return none)
  /-- Unless the deadline passes, the search gives the least position where the pair may end, and
  nothing only if there is none. -/
  least : ∀ (subject : Subject) (s steps : Nat),
    (∃ k, steps < k ∧ subject.deadline.passed k = true
      ∧ (subject.balanced? opening closing s).run steps = .error .deadlineExceeded)
    ∨ ∃ stop? steps', (subject.balanced? opening closing s).run steps = .ok (stop?, steps')
      ∧ (∀ stop, stop? = some stop
          ↔ IsLeast (balancedEnds subject.bytes opening closing s) stop)
      ∧ (stop? = none ↔ balancedEnds subject.bytes opening closing s = ∅)

/-- **A balanced pair ends at the least position where it may**, in any subject and from any position
on, whatever the two bytes are. -/
theorem balanced_pair_ends_at_least (opening closing : UInt8) :
    MatchesBalanced opening closing where
  written _ _ := readAll_balance
  matched subject := matchList_balance subject opening closing
  least subject s steps := by
    refine (onlyStopped_balanced? subject opening closing s steps).imp_right ?_
    rintro ⟨stop?, steps', -, hrun⟩
    have hleast (stop : Nat) : stop? = some stop
        ↔ IsLeast (balancedEnds subject.bytes opening closing s) stop := by
      rw [eq_of_yields_balanced? (.of_run hrun)]
      exact balancedLength?_eq_some_iff
    exact ⟨stop?, steps', hrun, hleast, eq_none_iff_eq_empty hleast⟩

end LedgerReports.Pattern
