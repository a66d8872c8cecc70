import LedgerReports.Pattern.Replace
import LedgerReports.Proofs.Pattern.Reading
import Mathlib

/-!
# Errors of a pattern's own

Whatever can be wrong with a pattern, with its captures or with what they hold
is a reason of its own for a search to fail. That the deadline has passed is
not: this error comes only from a look at the deadline, and nothing that is read
looks at it. Nor is it that the items nest too deep: this comes only from a search
that has no room left, which nothing that is read does (`OwnError`).

Of the deadline alone this is said more briefly (`PlainError`). In particular no
pattern reports that it has passed (`plainErrors_readAll`), so that, when this
error comes up, it is known where from.
-/

namespace LedgerReports.Pattern

/-- **What fails for a reason of its own**: that the deadline has passed is not what comes of it. -/
def PlainError {α : Type} (x : Except Error α) : Prop := x ≠ .error .deadlineExceeded

/-- **What fails for a reason of its own** and not for one of the search: that the deadline has
passed is not what comes of it, nor that the items nest too deep. -/
def OwnError {α : Type} (x : Except Error α) : Prop :=
  x ≠ .error .deadlineExceeded ∧ x ≠ .error .tooComplex

section PlainError

variable {α β : Type}

theorem OwnError.plain {x : Except Error α} (h : OwnError x) : PlainError x := h.1

theorem plainError_ok (a : α) : PlainError (.ok a) := nofun

/-- An error that neither of two parts gives is not given by the two. -/
theorem bind_ne_error {e : Error} {x : Except Error α} {f : α → Except Error β}
    (hx : x ≠ .error e) (hf : ∀ a, f a ≠ .error e) : x >>= f ≠ .error e := by
  cases x with
  | ok a => exact hf a
  | error e' =>
    intro h
    cases h
    exact hx rfl

theorem PlainError.bind {x : Except Error α} {f : α → Except Error β} (hx : PlainError x)
    (hf : ∀ a, PlainError (f a)) : PlainError (x >>= f) :=
  bind_ne_error hx hf

theorem PlainError.map {x : Except Error α} (hx : PlainError x) (f : α → β) :
    PlainError (f <$> x) := by
  rw [map_eq_pure_bind]
  exact hx.bind fun a => plainError_ok (f a)

theorem OwnError.ne {e : Error} {x : Except Error α} (h : OwnError x)
    (he : e = .deadlineExceeded ∨ e = .tooComplex) : x ≠ .error e := by
  rcases he with rfl | rfl
  · exact h.1
  · exact h.2

theorem OwnError.bind {x : Except Error α} {f : α → Except Error β} (hx : OwnError x)
    (hf : ∀ a, OwnError (f a)) : OwnError (x >>= f) :=
  ⟨bind_ne_error hx.1 fun a => (hf a).1, bind_ne_error hx.2 fun a => (hf a).2⟩

theorem OwnError.map {x : Except Error α} (hx : OwnError x) (f : α → β) : OwnError (f <$> x) := by
  rw [map_eq_pure_bind]
  exact hx.bind fun a => ⟨nofun, nofun⟩

theorem ownError_byteAt (text : ByteArray) (i : Nat) : OwnError (byteAt text i) := by
  unfold byteAt
  split <;> exact ⟨nofun, nofun⟩

theorem ownError_slice (text : ByteArray) (start stop : Nat) :
    OwnError (slice text start stop) := by
  unfold slice
  split <;> exact ⟨nofun, nofun⟩

end PlainError

/-! ## Messages -/

theorem append_ne_of_head? {a b : Char} {s u : String} (hs : s.toList.head? = some a)
    (hu : u.toList.head? = some b) (h : a ≠ b) (t : String) : s ++ t ≠ u := by
  rintro rfl
  rw [String.toList_append, List.head?_append, hs] at hu
  exact h (Option.some.inj hu)

/-- No other error is shown as the one of the deadline is. -/
theorem message_ne_of_ne {e : Error} (he : e ≠ .deadlineExceeded) :
    e.message ≠ Error.deadlineExceeded.message := by
  -- a message that is put together differs in its first letter
  have happend (a : Char) (s t : String) (hs : s.toList.head? = some a) (ha : a ≠ 'r') :
      s ++ t ≠ Error.deadlineExceeded.message :=
    append_ne_of_head? hs (by decide) ha t
  cases e with
  | malformed what =>
    show "malformed pattern (" ++ what.message ++ ")" ≠ _
    rw [String.append_assoc]
    exact happend 'm' _ _ (by decide) (by decide)
  | invalidCaptureIndex n => exact happend 'i' _ _ (by decide) (by decide)
  | deadlineExceeded => exact absurd rfl he
  | _ => decide

/-! ## Patterns -/

section Patterns

variable (pattern : ByteArray) (p : Nat)

theorem ownError_setEnd : OwnError (setEnd pattern p) := by
  fun_induction setEnd pattern p with
  | case1 => constructor <;> rintro ⟨⟩
  | case2 _ _ _ ih => exact ih
  | case3 => constructor <;> rintro ⟨⟩

theorem ownError_setItems (close : Nat) : OwnError (setItems pattern close p) := by
  induction hn : close - p using Nat.strongRecOn generalizing p with
  | ind n ih =>
    unfold setItems
    split
    case isFalse => exact ⟨nofun, nofun⟩
    case isTrue =>
      refine .bind (ownError_byteAt _ _) fun b => ?_
      refine .bind (ownError_byteAt _ _) fun following => ?_
      split
      case isTrue => exact .bind (ih _ (by omega) (p + 2) rfl) fun _ => ⟨nofun, nofun⟩
      case isFalse =>
        split
        case isTrue =>
          refine .bind (ownError_byteAt _ _) fun last => ?_
          exact .bind (ih _ (by omega) (p + 3) rfl) fun _ => ⟨nofun, nofun⟩
        case isFalse => exact .bind (ih _ (by omega) (p + 1) rfl) fun _ => ⟨nofun, nofun⟩

theorem ownError_set : OwnError (CharSet.read pattern p) :=
  .bind (ownError_setEnd _ _) fun _ => .bind (ownError_setItems _ _ _) fun _ => ⟨nofun, nofun⟩

theorem ownError_class : OwnError (CharClass.read pattern p) := by
  unfold CharClass.read
  refine .bind (ownError_byteAt _ _) fun b => ?_
  split
  · exact ⟨nofun, nofun⟩
  split
  · split <;> exact ⟨nofun, nofun⟩
  split
  · exact .bind (ownError_set _ _) fun _ => ⟨nofun, nofun⟩
  · exact ⟨nofun, nofun⟩

theorem ownError_single : OwnError (Item.readSingle pattern p) := by
  unfold Item.readSingle
  refine .bind (ownError_class _ _) fun ⟨bytes, stop⟩ => ?_
  dsimp only
  split <;> exact ⟨nofun, nofun⟩

theorem ownError_frontier : OwnError (Item.readFrontier pattern p) := by
  unfold Item.readFrontier
  split
  · exact .bind (ownError_set _ _) fun _ => ⟨nofun, nofun⟩
  · exact ⟨nofun, nofun⟩

theorem ownError_item : OwnError (Item.read pattern p) := by
  unfold Item.read
  refine .bind (ownError_byteAt _ _) fun b => ?_
  dsimp only
  split
  · split <;> exact ⟨nofun, nofun⟩
  split
  · exact ⟨nofun, nofun⟩
  split
  · exact ⟨nofun, nofun⟩
  split
  · split <;> exact ⟨nofun, nofun⟩
  split
  · exact ownError_frontier _ _
  split
  · exact ⟨nofun, nofun⟩
  · exact ownError_single _ _

/-- Whether the mistakes among the items are not about the deadline. -/
def PlainErrors (items : List Item) : Prop := .invalid .deadlineExceeded ∉ items

/-- **No pattern reports that the deadline has passed**, however badly it is written. -/
theorem plainErrors_readAll : PlainErrors (Item.readAll pattern p) := by
  induction hn : pattern.size - p using Nat.strongRecOn generalizing p with
  | ind n ih =>
    by_cases hp : p < pattern.size
    · cases hread : Item.read pattern p with
      | error e =>
        rw [Item.readAll_of_error hp hread, PlainErrors, List.mem_singleton]
        rintro ⟨⟩
        exact (ownError_item pattern p).plain hread
      | ok read =>
        obtain ⟨item, stop⟩ := read
        have hlt := Item.lt_of_read_eq_ok hread
        rw [Item.readAll_of_read hp hread, PlainErrors, List.mem_cons, not_or]
        refine ⟨?_, ih _ (by omega) stop rfl⟩
        have hvalid := reads_item hp
        rw [hread] at hvalid
        exact (hvalid.2 _).symm
    · rw [Item.readAll_of_le (Nat.not_lt.mp hp)]
      exact List.not_mem_nil

theorem plainErrors_ofBytes : PlainErrors (ofBytes pattern).items := by
  unfold ofBytes
  split <;> exact plainErrors_readAll _ _

theorem plainErrors_ofBytesUnanchored : PlainErrors (ofBytesUnanchored pattern).items :=
  plainErrors_readAll _ _

end Patterns

/-! ## Captures -/

section Captures

variable (subject : Subject) (bytes : ByteArray)

theorem ownError_atFrontier (set : CharSet) (s : Nat) :
    OwnError (subject.atFrontier set s) := by
  unfold Subject.atFrontier
  dsimp only
  split
  · exact ⟨nofun, nofun⟩
  · exact .bind (ownError_byteAt _ _) fun _ => ⟨nofun, nofun⟩

theorem ownError_referenced (captures : Captures) (index : Nat) :
    OwnError (subject.referenced captures index) := by
  unfold Subject.referenced
  split
  · exact ⟨nofun, nofun⟩
  · split
    · exact ownError_slice _ _ _
    · exact ownError_slice _ _ _
    · exact ⟨nofun, nofun⟩
    · exact ⟨nofun, nofun⟩

theorem ownError_value (c : Capture) : OwnError (c.value bytes) := by
  unfold Capture.value
  split
  · exact ⟨nofun, nofun⟩
  · exact ⟨nofun, nofun⟩
  · exact (ownError_slice _ _ _).map _

theorem ownError_values (m : Match) : OwnError (m.values bytes) := by
  unfold Match.values
  generalize m.captures = captures
  induction captures with
  | nil => exact ⟨nofun, nofun⟩
  | cons c captures ih =>
    rw [List.mapM_cons]
    exact .bind (ownError_value _ _) fun _ => .bind ih fun _ => ⟨nofun, nofun⟩

theorem ownError_valuesOrWhole (m : Match) : OwnError (m.valuesOrWhole bytes) := by
  unfold Match.valuesOrWhole
  split
  · exact .bind (ownError_slice _ _ _) fun _ => ⟨nofun, nofun⟩
  · exact ownError_values _ _

theorem ownError_capture (m : Match) (i : Nat) : OwnError (m.capture bytes i) := by
  unfold Match.capture
  split
  · exact ownError_value _ _
  · split
    · exact (ownError_slice _ _ _).map _
    · exact ⟨nofun, nofun⟩

theorem ownError_expand (pieces : List Piece) (m : Match) :
    OwnError (expand bytes pieces m) := by
  unfold expand
  generalize ByteArray.empty = out
  induction pieces generalizing out with
  | nil => exact ⟨nofun, nofun⟩
  | cons piece pieces ih =>
    have hpiece : OwnError (piece.expand bytes m) := by
      cases piece with
      | byte b => exact ⟨nofun, nofun⟩
      | whole => exact ownError_slice _ _ _
      | capture i => exact (ownError_capture bytes m i).map _
      | invalid => exact ⟨nofun, nofun⟩
    rw [List.foldlM_cons]
    exact .bind (.bind hpiece fun _ => ⟨nofun, nofun⟩) fun out => ih out

theorem ownError_settle (pattern : Pattern) (maxLength : Nat) (r : Replacing) :
    OwnError (r.settle pattern maxLength) := by
  unfold Replacing.settle
  split
  · exact ⟨nofun, nofun⟩
  · split <;> exact ⟨nofun, nofun⟩

/-- **Replacing gives no error of the searches that the searches do not give**, nor does what the
matches are replaced with. -/
theorem run_ne_error {e : Error} (he : e = .deadlineExceeded ∨ e = .tooComplex)
    {pattern : Pattern} {replacer : Replacer (Except Error)}
    (hsearch : ∀ (c : Cursor) steps, (c.matchHere subject pattern).run steps ≠ .error e)
    (hreplacer : ∀ found, replacer found ≠ .error e) (limit : Int) (maxLength budget : Nat)
    (r : Replacing) :
    Replacing.run subject pattern replacer limit maxLength budget r ≠ .error e := by
  have hstep (r : Replacing) : r.step subject pattern replacer maxLength ≠ .error e := by
    refine bind_ne_error (hsearch r.cursor r.steps) fun ⟨found?, steps⟩ => ?_
    cases found? with
    | some found =>
      refine bind_ne_error ((ownError_slice _ _ _).ne he) fun kept => ?_
      refine bind_ne_error (hreplacer found) fun image => ?_
      exact (ownError_settle _ _ _).ne he
    | none =>
      dsimp only
      split
      · exact (ownError_settle _ _ _).ne he
      · rintro ⟨⟩
  induction budget generalizing r with
  | zero => rintro ⟨⟩
  | succ budget ih =>
    rw [Replacing.run]
    split
    · rintro ⟨⟩
    · refine bind_ne_error (hstep r) fun progress => ?_
      cases progress with
      | onward r => exact ih r
      | done r => rintro ⟨⟩

end Captures

end LedgerReports.Pattern
