import LedgerReports.Proofs.Pattern.Bounds

/-!
# The engine with its bounds checked

The engine relies on bounds that it does not look at. A search is begun at a
position of the pattern and one of the subject, with captures that begin there
or before; a back reference, a frontier and the values of captures read the
subject where the captures say; a replacing copies what is left of the subject
from where it stands. Here is the same engine with each of these bounds checked
by `require`, which fails with `Error.outOfBounds`. Every search, at every choice
that it comes to, is begun by `matchFrom`, which reads the pattern item by item
and checks both positions and all captures, and the loops around it – over the
positions of the subject, over the matches, over a text that is replaced – are
given by what they do with any search.

`engine_keeps_inside` says that the checked engine is the engine: it does the
same, and `Error.outOfBounds` is not what comes of it. So no check ever fails.
The induction that carries this is on what is left of the pattern
(`agree_matchFrom`); all that one item can do is said before
(`agree_search`), and the loops keep their positions inside the subject
because a match ends inside it and a byte is only passed where there is one.
-/

namespace LedgerReports.Pattern

/-! ## The checked engine -/

/-- Goes on only if something holds. -/
def require (p : Prop) [Decidable p] : Except Error Unit :=
  if p then .ok () else .error .outOfBounds

theorem require_eq_ok {p : Prop} [Decidable p] (h : p) : require p = .ok () := if_pos h

/-- The search from a position of the pattern on, which is read item by item as the search gets
there. -/
def matchFrom (subject : Subject) (text : ByteArray) (p room s : Nat) (captures : Captures) :
    SearchM (Option (Nat × Captures)) := do
  require (p ≤ text.size ∧ Inside subject.bytes.size s captures)
  tick subject.deadline
  if p = text.size then return some (s, captures)
  else
    match hread : Item.read text p with
    | .error e => throw e
    | .ok (item, stop) =>
      have := Item.lt_of_read_eq_ok hread
      have := Item.lt_size_of_read_eq_ok hread
      item.search subject (fun room s captures => matchFrom subject text stop room s captures)
        room s captures
termination_by text.size - p

/-- The search at a position of the subject. -/
def searchFrom (subject : Subject) (text : ByteArray) (p s : Nat) : SearchM (Option Match) := do
  let found? ← nest maxDepth fun room => matchFrom subject text p room s []
  return found?.map fun (stop, captures) => ⟨s, stop, captures⟩

section Loops

variable (subject : Subject) (pattern : Pattern) (search : Nat → SearchM (Option Match))

/-- The leftmost match at `s` or after it, as a search at a position reports it. -/
def findWith (s : Nat) : SearchM (Option Match) := do
  match ← search s with
  | some found => return some found
  | none =>
    if pattern.anchored ∨ subject.bytes.size ≤ s then return none
    else findWith (s + 1)
termination_by subject.bytes.size - s

/-- The match where the cursor stands, if there is one and it counts. -/
def Cursor.hereWith (c : Cursor) : SearchM (Option Match) := do
  let found? ← search c.position
  return found?.filter fun m => c.lastStop ≠ some m.stop

/-- The next match that counts, and the cursor past it. -/
def Cursor.nextWith (c : Cursor) : SearchM (Option Match × Cursor) := do
  if c.position ≤ subject.bytes.size then
    match ← c.hereWith search with
    | some m => return (some m, .past m)
    | none => nextWith c.skip
  else
    return (none, c)
termination_by subject.bytes.size + 1 - c.position
decreasing_by
  simp only [skip]
  omega

variable {m : Type → Type} [Monad m] [MonadLiftT (Except Error) m]

/-- Meets a match, or copies a byte if no match counts in front of it. -/
def Replacing.stepWith (replacer : Replacer m) (maxLength : Nat) (r : Replacing) : m Progress := do
  let (found?, steps) ← liftM ((r.cursor.hereWith search).run r.steps)
  let r := { r with steps }
  match found? with
  | some found =>
    liftM (require (found.Inside subject.bytes.size))
    let kept ← liftM (found.whole subject.bytes)
    let image ← replacer found
    liftM ((r.afterMatch found kept image).settle pattern maxLength)
  | none =>
    match byteAt? subject.bytes r.cursor.position with
    | some b => liftM ((r.afterByte b).settle pattern maxLength)
    | none => return .done r

/-- The outcome once no more match is looked for. -/
def Replacing.finishInside (r : Replacing) : Except Error Replaced := do
  require (r.cursor.position ≤ subject.bytes.size)
  return r.finish subject

/-- Goes on until `limit` matches have been met or the subject ends. -/
def Replacing.runWith (replacer : Replacer m) (limit : Int) (maxLength : Nat) :
    Nat → Replacing → m Replaced
  | 0, r => liftM (r.finishInside subject)
  | budget + 1, r => do
    if limit ≤ r.count then liftM (r.finishInside subject)
    else
      match ← r.stepWith subject pattern search replacer maxLength with
      | .onward r => runWith replacer limit maxLength budget r
      | .done r => liftM (r.finishInside subject)

end Loops

/-- Where the items of a pattern begin. -/
def bodyStart (text : ByteArray) : Nat := if byteAt? text 0 = some (byte '^') then 1 else 0

theorem items_ofBytes (text : ByteArray) :
    (ofBytes text).items = Item.readAll text (bodyStart text) := by
  unfold ofBytes bodyStart
  split <;> rfl

theorem bodyStart_le (text : ByteArray) : bodyStart text ≤ text.size := by
  unfold bodyStart
  split
  case isTrue h => exact lt_size_of_byteAt? h
  case isFalse => exact Nat.zero_le _

/-- The first match of a pattern from a 1-based start, a plain text among the patterns. -/
def findChecked (subject : Subject) (text : ByteArray) (start : Option Int) (plain : Bool) :
    SearchM (Option Match) := do
  let s := startOffset start subject.bytes.size
  if subject.bytes.size < s then return none
  else if plain || isPlain text then
    require (s ≤ subject.bytes.size)
    findText? subject text s
  else
    findWith subject (ofBytes text) (searchFrom subject text (bodyStart text)) s

/-- The first match of a pattern from a 1-based start, always by way of its items. -/
def findMatchChecked (subject : Subject) (text : ByteArray) (start : Option Int) :
    SearchM (Option Match) := do
  let s := startOffset start subject.bytes.size
  if subject.bytes.size < s then return none
  else findWith subject (ofBytes text) (searchFrom subject text (bodyStart text)) s

/-- Replaces the first `limit` matches of a pattern, all of them if there is no limit. -/
def replaceAllChecked {m : Type → Type} [Monad m] [MonadLiftT (Except Error) m]
    (subject : Subject) (text : ByteArray) (replacer : Replacer m) (limit? : Option Int)
    (maxLength : Nat) : m Replaced :=
  Replacing.runWith subject (ofBytes text) (searchFrom subject text (bodyStart text)) replacer
    (limit?.getD (subject.bytes.size + 1)) maxLength (2 * (subject.bytes.size + 1)) {}

/-! ## Searching -/

theorem agree_require {p : Prop} [Decidable p] (h : p) {α : Type} {P : α → Prop} {x y : SearchM α}
    (hxy : Agree P x y) : Agree P x (do require p; y) := by
  rw [require_eq_ok h]
  exact hxy

/-- **Matching keeps inside**, from a position of the pattern and a place inside the subject. An
item ends inside the pattern, and what it does leads to places inside the subject. -/
theorem agree_matchFrom {subject : Subject} {text : ByteArray} {p room s : Nat}
    {captures : Captures} (hp : p ≤ text.size) (h : Inside subject.bytes.size s captures) :
    Agree (Ends subject.bytes.size s)
      (Item.matchList subject (Item.readAll text p) room s captures)
      (matchFrom subject text p room s captures) := by
  induction hn : text.size - p using Nat.strongRecOn generalizing p room s captures with
  | ind n ih =>
    rw [matchFrom]
    refine agree_require ⟨hp, h⟩ ?_
    by_cases hend : p = text.size
    · rw [Item.readAll_of_le (Nat.le_of_eq hend.symm), Item.matchList, if_pos hend]
      exact (agree_tick _).bind fun _ _ => agree_pure (ends_some h)
    · have hlt : p < text.size := by omega
      have hitem := reads_item hlt
      rw [if_neg hend]
      split
      case h_1 e hread =>
        rw [hread] at hitem
        rw [Item.readAll_of_error hlt hread, matchList_cons]
        exact (agree_tick _).bind fun _ _ => agree_throw hitem
      case h_2 item stop hread =>
        rw [hread] at hitem
        obtain ⟨⟨hstop, hsize⟩, hvalid⟩ := hitem
        rw [Item.readAll_of_read hlt hread, matchList_cons]
        refine (agree_tick _).bind fun _ _ => agree_search (fun _ _ _ h => ?_) (hvalid _) h
        exact ih _ (by omega) hsize h rfl

/-- A match that a search gives is inside the subject. -/
def Found (size : Nat) (found? : Option Match) : Prop := ∀ m, found? = some m → m.Inside size

section Agree

variable {subject : Subject} {text : ByteArray} {pattern : Pattern} {p s : Nat}

theorem agree_searchFrom (hitems : pattern.items = Item.readAll text p) (hp : p ≤ text.size)
    (hs : s ≤ subject.bytes.size) :
    Agree (Found subject.bytes.size) (matchAt subject pattern s) (searchFrom subject text p s) := by
  unfold matchAt searchFrom
  rw [hitems]
  refine (Agree.nest fun room => agree_matchFrom hp (inside_nil hs)).bind fun found? hends => ?_
  refine agree_pure ?_
  cases found? with
  | none => exact nofun
  | some found =>
    rintro _ ⟨⟩
    exact hends _ _ rfl

/-- Searches that agree inside the subject. -/
def AgreeInside (subject : Subject) (pattern : Pattern)
    (search : Nat → SearchM (Option Match)) : Prop :=
  ∀ s, s ≤ subject.bytes.size →
    Agree (Found subject.bytes.size) (matchAt subject pattern s) (search s)

variable {search : Nat → SearchM (Option Match)}

theorem agree_find? (hsearch : AgreeInside subject pattern search) (hs : s ≤ subject.bytes.size) :
    Agree (Found subject.bytes.size) (find? subject pattern s)
      (findWith subject pattern search s) := by
  induction hn : subject.bytes.size - s using Nat.strongRecOn generalizing s with
  | ind n ih =>
    rw [find?, findWith]
    refine (hsearch s hs).bind fun found? hfound => ?_
    cases found? with
    | some found => exact agree_pure hfound
    | none =>
      dsimp only
      split
      case isTrue => exact agree_pure nofun
      case isFalse => exact ih _ (by omega) (by omega) rfl

theorem agree_matchHere (hsearch : AgreeInside subject pattern search) {c : Cursor}
    (hc : c.position ≤ subject.bytes.size) :
    Agree (Found subject.bytes.size) (c.matchHere subject pattern) (c.hereWith search) := by
  refine (hsearch c.position hc).bind fun found? hfound => agree_pure fun m hm => ?_
  exact hfound m (Option.filter_eq_some_iff.mp hm).1

theorem agree_next (hsearch : AgreeInside subject pattern search) (c : Cursor) :
    Agree (fun found => Found subject.bytes.size found.1) (c.next subject pattern)
      (c.nextWith subject search) := by
  induction hn : subject.bytes.size + 1 - c.position using Nat.strongRecOn generalizing c with
  | ind n ih =>
    rw [Cursor.next, Cursor.nextWith]
    split
    case isTrue hc =>
      refine (agree_matchHere hsearch hc).bind fun found? hfound => ?_
      cases found? with
      | some m => exact agree_pure hfound
      | none =>
        have hskip : c.skip.position = c.position + 1 := rfl
        exact ih _ (by omega) c.skip rfl
    case isFalse => exact agree_pure nofun

end Agree

/-! ## Replacing -/

/-- Where a step has led, the position is inside the subject. -/
def Replacing.Progress.Inside (size : Nat) : Replacing.Progress → Prop
  | onward r | done r => r.cursor.position ≤ size

theorem inside_of_settle {pattern : Pattern} {maxLength size : Nat} {r : Replacing}
    (hr : r.cursor.position ≤ size) :
    Reads (Replacing.Progress.Inside size) (r.settle pattern maxLength) := by
  unfold Replacing.settle
  split
  case isTrue => exact nofun
  case isFalse =>
    split
    case isTrue => exact hr
    case isFalse => exact hr

section Lift

variable {α β : Type} {m : Type → Type} [Monad m] [LawfulMonad m]
variable [MonadLiftT (Except Error) m] [LawfulMonadLiftT (Except Error) m]

/-- What comes after a part that may fail matters only for what the part can give. -/
theorem liftM_bind_congr {P : α → Prop} {x : Except Error α} (hx : Reads P x) {f g : α → m β}
    (h : ∀ a, P a → f a = g a) : (liftM x : m α) >>= f = liftM x >>= g := by
  cases x with
  | ok a =>
    have hpure : (liftM (Except.ok a : Except Error α) : m α) = pure a := liftM_pure a
    rw [hpure, pure_bind, pure_bind, h a hx]
  | error e =>
    -- an error goes before anything, and so also before what comes after it
    have hnever : (liftM (Except.error e : Except Error α) : m α)
        = (liftM (Except.error e : Except Error Empty) : m Empty)
            >>= fun never => liftM (m := Except Error) never.elim :=
      liftM_bind (m := Except Error) (Except.error e) fun never : Empty => never.elim
    rw [hnever, bind_assoc, bind_assoc]
    exact bind_congr fun never => never.elim

theorem liftM_require {p : Prop} [Decidable p] (h : p) (x : m α) :
    (do liftM (require p); x) = x := by
  have hpure : (liftM (require p) : m Unit) = pure () := by
    rw [require_eq_ok h]
    exact liftM_pure (m := Except Error) ()
  rw [hpure, pure_bind]

end Lift

section Replace

variable {β : Type} {m : Type → Type} [Monad m] [LawfulMonad m]
variable [MonadLiftT (Except Error) m] [LawfulMonadLiftT (Except Error) m]
variable {subject : Subject} {pattern : Pattern} {search : Nat → SearchM (Option Match)}
variable {replacer : Replacer m} {limit : Int} {maxLength : Nat} {r : Replacing}

theorem finishInside_eq (h : r.cursor.position ≤ subject.bytes.size) :
    r.finishInside subject = .ok (r.finish subject) := by
  unfold Replacing.finishInside
  rw [require_eq_ok h]
  rfl

/-- A step leads to a position inside the subject, so what is done after it matters only for
these. -/
theorem step_bind_eq (hsearch : AgreeInside subject pattern search)
    (h : r.cursor.position ≤ subject.bytes.size) {f g : Replacing.Progress → m β}
    (hfg : ∀ progress, progress.Inside subject.bytes.size → f progress = g progress) :
    r.step subject pattern replacer maxLength >>= f
      = r.stepWith subject pattern search replacer maxLength >>= g := by
  have hhere := agree_matchHere hsearch h
  unfold Replacing.step Replacing.stepWith
  rw [← hhere.eq, bind_assoc, bind_assoc]
  refine liftM_bind_congr (hhere.reads r.steps) fun ⟨found?, steps⟩ hfound => ?_
  cases found? with
  | some found =>
    have hinside := hfound found rfl
    dsimp only
    rw [liftM_require hinside]
    simp only [bind_assoc]
    refine bind_congr fun kept => bind_congr fun image => ?_
    exact liftM_bind_congr (inside_of_settle hinside.2.1) hfg
  | none =>
    dsimp only
    cases hb : byteAt? subject.bytes r.cursor.position with
    | some b => exact liftM_bind_congr (inside_of_settle (lt_size_of_byteAt? hb)) hfg
    | none =>
      dsimp only
      rw [pure_bind, pure_bind]
      exact hfg _ h

/-- **Replacing keeps inside**, whatever the matches are replaced with. -/
theorem run_eq_runWith (hsearch : AgreeInside subject pattern search)
    (h : r.cursor.position ≤ subject.bytes.size) (budget : Nat) :
    Replacing.run subject pattern replacer limit maxLength budget r
      = Replacing.runWith subject pattern search replacer limit maxLength budget r := by
  have hfinish (r : Replacing) (h : r.cursor.position ≤ subject.bytes.size) :
      (pure (r.finish subject) : m Replaced) = liftM (r.finishInside subject) := by
    rw [finishInside_eq h]
    exact (liftM_pure (m := Except Error) _).symm
  induction budget generalizing r with
  | zero => exact hfinish r h
  | succ budget ih =>
    rw [Replacing.run, Replacing.runWith]
    split
    case isTrue => exact hfinish r h
    case isFalse =>
      refine step_bind_eq hsearch h fun progress hprogress => ?_
      cases progress with
      | onward r => exact ih hprogress
      | done r => exact hfinish r hprogress

end Replace

section ReplaceReads

variable {subject : Subject} {pattern : Pattern} {search : Nat → SearchM (Option Match)}
variable {replacer : Replacer (Except Error)} {limit : Int} {maxLength : Nat} {r : Replacing}

theorem reads_step (hsearch : AgreeInside subject pattern search)
    (hreplacer : ∀ found : Match, found.Inside subject.bytes.size →
      Reads (fun _ => True) (replacer found))
    (h : r.cursor.position ≤ subject.bytes.size) :
    Reads (Replacing.Progress.Inside subject.bytes.size)
      (r.step subject pattern replacer maxLength) := by
  refine .bind ((agree_matchHere hsearch h).reads r.steps) fun ⟨found?, steps⟩ hfound => ?_
  cases found? with
  | some found =>
    have hinside := hfound found rfl
    refine .bind (reads_whole hinside) fun kept _ => ?_
    refine .bind (hreplacer found hinside) fun image _ => ?_
    exact inside_of_settle hinside.2.1
  | none =>
    dsimp only
    cases hb : byteAt? subject.bytes r.cursor.position with
    | some b => exact inside_of_settle (lt_size_of_byteAt? hb)
    | none => exact h

/-- A replacing looks outside only if what stands for a match does. -/
theorem reads_run (hsearch : AgreeInside subject pattern search)
    (hreplacer : ∀ found : Match, found.Inside subject.bytes.size →
      Reads (fun _ => True) (replacer found))
    (h : r.cursor.position ≤ subject.bytes.size) (budget : Nat) :
    Reads (fun _ => True) (Replacing.run subject pattern replacer limit maxLength budget r) := by
  induction budget generalizing r with
  | zero => trivial
  | succ budget ih =>
    rw [Replacing.run]
    split
    case isTrue => trivial
    case isFalse =>
      refine .bind (reads_step hsearch hreplacer h) fun progress hprogress => ?_
      cases progress with
      | onward r => exact ih hprogress
      | done r => trivial

end ReplaceReads

/-! ## Finding -/

/-- Where a search begins: a start counts from 1, and from the end if it is negative. -/
theorem startOffset_eq (start : Option Int) (size : Nat) :
    (startOffset start size : Int)
      = if 0 < start.getD 1 then start.getD 1 - 1
        else if start.getD 1 = 0 then 0 else max 0 (size + start.getD 1) := by
  unfold startOffset
  cases start.getD 1 with
  | ofNat n =>
    cases n with
    | zero => rfl
    | succ n =>
      show (n : Int) = _
      rw [if_pos (by simp), Int.ofNat_eq_natCast]
      omega
  | negSucc n =>
    show ((size - (n + 1) : Nat) : Int) = _
    rw [if_neg (by simp), if_neg (by simp)]
    omega

theorem reads_textPosition? {subject : Subject} {text : ByteArray} (stride origin s : Nat) :
    Reads (fun start? => ∀ start, start? = some start → start + text.size ≤ subject.bytes.size)
      (textPosition? subject text stride origin s) := by
  fun_induction textPosition? subject text stride origin s with
  | case1 => exact nofun
  | case2 s hs =>
    rintro _ ⟨⟩
    exact hs
  | case3 s _ _ _ ih => exact ih
  | case4 => exact nofun

theorem reads_findText? {subject : Subject} {text : ByteArray} {s : Nat}
    (hs : s ≤ subject.bytes.size) :
    Reads (Found subject.bytes.size) (findText? subject text s) := by
  unfold findText?
  split
  case isTrue =>
    rintro _ ⟨⟩
    exact ⟨Nat.le_refl s, inside_nil hs⟩
  case isFalse =>
    refine .bind (reads_textPosition? _ s s) fun start? hstart => ?_
    cases start? with
    | none => exact nofun
    | some start =>
      rintro _ ⟨⟩
      exact ⟨Nat.le_add_right .., inside_nil (hstart start rfl)⟩

/-! ## The engine -/

/-- **The engine keeps inside a subject and a pattern**, whatever bytes they are. -/
structure KeepsInside (subject : Subject) (text : ByteArray) : Prop where
  /-- A class ends after it begins, and inside the pattern. -/
  readClass : ∀ p, p < text.size →
    Reads (fun read => p < read.2 ∧ read.2 ≤ text.size) (CharClass.read text p)
  /-- So does a set, of a class or of a frontier, and its members are read inside the pattern. -/
  readSet : ∀ p, Reads (fun read => p + 2 < read.2 ∧ read.2 ≤ text.size) (CharSet.read text p)
  /-- So does an item. -/
  readItem : ∀ p, p < text.size →
    Reads (fun read => p < read.2 ∧ read.2 ≤ text.size) (Item.read text p)
  /-- Matching is begun inside both, with captures inside the subject, from the first position on
  and at each choice, and it ends so. -/
  matching : ∀ p room s captures, p ≤ text.size → Inside subject.bytes.size s captures →
    Agree (Ends subject.bytes.size s)
      (Item.matchList subject (Item.readAll text p) room s captures)
      (matchFrom subject text p room s captures)
  /-- A capture that is closed at a place begins there or before it. -/
  closing : ∀ s captures closed, Inside subject.bytes.size s captures →
    captures.close? s = some closed → ∃ before c after, captures = before ++ c :: after
      ∧ c.start ≤ s ∧ closed = before ++ { c with extent := .closed (s - c.start) } :: after
  /-- A start that is counted from the end of the subject is not before its beginning. -/
  startOffset : ∀ start : Option Int, (startOffset start subject.bytes.size : Int)
    = if 0 < start.getD 1 then start.getD 1 - 1
      else if start.getD 1 = 0 then 0 else max 0 (subject.bytes.size + start.getD 1)
  /-- A match is found inside the subject, from any start. -/
  find : ∀ start plain, Agree (Found subject.bytes.size) (find subject text start plain)
    (findChecked subject text start plain)
  /-- Also if the pattern is not taken as a text. -/
  findMatch : ∀ start, Agree (Found subject.bytes.size) (findMatch subject text start)
    (findMatchChecked subject text start)
  /-- From wherever a walk stands, the next match is found inside the subject. -/
  next : ∀ c : Cursor, Agree (fun read => Found subject.bytes.size read.1)
    (c.next subject (ofBytesUnanchored text)) (c.nextWith subject (searchFrom subject text 0))
  /-- The values of a match are read inside the subject. -/
  values : ∀ m : Match, m.Inside subject.bytes.size →
    Reads (fun _ => True) (m.whole subject.bytes)
    ∧ Reads (fun _ => True) (m.values subject.bytes)
    ∧ Reads (fun _ => True) (m.valuesOrWhole subject.bytes)
    ∧ ∀ i, Reads (fun _ => True) (m.capture subject.bytes i)
  /-- Matches are replaced inside the subject, whatever they are replaced with and whatever else
  is done on the way. -/
  replaceAll : ∀ {m : Type → Type} [Monad m] [LawfulMonad m] [MonadLiftT (Except Error) m]
    [LawfulMonadLiftT (Except Error) m] (replacer : Replacer m) limit? maxLength,
    replaceAll subject text replacer limit? maxLength
      = replaceAllChecked subject text replacer limit? maxLength
  /-- With a replacement text nothing outside is looked at. -/
  replaceText : ∀ replacement limit? maxLength, Reads (fun _ => True)
    (Pattern.replaceAll subject text (.ofText subject.bytes replacement) limit? maxLength)
  /-- A digit of a replacement text is the number of one of nine captures. -/
  replaceCapture : ∀ (replacement : List UInt8) i, .capture i ∈ Piece.list replacement → i < 9

section Engine

variable (subject : Subject) (text : ByteArray)

theorem agreeInside_searchFrom :
    AgreeInside subject (ofBytes text) (searchFrom subject text (bodyStart text)) :=
  fun _ hs => agree_searchFrom (items_ofBytes text) (bodyStart_le text) hs

theorem agree_find (start : Option Int) (plain : Bool) :
    Agree (Found subject.bytes.size) (find subject text start plain)
      (findChecked subject text start plain) := by
  unfold find findChecked
  dsimp only
  split
  case isTrue => exact agree_pure nofun
  case isFalse hs =>
    have hs := Nat.not_lt.mp hs
    split
    case isTrue => exact agree_require hs (agree_lift (reads_findText? hs))
    case isFalse => exact agree_find? (agreeInside_searchFrom subject text) hs

theorem agree_findMatch (start : Option Int) :
    Agree (Found subject.bytes.size) (findMatch subject text start)
      (findMatchChecked subject text start) := by
  unfold findMatch findMatchChecked
  dsimp only
  split
  case isTrue => exact agree_pure nofun
  case isFalse hs => exact agree_find? (agreeInside_searchFrom subject text) (Nat.not_lt.mp hs)

/-- **No search looks outside.** For every subject and every pattern, well or badly written, the
engine with its bounds checked is the engine, and no check fails. -/
theorem engine_keeps_inside : KeepsInside subject text where
  readClass _ hp := reads_class hp
  readSet p := reads_set text p
  readItem _ hp := (reads_item hp).imp fun _ hread => hread.1
  matching _ _ _ _ hp h := agree_matchFrom hp h
  closing s captures closed h hclosed := by
    obtain ⟨before, c, after, rfl, -, rfl⟩ := exists_of_close?_eq_some hclosed
    exact ⟨before, c, after, rfl, (h.2 c (by simp)).1, rfl⟩
  startOffset start := startOffset_eq start subject.bytes.size
  find start plain := agree_find subject text start plain
  findMatch start := agree_findMatch subject text start
  next c := agree_next (fun _ hs => agree_searchFrom rfl (Nat.zero_le _) hs) c
  values _ h := ⟨reads_whole h, reads_values h, reads_valuesOrWhole h, reads_capture h⟩
  replaceAll _ _ _ := run_eq_runWith (agreeInside_searchFrom subject text) (Nat.zero_le _) _
  replaceText replacement _ _ := by
    refine reads_run (agreeInside_searchFrom subject text) (fun found hfound => ?_)
      (Nat.zero_le _) _
    exact .map (reads_expand hfound _) fun _ _ => trivial
  replaceCapture _ _ h := lt_of_capture_mem_list h

end Engine

end LedgerReports.Pattern
