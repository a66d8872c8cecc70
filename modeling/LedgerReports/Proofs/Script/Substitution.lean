import LedgerReports.Proofs.Pattern.Checked
import LedgerReports.Proofs.Script.Results
import Mathlib

/-!
# Replacing the matches of a subject

A script replaces the matches of a pattern by walking through the subject. Each
step either meets a match, whose place is taken by what the third argument says,
or copies a byte (`Steps`). What a whole walk does is told as a cut of the
subject: from where the walk stands the subject is gaps with matches between
them and a rest, and what is written is the gaps, what was put between them,
and the rest (`Finishes`). A step that meets a match adds a segment with an
empty gap at the front of the cut (`Finishes.met`), and one that copies a byte
adds the byte to the first gap (`Finishes.copied`). By induction on the number
of steps, a walk cuts the subject (`finishes_of_run`); there are enough steps,
because a match that counts does not end where the one before it ended, so that
after an empty match a byte is copied (`stepsLeft_past_lt`).

What a function or a table says about a match may change the machine, and so
what is said about the next one. So the things that are put in the places of the
matches are threaded through the machines (`Threads`), from the one that the
script began with.
-/

namespace LedgerReports.Script

open Pattern

variable {setting : Setting} {subject : Subject} {pattern : Pattern}
variable {replacer : Replacer ScriptM} {maxLength : Nat} {limit : Int}

/-! ## One step -/

/-- **What a step has done**, when it has gone well: it has met a match, copied a
byte, or found that the subject is at its end. -/
inductive Steps (setting : Setting) (subject : Subject) (pattern : Pattern)
    (replacer : Replacer ScriptM) (maxLength : Nat) (r : Replacing) (m : Machine) :
    Replacing.Progress → Machine → Prop where
  /-- A match has been met. -/
  | met {found : Match} {image? : Option ByteArray} {steps : Nat} {progress : Replacing.Progress}
      {m' : Machine} (hfound : Yields (matchAt subject pattern r.cursor.position) (some found))
      (hcounts : r.cursor.lastStop ≠ some found.stop)
      (hstop : found.start ≤ found.stop ∧ found.stop ≤ subject.bytes.size)
      (himage : (replacer found).run setting m = .ok image? m')
      (hsettle : ({ r with steps }.afterMatch found (found.text subject.bytes) image?).settle
        pattern maxLength = .ok progress) :
      Steps setting subject pattern replacer maxLength r m progress m'
  /-- A byte has been copied. -/
  | copied {b : UInt8} {steps : Nat} {progress : Replacing.Progress}
      (hpasses : Passes subject pattern r.cursor.lastStop r.cursor.position)
      (hb : byteAt? subject.bytes r.cursor.position = some b)
      (hsettle : ({ r with steps }.afterByte b).settle pattern maxLength = .ok progress) :
      Steps setting subject pattern replacer maxLength r m progress m
  /-- The subject is at its end. -/
  | ended {steps : Nat} (hpasses : Passes subject pattern r.cursor.lastStop r.cursor.position)
      (hend : byteAt? subject.bytes r.cursor.position = none) :
      Steps setting subject pattern replacer maxLength r m (.done { r with steps }) m

theorem run_readThe_eq_ok {m m' : Machine} {setting' : Setting}
    (h : (readThe Setting : ScriptM Setting).run setting m = .ok setting' m') :
    setting = setting' ∧ m = m' := by
  rw [ScriptM.run_read] at h
  cases h
  exact ⟨rfl, rfl⟩

theorem run_subjectOf (bytes : ByteArray) (setting : Setting) (m : Machine) :
    (subjectOf bytes).run setting m
      = .ok ⟨bytes, if m.journal.deadlinePassed then .expired
          else setting.deadline.remaining m.steps⟩ m := by
  simp only [subjectOf, ScriptM.run_bind, ScriptM.run_get, ScriptM.run_read, ScriptM.run_pure]

/-- A subject holds the bytes that it is made of. -/
theorem run_subjectOf_eq_ok {bytes : ByteArray} {m m' : Machine}
    (h : (subjectOf bytes).run setting m = .ok subject m') :
    bytes = subject.bytes ∧ m = m' := by
  rw [run_subjectOf] at h
  cases h
  exact ⟨rfl, rfl⟩

theorem run_lift_eq_ok {α : Type} {x : Except Pattern.Error α} {a : α} {m m' : Machine}
    (h : (liftM x : ScriptM α).run setting m = .ok a m') : x = .ok a ∧ m = m' :=
  run_searched_eq_ok h

theorem steps_of_run_step {r : Replacing} {m m' : Machine} {progress : Replacing.Progress}
    (h : (r.step subject pattern replacer maxLength).run setting m = .ok progress m') :
    Steps setting subject pattern replacer maxLength r m progress m' := by
  obtain ⟨⟨found?, steps⟩, _, hrun, h⟩ := run_bind_eq_ok h
  obtain ⟨hsearch, rfl⟩ := run_lift_eq_ok hrun
  have hyields := Yields.of_run hsearch
  cases found? with
  | some found =>
    obtain ⟨hfound, hcounts⟩ := of_yields_matchHere_some hyields
    obtain ⟨kept, _, hrun, h⟩ := run_bind_eq_ok h
    obtain ⟨hkept, rfl⟩ := run_lift_eq_ok hrun
    obtain ⟨rfl, hstop⟩ := eq_extract_of_slice hkept
    obtain ⟨image?, _, himage, hrun⟩ := run_bind_eq_ok h
    obtain ⟨hsettle, rfl⟩ := run_lift_eq_ok hrun
    exact .met hfound hcounts hstop himage hsettle
  | none =>
    have hpasses := passes_of_yields_matchHere_none hyields
    dsimp only at h
    cases hb : byteAt? subject.bytes r.cursor.position with
    | some b =>
      rw [hb] at h
      obtain ⟨hsettle, rfl⟩ := run_lift_eq_ok h
      exact .copied hpasses hb hsettle
    | none =>
      rw [hb] at h
      obtain ⟨rfl, rfl⟩ := run_pure_eq_ok h
      exact .ended hpasses hb

/-! ## All steps -/

/-- **Things are put in the place of matches, one after the other**: what `R` does with
each match, beginning on the machine that the last one has left. -/
inductive Threads (R : Match → Machine → ByteArray → Machine → Prop) :
    Machine → List (Match × ByteArray) → Machine → Prop where
  /-- There is no more match. -/
  | nil (m : Machine) : Threads R m [] m
  /-- There is a match, and then the others. -/
  | cons {found : Match} {image : ByteArray} {m m₁ m' : Machine}
      {substitutions : List (Match × ByteArray)} (h : R found m image m₁)
      (hrest : Threads R m₁ substitutions m') :
      Threads R m ((found, image) :: substitutions) m'

/-- What is put in the place of a match is what the replacer says, or else the match. -/
def StandsFor (setting : Setting) (bytes : ByteArray) (replacer : Replacer ScriptM)
    (found : Match) (m : Machine) (image : ByteArray) (m' : Machine) : Prop :=
  ∃ image?, (replacer found).run setting m = .ok image? m'
    ∧ image = image?.getD (found.text bytes)

/-- **What has become of a replacing** once it is over: the subject, from where it stood,
is cut at its matches, and its text goes on with the gaps and what was put between
them. -/
structure Finishes (setting : Setting) (subject : Subject) (pattern : Pattern)
    (replacer : Replacer ScriptM) (limit : Int) (r : Replacing) (m : Machine)
    (replaced : Replaced) (m' : Machine) (segments : List Segment) (rest : ByteArray) :
    Prop where
  /-- The subject is cut, and as long as the limit allows it no match is left. -/
  cuts : Cuts subject pattern (pattern.anchored = false ∧ (replaced.count : Int) < limit) r.cursor
    segments rest
  /-- What has been written. -/
  text : replaced.text = r.out ++ joined (·.image) segments rest
  /-- Each match has been counted. -/
  count : replaced.count = r.count + segments.length
  /-- The limit is kept to. -/
  count_le : (r.count : Int) ≤ max limit 0 → (replaced.count : Int) ≤ max limit 0
  /-- What has been put in the places of the matches. -/
  threads : Threads (StandsFor setting subject.bytes replacer) m
    (segments.map Segment.substitution) m'
  /-- If nothing has been changed, the matches have been kept. -/
  unchanged : replaced.changed = false →
    r.changed = false ∧ ∀ p ∈ segments.map Segment.substitution, p.2 = p.1.text subject.bytes

section Finishes

variable {r : Replacing} {m m' : Machine} {replaced : Replaced}

/-- A replacing is over, and the rest is copied. -/
theorem finishes_finish (r : Replacing) (m : Machine)
    (hposition : r.cursor.position ≤ subject.bytes.size)
    (hpasses : pattern.anchored = false → (r.count : Int) < limit →
      ∀ s, r.cursor.position ≤ s → s ≤ subject.bytes.size →
        Passes subject pattern r.cursor.lastStop s) :
    Finishes setting subject pattern replacer limit r m (r.finish subject) m []
      (subject.bytes.extract r.cursor.position subject.bytes.size) where
  cuts := .rest hposition fun ⟨hanchored, hcount⟩ => hpasses hanchored hcount
  text := rfl
  count := rfl
  count_le := id
  threads := .nil m
  unchanged h := ⟨h, fun _ hp => nomatch hp⟩

/-- A match is met, and the replacing goes on. -/
theorem Finishes.met {found : Match} {image? : Option ByteArray} {steps : Nat} {m₁ : Machine}
    {segments : List Segment} {rest : ByteArray} (hlimit : (r.count : Int) < limit)
    (hfound : Yields (matchAt subject pattern r.cursor.position) (some found))
    (hcounts : r.cursor.lastStop ≠ some found.stop)
    (hstop : found.start ≤ found.stop ∧ found.stop ≤ subject.bytes.size)
    (himage : (replacer found).run setting m = .ok image? m₁)
    (h : Finishes setting subject pattern replacer limit
      ({ r with steps }.afterMatch found (found.text subject.bytes) image?) m₁ replaced m'
      segments rest) :
    Finishes setting subject pattern replacer limit r m replaced m'
      (⟨ByteArray.empty, found, image?.getD (found.text subject.bytes)⟩ :: segments) rest where
  cuts := by
    have hstart := start_of_yields_matchAt hfound
    refine .segment (Nat.le_of_eq hstart.symm) ?_ (fun s hs hs' => ?_) (hstart ▸ hfound) hcounts
      hstop h.cuts
    · rw [hstart, ByteArray.extract_same]
    · exact absurd (hstart ▸ hs') (Nat.not_lt.mpr hs)
  text := by
    rw [h.text, joined, ByteArray.empty_append, ← ByteArray.append_assoc]
    rfl
  count := by
    rw [h.count, List.length_cons, Replacing.afterMatch, Nat.add_assoc, Nat.add_comm 1]
  count_le _ := by
    refine h.count_le ?_
    rw [Replacing.afterMatch, Int.natCast_succ]
    exact Int.le_trans hlimit (Int.le_max_left limit 0)
  threads := .cons ⟨image?, himage, rfl⟩ h.threads
  unchanged hchanged := by
    obtain ⟨hbefore, hkept⟩ := h.unchanged hchanged
    obtain ⟨hr, hnone⟩ := Bool.or_eq_false_iff.mp hbefore
    refine ⟨hr, fun p hp => ?_⟩
    rcases List.mem_cons.mp hp with rfl | hp
    · cases image? with
      | none => rfl
      | some image => cases hnone
    · exact hkept p hp

/-- A byte is copied, and the replacing goes on. -/
theorem Finishes.copied {b : UInt8} {steps : Nat} {segments : List Segment} {rest : ByteArray}
    (hpasses : Passes subject pattern r.cursor.lastStop r.cursor.position)
    (hb : byteAt? subject.bytes r.cursor.position = some b)
    (h : Finishes setting subject pattern replacer limit ({ r with steps }.afterByte b) m replaced
      m' segments rest) :
    ∃ segments' rest',
      Finishes setting subject pattern replacer limit r m replaced m' segments' rest' := by
  obtain ⟨segments', rest', hcuts, hsame, hjoined⟩ := h.cuts.of_skip hpasses
  refine ⟨segments', rest', hcuts, ?_, ?_, h.count_le, ?_, ?_⟩
  · rw [h.text, hjoined fun _ image => image, ← ByteArray.append_assoc]
    exact congrArg (· ++ _) (push_eq_append_extract hb r.out)
  · rw [h.count, Replacing.afterByte, ← List.length_map Segment.substitution, ← hsame,
      List.length_map]
  · rw [hsame]
    exact h.threads
  · rw [hsame]
    exact h.unchanged

end Finishes

/-- **A replacing that goes well cuts the subject at its matches.** The induction is on
the number of steps that may be made, of which there are enough. -/
theorem finishes_of_run {budget : Nat} {r : Replacing} {m m' : Machine} {replaced : Replaced}
    (hposition : r.cursor.position ≤ subject.bytes.size)
    (hbudget : stepsLeft subject r.cursor < budget)
    (h : (Replacing.run subject pattern replacer limit maxLength budget r).run setting m
      = .ok replaced m') :
    ∃ segments rest,
      Finishes setting subject pattern replacer limit r m replaced m' segments rest := by
  induction budget generalizing r m with
  | zero => cases hbudget
  | succ budget ih =>
    rw [Replacing.run] at h
    split at h
    case isTrue hlimit =>
      obtain ⟨rfl, rfl⟩ := run_pure_eq_ok h
      exact ⟨_, _, finishes_finish r _ hposition fun _ hcount =>
        absurd hlimit (Int.not_le.mpr hcount)⟩
    case isFalse hlimit =>
      obtain ⟨progress, m₁, hstep, h⟩ := run_bind_eq_ok h
      have hlimit := Int.not_le.mp hlimit
      -- what follows a match or a byte is known by induction, or the pattern is anchored
      have hgoOn (r₁ : Replacing) (hsettle : r₁.settle pattern maxLength = .ok progress)
          (hposition : r₁.cursor.position ≤ subject.bytes.size)
          (hfewer : stepsLeft subject r₁.cursor < stepsLeft subject r.cursor) :
          ∃ segments rest,
            Finishes setting subject pattern replacer limit r₁ m₁ replaced m' segments rest := by
        rw [settle_eq_ok hsettle] at h
        cases hanchored : pattern.anchored with
        | true =>
          rw [hanchored] at h
          obtain ⟨rfl, rfl⟩ := run_pure_eq_ok h
          exact ⟨_, _, finishes_finish r₁ _ hposition fun hnot => by cases hanchored ▸ hnot⟩
        | false =>
          rw [hanchored] at h
          exact ih hposition (by omega) h
      cases steps_of_run_step hstep with
      | met hfound hcounts hstop himage hsettle =>
        have hfewer := stepsLeft_past_lt hfound hcounts hstop
        obtain ⟨segments, rest, hfinishes⟩ := hgoOn _ hsettle hstop.2 hfewer
        exact ⟨_, rest, hfinishes.met hlimit hfound hcounts hstop himage⟩
      | copied hpasses hb hsettle =>
        have hlt := lt_size_of_byteAt? hb
        obtain ⟨segments, rest, hfinishes⟩ := hgoOn _ hsettle hlt (stepsLeft_skip_lt hlt)
        exact hfinishes.copied hpasses hb
      | ended hpasses hend =>
        obtain ⟨rfl, rfl⟩ := run_pure_eq_ok h
        refine ⟨_, _, finishes_finish r _ hposition fun _ _ s hs hs' => ?_⟩
        have hsize := size_le_of_byteAt?_eq_none hend
        obtain rfl : s = r.cursor.position := by omega
        exact hpasses

/-- **A script replaces inside the subject**, whatever its functions and its tables say about the
matches. -/
theorem replaceAll_eq_checked (subject : Subject) (text : ByteArray) (replacer : Replacer ScriptM)
    (limit? : Option Int) (maxLength : Nat) :
    replaceAll subject text replacer limit? maxLength
      = replaceAllChecked subject text replacer limit? maxLength :=
  run_eq_runWith (agreeInside_searchFrom subject text) (Nat.zero_le _) _

/-! ## What stands for a match -/

/-- **What a value decides** about a match: `nil` and `false` that it is kept, a string
or a number what it is replaced with. -/
inductive Decides (text : ByteArray) : Value → ByteArray → Prop where
  /-- The match is kept. -/
  | nil : Decides text .nil text
  /-- The match is kept. -/
  | false : Decides text (.bool false) text
  /-- The match is replaced. -/
  | bytes {v : Value} {image : ByteArray} (h : v.toBytes? = some image) : Decides text v image

/-- **What is put in the place of a match**, as the third argument of a call says: a text,
what a function returns for the captures, or what a table holds for the first one. -/
inductive Image (setting : Setting) (c : Call) (bytes : ByteArray) (found : Match) :
    Machine → ByteArray → Machine → Prop where
  /-- A replacement text is expanded. -/
  | text {text image : ByteArray} {m : Machine} (htext : (c.arg 2).toBytes? = some text)
      (hexpands : Expands bytes found text.toList image) : Image setting c bytes found m image m
  /-- A function is called. -/
  | returned {captured : List Captured} {args values : Array Value} {image : ByteArray}
      {m m₁ m' : Machine} (hfunction : (c.arg 2).isFunction = true)
      (hcaptured : found.valuesOrWhole bytes = .ok captured)
      (hargs : (ofCaptures captured).run setting m = .ok args m₁)
      (hcall : (c.throughHost (c.call (c.arg 2) args)).run setting m₁ = .ok values m')
      (hdecides : Decides (found.text bytes) (values.getD 0 .nil) image) :
      Image setting c bytes found m image m'
  /-- An element of a table is looked up. -/
  | held {id : Nat} {captured : Captured} {key v : Value} {image : ByteArray}
      {m m₁ m' : Machine} (htable : c.arg 2 = .table id)
      (hcaptured : found.capture bytes 0 = .ok captured)
      (hkey : (ofCaptured captured).run setting m = .ok key m₁)
      (hindex : (c.throughHost (c.actor.index (.table id) key none)).run setting m₁ = .ok v m')
      (hdecides : Decides (found.text bytes) v image) : Image setting c bytes found m image m'

section Image

variable {c : Call} {bytes : ByteArray} {m m' : Machine}

theorem decides_of_run_replacementOf {v : Value} {image? : Option ByteArray} (text : ByteArray)
    (h : (replacementOf v).run setting m = .ok image? m') :
    Decides text v (image?.getD text) ∧ m = m' := by
  unfold replacementOf at h
  split at h
  case h_1 =>
    obtain ⟨rfl, rfl⟩ := run_pure_eq_ok h
    exact ⟨.nil, rfl⟩
  case h_2 =>
    obtain ⟨rfl, rfl⟩ := run_pure_eq_ok h
    exact ⟨.false, rfl⟩
  case h_3 =>
    split at h
    case h_1 image himage =>
      obtain ⟨rfl, rfl⟩ := run_pure_eq_ok h
      exact ⟨.bytes himage, rfl⟩
    case h_2 => exact (run_raiseHost_ne_ok h).elim

/-- What the replacer of a call does with a match is what its third argument says. -/
theorem image_of_run_replacer {rep : Replacer ScriptM}
    (h : (Script.replacer c bytes).run setting m = .ok rep m') :
    m = m' ∧ ∀ found m image m', StandsFor setting bytes rep found m image m' →
      Image setting c bytes found m image m' := by
  unfold Script.replacer at h
  split at h
  case h_1 id htable =>
    obtain ⟨rfl, rfl⟩ := run_pure_eq_ok h
    refine ⟨rfl, ?_⟩
    rintro found m image m' ⟨image?, himage, rfl⟩
    obtain ⟨captured, _, hsearched, h⟩ := run_bind_eq_ok himage
    obtain ⟨hcaptured, rfl⟩ := run_searched_eq_ok hsearched
    obtain ⟨key, _, hkey, h⟩ := run_bind_eq_ok h
    obtain ⟨v, _, hindex, h⟩ := run_bind_eq_ok h
    obtain ⟨hdecides, rfl⟩ := decides_of_run_replacementOf (found.text bytes) h
    exact .held htable hcaptured hkey hindex hdecides
  case h_2 =>
    split at h
    case isTrue hfunction =>
      obtain ⟨rfl, rfl⟩ := run_pure_eq_ok h
      refine ⟨rfl, ?_⟩
      rintro found m image m' ⟨image?, himage, rfl⟩
      obtain ⟨captured, _, hsearched, h⟩ := run_bind_eq_ok himage
      obtain ⟨hcaptured, rfl⟩ := run_searched_eq_ok hsearched
      obtain ⟨args, _, hargs, h⟩ := run_bind_eq_ok h
      obtain ⟨values, _, hcall, h⟩ := run_bind_eq_ok h
      obtain ⟨hdecides, rfl⟩ := decides_of_run_replacementOf (found.text bytes) h
      exact .returned hfunction hcaptured hargs hcall hdecides
    case isFalse =>
      split at h
      case h_1 text htext =>
        obtain ⟨rfl, rfl⟩ := run_pure_eq_ok h
        refine ⟨rfl, ?_⟩
        rintro found m image m' ⟨image?, himage, rfl⟩
        obtain ⟨image, hsearched, rfl⟩ := run_map_eq_ok himage
        obtain ⟨hexpand, rfl⟩ := run_searched_eq_ok hsearched
        exact .text htext (expands_of_expand hexpand)
      case h_2 => exact (run_raiseHost_ne_ok h).elim

theorem Threads.imp {R R' : Match → Machine → ByteArray → Machine → Prop}
    (hR : ∀ found m image m', R found m image m' → R' found m image m')
    {substitutions : List (Match × ByteArray)} (h : Threads R m substitutions m') :
    Threads R' m substitutions m' := by
  induction h with
  | nil => exact .nil _
  | cons h _ ih => exact .cons (hR _ _ _ _ h) ih

end Image

/-! ## Replacement texts -/

section Text

variable {g : Replacer (Except Pattern.Error)}

theorem searched_step (r : Replacing) :
    r.step subject pattern (fun found => searched (g found)) maxLength
      = searched (r.step subject pattern g maxLength) := by
  unfold Replacing.step
  rw [searched_bind]
  refine bind_congr fun ⟨found?, steps⟩ => ?_
  cases found? with
  | some found =>
    dsimp only
    rw [searched_bind]
    refine bind_congr fun kept => ?_
    rw [searched_bind]
    rfl
  | none =>
    dsimp only
    cases byteAt? subject.bytes r.cursor.position with
    | some b => rfl
    | none => rfl

theorem searched_run (budget : Nat) (r : Replacing) :
    Replacing.run subject pattern (fun found => searched (g found)) limit maxLength budget r
      = searched (Replacing.run subject pattern g limit maxLength budget r) := by
  induction budget generalizing r with
  | zero => rfl
  | succ budget ih =>
    rw [Replacing.run, Replacing.run]
    split
    case isTrue => rfl
    case isFalse =>
      rw [searched_bind, searched_step]
      refine bind_congr fun progress => ?_
      cases progress with
      | onward r => exact ih r
      | done r => rfl

/-- **A script replaces as a search does**, if the replacing asks nothing of the script. -/
theorem searched_replaceAll (subject : Subject) (pattern : ByteArray)
    (g : Replacer (Except Pattern.Error)) (limit? : Option Int) (maxLength : Nat) :
    replaceAll subject pattern (fun found => searched (g found)) limit? maxLength
      = searched (replaceAll subject pattern g limit? maxLength) :=
  searched_run _ _

/-- A call with a replacement text gives what the search gives. -/
theorem run_gsubCall_of_text {c : Call} {bytes pattern text : ByteArray} {limit? : Option Int}
    {m : Machine} {replaced : Replaced} (hbytes : Value.asBytes (c.arg 0) = .ok bytes)
    (hpattern : Value.asBytes (c.arg 1) = .ok pattern) (htext : c.arg 2 = .string text)
    (hlimit : Value.asOptional Value.asInt64 (c.arg 3) = .ok limit?)
    (hsubject : (subjectOf bytes).run setting m = .ok subject m)
    (hreplaced : replaceAll subject pattern (.ofText bytes text) limit? setting.maxReplaced
      = .ok replaced) :
    (gsubCall c).run setting m = (do
      let result ← if replaced.changed then newString replaced.text else pure (.string bytes)
      return #[result, .ofInt replaced.count] : ScriptM (Array Value)).run setting m := by
  have hreplacer :
      replacer c bytes = pure fun found => searched (Replacer.ofText bytes text found) := by
    unfold replacer
    rw [htext]
    simp only [Replacer.ofText, searched_map]
    rfl
  have hrun : replaceAll subject pattern
      (fun found => searched (Replacer.ofText bytes text found)) limit? setting.maxReplaced
        = pure replaced := by
    rw [searched_replaceAll, hreplaced]
    rfl
  simp only [gsubCall, ScriptM.run_bind, run_read hbytes, run_read hpattern, run_read hlimit,
    hreplacer, ScriptM.run_pure, hsubject, ScriptM.run_read, hrun]

end Text

/-! ## Replacing in a script -/

/-- A call that replaces the matches has read its arguments, has replaced them, and gives the subject
itself if nothing has been changed. -/
theorem run_gsubCall_eq_ok {c : Call} {m m' : Machine} {values : Array Value}
    (h : (gsubCall c).run setting m = .ok values m') :
    ∃ (subject : Subject) (pattern : ByteArray) (limit? : Option Int) (rep : Replacer ScriptM)
      (replaced : Replaced) (m₁ : Machine),
      Value.asBytes (c.arg 0) = .ok subject.bytes
      ∧ Value.asBytes (c.arg 1) = .ok pattern
      ∧ Value.asOptional Value.asInt64 (c.arg 3) = .ok limit?
      ∧ (Script.replacer c subject.bytes).run setting m = .ok rep m
      ∧ (subjectOf subject.bytes).run setting m = .ok subject m
      ∧ (replaceAll subject pattern rep limit? setting.maxReplaced).run setting m
        = .ok replaced m₁
      ∧ values = #[.string (if replaced.changed then replaced.text else subject.bytes),
        .ofInt replaced.count] := by
  obtain ⟨bytes, _, hrun, h⟩ := run_bind_eq_ok h
  obtain ⟨hbytes, rfl⟩ := run_read_eq_ok hrun
  obtain ⟨pattern, _, hrun, h⟩ := run_bind_eq_ok h
  obtain ⟨hpattern, rfl⟩ := run_read_eq_ok hrun
  obtain ⟨limit?, _, hrun, h⟩ := run_bind_eq_ok h
  obtain ⟨hlimit, rfl⟩ := run_read_eq_ok hrun
  obtain ⟨rep, _, hreplacer, h⟩ := run_bind_eq_ok h
  obtain ⟨rfl, -⟩ := image_of_run_replacer hreplacer
  obtain ⟨subject, _, hsubject, h⟩ := run_bind_eq_ok h
  obtain ⟨rfl, rfl⟩ := run_subjectOf_eq_ok hsubject
  obtain ⟨_, _, hrun, h⟩ := run_bind_eq_ok h
  obtain ⟨rfl, rfl⟩ := run_readThe_eq_ok hrun
  obtain ⟨replaced, m₁, hreplaced, h⟩ := run_bind_eq_ok h
  refine ⟨subject, pattern, limit?, rep, replaced, m₁, hbytes, hpattern, hlimit, hreplacer,
    hsubject, hreplaced, ?_⟩
  dsimp only at h
  split at h
  case isTrue hchanged =>
    obtain ⟨result, _, hrun, h⟩ := run_bind_eq_ok h
    rw [← (run_pure_eq_ok h).1, run_newString_eq_ok hrun, if_pos hchanged]
  case isFalse hchanged =>
    obtain ⟨result, _, hrun, h⟩ := run_bind_eq_ok h
    rw [← (run_pure_eq_ok h).1, ← (run_pure_eq_ok hrun).1, if_neg hchanged]

/-- What is given is the gaps with what was put between them, also if that is the subject. -/
theorem Finishes.result_eq {m m' : Machine} {replaced : Replaced} {segments : List Segment}
    {rest : ByteArray}
    (h : Finishes setting subject pattern replacer limit {} m replaced m' segments rest) :
    (if replaced.changed then replaced.text else subject.bytes)
      = joined (·.image) segments rest := by
  split
  case isTrue =>
    rw [h.text]
    exact ByteArray.empty_append
  case isFalse hunchanged =>
    obtain ⟨-, hkept⟩ := h.unchanged (Bool.eq_false_iff.mpr hunchanged)
    have himages : joined (·.image) segments rest
        = joined (fun g => g.found.text subject.bytes) segments rest :=
      joined_congr fun g hg => hkept _ (List.mem_map_of_mem hg)
    rw [himages, joined_text h.cuts]
    exact ByteArray.extract_zero_size.symm

/-- **Replacing cuts the subject at its matches.** When a call that replaces the matches
of a pattern gives a value, the subject is some gaps with matches between them and a
rest, and the result is the same gaps and the same rest, with what the third argument
says in the places of the matches. So no byte of the subject is lost, duplicated or moved.
There are as many matches as the second value says, and not more than the limit. Each
match has been reported by a search from where its gap ends, and no search from a
position inside the gap has reported one, except one that ends where the match before it
ended. If the limit has not been reached, the same is so of the rest, up to and including
its end, unless the pattern is anchored and so was looked for only once. -/
theorem gsub_cuts_at_matches {c : Call} {setting : Setting} {m m' : Machine}
    {values : Array Value} (h : (gsubCall c).run setting m = .ok values m') :
    ∃ (subject : Subject) (pattern : ByteArray) (limit? : Option Int) (limit : Int)
      (segments : List Segment) (rest result : ByteArray) (m₁ : Machine),
      Value.asBytes (c.arg 0) = .ok subject.bytes
      ∧ Value.asBytes (c.arg 1) = .ok pattern
      ∧ Value.asOptional Value.asInt64 (c.arg 3) = .ok limit?
      ∧ limit = limit?.getD (subject.bytes.size + 1)
      ∧ values = #[.string result, .ofInt segments.length]
      ∧ (segments.length : Int) ≤ max limit 0
      ∧ subject.bytes = joined (fun g => g.found.text subject.bytes) segments rest
      ∧ result = joined (fun g => g.image) segments rest
      ∧ Cuts subject (ofBytes pattern)
          ((ofBytes pattern).anchored = false ∧ (segments.length : Int) < limit) (.start 0)
          segments rest
      ∧ Threads (Image setting c subject.bytes) m (segments.map Segment.substitution) m₁ := by
  obtain ⟨bytes, _, hrun, h⟩ := run_bind_eq_ok h
  obtain ⟨hbytes, rfl⟩ := run_read_eq_ok hrun
  obtain ⟨pattern, _, hrun, h⟩ := run_bind_eq_ok h
  obtain ⟨hpattern, rfl⟩ := run_read_eq_ok hrun
  obtain ⟨limit?, _, hrun, h⟩ := run_bind_eq_ok h
  obtain ⟨hlimit, rfl⟩ := run_read_eq_ok hrun
  obtain ⟨rep, _, hrun, h⟩ := run_bind_eq_ok h
  obtain ⟨rfl, himage⟩ := image_of_run_replacer hrun
  obtain ⟨subject, _, hrun, h⟩ := run_bind_eq_ok h
  obtain ⟨rfl, rfl⟩ := run_subjectOf_eq_ok hrun
  obtain ⟨_, _, hrun, h⟩ := run_bind_eq_ok h
  obtain ⟨-, rfl⟩ := run_readThe_eq_ok hrun
  obtain ⟨replaced, m₁, hrun, h⟩ := run_bind_eq_ok h
  obtain ⟨segments, rest, hfinishes⟩ :=
    finishes_of_run (Nat.zero_le _) (stepsLeft_start_lt subject) hrun
  have hcount : replaced.count = segments.length := by
    rw [hfinishes.count]
    exact Nat.zero_add _
  have hcuts := hfinishes.cuts
  have hcount_le := hfinishes.count_le (Int.le_max_right _ 0)
  rw [hcount] at hcuts hcount_le
  have hsubject : subject.bytes = joined (fun g => g.found.text subject.bytes) segments rest := by
    rw [joined_text hcuts]
    exact ByteArray.extract_zero_size.symm
  refine ⟨subject, pattern, limit?, _, segments, rest, joined (·.image) segments rest, m₁, hbytes,
    hpattern, hlimit, rfl, ?_, hcount_le, hsubject, rfl, hcuts, hfinishes.threads.imp himage⟩
  -- the subject itself is given back if nothing has been changed
  dsimp only at h
  split at h
  case isTrue =>
    obtain ⟨result, _, hrun, h⟩ := run_bind_eq_ok h
    obtain ⟨rfl, -⟩ := run_pure_eq_ok h
    rw [run_newString_eq_ok hrun, hcount, hfinishes.text]
    exact congrArg (fun text => #[Value.string text, _]) ByteArray.empty_append
  case isFalse hunchanged =>
    obtain ⟨result, _, hrun, h⟩ := run_bind_eq_ok h
    obtain ⟨rfl, -⟩ := run_pure_eq_ok hrun
    obtain ⟨rfl, -⟩ := run_pure_eq_ok h
    obtain ⟨-, hkept⟩ := hfinishes.unchanged (Bool.eq_false_iff.mpr hunchanged)
    have himages : joined (·.image) segments rest = subject.bytes :=
      (joined_congr fun g hg => hkept _ (List.mem_map_of_mem hg)).trans hsubject.symm
    rw [himages, hcount]

/-- In `baac` an empty match counts before `b` and after `c`, but not after `aa`, where the match
before it ends. -/
theorem gsub_cuts_at_matches_empty :
    let c : Call :=
      { function := .string .gsub
        args := #[.string "baac".toUTF8, .string "a*".toUTF8, .string "<%0>".toUTF8]
        stack := .bottom, origin := none, callWith := fun _ _ _ => pure #[] }
    let setting : Setting := { ledger := ({} : Store).view default, maxReplaced := 100 }
    let values := #[Value.string "<>b<aa>c<>".toUTF8, .ofInt 3]
    (gsubCall c).run setting {} = .ok values { allocated := 34 }
    ∧ ∃ (subject : Subject) (pattern : ByteArray) (limit? : Option Int) (limit : Int)
        (segments : List Segment) (rest result : ByteArray) (m₁ : Machine),
        Value.asBytes (c.arg 0) = .ok subject.bytes
        ∧ Value.asBytes (c.arg 1) = .ok pattern
        ∧ Value.asOptional Value.asInt64 (c.arg 3) = .ok limit?
        ∧ limit = limit?.getD (subject.bytes.size + 1)
        ∧ values = #[.string result, .ofInt segments.length]
        ∧ (segments.length : Int) ≤ max limit 0
        ∧ subject.bytes = joined (fun g => g.found.text subject.bytes) segments rest
        ∧ result = joined (fun g => g.image) segments rest
        ∧ Cuts subject (ofBytes pattern)
            ((ofBytes pattern).anchored = false ∧ (segments.length : Int) < limit) (.start 0)
            segments rest
        ∧ Threads (Image setting c subject.bytes) {} (segments.map Segment.substitution) m₁ := by
  intro c setting values
  have hsubject : (subjectOf "baac".toUTF8).run setting {} = .ok ⟨"baac".toUTF8, .never⟩ {} :=
    run_subjectOf ..
  have hreplaced :
      replaceAll ⟨"baac".toUTF8, .never⟩ "a*".toUTF8 (.ofText "baac".toUTF8 "<%0>".toUTF8) none 100
        = .ok ⟨"<>b<aa>c<>".toUTF8, 3, true⟩ := by
    cbv
  have hrun : (gsubCall c).run setting {} = .ok values { allocated := 34 } := by
    rw [run_gsubCall_of_text (c := c) rfl rfl rfl rfl hsubject hreplaced, if_pos rfl,
      ScriptM.run_bind, run_newString rfl]
    exact ScriptM.run_pure ..
  exact ⟨hrun, gsub_cuts_at_matches hrun⟩

end LedgerReports.Script
