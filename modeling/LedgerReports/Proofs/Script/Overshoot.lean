import LedgerReports.Proofs.Pattern.Buffer
import LedgerReports.Proofs.Script.Substitution

/-!
# How long a text becomes when its matches are replaced

What a script may build by replacing matches is bounded, since it is built outside
the memory of the script. The bound is looked at once for each match and for each
byte that is copied. It is not looked at while a replacement text is written, so
the buffer can hold more than the bound with the subject and the replacement text
added to it; and it is not looked at after the rest of the subject has been copied,
so the text that is given back can be longer than the bound.

`replaced_within_iff` says when each of the two stays within its bound, and what
holds in any case. The first can only be passed by a replacement text that refers
to the match or its captures more than once, the second only by a replacing that
was told to stop before the end of the subject.
-/

namespace LedgerReports.Script

open Pattern

variable {setting : Setting} {subject : Subject} {m m' : Machine}

/-- A string or a number as the third argument is a replacement text. -/
theorem replacer_of_toBytes? {c : Call} {text : ByteArray} (htext : (c.arg 2).toBytes? = some text)
    (bytes : ByteArray) :
    replacer c bytes = pure fun found => searched (Replacer.ofText bytes text found) := by
  unfold replacer
  simp only [Replacer.ofText, searched_map]
  cases harg : c.arg 2 with
  | string _ | number _ =>
    rw [harg] at htext
    cases htext
    rfl
  | _ =>
    rw [harg] at htext
    cases htext

/-- What a call gives that replaces matches with a text is what a state of the replacing comes to. -/
theorem endsIn_of_run_gsubCall {c : Call} {target text : ByteArray} {limit? : Option Int}
    {values : Array Value} (hbytes : Value.asBytes (c.arg 0) = .ok subject.bytes)
    (htarget : Value.asBytes (c.arg 1) = .ok target) (htext : (c.arg 2).toBytes? = some text)
    (hlimit : Value.asOptional Value.asInt64 (c.arg 3) = .ok limit?)
    (hsubject : (subjectOf subject.bytes).run setting m = .ok subject m)
    (h : (gsubCall c).run setting m = .ok values m') :
    ∃ r, EndsIn subject (ofBytes target) (.ofText subject.bytes text)
        (limit?.getD (subject.bytes.size + 1)) setting.maxReplaced r
      ∧ values = #[.string (if r.changed then (r.finish subject).text else subject.bytes),
        .ofInt r.count] := by
  obtain ⟨subject', target', limit?', rep, replaced, _, hbytes', htarget', hlimit', hrep, hsubject',
    hreplaced, rfl⟩ := run_gsubCall_eq_ok h
  have hsame : subject.bytes = subject'.bytes := Except.ok.inj (hbytes.symm.trans hbytes')
  rw [← hsame] at hsubject' hrep
  cases hsubject.symm.trans hsubject'
  cases htarget.symm.trans htarget'
  cases hlimit.symm.trans hlimit'
  rw [replacer_of_toBytes? htext] at hrep
  obtain ⟨rfl, -⟩ := run_pure_eq_ok hrep
  rw [searched_replaceAll] at hreplaced
  obtain ⟨hreplaced, -⟩ := run_searched_eq_ok hreplaced
  obtain ⟨r, hends, rfl⟩ := run_eq_ok_iff.mp hreplaced
  exact ⟨r, hends, rfl⟩

/-- **When replacing keeps to its bounds.** The buffer holds at most the bound, the subject and the
replacement text together, and a text that is given back at most the bound, exactly when the
replacement text for each match still fits into the buffer, and the rest of the subject into the
text. In any case the buffer holds the subject no more often than the replacement text refers
to it; a text that is given back is too long by no more than the subject, and only if the limit was
reached or the pattern is anchored; and what is too long right after a match or a copied byte is
refused. What a script is given by a call comes from a state in which a replacing is over. -/
theorem replaced_within_iff (subject : Subject) (target text : ByteArray) (limit? : Option Int)
    (maxLength : Nat) :
    let limit := limit?.getD (subject.bytes.size + 1)
    let replaced? := replaceAll subject target (.ofText subject.bytes text) limit? maxLength
    let Reports := Searches subject (ofBytes target) (.ofText subject.bytes text) limit maxLength
    let Over := EndsIn subject (ofBytes target) (.ofText subject.bytes text) limit maxLength
    let Holds := Buffers subject target text limit maxLength
    let pieces := Piece.list text.toList
    (((∀ buffer, Holds buffer → buffer.size ≤ maxLength + subject.bytes.size + text.size)
        ∧ ∀ replaced, replaced? = .ok replaced → replaced.changed = true →
          replaced.text.size ≤ maxLength)
      ↔ (∀ r found, Reports r (some found) →
          r.out.size + (written subject.bytes found pieces).size
            ≤ maxLength + subject.bytes.size + text.size)
        ∧ ∀ r, Over r → r.changed = true →
          r.out.size + (subject.bytes.size - r.cursor.position) ≤ maxLength)
      ∧ (∀ buffer, Holds buffer →
        buffer.size ≤ maxLength + max 1 (references text) * subject.bytes.size + text.size)
      ∧ (∀ replaced, replaced? = .ok replaced →
        replaced.text.size ≤ maxLength + subject.bytes.size
          ∧ ((ofBytes target).anchored = false → (replaced.count : Int) < limit →
            replaced.text.size ≤ maxLength))
      ∧ (∀ r found image, Reports r (some found) → expand subject.bytes pieces found = .ok image →
        maxLength < r.out.size + image.size → replaced? = .error .resultTooLong)
      ∧ (∀ r b, Reports r none → byteAt? subject.bytes r.cursor.position = some b →
        maxLength < r.out.size + 1 → replaced? = .error .resultTooLong)
      ∧ Pattern.Error.resultTooLong.message = "gsub result exceeds the memory limit"
      ∧ ∀ (c : Call) (setting : Setting) (m m' : Machine) (values : Array Value),
        Value.asBytes (c.arg 0) = .ok subject.bytes → Value.asBytes (c.arg 1) = .ok target →
        (c.arg 2).toBytes? = some text →
        Value.asOptional Value.asInt64 (c.arg 3) = .ok limit? →
        (subjectOf subject.bytes).run setting m = .ok subject m → setting.maxReplaced = maxLength →
        (gsubCall c).run setting m = .ok values m' →
        ∃ r, Over r
          ∧ values = #[.string (if r.changed then (r.finish subject).text else subject.bytes),
            .ofInt r.count] := by
  intro limit replaced? Reports Over Holds pieces
  refine ⟨and_congr (buffers_within_iff (Nat.le_add_right _ _)) ⟨fun h r hends hchanged => ?_, ?_⟩,
    fun buffer => size_buffer_le, fun replaced hreplaced => ?_,
    fun r found image => Searches.run_eq_error, fun r b => Searches.run_eq_error_of_byte, rfl, ?_⟩
  · rw [← size_finish]
    exact h _ hends.run_eq hchanged
  · intro h replaced hreplaced hchanged
    obtain ⟨r, hends, rfl⟩ := run_eq_ok_iff.mp hreplaced
    rw [size_finish]
    exact h r hends hchanged
  · obtain ⟨r, hends, rfl⟩ := run_eq_ok_iff.mp hreplaced
    obtain ⟨hout, hend⟩ := hends.bounds
    rw [size_finish]
    refine ⟨by omega, fun hanchored hcount => ?_⟩
    have hposition := hend hanchored hcount
    omega
  · rintro c setting m m' values hbytes htarget htext hlimit hsubject rfl h
    exact endsIn_of_run_gsubCall hbytes htarget htext hlimit hsubject h

/-- **A text longer than the bound is given back** when the first `a` of `aaaa` is replaced: the rest
is copied without a look at the bound of three bytes. And a buffer for which ten bytes are allowed
holds twelve when `aaaa` is written three times. -/
theorem result_beyond_bound :
    let c : Call :=
      { function := .string .gsub
        args := #[.string "aaaa".toUTF8, .string "a".toUTF8, .string "b".toUTF8, .ofInt 1]
        stack := .bottom, origin := none, callWith := fun _ _ _ => pure #[] }
    let setting : Setting := { ledger := ({} : Store).view default, maxReplaced := 3 }
    (gsubCall c).run setting {} = .ok #[.string "baaa".toUTF8, .ofInt 1] { allocated := 28 }
      ∧ setting.maxReplaced < "baaa".toUTF8.size
      ∧ ∃ buffer, Buffers ⟨"aaaa".toUTF8, .never⟩ "a*".toUTF8 "%0%0%0".toUTF8 5 0 buffer
        ∧ 0 + "aaaa".toUTF8.size + "%0%0%0".toUTF8.size < buffer.size := by
  intro c setting
  have hsubject : (subjectOf "aaaa".toUTF8).run setting {} = .ok ⟨"aaaa".toUTF8, .never⟩ {} :=
    run_subjectOf ..
  have hreplaced :
      replaceAll ⟨"aaaa".toUTF8, .never⟩ "a".toUTF8 (.ofText "aaaa".toUTF8 "b".toUTF8) (some 1) 3
        = .ok ⟨"baaa".toUTF8, 1, true⟩ := by
    cbv
  refine ⟨?_, by decide, "aaaaaaaaaaaa".toUTF8, ?_, by decide⟩
  · rw [run_gsubCall_of_text (c := c) rfl rfl rfl rfl hsubject hreplaced, if_pos rfl,
      ScriptM.run_bind, run_newString rfl]
    exact ScriptM.run_pure ..
  · have hsearches : Searches ⟨"aaaa".toUTF8, .never⟩ (ofBytes "a*".toUTF8)
        (.ofText "aaaa".toUTF8 "%0%0%0".toUTF8) 5 0 {} (some ⟨0, 4, []⟩) :=
      ⟨.start, by decide, 6, by cbv⟩
    have hadded : expand "aaaa".toUTF8 (Piece.list "%0%0%0".toUTF8.toList) ⟨0, 4, []⟩
        = .ok "aaaaaaaaaaaa".toUTF8 := by
      cbv
    have hbuffer := Buffers.writing hsearches (List.prefix_refl _) hadded
    rwa [ByteArray.empty_append] at hbuffer

end LedgerReports.Script
