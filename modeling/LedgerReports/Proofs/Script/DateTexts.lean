import LedgerReports.Proofs.Calendar.Canonical
import LedgerReports.Proofs.Script.DateLaws
import LedgerReports.Proofs.Text.Utf8

/-!
# Days as texts in a script

A script shows a day as a text and reads a day from a text. The text that is shown is
the canonical one, and it is read back as the day, for every day of the calendar and
whatever the sign and the length of its year. The texts that can be read are more:
two of them stand for the same day just if what is then shown is the same
(`day_texts_round_trip`).
-/

namespace LedgerReports.Script

/-! ## Reading and showing -/

/-- **A step gives the day that is asked for**, or raises the error that tells why there is none. -/
def GivesAsked (x : ScriptM Value) : Except Date.Problem Date → Prop
  | .ok d => Gives x fun v => ∃ id, v = .object id (.date d)
  | .error problem => Raises x (.runtime problem.message)

/-- Reads a day from a value: a call of the host's function for it, of which the first result is
taken. -/
def Call.parsed (c : Call) (v : Value) : ScriptM Value := do
  let values ← HostFunction.run .dateParse { c with args := #[v] }
  return values.getD 0 .nil

/-- Shows a day as a text, as the operator of days does. -/
def Call.shown (c : Call) (i : Nat) (d : Date) : ScriptM Value :=
  c.operate .date .toString (.object i (.date d)) .nil

section Texts

variable {d : Date} {text : String}

theorem givesAsked_newDate (found : Except Date.Problem Date) :
    GivesAsked (newDate found >>= fun values => pure (values.getD 0 .nil)) found := by
  cases found with
  | error problem => exact (raises_raiseHost _).bind _
  | ok d =>
    show Gives ((do return one (← newObject (.date d))) >>= fun values => pure _) _
    rw [bind_one_getD]
    exact gives_newObject _

/-- A script that reads a text gets the day that it stands for, or an error that shows the text. -/
theorem givesAsked_parsed (c : Call) {v : Value} (hv : Value.asText v = .ok text) :
    GivesAsked (c.parsed v) (Date.askText text) := by
  let call : Call := { c with args := #[v] }
  have hasked : Value.asText (call.arg 0) = .ok text := hv
  have hread : call.read 0 Value.asText = pure text := by rw [Call.read, hasked]
  have hrun : HostFunction.run .dateParse call = newDate (Date.askText text) := by
    rw [HostFunction.run, hread, pure_bind]
  rw [Call.parsed, hrun]
  exact givesAsked_newDate _

theorem asText_toUTF8 (text : String) : Value.asText (.string text.toUTF8) = .ok text := by
  simp only [Value.asText, Value.toBytes?, Utf8.decode_toUTF8]

/-- What is shown is a new string with the text of the day. -/
theorem shown_eq (c : Call) (i : Nat) (d : Date) :
    c.shown i d = newString d.toText.toUTF8 := by
  have hread : Call.readFor { c with args := #[.object i (.date d), .nil] }
      (HostKind.date.typeName ++ "." ++ HostOperator.toString.event) 0 (HostOperator.asKind .date)
        = pure (.date d) := rfl
  rw [Call.shown, Call.operate, HostFunction.run, HostOperator.run, hread, pure_bind]
  simp only [HostObject.text, pure_bind]
  exact bind_one_getD _

theorem askText_toText (d : Date) : Date.askText d.toText = .ok d := by
  rw [Date.askText, Date.parse_toText]

theorem parse_of_askText (h : Date.askText text = .ok d) : Date.parse text = .ok d := by
  unfold Date.askText at h
  split at h
  case h_1 found hfound =>
    cases h
    exact hfound
  case h_2 => cases h

end Texts

/-! ## The round trip -/

/-- **What a script can rely on when it writes days as texts and reads them.** -/
structure DayTexts : Prop where
  /-- Whatever value has a text, reading it gives the day that the text stands for or raises an
  error. -/
  parsed : ∀ (c : Call) (v : Value) (text : String), Value.asText v = .ok text →
    GivesAsked (c.parsed v) (Date.askText text)
  /-- Showing a day gives its text. -/
  shown : ∀ (c : Call) (i : Nat) (d : Date), c.shown i d = newString d.toText.toUTF8
  /-- The text stands for the day. -/
  askText_toText : ∀ d : Date, Date.askText d.toText = .ok d
  /-- What is shown is read back as the day, if there is room for the text. -/
  back : ∀ (c c' : Call) (i : Nat) (d : Date) (setting : Setting) (m : Machine),
    setting.memoryLimit = 0 ∨ d.toText.toUTF8.size + 24 ≤ setting.memoryLimit →
    ∃ id m', (c.shown i d >>= c'.parsed).run setting m = .ok (.object id (.date d)) m'
  /-- The text is canonical. -/
  canonical : ∀ d : Date, Date.IsCanonical d.toText
  /-- A text that is accepted is shown again as it is just if it is canonical. -/
  eq_toText_iff : ∀ (text : String) (d : Date), Date.askText text = .ok d →
    (text = d.toText ↔ Date.IsCanonical text)
  /-- Two texts that are accepted stand for the same day just if their canonical texts are equal. -/
  eq_iff : ∀ (text text' : String) (d d' : Date), Date.askText text = .ok d →
    Date.askText text' = .ok d' → (d = d' ↔ d.toText = d'.toText)

/-- **Days are read back from their canonical texts.** -/
theorem day_texts_round_trip : DayTexts where
  parsed c _ _ := givesAsked_parsed c
  shown := shown_eq
  askText_toText := askText_toText
  back c c' i d setting m hroom := by
    rw [ScriptM.run_bind, shown_eq, run_newString_of_room hroom]
    have hgives := givesAsked_parsed c' (asText_toUTF8 d.toText)
    rw [askText_toText] at hgives
    obtain ⟨_, m', hrun, id, rfl⟩ := hgives setting _
    exact ⟨id, m', hrun⟩
  canonical := Date.isCanonical_toText
  eq_toText_iff _ _ h := (Date.isCanonical_iff (parse_of_askText h)).symm
  eq_iff _ _ _ _ _ _ := Date.toText_inj.symm

end LedgerReports.Script
