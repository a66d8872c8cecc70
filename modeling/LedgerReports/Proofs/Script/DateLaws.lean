import LedgerReports.Proofs.Calendar.Months
import LedgerReports.Proofs.Script.HostOperators

/-!
# The laws of days

What a script gets when it goes on from a day is the day that the calendar has,
or the error that it has none (`leadsTo_of_shift?`, `givesDay_endOfMonth`).
So the laws that a script can rely on are those of the calendar. Days are counted
one by one: spans of days add up, and the difference of two days leads from one
to the other (`days_obey_laws`). Months are counted with their day clamped to
the end of the month, which does not change the order of days, but is not undone
by going back (`months_obey_laws`). The end of a month is its last day, for every
month but the last one of the calendar (`end_of_month_iff`).
-/

namespace LedgerReports.Script

/-! ## Methods of days -/

/-- The error that the calendar has no such day. -/
def outOfRange : HostError := .runtime Date.Problem.outOfRange.message

/-- **A step gives a day**, or raises the error that there is none. -/
def GivesDay (x : ScriptM Value) : Option Date → Prop
  | some d => Gives x fun v => ∃ id, v = .object id (.date d)
  | none => Raises x outOfRange

/-- Calls a method with some arguments, the object first, and takes the first result. -/
def Call.invoke (c : Call) (m : HostMethod) (args : Array Value) : ScriptM Value := do
  let values ← HostFunction.run (.method m) { c with args }
  return values.getD 0 .nil

/-- **A method leads from a day by a number** to a day or to the error, whatever value the script
writes for the number. -/
def LeadsTo (m : HostMethod) (d : Date) (n : Int) (found : Option Date) : Prop :=
  ∀ (c : Call) (i : Nat) (v : Value), Value.asInt64 v = .ok n →
    GivesDay (c.invoke m #[.object i (.date d), v]) found

/-- How a method goes on from a day by a number. -/
def HostMethod.shift? : HostMethod → Option (Date → Int → Option Date)
  | addDays => some Date.addDays?
  | addMonths => some Date.addMonths?
  | addYears => some Date.addYears?
  | _ => none

section Methods

variable {d : Date} {n : Int} {m : HostMethod} {shift : Date → Int → Option Date}

theorem givesDay_newDate (found : Option Date) :
    GivesDay (newDate (Date.orOutOfRange found) >>= fun values => pure (values.getD 0 .nil))
      found := by
  cases found with
  | none => exact (raises_raiseHost _).bind _
  | some d =>
    show Gives ((do return one (← newObject (.date d))) >>= fun values => pure _) _
    rw [bind_one_getD]
    exact gives_newObject _

theorem readFor_eq_pure {α : Type} {c : Call} {i : Nat} {a : α}
    {convert : Value → Except HostError α} (h : convert (c.arg i) = .ok a) (name : String) :
    c.readFor name i convert = pure a := by
  rw [Call.readFor, h]

/-- A method that counts gets a day and a number. -/
theorem run_of_shift? (h : m.shift? = some shift) {c : Call} (hday : Value.asDate (c.arg 0) = .ok d)
    (hnumber : Value.asInt64 (c.arg 1) = .ok n) :
    m.run c = newDate (Date.orOutOfRange (shift d n)) := by
  have hreadDay := readFor_eq_pure hday m.fullName
  have hreadNumber := readFor_eq_pure hnumber m.fullName
  cases m with
  | addDays | addMonths | addYears =>
    cases h
    simp only [HostMethod.run, hreadDay, hreadNumber, pure_bind]
  | _ => cases h

/-- **A script gets the day that is so far away**, or the error that the calendar ends before. -/
theorem leadsTo_of_shift? (h : m.shift? = some shift) (d : Date) (n : Int) :
    LeadsTo m d n (shift d n) := by
  intro c i v hv
  let call : Call := { c with args := #[.object i (.date d), v] }
  have hday : Value.asDate (call.arg 0) = .ok d := rfl
  have hnumber : Value.asInt64 (call.arg 1) = .ok n := hv
  rw [Call.invoke, HostFunction.run, run_of_shift? h hday hnumber]
  exact givesDay_newDate _

/-- So it is with the end of a month. -/
theorem givesDay_endOfMonth (c : Call) (i : Nat) (d : Date) :
    GivesDay (c.invoke .endOfMonth #[.object i (.date d)]) d.endOfMonth? := by
  let call : Call := { c with args := #[.object i (.date d)] }
  have hday : Value.asDate (call.arg 0) = .ok d := rfl
  have hread := readFor_eq_pure hday HostMethod.endOfMonth.fullName
  have hrun : HostMethod.endOfMonth.run call = newDate (Date.orOutOfRange d.endOfMonth?) := by
    simp only [HostMethod.run, hread, pure_bind]
  rw [Call.invoke, HostFunction.run, hrun]
  exact givesDay_newDate _

end Methods

/-! ## Operators of days -/

section Operators

variable {n : Int}

/-- An operator that a script applies to two days. -/
def Call.compared (c : Call) (op : HostOperator) (i : Nat) (a : Date) (j : Nat) (b : Date) :
    ScriptM Value :=
  c.operate .date op (.object i (.date a)) (.object j (.date b))

theorem compared_sub (c : Call) (i j : Nat) (a b : Date) :
    c.compared .sub i a j b = pure (.ofInt (a.daysSince b)) := by
  rw [Call.compared, operate_date rfl]
  show (pure b >>= fun b => pure (.ofInt (a.daysSince b)) : ScriptM Value) = _
  rw [pure_bind]

theorem compared_lt (c : Call) (i j : Nat) (a b : Date) :
    c.compared .lt i a j b = pure (.bool (decide (a.daysSince b < 0))) := by
  have hlt : (a.compare b == .lt) = decide (a.daysSince b < 0) := by
    rw [Bool.eq_iff_iff, beq_iff_eq, decide_eq_true_iff, ← Date.lt_iff_daysSince_neg]
    rfl
  rw [Call.compared, operate_date rfl]
  show (pure b >>= fun b => pure (.bool (a.compare b == .lt)) : ScriptM Value) = _
  rw [pure_bind, hlt]

theorem compared_eq (c : Call) (i j : Nat) (a b : Date) :
    c.compared .eq i a j b = pure (.bool (decide (a.daysSince b = 0))) := by
  have heq : decide (a = b) = decide (a.daysSince b = 0) :=
    decide_eq_decide.mpr Date.eq_iff_daysSince_eq_zero
  rw [Call.compared, operate_date rfl, ← heq]
  rfl

/-- An integer of 64 bits is read back as it is. -/
theorem asInt64_ofInt (hmin : -2 ^ 63 ≤ n) (hmax : n < 2 ^ 63) :
    Value.asInt64 (.ofInt n) = .ok n := by
  have hback : (Int64.ofInt n).toInt = n := Int64.toInt_ofInt_of_le hmin hmax
  have hbounds : -2 ^ 63 ≤ n ∧ n ≤ 2 ^ 63 - 1 := ⟨hmin, Int.le_sub_one_of_lt hmax⟩
  show (if -2 ^ 63 ≤ (Int64.ofInt n).toInt ∧ (Int64.ofInt n).toInt ≤ 2 ^ 63 - 1 then
    Except.ok (Int64.ofInt n).toInt else _) = _
  rw [hback, if_pos hbounds]

/-- The calendar is so short that a difference of two days is read back as it is. -/
theorem asInt64_ofInt_daysSince (a b : Date) :
    Value.asInt64 (.ofInt (a.daysSince b)) = .ok (a.daysSince b) := by
  have hfirst (d : Date) := Date.le_iff_dayNumber_le.mp d.earliest_le
  have hlast (d : Date) := Date.le_iff_dayNumber_le.mp d.le_latest
  have hspan : Date.latest.dayNumber - Date.earliest.dayNumber < 2 ^ 63 := by decide
  have ha := And.intro (hfirst a) (hlast a)
  have hb := And.intro (hfirst b) (hlast b)
  unfold Date.daysSince
  exact asInt64_ofInt (by omega) (by omega)

end Operators

/-! ## The laws -/

/-- **What a script can rely on when it counts days** from a day. -/
structure DayLaws (d : Date) : Prop where
  /-- A script gets the day that the calendar has. -/
  call : ∀ n, LeadsTo .addDays d n (d.addDays? n)
  /-- There is none just if it would come before the earliest day or after the latest. -/
  eq_none_iff : ∀ n, d.addDays? n = none
    ↔ d.dayNumber + n < Date.earliest.dayNumber ∨ Date.latest.dayNumber < d.dayNumber + n
  /-- One day later is the next day of the calendar. -/
  next : ∀ e, d.addDays? 1 = some e ↔ d < e ∧ ∀ f, d < f → e ≤ f
  /-- The difference is the number of days that was gone on by. -/
  daysSince : ∀ m e, d.addDays? m = some e → e.daysSince d = m
  /-- Going on twice is going on by the sum. -/
  add : ∀ m n e, d.addDays? m = some e → e.addDays? n = d.addDays? (m + n)

/-- **What a script can rely on when it compares two days.** -/
structure DayOrder (a b : Date) : Prop where
  /-- A difference is the number of days. -/
  sub : ∀ (c : Call) i j, c.compared .sub i a j b = pure (.ofInt (a.daysSince b))
  /-- A day comes before another one just if the difference is negative. -/
  lt : ∀ (c : Call) i j, c.compared .lt i a j b = pure (.bool (decide (a.daysSince b < 0)))
  /-- Days are equal just if the difference is zero. -/
  eq : ∀ (c : Call) i j, c.compared .eq i a j b = pure (.bool (decide (a.daysSince b = 0)))
  /-- Comparing is comparing in the calendar. -/
  lt_iff : a < b ↔ a.daysSince b < 0
  /-- Only a day itself has the difference zero. -/
  eq_iff : a = b ↔ a.daysSince b = 0
  /-- The difference leads from the one day to the other. -/
  back : b.addDays? (a.daysSince b) = some a
  /-- So it does in a script. -/
  callBack : ∀ (c : Call) j,
    GivesDay (c.invoke .addDays #[.object j (.date b), .ofInt (a.daysSince b)]) (some a)

/-- **What a script can rely on when it counts months** from a day. -/
structure MonthLaws (d : Date) : Prop where
  /-- A script gets the day that the calendar has. -/
  call : ∀ n, LeadsTo .addMonths d n (d.addMonths? n)
  /-- There is one just if the month is of a supported year. -/
  exists_iff : ∀ n, (∃ e, d.addMonths? n = some e)
    ↔ minYear ≤ (12 * d.year + (d.month - 1) + n) / 12
      ∧ (12 * d.year + (d.month - 1) + n) / 12 ≤ maxYear
  /-- It is of this month, and it is the same day unless the month is shorter. -/
  result : ∀ n e, d.addMonths? n = some e
    ↔ 12 * e.year + (e.month - 1) = 12 * d.year + (d.month - 1) + n
      ∧ e.day = min d.day (daysInMonth e.year e.month)
  /-- A later day does not get before it. -/
  mono : ∀ n d' e e', d ≤ d' → d.addMonths? n = some e → d'.addMonths? n = some e' → e ≤ e'
  /-- Going back leads to the day again just if it was not clamped. -/
  back : ∀ n e, d.addMonths? n = some e → (e.addMonths? (-n) = some d ↔ e.day = d.day)
  /-- Otherwise it leads to an earlier day. -/
  back_clamped : ∀ n e, d.addMonths? n = some e → e.day ≠ d.day →
    ∃ f, e.addMonths? (-n) = some f ∧ f < d
  /-- A script that counts years gets the day that the calendar has. -/
  call_years : ∀ k, LeadsTo .addYears d k (d.addYears? k)
  /-- So many years are twelve times as many months. -/
  years : ∀ k, d.addYears? k = d.addMonths? (12 * k)
  /-- There is no day if the number of months does not fit 64 bits. -/
  years_eq_none : ∀ k, 12 * k < -2 ^ 63 ∨ 2 ^ 63 ≤ 12 * k → d.addYears? k = none

/-- **A day is the last one of the month** of a day. -/
structure IsEndOfMonth (d e : Date) : Prop where
  /-- It is of the same year. -/
  year_eq : e.year = d.year
  /-- It is of the same month. -/
  month_eq : e.month = d.month
  /-- It is not earlier. -/
  le : d ≤ e
  /-- Its month ends with it. -/
  endOfMonth : e.endOfMonth? = some e
  /-- No day of the month is later. -/
  greatest : ∀ f : Date, f.year = d.year → f.month = d.month → f ≤ e

/-- **Days are counted one by one.** Spans of days add up, and the difference of two days tells
their order and leads from one to the other. -/
theorem days_obey_laws (a b : Date) : DayLaws a ∧ DayOrder a b := by
  have hback : b.addDays? (a.daysSince b) = some a := Date.daysSince_eq_iff.mp rfl
  constructor
  · exact
      { call := leadsTo_of_shift? rfl a
        eq_none_iff := fun _ => Date.addDays?_eq_none_iff
        next := fun _ => Date.addDays?_one_eq_some_iff
        daysSince := fun _ _ => Date.daysSince_eq_iff.mpr
        add := fun _ n _ he => Date.addDays?_of_addDays? he n }
  · exact
      { sub := fun c i j => compared_sub c i j a b
        lt := fun c i j => compared_lt c i j a b
        eq := fun c i j => compared_eq c i j a b
        lt_iff := Date.lt_iff_daysSince_neg
        eq_iff := Date.eq_iff_daysSince_eq_zero
        back := hback
        callBack := fun c j =>
          hback ▸ leadsTo_of_shift? rfl b _ c j _ (asInt64_ofInt_daysSince a b) }

/-- **Months are counted with the day clamped to the end of the month.** The order of days is kept,
and going back undoes all but the clamping. -/
theorem months_obey_laws (d : Date) : MonthLaws d where
  call := leadsTo_of_shift? rfl d
  exists_iff _ := Date.exists_addMonths?_iff
  result _ _ := Date.addMonths?_eq_some_iff
  mono _ _ _ _ := Date.addMonths?_mono
  back _ _ := Date.addMonths?_neg_eq_iff
  back_clamped _ _ := Date.exists_addMonths?_neg_lt
  call_years := leadsTo_of_shift? rfl d
  years := d.addYears?_eq
  years_eq_none _ := Date.addYears?_eq_none

/-- **A script gets the last day of the month, except in the last month of the calendar.** -/
theorem end_of_month_iff (d : Date) :
    (∀ c i, GivesDay (Call.invoke c .endOfMonth #[.object i (.date d)]) d.endOfMonth?)
      ∧ ((∃ e, d.endOfMonth? = some e ∧ IsEndOfMonth d e)
        ↔ ¬ (d.year = maxYear ∧ d.month = 12)) := by
  refine ⟨fun c i => givesDay_endOfMonth c i d, ?_⟩
  constructor
  · rintro ⟨e, he, -⟩ hlast
    rw [d.endOfMonth?_eq, if_pos hlast] at he
    cases he
  · intro hearlier
    have hfound : d.endOfMonth? = some d.monthEnd := d.endOfMonth?_eq.trans (if_neg hearlier)
    have hagain : d.monthEnd.endOfMonth? = some d.monthEnd :=
      d.monthEnd.endOfMonth?_eq.trans (if_neg hearlier)
    exact ⟨d.monthEnd, hfound, rfl, rfl, Date.le_monthEnd rfl rfl, hagain,
      fun _ => Date.le_monthEnd⟩

/-- The last month has a last day too, but a script that asks for it gets the error. -/
theorem end_of_last_month_is_out_of_range :
    let d : Date := ⟨262142, 12, 15, by decide, by decide⟩
    let e : Date := ⟨262142, 12, 31, by decide, by decide⟩
    (e.year = d.year ∧ e.month = d.month ∧ d ≤ e
        ∧ ∀ f : Date, f.year = d.year → f.month = d.month → f ≤ e)
      ∧ d.endOfMonth? = none
      ∧ ∀ c i, Raises (Call.invoke c .endOfMonth #[.object i (.date d)]) outOfRange := by
  intro d e
  have hnone : d.endOfMonth? = none := by rw [Date.endOfMonth?_eq]; rfl
  have hraises (c : Call) (i : Nat) := givesDay_endOfMonth c i d
  rw [hnone] at hraises
  exact ⟨⟨rfl, rfl, d.le_latest, fun f _ _ => f.le_latest⟩, hnone, hraises⟩

end LedgerReports.Script
