import LedgerReports.Proofs.Script.Journal
import LedgerReports.Proofs.Script.Results

/-!
# What the functions of the host ask

Which questions a function of the host puts to the ledger is known from its
arguments and, for the balances, from the answer to a first question
(`HostFunction.Asks`). It first looks at the deadline, and it does not ask
when it is late. So a call that would be answered with a fault leaves one of
two notes (`Takes.noted_of_hits`): that of the fault, or that of the
deadline.
-/

namespace LedgerReports.Script

namespace HostFunction

/-- The balance that a function of the host is called for. -/
inductive WantsBalance (c : Call) : HostFunction → Int → Period → Prop where
  /-- The balance on a day. -/
  | onDay {id : Int} {day : Date} (hid : Value.asAccountId (c.arg 0) = .ok id)
      (hday : Value.asDate (c.arg 1) = .ok day) : WantsBalance c .balancesAt id (.upTo day)
  /-- The balance of some days. -/
  | overDays {id : Int} {first stop : Date} (hid : Value.asAccountId (c.arg 0) = .ok id)
      (hfirst : Value.asDate (c.arg 1) = .ok first) (hstop : Value.asDate (c.arg 2) = .ok stop) :
      WantsBalance c .balancesBetween id (.between first stop)

/-- **The questions of a function of the host** for the arguments of a call. -/
inductive Asks (c : Call) (ledger : Ledger.View) :
    HostFunction → {α : Type} → Ledger.Question α → Prop where
  /-- All accounts. -/
  | accounts : Asks c ledger .accountsAll .accounts
  /-- One account. -/
  | account {id : Int} (hid : Value.asAccountId (c.arg 0) = .ok id) :
      Asks c ledger .accountsGet (.account id)
  /-- All securities. -/
  | securities : Asks c ledger .securitiesAll .securities
  /-- One security. -/
  | security {id : Int} (hid : Value.asSecurityId (c.arg 0) = .ok id) :
      Asks c ledger .securitiesGet (.security id)
  /-- The security that the user counts in. -/
  | defaultCurrency : Asks c ledger .securitiesDefault .defaultCurrency
  /-- A balance. -/
  | balance {f : HostFunction} {id : Int} {period : Period} (hf : WantsBalance c f id period) :
      Asks c ledger f (.balance id period)
  /-- The security of an account, once its balance is known. -/
  | securityOf {f : HostFunction} {id : Int} {period : Period} {account : Account}
      {amount : Amount} (hf : WantsBalance c f id period)
      (hbalance : ledger.balance id period = .ok (account, amount)) :
      Asks c ledger f (.securityOf account)
  /-- The price on a day. -/
  | price {security currency : Int} {day : Date}
      (hsecurity : Value.asSecurityId (c.arg 0) = .ok security)
      (hcurrency : Value.asSecurityId (c.arg 1) = .ok currency)
      (hday : Value.asDate (c.arg 2) = .ok day) :
      Asks c ledger .pricesAt (.closestPrice security currency day)

/-- **A call of a function of the host hits a fault**: one of its questions is
answered with it. -/
def Hits (f : HostFunction) (c : Call) (ledger : Ledger.View) (e : Failure) : Prop :=
  e.isFault = true ∧ ∃ (α : Type) (question : Ledger.Question α),
    f.Asks c ledger question ∧ ledger.answer question = .error e

end HostFunction

/-! ## Reading arguments and looking at the deadline -/

section Steps

variable {α β : Type} {setting : Setting} {m : Machine} {y : ScriptM β}

/-- A function that is not late goes on with the machine it has. -/
theorem run_checkDeadline (h : isLate.run setting m = .ok false m) :
    checkDeadline.run setting m = .ok () m := by
  rw [checkDeadline, ScriptM.run_bind, h]
  exact ScriptM.run_pure setting m ()

theorem takes_isLate_checkDeadline : Takes setting checkDeadline m isLate m :=
  .first (.self isLate m)

theorem takes_consult_ask {question : Ledger.Question α} :
    Takes setting (ask question) m (consult question) m :=
  .first (.self (consult question) m)

end Steps

/-! ## Functions of the host ask unless they are late -/

section Asks

variable {α : Type} {setting : Setting} {c : Call} {f : HostFunction}
variable {question : Ledger.Question α}

theorem HostFunction.WantsBalance.takes {id : Int} {period : Period} (m : Machine)
    (h : f.WantsBalance c id period) : Takes setting (f.run c) m (balanceOf id period) m := by
  cases h with
  | onDay hid hday => exact .next (run_read hid) (.next (run_read hday) (.self _ m))
  | overDays hid hfirst hstop =>
    exact .next (run_read hid) (.next (run_read hfirst) (.next (run_read hstop) (.self _ m)))

/-- A function that has a question looks at the deadline, and asks next. -/
theorem HostFunction.Asks.takes (m : Machine) (h : f.Asks c setting.ledger question) :
    ∃ (β : Type) (ahead : Unit → ScriptM β),
      Takes setting (f.run c) m (checkDeadline >>= ahead) m
        ∧ Takes setting (ahead ()) m (consult question) m := by
  cases h with
  | accounts | securities | defaultCurrency =>
    exact ⟨_, _, .self _ m, .first takes_consult_ask⟩
  | account hid | security hid =>
    exact ⟨_, _, .next (run_read hid) (.self _ m), .first takes_consult_ask⟩
  | balance hf => exact ⟨_, _, hf.takes m, .first (.self _ m)⟩
  | securityOf hf hbalance =>
    exact ⟨_, _, hf.takes m, .next (run_consult_of_ok m hbalance) (.first takes_consult_ask)⟩
  | price hsecurity hcurrency hday =>
    exact ⟨_, _,
      .next (run_read hsecurity) (.next (run_read hcurrency)
        (.next (run_read hday) (.self _ m))),
      .first takes_consult_ask⟩

/-- **A call that hits a fault is noted**: at the end of a run that makes it
before any other fault is known, the run has seen that it is late, or this
fault is the first. -/
theorem Takes.noted_of_hits {β : Type} {x : ScriptM β} {m m' : Machine} {e : Failure}
    (h : Takes setting x m (f.run c) m') (hits : f.Hits c setting.ledger e)
    (hfirst : m'.journal.firstFault? = none) :
    SeesDeadline setting x m ∨ (x.after setting m).journal.firstFault? = some e := by
  obtain ⟨hfault, α, question, hasks, hanswer⟩ := hits
  obtain ⟨γ, ahead, hcheck, hconsult⟩ := hasks.takes m'
  obtain ⟨m₁, hrun, hsame⟩ := run_isLate setting m'
  cases hlate : m₁.journal.deadlinePassed with
  | true =>
    rw [hlate] at hrun
    exact .inl (.inl ⟨m', m₁, h.trans (hcheck.trans (.first takes_isLate_checkDeadline)), hrun⟩)
  | false =>
    rw [hlate, hsame hlate] at hrun
    have htakes := h.trans (hcheck.trans (.next (run_checkDeadline hrun) hconsult))
    exact .inr (htakes.firstFault? hfirst hanswer hfault)

end Asks

end LedgerReports.Script
