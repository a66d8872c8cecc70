import LedgerReports.Proofs.Tabulation.Budget
import Mathlib

/-!
# When an operation on a tabulation succeeds

That a failed operation changes nothing, and that a successful one does what
it should, would also be so if every operation failed. Here is what keeps
that from being the case: the conditions under which a command is allowed are
said without the operations (`Desk.Allows`), and a command succeeds exactly
when it is allowed (`Desk.perform_succeeds_iff`).

The conditions speak of the budget as it was before the command. An operation
that charges several times looks at it in between, too, but it charges
different resources, and of one resource it never needs less later on than it
did before.

One assumption is made about the budget: that no more has been used up than
there is. It holds all through a run (`Desk.sound_after`). Without it an
operation that needs nothing could succeed where there is no room for
nothing.
-/

namespace LedgerReports

namespace Workbench

/-! ## Success -/

/-- There is room for some more of a resource. -/
def HasRoom (w : Workbench) (r : Resource) (amount : Nat) : Prop :=
  w.budget.spent r + amount ≤ r.limit

section Success

variable {α β : Type} {w : Workbench} {p : β → Prop}

theorem hasRoom_spend_self {r : Resource} {amount more : Nat} :
    (w.spend r amount).HasRoom r more ↔ w.HasRoom r (amount + more) := by
  rw [HasRoom, HasRoom, spent_spend_self, Nat.add_assoc]

theorem hasRoom_spend_of_ne {r r' : Resource} {amount more : Nat} (h : r' ≠ r) :
    (w.spend r amount).HasRoom r' more ↔ w.HasRoom r' more := by
  rw [HasRoom, HasRoom, spent_spend_of_ne h]

theorem HasRoom.of_add_left {r : Resource} {amount more : Nat} (h : w.HasRoom r (amount + more)) :
    w.HasRoom r amount :=
  Nat.le_trans (Nat.add_le_add_left (Nat.le_add_right amount more) _) h

/-- An operation succeeds, and its result is as it should be. -/
def Succeeds (x : DraftM β) (w : Workbench) (p : β → Prop) : Prop :=
  ∃ b w', x.run w = .ok b w' ∧ p b

theorem succeeds_pure {b : β} : Succeeds (pure b) w p ↔ p b := by
  refine ⟨?_, fun h => ⟨b, w, rfl, h⟩⟩
  rintro ⟨_, _, h, hp⟩
  cases h
  exact hp

theorem succeeds_bind_of_ok {x : DraftM α} {f : α → DraftM β} {a : α} {v : Workbench}
    (h : x.run w = .ok a v) : Succeeds (x >>= f) w p ↔ Succeeds (f a) v p := by
  unfold Succeeds
  rw [EStateM.run_bind, h]

theorem not_succeeds_bind_of_error {x : DraftM α} {f : α → DraftM β} {e : DraftError}
    {v : Workbench} (h : x.run w = .error e v) : ¬ Succeeds (x >>= f) w p := by
  unfold Succeeds
  rw [EStateM.run_bind, h]
  rintro ⟨_, _, h, -⟩
  cases h

theorem succeeds_charge_bind {r : Resource} {amount : Nat} {f : Unit → DraftM β} :
    Succeeds (charge r amount >>= f) w p
      ↔ w.HasRoom r amount ∧ Succeeds (f ()) (w.spend r amount) p := by
  have hrun := run_charge r amount w
  by_cases h : w.HasRoom r amount
  · rw [if_neg (Nat.not_lt.mpr h)] at hrun
    rw [succeeds_bind_of_ok hrun, and_iff_right h]
  · rw [if_pos (Nat.not_le.mp h)] at hrun
    exact iff_of_false (not_succeeds_bind_of_error hrun) fun hroom => h hroom.1

theorem succeeds_readText_bind {bytes : ByteArray} {f : String → DraftM β} :
    Succeeds (readText bytes >>= f) w p
      ↔ bytes.size ≤ Draft.maxText ∧ Succeeds (f (Utf8.decodeLossy bytes)) w p := by
  have hrun := run_readText bytes w
  by_cases h : bytes.size ≤ Draft.maxText
  · rw [if_neg (Nat.not_lt.mpr h)] at hrun
    rw [succeeds_bind_of_ok hrun, and_iff_right h]
  · rw [if_pos (Nat.not_le.mp h)] at hrun
    exact iff_of_false (not_succeeds_bind_of_error hrun) fun hsize => h hsize.1

/-- A text can be kept if it is short enough and there is room for it. -/
def CanKeep (w : Workbench) (bytes : ByteArray) : Prop :=
  bytes.size ≤ Draft.maxText ∧ w.HasRoom .text (Utf8.decodeLossy bytes).utf8ByteSize

theorem succeeds_keepText_bind {bytes : ByteArray} {f : String → DraftM β} :
    Succeeds (keepText bytes >>= f) w p
      ↔ w.CanKeep bytes ∧ Succeeds (f (Utf8.decodeLossy bytes))
        (w.spend .text (Utf8.decodeLossy bytes).utf8ByteSize) p := by
  rw [keepText, bind_assoc, succeeds_readText_bind, bind_assoc, succeeds_charge_bind, pure_bind,
    CanKeep, and_assoc]

theorem succeeds_slot_bind {index : Int} {f : Nat → DraftM β} :
    Succeeds (slot index >>= f) w p
      ↔ (1 ≤ index ∧ index ≤ Draft.maxPoints) ∧ Succeeds (f (index - 1).toNat) w p := by
  rw [slot]
  split
  case isTrue h => rw [pure_bind, and_iff_right h]
  case isFalse h => exact iff_of_false (not_succeeds_bind_of_error rfl) fun hslot => h hslot.1

theorem succeeds_get_bind {f : Workbench → DraftM β} :
    Succeeds (get >>= f) w p ↔ Succeeds (f w) w p := succeeds_bind_of_ok rfl

/-- Growth needs room for what is added, and where nothing is added there is
room for it. -/
theorem succeeds_chargeGrowth_bind (h : w.budget.Within) {size position : Nat}
    {f : Unit → DraftM β} :
    Succeeds (chargeGrowth size position >>= f) w p
      ↔ w.HasRoom .cells (position + 1 - size)
        ∧ Succeeds (f ()) (w.spend .cells (position + 1 - size)) p := by
  rw [chargeGrowth]
  split
  case isTrue => exact succeeds_charge_bind
  case isFalse hsize =>
    -- nothing is charged then, and nothing fits within any limit
    have hzero : position + 1 - size = 0 := by omega
    have hspend : w.spend .cells 0 = w := rfl
    rw [pure_bind, hzero, hspend, and_iff_right]
    exact h .cells

theorem succeeds_modifyDraft {id : Nat} {f : Draft → Draft} {p : Unit → Prop} :
    Succeeds (modifyDraft id f) w p ↔ p () := by
  refine ⟨?_, fun h => ⟨(), _, rfl, h⟩⟩
  rintro ⟨_, _, -, hp⟩
  exact hp

end Success

/-! ## The operations -/

section Operations

variable {w : Workbench}

theorem HasRoom.within {r : Resource} {amount : Nat} (hroom : w.HasRoom r amount)
    (h : w.budget.Within) : (w.spend r amount).budget.Within := (charged_spend hroom).within h

theorem succeeds_begin : Succeeds begin w (fun _ => True) ↔ w.HasRoom .series 1 := by
  rw [begin, succeeds_charge_bind, and_iff_left]
  exact ⟨_, _, rfl, trivial⟩

theorem succeeds_keepText_modify {id : Nat} {bytes : ByteArray} {f : String → Draft → Draft} :
    Succeeds (do modifyDraft id (f (← keepText bytes))) w (fun _ => True) ↔ w.CanKeep bytes := by
  rw [succeeds_keepText_bind, succeeds_modifyDraft, and_iff_left trivial]

theorem succeeds_setLabel (h : w.budget.Within) {id : Nat} {index : Int} {bytes : ByteArray} :
    Succeeds (setLabel id index bytes) w (fun _ => True)
      ↔ (1 ≤ index ∧ index ≤ Draft.maxPoints) ∧ w.CanKeep bytes
        ∧ w.HasRoom .cells (index.toNat - (w.draft id).labels.size) := by
  rw [setLabel, succeeds_slot_bind]
  refine and_congr_right fun hindex => ?_
  rw [succeeds_keepText_bind]
  refine and_congr_right fun hkeep => ?_
  rw [succeeds_get_bind, succeeds_chargeGrowth_bind (hkeep.2.within h),
    hasRoom_spend_of_ne (by decide), succeeds_modifyDraft, and_iff_left trivial]
  show HasRoom w _ ((index - 1).toNat + 1 - (w.draft id).labels.size) ↔ _
  rw [show (index - 1).toNat + 1 = index.toNat from by omega]

theorem succeeds_setValue (h : w.budget.Within) {id number : Nat} {index : Int}
    {value : Float} :
    Succeeds (setValue id number index value) w (fun _ => True)
      ↔ value.isFinite ∧ (1 ≤ index ∧ index ≤ Draft.maxPoints)
        ∧ w.HasRoom .cells (index.toNat - (w.node id number).values.size) := by
  unfold setValue
  split
  case isFalse hfinite =>
    exact iff_of_false (not_succeeds_bind_of_error rfl) fun hall => hfinite hall.1
  case isTrue hfinite =>
    rw [and_iff_right hfinite]
    refine succeeds_slot_bind.trans (and_congr_right fun hindex => ?_)
    rw [succeeds_get_bind, succeeds_chargeGrowth_bind h, succeeds_modifyDraft,
      and_iff_left trivial, show (index - 1).toNat + 1 = index.toNat from by omega]

theorem succeeds_pushValue (h : w.budget.Within) {id number : Nat} {value : Float} :
    Succeeds (pushValue id number value) w (fun _ => True)
      ↔ value.isFinite ∧ (w.node id number).values.size < Draft.maxPoints
        ∧ w.HasRoom .cells 1 := by
  rw [pushValue, succeeds_get_bind, succeeds_setValue h]
  refine and_congr_right fun _ => and_congr (by omega) ?_
  rw [show ((w.node id number).values.size + 1 : Int).toNat - (w.node id number).values.size = 1
    from by omega]

theorem succeeds_child {id parent : Nat} {bytes : ByteArray} :
    Succeeds (child id parent bytes) w (fun _ => True)
      ↔ bytes.size ≤ Draft.maxText
        ∧ ((w.node id parent).children[Utf8.decodeLossy bytes]? = none →
          w.HasRoom .series 1 ∧ w.HasRoom .text (Utf8.decodeLossy bytes).utf8ByteSize) := by
  rw [child, succeeds_readText_bind]
  refine and_congr_right fun _ => ?_
  rw [succeeds_get_bind]
  split
  case h_1 number hfound =>
    rw [hfound]
    exact iff_of_true (succeeds_pure.mpr trivial) fun hnone => nomatch hnone
  case h_2 hnone =>
    rw [succeeds_charge_bind, succeeds_charge_bind, hasRoom_spend_of_ne (by decide)]
    refine ⟨fun hall _ => ⟨hall.1, hall.2.1⟩, fun hroom => ?_⟩
    exact ⟨(hroom hnone).1, (hroom hnone).2, _, _, rfl, trivial⟩

/-! ### Labels -/

section Labels

variable {ε : Type}

/-- Texts can be kept as labels, one after the other, if each is short enough
and there is room for all of them. -/
def CanKeepAll (w : Workbench) (given : List ByteArray) : Prop :=
  (∀ bytes ∈ given, bytes.size ≤ Draft.maxText)
    ∧ w.HasRoom .text (given.map fun bytes => (Utf8.decodeLossy bytes).utf8ByteSize).sum
    ∧ w.HasRoom .cells given.length

theorem canKeepAll_nil (h : w.budget.Within) : w.CanKeepAll [] :=
  ⟨fun _ hmem => absurd hmem List.not_mem_nil, h .text, h .cells⟩

theorem canKeepAll_cons {bytes : ByteArray} {given : List ByteArray} :
    w.CanKeepAll (bytes :: given)
      ↔ w.CanKeep bytes ∧ w.HasRoom .cells 1
        ∧ ((w.spend .text (Utf8.decodeLossy bytes).utf8ByteSize).spend .cells 1).CanKeepAll
          given := by
  rw [CanKeepAll, CanKeepAll, CanKeep, hasRoom_spend_of_ne (by decide), hasRoom_spend_self,
    hasRoom_spend_self, hasRoom_spend_of_ne (by decide), List.map_cons, List.sum_cons,
    List.length_cons, List.forall_mem_cons, Nat.add_comm given.length]
  refine ⟨fun ⟨⟨hsize, hsizes⟩, htext, hcells⟩ => ?_,
    fun ⟨⟨hsize, _⟩, _, hsizes, htext, hcells⟩ => ⟨⟨hsize, hsizes⟩, htext, hcells⟩⟩
  exact ⟨⟨hsize, htext.of_add_left⟩, hcells.of_add_left, hsizes, htext, hcells⟩

theorem succeeds_checkLabelCount_bind {α : Type} {kept : Array String} {f : Unit → DraftM α}
    {p : α → Prop} :
    Succeeds (checkLabelCount kept >>= f) w p
      ↔ kept.size ≠ Draft.maxPoints ∧ Succeeds (f ()) w p := by
  rw [checkLabelCount]
  split
  case isTrue h => exact iff_of_false (not_succeeds_bind_of_error rfl) fun hall => hall.1 h
  case isFalse h => rw [pure_bind, and_iff_right h]

theorem succeeds_keepLabel_bind {α : Type} {kept : Array String} {bytes : ByteArray}
    {f : Array String → DraftM α} {p : α → Prop} :
    Succeeds (keepLabel kept bytes >>= f) w p
      ↔ w.CanKeep bytes ∧ w.HasRoom .cells 1
        ∧ Succeeds (f (kept.push (Utf8.decodeLossy bytes)))
          ((w.spend .text (Utf8.decodeLossy bytes).utf8ByteSize).spend .cells 1) p := by
  rw [keepLabel, bind_assoc, succeeds_keepText_bind, bind_assoc, succeeds_charge_bind, pure_bind,
    hasRoom_spend_of_ne (by decide)]

/-- Labels are kept if all can be read and kept and there are not too many. -/
theorem succeeds_keepLabels (h : w.budget.Within) {labels : List (Except ε ByteArray)}
    {kept : Array String} (hkept : kept.size ≤ Draft.maxPoints) :
    Succeeds (keepLabels labels kept) w (fun result => ∃ all, result = .ok all)
      ↔ ∃ given, labels = given.map .ok ∧ kept.size + given.length ≤ Draft.maxPoints
        ∧ w.CanKeepAll given := by
  induction labels generalizing kept w with
  | nil =>
    refine iff_of_true (succeeds_pure.mpr ⟨kept, rfl⟩) ⟨[], rfl, hkept, canKeepAll_nil h⟩
  | cons label rest ih =>
    unfold keepLabels
    rw [succeeds_checkLabelCount_bind]
    cases label with
    | error e =>
      refine iff_of_false (fun hall => ?_) fun hgiven => ?_
      · obtain ⟨all, hall⟩ := succeeds_pure.mp hall.2
        cases hall
      · obtain ⟨given, hgiven, -⟩ := hgiven
        cases given <;> cases hgiven
    | ok bytes =>
      have hsize : (kept.push (Utf8.decodeLossy bytes)).size = kept.size + 1 := Array.size_push _
      constructor
      · -- one label more is kept, and the rest has less room
        rintro ⟨hcount, hrest⟩
        obtain ⟨hkeep, hroom, hrest⟩ := succeeds_keepLabel_bind.mp hrest
        have hwithin := ((hasRoom_spend_of_ne (by decide)).mpr hroom).within (hkeep.2.within h)
        obtain ⟨given, rfl, hlength, hall⟩ := (ih hwithin (by omega)).mp hrest
        refine ⟨bytes :: given, rfl, ?_, canKeepAll_cons.mpr ⟨hkeep, hroom, hall⟩⟩
        rw [List.length_cons]
        omega
      · rintro ⟨given, hgiven, hcount, hkeep⟩
        cases given with
        | nil => cases hgiven
        | cons bytes' given =>
          cases hgiven
          rw [List.length_cons] at hcount
          obtain ⟨hkeep, hroom, hall⟩ := canKeepAll_cons.mp hkeep
          have hwithin := ((hasRoom_spend_of_ne (by decide)).mpr hroom).within (hkeep.2.within h)
          refine ⟨by omega, succeeds_keepLabel_bind.mpr ⟨hkeep, hroom, ?_⟩⟩
          exact (ih hwithin (by omega)).mpr ⟨given, rfl, by omega, hall⟩

theorem succeeds_setLabels (h : w.budget.Within) {id : Nat} {labels : List (Except ε ByteArray)} :
    Succeeds (setLabels id labels) w (fun result => result = .ok ())
      ↔ ∃ given, labels = given.map .ok ∧ given.length ≤ Draft.maxPoints
        ∧ w.CanKeepAll given := by
  have hkeep : Succeeds (keepLabels labels #[]) w _ ↔ _ := succeeds_keepLabels h (Nat.zero_le _)
  simp only [Array.size_empty, Nat.zero_add] at hkeep
  rw [← hkeep, setLabels]
  refine ⟨fun ⟨result, w', hrun, hresult⟩ => ?_, fun ⟨result, w', hrun, all, hall⟩ => ?_⟩
  · obtain ⟨kept, v, hkeep, hrest⟩ := exists_of_bind_eq_ok hrun
    cases kept with
    | ok all => exact ⟨_, _, hkeep, all, rfl⟩
    | error e =>
      cases hrest
      cases hresult
  · subst hall
    exact (succeeds_bind_of_ok hrun).mpr ⟨_, _, rfl, rfl⟩

end Labels

end Operations

end Workbench

/-! ## Commands -/

namespace Desk

open Workbench

variable {ε α : Type}

/-- **A command is allowed**: its handle has been handed out, what it sets can
be kept, and there is room for it. -/
def Allows (desk : Desk) : Command ε → Prop
  | .begin => desk.bench.HasRoom .series 1
  | .setText _ tabulation bytes =>
    tabulation < desk.bench.drafts.size ∧ desk.bench.CanKeep bytes
  | .setLabels tabulation labels =>
    tabulation < desk.bench.drafts.size
      ∧ ∃ given, labels = given.map .ok ∧ given.length ≤ Draft.maxPoints
        ∧ desk.bench.CanKeepAll given
  | .setLabel tabulation index bytes =>
    tabulation < desk.bench.drafts.size ∧ (1 ≤ index ∧ index ≤ Draft.maxPoints)
      ∧ desk.bench.CanKeep bytes
      ∧ desk.bench.HasRoom .cells (index.toNat - (desk.bench.draft tabulation).labels.size)
  | .series place name =>
    ∃ id parent, desk.node? place = some (id, parent) ∧ name.size ≤ Draft.maxText
      ∧ ((desk.bench.node id parent).children[Utf8.decodeLossy name]? = none →
        desk.bench.HasRoom .series 1
          ∧ desk.bench.HasRoom .text (Utf8.decodeLossy name).utf8ByteSize)
  | .setValue handle index value =>
    ∃ id number, desk.series[handle]? = some (id, number) ∧ value.isFinite
      ∧ (1 ≤ index ∧ index ≤ Draft.maxPoints)
      ∧ desk.bench.HasRoom .cells (index.toNat - (desk.bench.node id number).values.size)
  | .pushValue handle value =>
    ∃ id number, desk.series[handle]? = some (id, number) ∧ value.isFinite
      ∧ (desk.bench.node id number).values.size < Draft.maxPoints
      ∧ desk.bench.HasRoom .cells 1

theorem attempt_succeeds_iff (desk : Desk) (x : DraftM α) (handles : α → List (Nat × Nat)) :
    (desk.attempt x handles).2 = true ↔ Succeeds x desk.bench fun _ => True := by
  unfold attempt Succeeds
  cases h : x.run desk.bench with
  | ok a bench => exact iff_of_true rfl ⟨a, bench, rfl, trivial⟩
  | error e bench =>
    refine iff_of_false Bool.false_ne_true ?_
    rintro ⟨_, _, heq, -⟩
    cases heq

theorem attemptLabels_succeeds_iff (desk : Desk) (id : Nat) (labels : List (Except ε ByteArray)) :
    (desk.attemptLabels id labels).2 = true
      ↔ Succeeds (setLabels id labels) desk.bench fun result => result = .ok () := by
  unfold attemptLabels Succeeds
  cases h : (setLabels id labels).run desk.bench with
  | error e bench =>
    refine iff_of_false Bool.false_ne_true ?_
    rintro ⟨_, _, heq, -⟩
    cases heq
  | ok outcome bench =>
    cases outcome with
    | ok _ => exact iff_of_true rfl ⟨_, bench, rfl, rfl⟩
    | error e =>
      refine iff_of_false Bool.false_ne_true ?_
      rintro ⟨_, _, heq, hresult⟩
      cases heq
      cases hresult

theorem onDraft_succeeds_iff (desk : Desk) (tabulation : Nat) (act : Desk × Bool) :
    (desk.onDraft tabulation act).2 = true
      ↔ tabulation < desk.bench.drafts.size ∧ act.2 = true := by
  unfold onDraft
  split
  case isTrue hlt => rw [and_iff_right hlt]
  case isFalse hlt => exact iff_of_false Bool.false_ne_true fun hall => hlt hall.1

theorem onNode_succeeds_iff (desk : Desk) (node : Option (Nat × Nat))
    (act : Nat → Nat → Desk × Bool) :
    (desk.onNode node act).2 = true
      ↔ ∃ id number, node = some (id, number) ∧ (act id number).2 = true := by
  unfold onNode
  split
  case h_1 id number =>
    refine ⟨fun hall => ⟨id, number, rfl, hall⟩, ?_⟩
    rintro ⟨_, _, hsome, hall⟩
    cases hsome
    exact hall
  case h_2 =>
    refine iff_of_false Bool.false_ne_true ?_
    rintro ⟨_, _, hsome, -⟩
    cases hsome

/-- **A command succeeds exactly when it is allowed.** -/
theorem perform_succeeds_iff {desk : Desk} (h : desk.bench.budget.Within) (command : Command ε) :
    (desk.perform command).2 = true ↔ desk.Allows command := by
  cases command with
  | begin => rw [perform, attempt_succeeds_iff, succeeds_begin, Allows]
  | setText field id bytes =>
    rw [perform, onDraft_succeeds_iff, attempt_succeeds_iff, assign_eq,
      succeeds_keepText_modify, Allows]
  | setLabels id labels =>
    rw [perform, onDraft_succeeds_iff, attemptLabels_succeeds_iff, succeeds_setLabels h, Allows]
  | setLabel id index bytes =>
    rw [perform, onDraft_succeeds_iff, attempt_succeeds_iff, succeeds_setLabel h, Allows]
  | series place name =>
    rw [perform, onNode_succeeds_iff, Allows]
    simp only [attempt_succeeds_iff, succeeds_child]
  | setValue handle index value =>
    rw [perform, onNode_succeeds_iff, Allows]
    simp only [attempt_succeeds_iff, succeeds_setValue h]
  | pushValue handle value =>
    rw [perform, onNode_succeeds_iff, Allows]
    simp only [attempt_succeeds_iff, succeeds_pushValue h]

end Desk

end LedgerReports
