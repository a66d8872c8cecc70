import LedgerReports.Tabulation.Draft
import Mathlib

/-!
# What the operations on drafts do

Every operation on the drafts of a run first looks whether it may be done,
using up what it needs, and only then changes a draft. Until that point it
has touched the budget and nothing else: `Charged w w'` says that `w'` is
`w` with more used up, within the limits.

For each operation two facts are stated, and nothing else is needed to
reason about it. *If it succeeds*, what it used up and what it changed are
known (`setLabel_eq_ok` and the like). *If it fails*, the workbench has
been charged at most (`FailsGently`).
-/

namespace LedgerReports

/-! ## Budgets -/

namespace Budget

/-- The budget after some more of a resource has been used. -/
def add (b : Budget) (r : Resource) (amount : Nat) : Budget := b.withSpent r (b.spent r + amount)

theorem spent_add (b : Budget) (r r' : Resource) (amount : Nat) :
    (b.add r amount).spent r' = b.spent r' + if r' = r then amount else 0 := by
  cases r <;> cases r' <;> rfl

/-- No more is used than may be. -/
def Within (b : Budget) : Prop := ∀ r, b.spent r ≤ r.limit

end Budget

namespace Workbench

/-- The workbench after some more of a resource has been used. -/
def spend (w : Workbench) (r : Resource) (amount : Nat) : Workbench :=
  { w with budget := w.budget.add r amount }

theorem spent_spend (w : Workbench) (r r' : Resource) (amount : Nat) :
    (w.spend r amount).budget.spent r' = w.budget.spent r' + if r' = r then amount else 0 :=
  Budget.spent_add w.budget r r' amount

theorem spent_spend_self (w : Workbench) (r : Resource) (amount : Nat) :
    (w.spend r amount).budget.spent r = w.budget.spent r + amount := by
  rw [spent_spend, if_pos rfl]

theorem spent_spend_of_ne {w : Workbench} {r r' : Resource} {amount : Nat} (h : r' ≠ r) :
    (w.spend r amount).budget.spent r' = w.budget.spent r' := by
  rw [spent_spend, if_neg h, Nat.add_zero]

/-- **More has been used up, and that is all**: the drafts are as before,
no counter has gone down, and the limits are kept if they were. -/
structure Charged (w w' : Workbench) : Prop where
  /-- The drafts are as before. -/
  drafts : w'.drafts = w.drafts
  /-- No counter has gone down. -/
  spent_le : ∀ r, w.budget.spent r ≤ w'.budget.spent r
  /-- The limits are kept. -/
  within : w.budget.Within → w'.budget.Within

theorem Charged.refl (w : Workbench) : Charged w w := ⟨rfl, fun _ => Nat.le_refl _, id⟩

theorem Charged.trans {w w' w'' : Workbench} (h : Charged w w') (h' : Charged w' w'') :
    Charged w w'' :=
  ⟨h'.drafts.trans h.drafts, fun r => Nat.le_trans (h.spent_le r) (h'.spent_le r),
    fun hw => h'.within (h.within hw)⟩

/-- What there is room for can be used up. -/
theorem charged_spend {w : Workbench} {r : Resource} {amount : Nat}
    (h : w.budget.spent r + amount ≤ r.limit) : Charged w (w.spend r amount) := by
  refine ⟨rfl, fun r' => ?_, fun hw r' => ?_⟩
  · rw [spent_spend]
    exact Nat.le_add_right _ _
  · rw [spent_spend]
    by_cases hr : r' = r
    · rw [if_pos hr, hr]
      exact h
    · rw [if_neg hr]
      exact hw r'

/-! ## Operations in sequence -/

section Sequence

variable {α β : Type}

/-- What a sequence of operations does if it succeeds. -/
theorem exists_of_bind_eq_ok {x : DraftM α} {f : α → DraftM β} {w w' : Workbench} {b : β}
    (h : (x >>= f).run w = .ok b w') : ∃ a v, x.run w = .ok a v ∧ (f a).run v = .ok b w' := by
  rw [EStateM.run_bind] at h
  cases hx : x.run w with
  | ok a v =>
    rw [hx] at h
    exact ⟨a, v, rfl, h⟩
  | error e v =>
    rw [hx] at h
    cases h

/-- An operation that, however it ends, has charged the workbench at most. -/
def ChargesOnly (x : DraftM α) : Prop :=
  ∀ w, (∀ a w', x.run w = .ok a w' → Charged w w')
    ∧ ∀ e w', x.run w = .error e w' → Charged w w'

/-- An operation that has charged the workbench at most if it fails. -/
def FailsGently (x : DraftM α) : Prop := ∀ w e w', x.run w = .error e w' → Charged w w'

theorem ChargesOnly.failsGently {x : DraftM α} (h : ChargesOnly x) : FailsGently x :=
  fun w => (h w).2

theorem chargesOnly_pure (a : α) : ChargesOnly (pure a : DraftM α) := by
  refine fun w => ⟨fun b w' h => ?_, fun e w' h => ?_⟩
  · cases h
    exact .refl w
  · cases h

theorem chargesOnly_throw (e : DraftError) : ChargesOnly (throw e : DraftM α) := by
  refine fun w => ⟨fun b w' h => ?_, fun e w' h => ?_⟩
  · cases h
  · cases h
    exact .refl w

theorem chargesOnly_get : ChargesOnly (get : DraftM Workbench) := by
  refine fun w => ⟨fun b w' h => ?_, fun e w' h => ?_⟩
  · cases h
    exact .refl w
  · cases h

theorem ChargesOnly.bind {x : DraftM α} {f : α → DraftM β} (hx : ChargesOnly x)
    (hf : ∀ a, ChargesOnly (f a)) : ChargesOnly (x >>= f) := by
  intro w
  rw [EStateM.run_bind]
  cases h : x.run w with
  | ok a v =>
    have hv := (hx w).1 a v h
    exact ⟨fun b w' h' => hv.trans ((hf a v).1 b w' h'),
      fun e w' h' => hv.trans ((hf a v).2 e w' h')⟩
  | error e v =>
    refine ⟨fun b w' h' => ?_, fun e w' h' => ?_⟩
    · cases h'
    · cases h'
      exact (hx w).2 e v h

theorem FailsGently.bind {x : DraftM α} {f : α → DraftM β} (hx : ChargesOnly x)
    (hf : ∀ a, FailsGently (f a)) : FailsGently (x >>= f) := by
  intro w e w' h
  rw [EStateM.run_bind] at h
  cases hrun : x.run w with
  | ok a v =>
    rw [hrun] at h
    exact ((hx w).1 a v hrun).trans (hf a v e w' h)
  | error _ _ =>
    rw [hrun] at h
    cases h
    exact (hx w).2 _ _ hrun

end Sequence

/-! ## The single steps -/

theorem run_charge (r : Resource) (amount : Nat) (w : Workbench) :
    (charge r amount).run w
      = if r.limit < w.budget.spent r + amount then .error (.exhausted r) w
        else .ok () (w.spend r amount) := by
  rw [charge, EStateM.run_bind, EStateM.run_get]
  simp only []
  split <;> rfl

theorem chargesOnly_charge (r : Resource) (amount : Nat) : ChargesOnly (charge r amount) := by
  intro w
  rw [run_charge]
  split
  case isTrue => exact chargesOnly_throw (.exhausted r) w
  case isFalse h =>
    refine ⟨fun a w' h' => ?_, fun e w' h' => ?_⟩
    · cases h'
      exact charged_spend (Nat.not_lt.mp h)
    · cases h'

theorem charge_eq_ok {r : Resource} {amount : Nat} {w w' : Workbench}
    (h : (charge r amount).run w = .ok () w') :
    w.budget.spent r + amount ≤ r.limit ∧ w' = w.spend r amount := by
  rw [run_charge] at h
  split at h
  case isTrue => cases h
  case isFalse hroom =>
    cases h
    exact ⟨Nat.not_lt.mp hroom, rfl⟩

/-- The workbench after one of its drafts has been changed. -/
def change (w : Workbench) (id : Nat) (f : Draft → Draft) : Workbench :=
  { w with drafts := w.drafts.modify id f }

theorem getElem?_change_self {w : Workbench} {id : Nat} {d : Draft} (h : w.drafts[id]? = some d)
    (f : Draft → Draft) : (w.change id f).drafts[id]? = some (f d) := by
  rw [change, Array.getElem?_modify, if_pos rfl, h, Option.map_some]

theorem getElem?_change_of_ne (w : Workbench) {id j : Nat} (h : j ≠ id) (f : Draft → Draft) :
    (w.change id f).drafts[j]? = w.drafts[j]? := by
  rw [change, Array.getElem?_modify, if_neg (Ne.symm h)]

theorem draft_eq {w : Workbench} {id : Nat} {d : Draft} (h : w.drafts[id]? = some d) :
    w.draft id = d := by
  rw [draft, Array.getD_eq_getD_getElem?, h, Option.getD_some]

theorem node_eq {w : Workbench} {id number : Nat} {n : Draft.Node}
    (h : (w.draft id).nodes[number]? = some n) : w.node id number = n := by
  rw [node, Array.getD_eq_getD_getElem?, h, Option.getD_some]

theorem node_eq_getElem {w : Workbench} {id number : Nat} {d : Draft}
    (h : w.drafts[id]? = some d) (hnumber : number < d.nodes.size) :
    w.node id number = d.nodes[number] := by
  refine node_eq ?_
  rw [draft_eq h, Array.getElem?_eq_getElem hnumber]

/-- A change of a draft cannot fail. -/
theorem failsGently_modifyDraft (id : Nat) (f : Draft → Draft) :
    FailsGently (modifyDraft id f) := by
  intro w e w' h
  cases h

section Steps

variable {w w' : Workbench}

theorem run_readText (bytes : ByteArray) (w : Workbench) :
    (readText bytes).run w
      = if Draft.maxText < bytes.size then .error .textTooLong w
        else .ok (Utf8.decodeLossy bytes) w := by
  rw [readText]
  split <;> rfl

theorem chargesOnly_readText (bytes : ByteArray) : ChargesOnly (readText bytes) := by
  rw [readText]
  split
  · exact chargesOnly_throw _
  · exact chargesOnly_pure _

theorem readText_eq_ok {bytes : ByteArray} {text : String}
    (h : (readText bytes).run w = .ok text w') : text = Utf8.decodeLossy bytes ∧ w' = w := by
  rw [run_readText] at h
  split at h
  · cases h
  · cases h
    exact ⟨rfl, rfl⟩

theorem chargesOnly_keepText (bytes : ByteArray) : ChargesOnly (keepText bytes) :=
  (chargesOnly_readText bytes).bind fun _ =>
    (chargesOnly_charge _ _).bind fun _ => chargesOnly_pure _

/-- A text that is kept is charged with the bytes it is kept as. -/
theorem keepText_eq_ok {bytes : ByteArray} {text : String}
    (h : (keepText bytes).run w = .ok text w') :
    text = Utf8.decodeLossy bytes ∧ w' = w.spend .text text.utf8ByteSize := by
  obtain ⟨read, v, hread, hrest⟩ := exists_of_bind_eq_ok h
  obtain ⟨rfl, rfl⟩ := readText_eq_ok hread
  obtain ⟨_, v', hcharge, hpure⟩ := exists_of_bind_eq_ok hrest
  obtain ⟨-, rfl⟩ := charge_eq_ok hcharge
  cases hpure
  exact ⟨rfl, rfl⟩

theorem chargesOnly_slot (index : Int) : ChargesOnly (slot index) := by
  rw [slot]
  split
  · exact chargesOnly_pure _
  · exact chargesOnly_throw _

theorem slot_eq_ok {index : Int} {position : Nat}
    (h : (slot index).run w = .ok position w') :
    index = position + 1 ∧ position < Draft.maxPoints ∧ w' = w := by
  rw [slot] at h
  split at h
  case isTrue hindex =>
    cases h
    exact ⟨by omega, by omega, rfl⟩
  case isFalse => cases h

theorem chargesOnly_chargeGrowth (size position : Nat) :
    ChargesOnly (chargeGrowth size position) := by
  rw [chargeGrowth]
  split
  · exact chargesOnly_charge _ _
  · exact chargesOnly_pure _

theorem chargeGrowth_eq_ok {size position : Nat}
    (h : (chargeGrowth size position).run w = .ok () w') :
    w' = w.spend .cells (position + 1 - size) := by
  rw [chargeGrowth] at h
  split at h
  case isTrue => exact (charge_eq_ok h).2
  case isFalse hsize =>
    cases h
    -- nothing is charged where nothing grows
    rw [show position + 1 - size = 0 from by omega]
    rfl

end Steps

/-! ## Changes of drafts

What an operation does to its draft once it may. -/

section Put

variable {α : Type}

theorem size_put (a : Array α) (position : Nat) (x fill : α) :
    (put a position x fill).size = max a.size (position + 1) := by
  rw [put, extend, Array.size_setIfInBounds, Array.size_append, Array.size_replicate]
  omega

theorem getElem?_put (a : Array α) (position : Nat) (x fill : α) (i : Nat) :
    (put a position x fill)[i]?
      = if i = position then some x else if i < a.size then a[i]?
        else if i < position then some fill else none := by
  rw [put, extend, Array.getElem?_setIfInBounds, Array.size_append, Array.size_replicate]
  by_cases hi : i = position
  · rw [if_pos hi, if_pos hi.symm, if_pos (by omega)]
  · rw [if_neg hi, if_neg (Ne.symm hi), Array.getElem?_append]
    by_cases ha : i < a.size
    · rw [if_pos ha, if_pos ha]
    · rw [if_neg ha, if_neg ha, Array.getElem?_replicate]
      by_cases hp : i < position
      · rw [if_pos hp, if_pos (by omega)]
      · rw [if_neg hp, if_neg (by omega)]

end Put

/-- The draft with a label put at a position. -/
def withLabel (position : Nat) (text : String) (d : Draft) : Draft :=
  { d with labels := put d.labels position text "" }

/-- The draft with a value put at a position of a node. -/
def withValue (number position : Nat) (value : Float) (d : Draft) : Draft :=
  { d with
    nodes := d.nodes.modify number fun n =>
      { n with values := put n.values position value 0.0 } }

/-- The draft with a new node below another. -/
def withChild (parent : Nat) (name : String) (d : Draft) : Draft :=
  { d with
    nodes := (d.nodes.modify parent fun n =>
      { n with children := n.children.insert name d.nodes.size }).push {} }

/-- How many bytes texts take up together. -/
def bytesOf (texts : Array String) : Nat := (texts.toList.map String.utf8ByteSize).sum

theorem bytesOf_push (texts : Array String) (text : String) :
    bytesOf (texts.push text) = bytesOf texts + text.utf8ByteSize := by
  rw [bytesOf, Array.toList_push, List.map_append, List.sum_append, List.map_singleton,
    List.sum_singleton, bytesOf]

/-! ## The operations -/

section Operations

variable {w w' : Workbench}

theorem failsGently_begin : FailsGently begin :=
  FailsGently.bind (chargesOnly_charge _ _) fun _ => FailsGently.bind chargesOnly_get
    fun w => by
      intro v e v' h
      cases h

/-- A new draft is the last one, and is charged as a series. -/
theorem begin_eq_ok {id : Nat} (h : begin.run w = .ok id w') :
    Charged w (w.spend .series 1) ∧ id = w.drafts.size
      ∧ w' = { w.spend .series 1 with drafts := w.drafts.push {} } := by
  obtain ⟨_, v, hcharge, hrest⟩ := exists_of_bind_eq_ok h
  obtain ⟨hroom, rfl⟩ := charge_eq_ok hcharge
  cases hrest
  exact ⟨charged_spend hroom, rfl, rfl⟩

/-- Setting a text, whichever it is, keeps the text and changes the draft. -/
theorem failsGently_keepText_modify (id : Nat) (bytes : ByteArray)
    (f : String → Draft → Draft) :
    FailsGently (do modifyDraft id (f (← keepText bytes))) :=
  FailsGently.bind (chargesOnly_keepText bytes) fun _ => failsGently_modifyDraft id _

theorem keepText_modify_eq_ok {id : Nat} {bytes : ByteArray} {f : String → Draft → Draft}
    (h : (do modifyDraft id (f (← keepText bytes)) : DraftM Unit).run w = .ok () w') :
    Charged w (w.spend .text (Utf8.decodeLossy bytes).utf8ByteSize)
      ∧ w' = (w.spend .text (Utf8.decodeLossy bytes).utf8ByteSize).change id
        (f (Utf8.decodeLossy bytes)) := by
  obtain ⟨text, v, hkeep, hrest⟩ := exists_of_bind_eq_ok h
  have hcharged := (chargesOnly_keepText bytes w).1 _ _ hkeep
  obtain ⟨rfl, rfl⟩ := keepText_eq_ok hkeep
  cases hrest
  exact ⟨hcharged, rfl⟩

theorem failsGently_setTitle (id : Nat) (bytes : ByteArray) : FailsGently (setTitle id bytes) :=
  failsGently_keepText_modify id bytes _

theorem failsGently_setSubtitle (id : Nat) (bytes : ByteArray) :
    FailsGently (setSubtitle id bytes) :=
  failsGently_keepText_modify id bytes _

theorem failsGently_setUnits (id : Nat) (bytes : ByteArray) : FailsGently (setUnits id bytes) :=
  failsGently_keepText_modify id bytes _

section Labels

variable {ε : Type}

theorem chargesOnly_keepLabel (kept : Array String) (bytes : ByteArray) :
    ChargesOnly (keepLabel kept bytes) :=
  (chargesOnly_keepText bytes).bind fun _ =>
    (chargesOnly_charge _ _).bind fun _ => chargesOnly_pure _

theorem chargesOnly_checkLabelCount (kept : Array String) :
    ChargesOnly (checkLabelCount kept) := by
  rw [checkLabelCount]
  split
  · exact chargesOnly_throw _
  · exact chargesOnly_pure _

theorem chargesOnly_keepLabels (labels : List (Except ε ByteArray)) (kept : Array String) :
    ChargesOnly (keepLabels labels kept) := by
  induction labels generalizing kept with
  | nil => exact chargesOnly_pure _
  | cons label rest ih =>
    unfold keepLabels
    refine (chargesOnly_checkLabelCount kept).bind fun _ => ?_
    cases label with
    | ok bytes => exact (chargesOnly_keepLabel kept bytes).bind ih
    | error e => exact chargesOnly_pure _

theorem checkLabelCount_eq_ok {kept : Array String}
    (h : (checkLabelCount kept).run w = .ok () w') : kept.size ≠ Draft.maxPoints ∧ w' = w := by
  rw [checkLabelCount] at h
  split at h
  case isTrue => cases h
  case isFalse hsize =>
    cases h
    exact ⟨hsize, rfl⟩

theorem keepLabel_eq_ok {kept kept' : Array String} {bytes : ByteArray}
    (h : (keepLabel kept bytes).run w = .ok kept' w') :
    kept' = kept.push (Utf8.decodeLossy bytes)
      ∧ w' = (w.spend .text (Utf8.decodeLossy bytes).utf8ByteSize).spend .cells 1 := by
  obtain ⟨text, v, hkeep, hrest⟩ := exists_of_bind_eq_ok h
  obtain ⟨rfl, rfl⟩ := keepText_eq_ok hkeep
  obtain ⟨_, v', hcharge, hpure⟩ := exists_of_bind_eq_ok hrest
  obtain ⟨-, rfl⟩ := charge_eq_ok hcharge
  cases hpure
  exact ⟨rfl, rfl⟩

/-- Labels that are all kept are the texts of the given bytes, in their
order, and have been charged each with its bytes and one cell. -/
theorem keepLabels_eq_ok {labels : List (Except ε ByteArray)} {kept kept' : Array String}
    (hkept : kept.size ≤ Draft.maxPoints)
    (h : (keepLabels labels kept).run w = .ok (.ok kept') w') :
    ∃ given : List ByteArray, labels = given.map .ok
      ∧ kept' = kept ++ (given.map Utf8.decodeLossy).toArray
      ∧ kept'.size ≤ Draft.maxPoints
      ∧ w.budget.spent .text + bytesOf kept' = w'.budget.spent .text + bytesOf kept
      ∧ w.budget.spent .cells + kept'.size = w'.budget.spent .cells + kept.size := by
  induction labels generalizing kept w with
  | nil =>
    cases h
    exact ⟨[], rfl, by simp, hkept, rfl, rfl⟩
  | cons label rest ih =>
    unfold keepLabels at h
    obtain ⟨_, v, hcheck, hrest⟩ := exists_of_bind_eq_ok h
    obtain ⟨hsize, rfl⟩ := checkLabelCount_eq_ok hcheck
    cases label with
    | error e => cases hrest
    | ok bytes =>
      obtain ⟨kept₁, v₁, hkeep, hrec⟩ := exists_of_bind_eq_ok hrest
      obtain ⟨rfl, rfl⟩ := keepLabel_eq_ok hkeep
      have hpush : (kept.push (Utf8.decodeLossy bytes)).size = kept.size + 1 :=
        Array.size_push _
      obtain ⟨given, rfl, rfl, hle, htext, hcells⟩ := ih (by omega) hrec
      refine ⟨bytes :: given, rfl, by simp, hle, ?_, ?_⟩
      · rw [spent_spend_of_ne (by decide), spent_spend_self, bytesOf_push] at htext
        omega
      · rw [spent_spend_self, spent_spend_of_ne (by decide), hpush] at hcells
        omega

theorem failsGently_setLabels (id : Nat) (labels : List (Except ε ByteArray)) :
    FailsGently (setLabels id labels) := by
  refine FailsGently.bind (chargesOnly_keepLabels labels #[]) fun kept => ?_
  cases kept with
  | ok kept =>
    intro v e v' h
    cases h
  | error e => exact (chargesOnly_pure _).failsGently

/-- Labels of which one cannot be read are charged up to there, and the draft
keeps those it has. -/
theorem charged_of_setLabels_eq_error {id : Nat} {labels : List (Except ε ByteArray)} {e : ε}
    (h : (setLabels id labels).run w = .ok (.error e) w') : Charged w w' := by
  obtain ⟨kept, v, hkeep, hrest⟩ := exists_of_bind_eq_ok h
  have hcharged := (chargesOnly_keepLabels labels #[] w).1 _ _ hkeep
  cases kept with
  | ok kept => cases hrest
  | error e =>
    cases hrest
    exact hcharged

theorem setLabels_eq_ok {id : Nat} {labels : List (Except ε ByteArray)}
    (h : (setLabels id labels).run w = .ok (.ok ()) w') :
    ∃ (given : List ByteArray) (kept : Array String) (v : Workbench), labels = given.map .ok
      ∧ kept = (given.map Utf8.decodeLossy).toArray
      ∧ kept.size ≤ Draft.maxPoints
      ∧ Charged w v
      ∧ v.budget.spent .text = w.budget.spent .text + bytesOf kept
      ∧ v.budget.spent .cells = w.budget.spent .cells + kept.size
      ∧ w' = v.change id fun d => { d with labels := kept } := by
  obtain ⟨kept, v, hkeep, hrest⟩ := exists_of_bind_eq_ok h
  have hcharged := (chargesOnly_keepLabels labels #[] w).1 _ _ hkeep
  cases kept with
  | error e => cases hrest
  | ok kept =>
    cases hrest
    obtain ⟨given, hlabels, hkept, hle, htext, hcells⟩ := keepLabels_eq_ok (Nat.zero_le _) hkeep
    rw [Array.empty_append] at hkept
    exact ⟨given, kept, v, hlabels, hkept, hle, hcharged, htext.symm, hcells.symm, rfl⟩

end Labels

/-- A change of a draft depends on what it does to the draft as it is. -/
theorem change_congr {id : Nat} {f g : Draft → Draft} (h : f (w.draft id) = g (w.draft id)) :
    w.change id f = w.change id g := by
  unfold change
  congr 1
  refine Array.ext (by rw [Array.size_modify, Array.size_modify]) fun i hi _ => ?_
  rw [Array.size_modify] at hi
  rw [Array.getElem_modify, Array.getElem_modify]
  by_cases hid : id = i
  · subst hid
    rw [if_pos rfl, if_pos rfl, ← draft_eq (Array.getElem?_eq_getElem hi), h]
  · rw [if_neg hid, if_neg hid]

theorem failsGently_setLabel (id : Nat) (index : Int) (bytes : ByteArray) :
    FailsGently (setLabel id index bytes) :=
  FailsGently.bind (chargesOnly_slot index) fun _ =>
    FailsGently.bind (chargesOnly_keepText bytes) fun _ =>
      FailsGently.bind chargesOnly_get fun _ =>
        FailsGently.bind (chargesOnly_chargeGrowth _ _) fun _ => failsGently_modifyDraft id _

/-- A label is charged with its bytes, and with the cells that it makes the
labels grow by. -/
theorem setLabel_eq_ok {id : Nat} {index : Int} {bytes : ByteArray}
    (h : (setLabel id index bytes).run w = .ok () w') :
    ∃ (position : Nat) (v : Workbench), index = position + 1 ∧ position < Draft.maxPoints
      ∧ v = (w.spend .text (Utf8.decodeLossy bytes).utf8ByteSize).spend .cells
        (position + 1 - (w.draft id).labels.size)
      ∧ Charged w v
      ∧ w' = v.change id (withLabel position (Utf8.decodeLossy bytes)) := by
  obtain ⟨position, v, hslot, hrest⟩ := exists_of_bind_eq_ok h
  obtain ⟨rfl, hposition, rfl⟩ := slot_eq_ok hslot
  obtain ⟨text, v₁, hkeep, hrest₁⟩ := exists_of_bind_eq_ok hrest
  obtain ⟨rfl, rfl⟩ := keepText_eq_ok hkeep
  obtain ⟨_, v₂, hget, hrest₂⟩ := exists_of_bind_eq_ok hrest₁
  cases hget
  obtain ⟨_, v₃, hgrow, hmodify⟩ := exists_of_bind_eq_ok hrest₂
  have hcharged := ((chargesOnly_keepText bytes v).1 _ _ hkeep).trans
    ((chargesOnly_chargeGrowth _ _ _).1 _ _ hgrow)
  obtain rfl := chargeGrowth_eq_ok hgrow
  cases hmodify
  exact ⟨position, _, rfl, hposition, rfl, hcharged, rfl⟩

theorem failsGently_setValue (id number : Nat) (index : Int) (value : Float) :
    FailsGently (setValue id number index value) := by
  unfold setValue
  split
  · exact FailsGently.bind (chargesOnly_slot index) fun _ =>
      FailsGently.bind chargesOnly_get fun _ =>
        FailsGently.bind (chargesOnly_chargeGrowth _ _) fun _ => failsGently_modifyDraft id _
  · exact FailsGently.bind (chargesOnly_throw _) fun _ => FailsGently.bind (chargesOnly_slot index)
      fun _ => FailsGently.bind chargesOnly_get fun _ =>
        FailsGently.bind (chargesOnly_chargeGrowth _ _) fun _ => failsGently_modifyDraft id _

/-- A value is finite, and is charged with the cells that it makes the series
grow by. -/
theorem setValue_eq_ok {id number : Nat} {index : Int} {value : Float}
    (h : (setValue id number index value).run w = .ok () w') :
    ∃ (position : Nat) (v : Workbench), index = position + 1 ∧ position < Draft.maxPoints
      ∧ value.isFinite
      ∧ v = w.spend .cells (position + 1 - (w.node id number).values.size)
      ∧ Charged w v
      ∧ w' = v.change id (withValue number position value) := by
  unfold setValue at h
  split at h
  case isFalse => cases h
  case isTrue hfinite =>
    obtain ⟨position, v, hslot, hrest⟩ := exists_of_bind_eq_ok h
    obtain ⟨rfl, hposition, rfl⟩ := slot_eq_ok hslot
    obtain ⟨_, v₁, hget, hrest₁⟩ := exists_of_bind_eq_ok hrest
    cases hget
    obtain ⟨_, v₂, hgrow, hmodify⟩ := exists_of_bind_eq_ok hrest₁
    have hcharged := (chargesOnly_chargeGrowth _ _ _).1 _ _ hgrow
    obtain rfl := chargeGrowth_eq_ok hgrow
    cases hmodify
    exact ⟨position, _, rfl, hposition, hfinite, rfl, hcharged, rfl⟩

theorem failsGently_pushValue (id number : Nat) (value : Float) :
    FailsGently (pushValue id number value) :=
  FailsGently.bind chargesOnly_get fun _ => failsGently_setValue id number _ value

/-- A value is pushed by setting the entry after the last. -/
theorem pushValue_eq_ok {id number : Nat} {value : Float}
    (h : (pushValue id number value).run w = .ok () w') :
    (setValue id number ((w.node id number).values.size + 1) value).run w = .ok () w' := h

theorem failsGently_child (id parent : Nat) (bytes : ByteArray) :
    FailsGently (child id parent bytes) := by
  refine FailsGently.bind (chargesOnly_readText bytes) fun name =>
    FailsGently.bind chargesOnly_get fun w => ?_
  split
  · exact (chargesOnly_pure _).failsGently
  · refine FailsGently.bind (chargesOnly_charge _ _) fun _ =>
      FailsGently.bind (chargesOnly_charge _ _) fun _ =>
        FailsGently.bind chargesOnly_get fun v => ?_
    intro v e v' h
    cases h

/-- A child that is there is found and nothing happens. Otherwise it becomes
the last node, and is charged as a series and with the bytes of its name. -/
theorem child_eq_ok {id parent number : Nat} {bytes : ByteArray}
    (h : (child id parent bytes).run w = .ok number w') :
    ((w.node id parent).children[Utf8.decodeLossy bytes]? = some number ∧ w' = w)
      ∨ ∃ v, (w.node id parent).children[Utf8.decodeLossy bytes]? = none
        ∧ number = (w.draft id).nodes.size
        ∧ v = (w.spend .series 1).spend .text (Utf8.decodeLossy bytes).utf8ByteSize
        ∧ Charged w v
        ∧ w' = v.change id (withChild parent (Utf8.decodeLossy bytes)) := by
  obtain ⟨name, v, hread, hrest⟩ := exists_of_bind_eq_ok h
  obtain ⟨rfl, rfl⟩ := readText_eq_ok hread
  obtain ⟨_, v₁, hget, hrest₁⟩ := exists_of_bind_eq_ok hrest
  cases hget
  split at hrest₁
  case h_1 found hfound =>
    cases hrest₁
    exact .inl ⟨hfound, rfl⟩
  case h_2 hnone =>
    obtain ⟨_, v₂, hseries, hrest₂⟩ := exists_of_bind_eq_ok hrest₁
    obtain ⟨_, v₃, htext, hrest₃⟩ := exists_of_bind_eq_ok hrest₂
    have hcharged := ((chargesOnly_charge _ _ _).1 _ _ hseries).trans
      ((chargesOnly_charge _ _ _).1 _ _ htext)
    obtain ⟨-, rfl⟩ := charge_eq_ok hseries
    obtain ⟨-, rfl⟩ := charge_eq_ok htext
    cases hrest₃
    -- the number was read off the draft before it was changed
    exact .inr ⟨_, hnone, rfl, rfl, hcharged, change_congr rfl⟩

end Operations

end Workbench

end LedgerReports
