import LedgerReports.Proofs.Tabulation.Desk
import Mathlib

/-!
# The budget bounds what drafts hold

Three counters say how much a run has used up, and they are charged in
different places: a node when it is made, the entries of an array when it
grows, a text when it is kept. Nothing is ever given back. What the drafts
*hold* is not counted anywhere in the program; it is counted here, and the
counters turn out never to be below it.

The argument is one inequality for each operation. If an operation changes
a draft, then what the draft holds of a resource grows at most by what has
been charged for it (`Workbench.Sound.change`). Replacing a text or the
labels frees what was there before, so the inequality is strict in general.
-/

namespace LedgerReports

/-! ## What is held -/

namespace Draft

/-- How many bytes the names of the children of a node have. -/
def Node.nameBytes (n : Node) : Nat := (n.children.toList.map fun c => c.1.utf8ByteSize).sum

/-- How much of a resource a draft holds. -/
def holds (d : Draft) : Resource → Nat
  | .series => d.nodes.size
  | .cells => d.labels.size + (d.nodes.toList.map fun n => n.values.size).sum
  | .text =>
    d.title.utf8ByteSize + d.subtitle.utf8ByteSize + d.units.utf8ByteSize
      + Workbench.bytesOf d.labels + (d.nodes.toList.map Node.nameBytes).sum

/-- A series does not have too many values, and all of them are finite. -/
structure Node.Fits (n : Node) : Prop where
  /-- There are not too many values. -/
  values : n.values.size ≤ maxPoints
  /-- All values are finite. -/
  finite : ∀ x ∈ n.values, x.isFinite

theorem Node.fits_empty : Node.Fits {} := ⟨Nat.zero_le _, fun x hx => absurd hx (by simp)⟩

/-- The arrays of a draft are not too long, and its values are finite. -/
structure Fits (d : Draft) : Prop where
  /-- There are not too many labels. -/
  labels : d.labels.size ≤ maxPoints
  /-- Every node keeps to its bounds. -/
  nodes : ∀ n ∈ d.nodes, n.Fits

theorem fits_empty : Fits {} := by
  refine ⟨Nat.zero_le _, fun n hn => ?_⟩
  rw [Array.mem_singleton.mp hn]
  exact Node.fits_empty

theorem holds_empty (r : Resource) : holds {} r = if r = .series then 1 else 0 := by
  cases r <;> rfl

end Draft

namespace Workbench

/-- How much of a resource all drafts hold together. -/
def held (w : Workbench) (r : Resource) : Nat := (w.drafts.toList.map fun d => d.holds r).sum

/-- **The budget of a workbench bounds what is on it.** -/
structure Sound (w : Workbench) : Prop where
  /-- What is held has been charged. -/
  held_le : ∀ r, w.held r ≤ w.budget.spent r
  /-- No more has been charged than there is. -/
  within : w.budget.Within
  /-- Every draft keeps to its bounds. -/
  fits : ∀ d ∈ w.drafts, d.Fits

theorem sound_empty : Sound {} := by
  refine ⟨fun r => Nat.zero_le _, fun r => ?_, fun d hd => absurd hd (Array.not_mem_empty d)⟩
  cases r <;> exact Nat.zero_le _

theorem Sound.charged {w w' : Workbench} (h : w.Sound) (hw : Charged w w') : w'.Sound := by
  refine ⟨fun r => ?_, hw.within h.within, ?_⟩
  · rw [held, hw.drafts]
    exact Nat.le_trans (h.held_le r) (hw.spent_le r)
  · rw [hw.drafts]
    exact h.fits

/-! ## A change of one draft -/

/-- A sum grows by what one of its terms grows by. -/
theorem sum_map_modify_le {α : Type} {f : α → α} {size : α → Nat} {k : Nat} (l : List α)
    (i : Nat) (h : ∀ x, l[i]? = some x → size (f x) ≤ size x + k) :
    ((l.modify i f).map size).sum ≤ (l.map size).sum + k := by
  induction l generalizing i with
  | nil =>
    rw [List.modify_nil]
    exact Nat.le_add_right _ _
  | cons x rest ih =>
    cases i with
    | zero =>
      have hx := h x rfl
      simp only [List.modify_zero_cons, List.map_cons, List.sum_cons]
      omega
    | succ i =>
      have hrest := ih i h
      simp only [List.modify_succ_cons, List.map_cons, List.sum_cons]
      omega

/-- What holds of all elements of an array still does when one is changed. -/
theorem forall_mem_modify {α : Type} {a : Array α} {i : Nat} {f : α → α} {p : α → Prop}
    (h : ∀ x ∈ a, p x) (hf : ∀ x, a[i]? = some x → p x → p (f x)) :
    ∀ x ∈ a.modify i f, p x := by
  intro x hx
  obtain ⟨j, hj, rfl⟩ := Array.mem_iff_getElem.mp hx
  rw [Array.size_modify] at hj
  rw [Array.getElem_modify]
  by_cases hij : i = j
  · subst hij
    rw [if_pos rfl]
    exact hf _ (Array.getElem?_eq_getElem hj) (h _ (Array.getElem_mem hj))
  · rw [if_neg hij]
    exact h _ (Array.getElem_mem hj)

/-- **A draft may grow by what has been paid for.** -/
theorem Sound.change {w v : Workbench} {id : Nat} {f : Draft → Draft} (h : w.Sound)
    (hcharged : Charged w v)
    (hholds : ∀ r, (f (w.draft id)).holds r + w.budget.spent r
      ≤ (w.draft id).holds r + v.budget.spent r)
    (hfits : ∀ d, d.Fits → (f d).Fits) : (v.change id f).Sound := by
  refine ⟨fun r => ?_, hcharged.within h.within, ?_⟩
  · have hsum : (((w.drafts.toList.modify id f).map fun d => d.holds r).sum
        ≤ w.held r + (v.budget.spent r - w.budget.spent r)) := by
      refine sum_map_modify_le _ id fun d hd => ?_
      rw [Array.getElem?_toList] at hd
      have hr := hholds r
      have hle := hcharged.spent_le r
      rw [draft_eq hd] at hr
      omega
    have hheld := h.held_le r
    have hle := hcharged.spent_le r
    rw [held, Workbench.change, hcharged.drafts, Array.toList_modify]
    show _ ≤ v.budget.spent r
    omega
  · rw [Workbench.change, hcharged.drafts]
    exact forall_mem_modify h.fits fun d _ => hfits d

/-! ## What the operations add -/

section Growth

theorem bytesOf_put_le (a : Array String) (position : Nat) (text : String) :
    bytesOf (put a position text "") ≤ bytesOf a + text.utf8ByteSize := by
  -- the fill has no bytes
  have hextend : bytesOf (extend a (position + 1) "") = bytesOf a := by
    rw [bytesOf, extend, Array.toList_append, Array.toList_replicate, List.map_append,
      List.map_replicate, List.sum_append_nat, List.sum_replicate_nat, bytesOf]
    exact Nat.add_zero _
  rw [put, ← hextend, bytesOf, Array.toList_setIfInBounds, List.set_eq_modify]
  exact sum_map_modify_le _ position fun _ _ => Nat.le_add_left _ _

/-- What holds of what was there, of the fill and of what is put holds of
everything afterwards. -/
theorem forall_mem_put {α : Type} {a : Array α} {position : Nat} {x fill : α} {p : α → Prop}
    (ha : ∀ y ∈ a, p y) (hx : p x) (hfill : p fill) : ∀ y ∈ put a position x fill, p y := by
  intro y hy
  obtain ⟨i, hi⟩ := Array.mem_iff_getElem?.mp hy
  rw [getElem?_put] at hi
  split at hi
  · cases hi
    exact hx
  · split at hi
    · exact ha y (Array.mem_of_getElem? hi)
    · split at hi
      · cases hi
        exact hfill
      · cases hi

theorem nameBytes_insert_le (n : Draft.Node) (name : String) (number : Nat) :
    Draft.Node.nameBytes { n with children := n.children.insert name number }
      ≤ n.nameBytes + name.utf8ByteSize := by
  have hperm := (Std.TreeMap.toList_insert_perm (t := n.children) (k := name)
    (v := number)).map fun c => c.1.utf8ByteSize
  rw [Draft.Node.nameBytes, hperm.sum_nat, List.map_cons, List.sum_cons, Nat.add_comm]
  refine Nat.add_le_add_right (List.Sublist.sum_le_sum ?_ fun _ _ => Nat.zero_le _) _
  exact List.filter_sublist.map _

end Growth

theorem holds_withLabel_cells (position : Nat) (text : String) (d : Draft) :
    (withLabel position text d).holds .cells
      = d.holds .cells + (position + 1 - d.labels.size) := by
  simp only [Draft.holds, withLabel, size_put]
  omega

theorem holds_withLabel_text (position : Nat) (text : String) (d : Draft) :
    (withLabel position text d).holds .text ≤ d.holds .text + text.utf8ByteSize := by
  have hput := bytesOf_put_le d.labels position text
  simp only [Draft.holds, withLabel]
  omega

theorem holds_withValue_cells (w : Workbench) (id number position : Nat) (value : Float) :
    (withValue number position value (w.draft id)).holds .cells
      ≤ (w.draft id).holds .cells + (position + 1 - (w.node id number).values.size) := by
  have hsum : (((w.draft id).nodes.toList.modify number
        (fun n => { n with values := put n.values position value 0.0 })).map
          fun n => n.values.size).sum
      ≤ ((w.draft id).nodes.toList.map fun n => n.values.size).sum
        + (position + 1 - (w.node id number).values.size) := by
    refine sum_map_modify_le _ number fun n hn => ?_
    rw [Array.getElem?_toList] at hn
    rw [node_eq hn, size_put]
    omega
  rw [← Array.toList_modify] at hsum
  simp only [Draft.holds, withValue]
  omega

theorem holds_withValue_text (number position : Nat) (value : Float) (d : Draft) :
    (withValue number position value d).holds .text ≤ d.holds .text := by
  refine Nat.add_le_add_left ?_ _
  rw [withValue, Array.toList_modify]
  exact sum_map_modify_le (k := 0) _ number fun n _ => Nat.le_refl _

/-- A value holds no more than it pays for. -/
theorem holds_withValue_le {w v : Workbench} {id number position : Nat} {value : Float}
    (paid : v = w.spend .cells (position + 1 - (w.node id number).values.size)) (r : Resource) :
    (withValue number position value (w.draft id)).holds r + w.budget.spent r
      ≤ (w.draft id).holds r + v.budget.spent r := by
  subst paid
  rw [spent_spend]
  cases r with
  | series =>
    rw [if_neg (by decide), Draft.holds, withValue, Array.size_modify]
    rfl
  | cells =>
    have hcells := holds_withValue_cells w id number position value
    rw [if_pos rfl]
    omega
  | text => exact Nat.add_le_add_right (holds_withValue_text _ _ _ _) _

theorem holds_withChild_cells (parent : Nat) (name : String) (d : Draft) :
    (withChild parent name d).holds .cells ≤ d.holds .cells := by
  refine Nat.add_le_add_left ?_ _
  rw [withChild, Array.toList_push, Array.toList_modify, List.map_append, List.sum_append_nat]
  exact sum_map_modify_le (k := 0) _ parent fun n _ => Nat.le_refl _

theorem holds_withChild_text (parent : Nat) (name : String) (d : Draft) :
    (withChild parent name d).holds .text ≤ d.holds .text + name.utf8ByteSize := by
  rw [Draft.holds, Draft.holds, Nat.add_assoc _ _ name.utf8ByteSize]
  refine Nat.add_le_add_left ?_ _
  rw [withChild, Array.toList_push, Array.toList_modify, List.map_append, List.sum_append_nat]
  exact sum_map_modify_le _ parent fun n _ => nameBytes_insert_le n name _

theorem holds_withChild_series (parent : Nat) (name : String) (d : Draft) :
    (withChild parent name d).holds .series = d.holds .series + 1 := by
  rw [Draft.holds, withChild, Array.size_push, Array.size_modify, Draft.holds]

theorem holds_replace_text (field : TextField) (text : String) (d : Draft) :
    (field.replace text d).holds .text ≤ d.holds .text + text.utf8ByteSize := by
  cases field <;>
  · simp only [Draft.holds, TextField.replace]
    omega

theorem holds_setLabels_text (labels : Array String) (d : Draft) :
    { d with labels }.holds .text ≤ d.holds .text + bytesOf labels := by
  simp only [Draft.holds]
  omega

theorem holds_setLabels_cells (labels : Array String) (d : Draft) :
    { d with labels }.holds .cells ≤ d.holds .cells + labels.size := by
  simp only [Draft.holds]
  omega

/-! ## The bounds of a draft -/

section Fits

variable {d : Draft}

theorem fits_replace (field : TextField) (text : String) (h : d.Fits) :
    (field.replace text d).Fits := by
  cases field <;> exact ⟨h.labels, h.nodes⟩

theorem fits_withLabel {position : Nat} (text : String) (hlow : position < Draft.maxPoints)
    (h : d.Fits) : (withLabel position text d).Fits := by
  refine ⟨?_, h.nodes⟩
  rw [withLabel, size_put]
  exact Nat.max_le.mpr ⟨h.labels, hlow⟩

theorem fits_withValue (number : Nat) {position : Nat} {value : Float}
    (hlow : position < Draft.maxPoints) (hfinite : value.isFinite) (h : d.Fits) :
    (withValue number position value d).Fits := by
  have hnode : ∀ n : Draft.Node, n.Fits →
      Draft.Node.Fits { n with values := put n.values position value 0.0 } := by
    refine fun n hn => ⟨?_, forall_mem_put hn.finite hfinite (by decide)⟩
    rw [size_put]
    exact Nat.max_le.mpr ⟨hn.values, hlow⟩
  exact ⟨h.labels, forall_mem_modify h.nodes fun n _ => hnode n⟩

theorem fits_withChild (parent : Nat) (name : String) (h : d.Fits) :
    (withChild parent name d).Fits := by
  refine ⟨h.labels, fun n hn => ?_⟩
  obtain hn | rfl := Array.mem_push.mp hn
  · refine forall_mem_modify h.nodes ?_ n hn
    exact fun _ _ hold => ⟨hold.values, hold.finite⟩
  · exact Draft.Node.fits_empty

end Fits

end Workbench

/-! ## Runs -/

namespace Desk

open Workbench

variable {ε : Type}

/-- A successful command holds no more than it has charged. -/
theorem Effect.sound {desk desk' : Desk} {command : Command ε}
    (h : desk.Effect command desk') (hsound : desk.bench.Sound) : desk'.bench.Sound := by
  cases h with
  | begin v paid charged =>
    subst paid
    have hv := hsound.charged charged
    refine ⟨fun r => ?_, hv.within, fun d hd => ?_⟩
    · -- a new draft holds its root node and nothing else
      have hheld := hsound.held_le r
      rw [held, Array.toList_push, List.map_append, List.sum_append_nat, List.map_singleton,
        List.sum_singleton, Draft.holds_empty]
      show desk.bench.held r + _ ≤ (desk.bench.spend .series 1).budget.spent r
      rw [spent_spend]
      omega
    · obtain hd | rfl := Array.mem_push.mp hd
      · exact hv.fits d hd
      · exact Draft.fits_empty
  | setText field id bytes v held paid charged =>
    refine hsound.change charged (fun r => ?_) fun d => fits_replace field _
    subst paid
    rw [spent_spend]
    cases r with
    | series => cases field <;> rfl
    | cells => cases field <;> rfl
    | text =>
      have htext := holds_replace_text field (Utf8.decodeLossy bytes) (desk.bench.draft id)
      rw [if_pos rfl]
      omega
  | setLabels id given kept v held read few paid_text paid_cells charged =>
    refine hsound.change charged (fun r => ?_) fun d hd => ⟨few, hd.nodes⟩
    cases r with
    | series => exact Nat.add_le_add_left (charged.spent_le .series) _
    | cells =>
      have hcells := holds_setLabels_cells kept (desk.bench.draft id)
      omega
    | text =>
      have htext := holds_setLabels_text kept (desk.bench.draft id)
      omega
  | setLabel id position bytes v held low paid charged =>
    refine hsound.change charged (fun r => ?_) fun d => fits_withLabel _ low
    subst paid
    rw [spent_spend, spent_spend]
    cases r with
    | series => rfl
    | cells =>
      rw [holds_withLabel_cells, if_neg (by decide), if_pos rfl]
      omega
    | text =>
      have htext := holds_withLabel_text position (Utf8.decodeLossy bytes) (desk.bench.draft id)
      rw [if_pos rfl, if_neg (by decide)]
      omega
  | found place name id parent number asked there => exact hsound
  | made place name id parent number v asked fresh last paid charged =>
    refine hsound.change charged (fun r => ?_) fun d => fits_withChild parent _
    subst paid
    rw [spent_spend, spent_spend]
    cases r with
    | series =>
      rw [holds_withChild_series, if_pos rfl, if_neg (by decide)]
      omega
    | cells => exact Nat.add_le_add_right (holds_withChild_cells _ _ _) _
    | text =>
      have htext := holds_withChild_text parent (Utf8.decodeLossy name) (desk.bench.draft id)
      rw [if_neg (by decide), if_pos rfl]
      omega
  | setValue handle id number position value v held low finite paid charged =>
    refine hsound.change charged (fun r => ?_) fun d => fits_withValue number low finite
    exact holds_withValue_le paid r
  | pushValue handle id number position value v held last low finite paid charged =>
    refine hsound.change charged (fun r => ?_) fun d => fits_withValue number low finite
    exact holds_withValue_le paid r

/-- No counter goes down. -/
theorem Effect.spent_le {desk desk' : Desk} {command : Command ε}
    (h : desk.Effect command desk') (r : Resource) :
    desk.bench.budget.spent r ≤ desk'.bench.budget.spent r := by
  cases h with
  | found => exact Nat.le_refl _
  | begin v paid charged
  | setText _ _ _ v _ paid charged
  | setLabels _ _ _ v _ _ _ _ _ charged
  | setLabel _ _ _ v _ _ paid charged
  | made _ _ _ _ _ v _ _ _ paid charged
  | setValue _ _ _ _ _ v _ _ _ paid charged
  | pushValue _ _ _ _ _ v _ _ _ _ paid charged => exact charged.spent_le r

theorem sound_perform {desk : Desk} (h : desk.bench.Sound) (command : Command ε) :
    (desk.perform command).1.bench.Sound := by
  obtain ⟨-, hunmoved⟩ | ⟨-, heffect⟩ := perform_ends desk command
  · exact h.charged hunmoved.charged
  · exact heffect.sound h

theorem spent_le_perform (desk : Desk) (command : Command ε) (r : Resource) :
    desk.bench.budget.spent r ≤ (desk.perform command).1.bench.budget.spent r := by
  obtain ⟨-, hunmoved⟩ | ⟨-, heffect⟩ := perform_ends desk command
  · exact hunmoved.charged.spent_le r
  · exact heffect.spent_le r

theorem sound_after {desk : Desk} (h : desk.bench.Sound) (commands : List (Command ε)) :
    (desk.after commands).bench.Sound := by
  induction commands generalizing desk with
  | nil => exact h
  | cons command rest ih => exact ih (sound_perform h command)

theorem spent_le_after (desk : Desk) (commands : List (Command ε)) (r : Resource) :
    desk.bench.budget.spent r ≤ (desk.after commands).bench.budget.spent r := by
  induction commands generalizing desk with
  | nil => exact Nat.le_refl _
  | cons command rest ih => exact Nat.le_trans (spent_le_perform desk command r) (ih _)

/-- **The budget bounds what drafts hold, after every step of every run.**
The drafts are all that were ever begun, the abandoned ones included, and
their root nodes are counted. Whatever follows, no counter goes down. A new
tabulation with options, kept or not, is one of the things that can follow. -/
theorem held_within_budget (commands more : List (Command ε)) :
    let w := (Desk.after {} commands).bench
    (w.held .series ≤ w.budget.series ∧ w.budget.series ≤ 10000)
      ∧ (w.held .cells ≤ w.budget.cells ∧ w.budget.cells ≤ 1000000)
      ∧ (w.held .text ≤ w.budget.text ∧ w.budget.text ≤ 16 * 1024 * 1024)
      ∧ (∀ d ∈ w.drafts, d.labels.size ≤ 100000
        ∧ ∀ n ∈ d.nodes, n.values.size ≤ 100000 ∧ ∀ x ∈ n.values, x.isFinite)
      ∧ (∀ r, w.budget.spent r ≤ (Desk.after {} (commands ++ more)).bench.budget.spent r)
      ∧ ∀ options : Options ε, ∃ given : List (Command ε),
        (Desk.after {} commands).create options = Desk.after {} (commands ++ given) := by
  intro w
  have hsound : w.Sound := sound_after sound_empty commands
  refine ⟨⟨hsound.held_le .series, hsound.within .series⟩,
    ⟨hsound.held_le .cells, hsound.within .cells⟩,
    ⟨hsound.held_le .text, hsound.within .text⟩, fun d hd => ?_, fun r => ?_, fun options => ?_⟩
  · have hfits := hsound.fits d hd
    exact ⟨hfits.labels, fun n hn => ⟨(hfits.nodes n hn).values, (hfits.nodes n hn).finite⟩⟩
  · rw [after_append]
    exact spent_le_after (Desk.after {} commands) more r
  · obtain ⟨given, -, hcreate⟩ := create_eq_after (Desk.after {} commands) options
    exact ⟨given, by rw [hcreate, after_append]⟩

end Desk

end LedgerReports
