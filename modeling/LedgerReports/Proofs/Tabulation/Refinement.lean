import LedgerReports.Proofs.Tabulation.Arena
import LedgerReports.Proofs.Tabulation.Success
import Mathlib.Logic.Function.Basic

/-!
# Drafts refine trees

The desk of a run and its plan are two readings of the same commands: one
works on nodes by their numbers, the other on trees by paths. `Reads` relates
them. It holds an arena to its paths (`Draft.Rooted`), a tabulation to what
its draft would be finished as, and a handle to the path of its node.

Every successful command takes related states to related states
(`Reads.effect`), and a failed one changes neither. So at every moment of a
run the drafts are finished as the plan has it, every handle reads the values
that the plan has at its path, and two handles are of one node exactly when
they have one path. All this would be so if every command failed; that a
command which is allowed succeeds is part of the main statement, therefore.
-/

namespace LedgerReports

/-! ## Finished drafts -/

namespace Draft

variable {d : Draft} {path : Nat → List String}

theorem series_finish (d : Draft) : d.finish.series = (subtree d.nodes 0).series := by
  have hsize : (foldNodes d.nodes).size = d.nodes.size := by
    rw [foldNodes_eq, size_foldLast, Array.length_toList]
  rw [finish, subtree, Array.back?, hsize, Nat.sub_zero]

/-- **A change at a node of a draft is a change at its path of what the draft
is finished as.** -/
theorem finish_of_changed {nodes' : Array Node} {n : Nat} (h : Rooted d.nodes path)
    (hchange : SameExcept n d.nodes nodes') (hn : n < d.nodes.size) {f : Series → Series}
    (hf : subtree nodes' n = f (subtree d.nodes n))
    (hseries : ∀ s s', s.series = s'.series → (f s).series = (f s').series) :
    finish { d with nodes := nodes' } = d.finish.modifyAt f (path n) := by
  have htree : d.finish.tree.series = (subtree d.nodes 0).series := series_finish d
  have hchanged := subtree_of_changed hchange h hn hf h.pos (q := path n) (by rw [h.root]; rfl)
  have hfinish : (finish { d with nodes := nodes' }).series
      = (d.finish.tree.modifyAt f (path n)).series := by
    rw [series_finish, Series.series_modifyAt hseries htree (path n)]
    exact congrArg Series.series hchanged
  unfold Tabulation.modifyAt
  rw [← hfinish]
  rfl

theorem finish_replace (field : TextField) (text : String) (d : Draft) :
    (field.replace text d).finish = d.finish.replace field text := by
  cases field <;> rfl

theorem finish_withLabel (position : Nat) (text : String) (d : Draft) :
    (Workbench.withLabel position text d).finish
      = { d.finish with labels := setEntry d.labels position text "" } := by
  rw [← Workbench.put_eq_setEntry]
  rfl

/-- A change of values is one at the path of the node. -/
theorem finish_withValues (h : Rooted d.nodes path) {number : Nat} (hnumber : number < d.nodes.size)
    (g : Array Float → Array Float) :
    finish { d with nodes := withValues d.nodes number (g d.nodes[number].values) }
      = d.finish.modifyAt (.modifyValues g) (path number) :=
  finish_of_changed h (sameExcept_withValues number _) hnumber (subtree_withValues h hnumber)
    fun _ _ hs => hs

/-- A new node is a new child at the path of its parent. -/
theorem finish_withChild (h : Rooted d.nodes path) {parent : Nat} {name : String}
    (hparent : parent < d.nodes.size) (hfresh : d.nodes[parent].children[name]? = none) :
    (Workbench.withChild parent name d).finish
      = d.finish.modifyAt (.addChild name) (path parent) :=
  finish_of_changed h (sameExcept_addNode parent name) hparent
    (subtree_addNode h hparent hfresh) Series.series_addChild

/-- A child that is there is there in the tree, too. -/
theorem finish_of_there (h : Rooted d.nodes path) {parent number : Nat} {name : String}
    (hparent : parent < d.nodes.size)
    (hthere : d.nodes[parent].children[name]? = some number) :
    d.finish = d.finish.modifyAt (.addChild name) (path parent) :=
  finish_of_changed h ⟨Nat.le_refl _, fun _ _ _ => rfl⟩ hparent
    (subtree_addChild_of_there h hparent hthere) Series.series_addChild

/-- A value put at a position gives the node other values. -/
theorem withValue_eq {number : Nat} (hnumber : number < d.nodes.size) (position : Nat)
    (value : Float) :
    Workbench.withValue number position value d
      = { d with
          nodes := withValues d.nodes number
            (Workbench.put d.nodes[number].values position value 0.0) } := by
  have hnodes : (Workbench.withValue number position value d).nodes
      = withValues d.nodes number
        (Workbench.put d.nodes[number].values position value 0.0) := by
    refine Array.ext_getElem? fun i => ?_
    rw [Workbench.withValue, withValues, Array.getElem?_modify, Array.getElem?_modify]
    by_cases hi : number = i
    · subst hi
      rw [Array.getElem?_eq_getElem hnumber]
      rfl
    · rw [if_neg hi, if_neg hi]
  rw [← hnodes]
  rfl

/-- What stands at the path of a node. -/
theorem at?_tree_finish (h : Rooted d.nodes path) {number : Nat} (hpos : 0 < number)
    (hnumber : number < d.nodes.size) :
    d.finish.tree.at? (path number) = some (subtree d.nodes number) := by
  obtain ⟨i, hi, name, hlt, hchild, hpath⟩ := h.path_eq hpos hnumber
  rw [← h.at?_subtree hnumber, hpath]
  cases path i with
  | nil =>
    show (d.finish.series.lookup name).bind _ = ((subtree d.nodes 0).series.lookup name).bind _
    rw [series_finish]
  | cons first rest =>
    show (d.finish.series.lookup first).bind _ = ((subtree d.nodes 0).series.lookup first).bind _
    rw [series_finish]

end Draft

/-! ## The relation -/

namespace Desk

variable {ε : Type}

/-- **A desk and a plan say the same.** The paths of the nodes of each draft
are not stored anywhere; they are what relates the two. -/
structure Reads (desk : Desk) (plan : Plan) (paths : Nat → Nat → List String) : Prop where
  /-- The tabulations are the finished drafts. -/
  tabulations : plan.tabulations = desk.bench.drafts.toList.map Draft.finish
  /-- Every draft is a tree with its paths. -/
  rooted : ∀ (id : Nat) (d : Draft), desk.bench.drafts[id]? = some d → Draft.Rooted d.nodes (paths id)
  /-- The handles of the plan are the paths of those of the desk. -/
  series : plan.series = desk.series.map fun (id, number) => (id, paths id number)
  /-- Every handle stands for a node, and not for a root. -/
  valid : ∀ (id number : Nat), (id, number) ∈ desk.series →
    ∃ d, desk.bench.drafts[id]? = some d ∧ 0 < number ∧ number < d.nodes.size

section Reads

variable {desk : Desk} {plan : Plan} {paths : Nat → Nat → List String}

theorem reads_empty : Reads {} {} fun _ _ => [] := by
  refine ⟨rfl, fun id d h => ?_, rfl, fun id number h => ?_⟩
  · rw [Array.getElem?_empty] at h
    cases h
  · cases h

/-- What has been charged does not matter. -/
theorem Reads.unmoved {desk' : Desk} (h : Reads desk plan paths) (hu : Unmoved desk desk') :
    Reads desk' plan paths := by
  have hdrafts := hu.charged.drafts
  refine ⟨?_, ?_, ?_, ?_⟩
  · rw [hdrafts]
    exact h.tabulations
  · rw [hdrafts]
    exact h.rooted
  · rw [hu.series]
    exact h.series
  · rw [hdrafts, hu.series]
    exact h.valid

theorem map_modify_of_eq {α β : Type} {f : α → α} {g : β → β} {p : α → β} {l : List α} {i : Nat}
    {x : α} (hx : l[i]? = some x) (h : p (f x) = g (p x)) :
    (l.modify i f).map p = (l.map p).modify i g := by
  induction l generalizing i with
  | nil => cases hx
  | cons y rest ih =>
    cases i with
    | zero =>
      cases hx
      rw [List.modify_zero_cons, List.map_cons, List.map_cons, List.modify_zero_cons, h]
    | succ i =>
      rw [List.modify_succ_cons, List.map_cons, List.map_cons, List.modify_succ_cons, ih hx]

theorem modify_map_eq_self {α β : Type} {g : β → β} {p : α → β} {l : List α} {i : Nat} {x : α}
    (hx : l[i]? = some x) (h : p x = g (p x)) : (l.map p).modify i g = l.map p := by
  rw [← map_modify_of_eq (f := id) hx h, List.modify_id]

/-- A changed draft and a changed tabulation say the same again. -/
theorem Reads.change (h : Reads desk plan paths) {id : Nat} {d : Draft} {v : Workbench}
    (hd : desk.bench.drafts[id]? = some d) (hcharged : Workbench.Charged desk.bench v)
    {f : Draft → Draft} {g : Tabulation → Tabulation} {path : Nat → List String}
    (hfinish : (f d).finish = g d.finish) (hrooted : Draft.Rooted (f d).nodes path)
    (hsize : d.nodes.size ≤ (f d).nodes.size)
    (hpath : ∀ i, i < d.nodes.size → path i = paths id i) :
    Reads { desk with bench := v.change id f } (plan.modify id g)
      (Function.update paths id path) := by
  rw [← hcharged.drafts] at hd
  have hself := Workbench.getElem?_change_self hd f
  have hother : ∀ j, j ≠ id → (v.change id f).drafts[j]? = desk.bench.drafts[j]? := by
    intro j hj
    rw [Workbench.getElem?_change_of_ne v hj, hcharged.drafts]
  rw [hcharged.drafts] at hd
  refine ⟨?_, fun j e he => ?_, ?_, fun j number hheld => ?_⟩
  · show plan.tabulations.modify id g = (v.change id f).drafts.toList.map _
    rw [Workbench.change, hcharged.drafts, Array.toList_modify, h.tabulations]
    exact (map_modify_of_eq (by rw [Array.getElem?_toList, hd]) hfinish).symm
  · by_cases hj : j = id
    · subst hj
      rw [show f d = e from Option.some.inj (hself.symm.trans he)] at hrooted
      rw [Function.update_self]
      exact hrooted
    · rw [Function.update_of_ne hj]
      exact h.rooted j e ((hother j hj).symm.trans he)
  · show plan.series = desk.series.map _
    rw [h.series]
    refine List.map_congr_left fun c hc => congrArg (Prod.mk c.1) ?_
    obtain ⟨e, he, -, hnumber⟩ := h.valid c.1 c.2 hc
    by_cases hj : c.1 = id
    · rw [hj] at he ⊢
      rw [show d = e from Option.some.inj (hd.symm.trans he)] at hpath
      rw [Function.update_self, hpath _ hnumber]
    · rw [Function.update_of_ne hj]
  · obtain ⟨e, he, hpos, hnumber⟩ := h.valid j number hheld
    by_cases hj : j = id
    · subst hj
      rw [show d = e from Option.some.inj (hd.symm.trans he)] at hsize hself
      exact ⟨f e, hself, hpos, Nat.lt_of_lt_of_le hnumber hsize⟩
    · exact ⟨e, (hother j hj).trans he, hpos, hnumber⟩

/-- A new handle is the path of its node. -/
theorem Reads.handOut (h : Reads desk plan paths) {id number : Nat} {d : Draft}
    (hd : desk.bench.drafts[id]? = some d) (hpos : 0 < number) (hnumber : number < d.nodes.size) :
    Reads { desk with series := desk.series ++ [(id, number)] }
      { plan with series := plan.series ++ [(id, paths id number)] } paths := by
  refine ⟨h.tabulations, h.rooted, ?_, fun j m hheld => ?_⟩
  · show plan.series ++ _ = (desk.series ++ _).map _
    rw [List.map_append, ← h.series]
    rfl
  · obtain hheld | hnew := List.mem_append.mp hheld
    · exact h.valid j m hheld
    · cases List.mem_singleton.mp hnew
      exact ⟨d, hd, hpos, hnumber⟩

/-- A new draft is an empty tabulation. -/
theorem Reads.begin (h : Reads desk plan paths) {v : Workbench}
    (hcharged : Workbench.Charged desk.bench v) :
    Reads { desk with bench := { v with drafts := v.drafts.push {} } }
      { plan with tabulations := plan.tabulations ++ [{}] }
      (Function.update paths desk.bench.drafts.size fun _ => []) := by
  have hlt : ∀ (id : Nat) (d : Draft), desk.bench.drafts[id]? = some d →
      id < desk.bench.drafts.size := fun id d hd => (Array.getElem?_eq_some_iff.mp hd).1
  refine ⟨?_, fun id d hd => ?_, ?_, fun id number hheld => ?_⟩
  · show _ = (v.drafts.push {}).toList.map _
    rw [hcharged.drafts, Array.toList_push, List.map_append, ← h.tabulations]
    rfl
  · replace hd : (v.drafts.push {})[id]? = some d := hd
    rw [hcharged.drafts, Array.getElem?_push] at hd
    split at hd
    case isTrue hid =>
      cases hd
      rw [hid, Function.update_self]
      exact Draft.rooted_empty
    case isFalse hid =>
      rw [Function.update_of_ne hid]
      exact h.rooted id d hd
  · show plan.series = desk.series.map _
    rw [h.series]
    refine List.map_congr_left fun c hc => congrArg (Prod.mk c.1) ?_
    obtain ⟨d, hd, -, -⟩ := h.valid c.1 c.2 hc
    rw [Function.update_of_ne (Nat.ne_of_lt (hlt _ _ hd))]
  · obtain ⟨d, hd, hvalid⟩ := h.valid id number hheld
    refine ⟨d, ?_, hvalid⟩
    show (v.drafts.push {})[id]? = some d
    rw [hcharged.drafts, Array.getElem?_push, if_neg (Nat.ne_of_lt (hlt _ _ hd))]
    exact hd

/-! ## Steps and runs -/

theorem Reads.getElem?_series (h : Reads desk plan paths) {handle id number : Nat}
    (hheld : desk.series[handle]? = some (id, number)) :
    plan.series[handle]? = some (id, paths id number) := by
  rw [h.series, List.getElem?_map, hheld, Option.map_some]

/-- A series is asked for below a node of the desk, and below the path of that
node in the plan. -/
theorem Reads.path?_of_node? (h : Reads desk plan paths) {place : Place} {id parent : Nat}
    (hasked : desk.node? place = some (id, parent)) :
    plan.path? place = some (id, paths id parent)
      ∧ ∃ d, desk.bench.drafts[id]? = some d ∧ parent < d.nodes.size := by
  cases place with
  | top tabulation =>
    rw [node?] at hasked
    split at hasked
    case isFalse => cases hasked
    case isTrue hlt =>
      cases hasked
      have hd := Array.getElem?_eq_getElem hlt
      have hrooted := h.rooted _ _ hd
      exact ⟨congrArg (fun path => some (id, path)) hrooted.root.symm, _, hd, hrooted.pos⟩
  | below handle =>
    obtain ⟨d, hd, -, hlt⟩ := h.valid id parent (List.mem_of_getElem? hasked)
    exact ⟨h.getElem?_series hasked, d, hd, hlt⟩

/-- Other values in a draft are other values at the path of the handle. -/
theorem Reads.changeValues (h : Reads desk plan paths) {handle id number position : Nat}
    {value : Float} {v : Workbench} {g : Array Float → Array Float}
    (hheld : desk.series[handle]? = some (id, number))
    (hcharged : Workbench.Charged desk.bench v)
    (hg : g (desk.bench.node id number).values
      = Workbench.put (desk.bench.node id number).values position value 0.0) :
    Reads { desk with bench := v.change id (Workbench.withValue number position value) }
      (plan.modifyValues handle g) (Function.update paths id (paths id)) := by
  obtain ⟨d, hd, -, hnumber⟩ := h.valid id number (List.mem_of_getElem? hheld)
  rw [Workbench.node_eq_getElem hd hnumber] at hg
  have hrooted := h.rooted id d hd
  have heq := Draft.withValue_eq hnumber position value
  rw [← hg] at heq
  rw [Plan.modifyValues, h.getElem?_series hheld]
  refine h.change hd hcharged ?_ ?_ ?_ fun _ _ => rfl
  · rw [heq]
    exact Draft.finish_withValues hrooted hnumber g
  · rw [heq]
    exact hrooted.withValues number _
  · rw [heq]
    exact Nat.le_of_eq (Draft.size_withValues _ _ _).symm

/-- **A successful command takes a desk and a plan that say the same to a desk
and a plan that say the same.** -/
theorem Reads.effect (h : Reads desk plan paths) {command : Command ε} {desk' : Desk}
    (heffect : desk.Effect command desk') : ∃ paths', Reads desk' (plan.perform command) paths' := by
  cases heffect with
  | begin v paid charged => exact ⟨_, h.begin charged⟩
  | setText field id bytes v held paid charged =>
    have hd := Array.getElem?_eq_getElem held
    have hnodes : (field.replace (Utf8.decodeLossy bytes) desk.bench.drafts[id]).nodes
        = desk.bench.drafts[id].nodes := by
      cases field <;> rfl
    refine ⟨_, h.change hd charged (Draft.finish_replace field _ _) ?_ (Nat.le_of_eq ?_)
      fun _ _ => rfl⟩
    · rw [hnodes]
      exact h.rooted id _ hd
    · rw [hnodes]
  | setLabels id given kept v held read few paid_text paid_cells charged =>
    have hd := Array.getElem?_eq_getElem held
    have hrooted := h.rooted id _ hd
    have hgiven : (given.map .ok : List (Except ε ByteArray)).filterMap Except.toOption
        = given := by
      rw [List.filterMap_map]
      exact List.filterMap_some
    refine ⟨_, h.change hd charged ?_ hrooted (Nat.le_refl _) fun _ _ => rfl⟩
    rw [hgiven, ← read]
    rfl
  | setLabel id position bytes v held low paid charged =>
    have hd := Array.getElem?_eq_getElem held
    have hrooted := h.rooted id _ hd
    exact ⟨_, h.change hd charged (Draft.finish_withLabel position _ _) hrooted
      (Nat.le_refl _) fun _ _ => rfl⟩
  | found place name id parent number asked there =>
    obtain ⟨hplace, d, hd, hparent⟩ := h.path?_of_node? asked
    have hrooted := h.rooted id d hd
    rw [Workbench.node_eq_getElem hd hparent] at there
    obtain ⟨hlt, hnumber, hpath⟩ := hrooted.child parent hparent _ number there
    have hsame : plan.tabulations.modify id
        (.modifyAt (.addChild (Utf8.decodeLossy name)) (paths id parent))
          = plan.tabulations := by
      rw [h.tabulations]
      exact modify_map_eq_self (by rw [Array.getElem?_toList, hd])
        (Draft.finish_of_there hrooted hparent there)
    -- the desk gets a handle only, and the plan is changed to what it was
    have hhanded := h.handOut hd (Nat.zero_lt_of_lt hlt) hnumber
    refine ⟨paths, ?_⟩
    rw [Plan.perform, hplace]
    show Reads _ { tabulations := plan.tabulations.modify id _, series := _ } _
    rw [hsame, ← hpath]
    exact hhanded
  | made place name id parent number v asked fresh last paid charged =>
    obtain ⟨hplace, d, hd, hparent⟩ := h.path?_of_node? asked
    have hrooted := h.rooted id d hd
    rw [Workbench.node_eq_getElem hd hparent] at fresh
    rw [Workbench.draft_eq hd] at last
    subst last
    have hsize := Draft.size_addNode d.nodes parent (Utf8.decodeLossy name)
    have hchanged := h.change hd charged
      (g := .modifyAt (.addChild (Utf8.decodeLossy name)) (paths id parent))
      (Draft.finish_withChild hrooted hparent fresh) (hrooted.addNode hparent fresh)
      (hsize.symm ▸ Nat.le_succ _) fun i hi => Draft.addPath_of_lt hi
    -- the new node is the one that the handle is of
    rw [← charged.drafts] at hd
    have hhanded := hchanged.handOut (Workbench.getElem?_change_self hd _) hrooted.pos
      (hsize.symm ▸ Nat.lt_succ_self _)
    rw [Function.update_self, Draft.addPath_size] at hhanded
    refine ⟨Function.update paths id
      (Draft.addPath d.nodes (paths id) parent (Utf8.decodeLossy name)), ?_⟩
    rw [Plan.perform, hplace]
    exact hhanded
  | setValue handle id number position value v held low finite paid charged =>
    exact ⟨_, h.changeValues held charged (Workbench.put_eq_setEntry _ _ _ _).symm⟩
  | pushValue handle id number position value v held last low finite paid charged =>
    subst last
    exact ⟨_, h.changeValues held charged (Workbench.put_size _ _ _).symm⟩

/-- A command takes a desk and a plan that say the same to ones that do, the
plan being told of it only when it succeeds. -/
theorem Reads.perform (h : Reads desk plan paths) (command : Command ε) :
    ∃ paths', Reads (desk.perform command).1
      (if (desk.perform command).2 then plan.perform command else plan) paths' := by
  obtain ⟨hfailed, hunmoved⟩ | ⟨hsucceeded, heffect⟩ := perform_ends desk command
  · rw [hfailed]
    exact ⟨paths, h.unmoved hunmoved⟩
  · rw [hsucceeded]
    exact h.effect heffect

theorem Reads.after (h : Reads desk plan paths) (commands : List (Command ε)) :
    ∃ paths', Reads (desk.after commands) (plan.after (desk.succeeding commands)) paths' := by
  induction commands generalizing desk plan paths with
  | nil => exact ⟨paths, h⟩
  | cons command rest ih =>
    obtain ⟨paths', h'⟩ := h.perform command
    show ∃ paths', Reads ((desk.perform command).1.after rest) _ paths'
    rw [succeeding]
    split at h'
    case isTrue hsucceeded =>
      rw [if_pos hsucceeded]
      exact ih h'
    case isFalse hfailed =>
      rw [if_neg hfailed]
      exact ih h'

/-- What a handle reads is what stands at its path. -/
theorem Reads.valuesAt (h : Reads desk plan paths) {id number : Nat}
    (hheld : (id, number) ∈ desk.series) :
    plan.valuesAt id (paths id number) = some (desk.bench.node id number).values := by
  obtain ⟨d, hd, hpos, hnumber⟩ := h.valid id number hheld
  have hrooted := h.rooted id d hd
  have htabulation : plan.tabulations[id]? = some d.finish := by
    rw [h.tabulations, List.getElem?_map, Array.getElem?_toList, hd, Option.map_some]
  rw [Plan.valuesAt, htabulation, Workbench.node_eq_getElem hd hnumber]
  show (d.finish.tree.at? (paths id number)).bind _ = _
  rw [Draft.at?_tree_finish hrooted hpos hnumber, hrooted.subtree_eq hnumber]
  rfl

/-- Handles with one path are handles of one node. -/
theorem Reads.eq_of_path_eq (h : Reads desk plan paths) {c c' : Nat × Nat}
    (hc : c ∈ desk.series) (hc' : c' ∈ desk.series) (hid : c.1 = c'.1)
    (hpath : paths c.1 c.2 = paths c'.1 c'.2) : c = c' := by
  obtain ⟨d, hd, -, hnumber⟩ := h.valid c.1 c.2 hc
  obtain ⟨d', hd', -, hnumber'⟩ := h.valid c'.1 c'.2 hc'
  rw [← hid] at hd' hpath
  rw [show d' = d from Option.some.inj (hd'.symm.trans hd)] at hnumber'
  exact Prod.ext hid ((h.rooted c.1 d hd).inj _ _ hnumber hnumber' hpath)

end Reads

/-- **Drafts refine trees.** After any commands, whichever of them failed, the
drafts are finished as the trees that the successful commands build; every
handle of a series reads what stands at its path; two handles are of one
node exactly when they have one path; and the next command will succeed
exactly when it is allowed. -/
theorem finish_eq_plan (commands : List (Command ε)) :
    let desk := Desk.after {} commands
    let plan := Plan.after {} (Desk.succeeding {} commands)
    desk.bench.drafts.toList.map Draft.finish = plan.tabulations
      ∧ (desk.series.map fun (id, number) => some (desk.bench.node id number).values)
        = plan.series.map (fun (id, path) => plan.valuesAt id path)
      ∧ (∀ i j : Nat, desk.series[i]? = desk.series[j]? ↔ plan.series[i]? = plan.series[j]?)
      ∧ ∀ command : Command ε, (desk.perform command).2 = true ↔ desk.Allows command := by
  intro desk plan
  obtain ⟨paths, h⟩ : ∃ paths, Reads desk plan paths := reads_empty.after commands
  have hsound : desk.bench.Sound := sound_after Workbench.sound_empty commands
  refine ⟨h.tabulations.symm, ?_, fun i j => ?_, perform_succeeds_iff hsound.within⟩
  · rw [h.series, List.map_map]
    exact List.map_congr_left fun c hc => (h.valuesAt hc).symm
  · rw [h.series, List.getElem?_map, List.getElem?_map]
    refine ⟨fun hij => congrArg _ hij, fun hij => ?_⟩
    cases hi : desk.series[i]? with
    | none =>
      rw [hi] at hij
      exact (Option.map_eq_none_iff.mp hij.symm).symm
    | some c =>
      cases hj : desk.series[j]? with
      | none =>
        rw [hi, hj] at hij
        cases hij
      | some c' =>
        rw [hi, hj] at hij
        obtain ⟨hid, hpath⟩ := Prod.mk.inj (Option.some.inj hij)
        rw [h.eq_of_path_eq (List.mem_of_getElem? hi) (List.mem_of_getElem? hj) hid hpath]

end Desk

end LedgerReports
