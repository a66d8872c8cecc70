import LedgerReports.Proofs.Tabulation.ReadingBack
import Mathlib

/-!
# Every node of a draft is visited once

When a run is over a draft is folded into nested series: a node becomes its values
with what its children become, and this begins at the root. As a recursion over the
numbers of the nodes (`fold?`) it could go wrong in three ways. It would not end if a
node were below itself. It would ask for a node that is not there if the number of a
child were too large. And it would make two series of a node that has two parents, or
two names.

`IsTree` says what rules this out: a child comes after its parent and is a node, and
every node but the root is the child of one node under one name. It is so for every
draft at every moment of a run, since nodes with paths of their own form a tree
(`Rooted.isTree`). Nothing else is needed for the recursion to end and to visit every
node once (`IsTree.foldsOnce`). Two nodes that have a node below them in common are one
below the other (`IsTree.comparable`), which children of one node never are.

What the recursion gives is what the draft is finished as, although that is computed
without recursion, from the last node to the first.
-/

namespace LedgerReports

namespace Draft

/-! ## Folding by recursion -/

/-- **The series that a node is folded into**, and the nodes that are visited for it, one after the
other. There is none if a number is met that is not one of a node, or if nodes are nested deeper
than there is room. -/
def fold? (nodes : Array Node) : (room number : Nat) → Option (Series × List Nat)
  | 0, _ => none
  | room + 1, number => do
    let node ← nodes[number]?
    let folded ← node.children.toList.mapM fun (name, child) =>
      (fold? nodes room child).map fun (s, visited) => ((name, s), visited)
    return (.mk node.values (folded.map Prod.fst), number :: folded.flatMap Prod.snd)

/-- A node is the child of another one under a name. -/
def IsChild (nodes : Array Node) (parent : Nat) (name : String) (number : Nat) : Prop :=
  ∃ hparent : parent < nodes.size, nodes[parent].children[name]? = some number

/-- **The nodes of an arena form a tree**, as far as their numbers tell. -/
structure IsTree (nodes : Array Node) : Prop where
  /-- There is a root. -/
  pos : 0 < nodes.size
  /-- The number of a child is greater than that of its parent, and one of a node. -/
  after : ∀ parent name number, IsChild nodes parent name number →
    parent < number ∧ number < nodes.size
  /-- Every node but the root is the child of one node, under one name. -/
  parent : ∀ number, 0 < number → number < nodes.size →
    ∃! place : Nat × String, IsChild nodes place.1 place.2 number

/-- Where every node has a path of its own, none has two parents or two names. -/
theorem Rooted.isTree {nodes : Array Node} {path : Nat → List String} (h : Rooted nodes path) :
    IsTree nodes where
  pos := h.pos
  after := by
    rintro i name c ⟨hi, hc⟩
    obtain ⟨hlt, hsize, -⟩ := h.child i hi name c hc
    exact ⟨hlt, hsize⟩
  parent c hpos hc := by
    obtain ⟨i, hi, name, -, hchild, hpath⟩ := h.path_eq hpos hc
    refine ⟨(i, name), ⟨hi, hchild⟩, ?_⟩
    rintro ⟨j, other⟩ ⟨hj, hother⟩
    obtain ⟨-, -, hpath'⟩ := h.child j hj other c hother
    -- the path of a node is that of its parent, and its name
    obtain ⟨hparent, hname⟩ := List.append_inj' (hpath'.symm.trans hpath) rfl
    rw [h.inj j i hj hi hparent, List.singleton_inj.mp hname]

/-! ## What is below a node -/

/-- A node is another one, or a child of a node below it. -/
def Below (nodes : Array Node) : Nat → Nat → Prop :=
  Relation.ReflTransGen fun parent number => ∃ name, IsChild nodes parent name number

section IsTree

variable {nodes : Array Node} {i j c c' : Nat} {name name' : String}

theorem IsTree.unique (h : IsTree nodes) (hc : IsChild nodes i name c)
    (hc' : IsChild nodes j name' c) : i = j ∧ name = name' := by
  obtain ⟨hlt, hsize⟩ := h.after i name c hc
  obtain ⟨place, -, honly⟩ := h.parent c (Nat.zero_lt_of_lt hlt) hsize
  exact Prod.mk.inj ((honly (i, name) hc).trans (honly (j, name') hc').symm)

theorem IsTree.le_of_below (h : IsTree nodes) (hbelow : Below nodes i j) : i ≤ j := by
  induction hbelow with
  | refl => exact Nat.le_refl i
  | tail _ hlast ih =>
    obtain ⟨name, hchild⟩ := hlast
    exact Nat.le_trans ih (Nat.le_of_lt (h.after _ name _ hchild).1)

theorem IsTree.lt_size_of_below (h : IsTree nodes) (hi : i < nodes.size)
    (hbelow : Below nodes i j) : j < nodes.size := by
  cases hbelow with
  | refl => exact hi
  | tail _ hlast =>
    obtain ⟨name, hchild⟩ := hlast
    exact (h.after _ name j hchild).2

/-- Every node is below the root. -/
theorem IsTree.below_root (h : IsTree nodes) (hj : j < nodes.size) : Below nodes root j := by
  induction j using Nat.strongRecOn with
  | ind j ih =>
    obtain rfl | hpos := Nat.eq_zero_or_pos j
    · exact .refl
    · obtain ⟨⟨i, name⟩, hchild, -⟩ := h.parent j hpos hj
      have hlt := (h.after i name j hchild).1
      exact .tail (ih i hlt (Nat.lt_trans hlt hj)) ⟨name, hchild⟩

/-- Below a node there are the children, and what is below them. -/
theorem below_iff (hi : i < nodes.size) :
    Below nodes i j ↔ i = j ∨ ∃ c ∈ nodes[i].children.toList, Below nodes c.2 j := by
  refine Relation.ReflTransGen.cases_head_iff.trans (or_congr_right ⟨?_, ?_⟩)
  · rintro ⟨c, ⟨name, _, hchild⟩, hbelow⟩
    exact ⟨(name, c), Std.TreeMap.mem_toList_iff_getElem?_eq_some.mpr hchild, hbelow⟩
  · rintro ⟨⟨name, c⟩, hc, hbelow⟩
    exact ⟨c, ⟨name, hi, Std.TreeMap.mem_toList_iff_getElem?_eq_some.mp hc⟩, hbelow⟩

/-- **Of two nodes that have a node below them in common, one is below the other**: upwards there is
only one way. -/
theorem IsTree.comparable (h : IsTree nodes) (hc : Below nodes c j) (hc' : Below nodes c' j) :
    Below nodes c c' ∨ Below nodes c' c := by
  have hup : Relator.RightUnique
      (Function.swap fun parent number => ∃ name, IsChild nodes parent name number) := by
    rintro number i i' ⟨name, hi⟩ ⟨name', hi'⟩
    exact (h.unique hi hi').1
  have htotal := Relation.ReflTransGen.total_of_right_unique hup
    (Relation.reflTransGen_swap.mpr hc) (Relation.reflTransGen_swap.mpr hc')
  exact (htotal.imp Relation.reflTransGen_swap.mp Relation.reflTransGen_swap.mp).symm

/-- No child of a node is below another one. -/
theorem IsTree.eq_of_siblings (h : IsTree nodes) (hc : IsChild nodes i name c)
    (hc' : IsChild nodes i name' c') (hbelow : Below nodes c c') : c = c' := by
  obtain heq | ⟨parent, habove, name, hparent⟩ := Relation.ReflTransGen.cases_tail hbelow
  · exact heq.symm
  · -- the last step leads from the parent of both, which comes before
    obtain ⟨rfl, -⟩ := h.unique hparent hc'
    exact absurd (h.le_of_below habove) (Nat.not_le.mpr (h.after _ _ c hc).1)

/-- What is below a child is not below another one. -/
theorem IsTree.disjoint_siblings (h : IsTree nodes) (hc : IsChild nodes i name c)
    (hc' : IsChild nodes i name' c') (hname : name ≠ name') (hj : Below nodes c j) :
    ¬ Below nodes c' j := by
  intro hj'
  have heq : c = c' := (h.comparable hj hj').elim (h.eq_of_siblings hc hc')
    fun hbelow => (h.eq_of_siblings hc' hc hbelow).symm
  subst heq
  exact hname (h.unique hc hc').2

/-- No two children of a node have a node below them in common. -/
theorem IsTree.pairwise_children (h : IsTree nodes) (hi : i < nodes.size) :
    nodes[i].children.toList.Pairwise fun c c' =>
      ∀ j, Below nodes c.2 j → ¬ Below nodes c'.2 j := by
  refine Std.TreeMap.ordered_keys_toList.imp_of_mem fun {c c'} hc hc' horder j => ?_
  have hname : c.1 ≠ c'.1 := by
    intro hsame
    rw [hsame, Std.ReflOrd.compare_self] at horder
    cases horder
  exact h.disjoint_siblings ⟨hi, Std.TreeMap.mem_toList_iff_getElem?_eq_some.mp hc⟩
    ⟨hi, Std.TreeMap.mem_toList_iff_getElem?_eq_some.mp hc'⟩ hname

/-! ## What is visited -/

/-- **The nodes visited from a node on**, in their order. -/
structure Visits (nodes : Array Node) (i : Nat) (visited : List Nat) : Prop where
  /-- The recursion ends with what the node becomes, and more room does not matter. -/
  ends : ∀ room, nodes.size - i ≤ room → fold? nodes room i = some (subtree nodes i, visited)
  /-- Each node is visited once at most. -/
  nodup : visited.Nodup
  /-- Those that are below are visited. -/
  mem_iff : ∀ j, j ∈ visited ↔ Below nodes i j
  /-- There is one series for each of them. -/
  all : (subtree nodes i).all = visited.map (subtree nodes)

theorem IsTree.subtree_eq (h : IsTree nodes) (hi : i < nodes.size) :
    subtree nodes i = .mk nodes[i].values
      (nodes[i].children.toList.map fun (name, number) => (name, subtree nodes number)) :=
  Draft.subtree_eq hi fun name number hchild => h.after i name number ⟨hi, hchild⟩

/-- A node is folded when its children are. -/
theorem IsTree.fold?_succ (h : IsTree nodes) (hi : i < nodes.size) {room : Nat}
    {visits : Nat → List Nat} (hchildren : ∀ c ∈ nodes[i].children.toList,
      fold? nodes room c.2 = some (subtree nodes c.2, visits c.2)) :
    fold? nodes (room + 1) i
      = some (subtree nodes i, i :: nodes[i].children.toList.flatMap fun c => visits c.2) := by
  have hfolded : (nodes[i].children.toList.mapM fun (name, child) =>
      (fold? nodes room child).map fun (s, visited) => ((name, s), visited))
        = some (nodes[i].children.toList.map fun c =>
          ((c.1, subtree nodes c.2), visits c.2)) := by
    refine mapM_eq_some_map fun c hc => ?_
    show (fold? nodes room c.2).map _ = _
    rw [hchildren c hc]
    rfl
  rw [fold?, Array.getElem?_eq_getElem hi, Option.bind_eq_bind, Option.bind_some, hfolded,
    Option.bind_eq_bind, Option.bind_some, List.map_map, List.flatMap_map, h.subtree_eq hi]
  rfl

/-- **What is visited from a node on is the node, and what is visited from its children on.** -/
theorem IsTree.visits_of_children (h : IsTree nodes) (hi : i < nodes.size)
    {visits : Nat → List Nat}
    (hchildren : ∀ c ∈ nodes[i].children.toList, Visits nodes c.2 (visits c.2)) :
    Visits nodes i (i :: nodes[i].children.toList.flatMap fun c => visits c.2) := by
  have hchild : ∀ c ∈ nodes[i].children.toList, IsChild nodes i c.1 c.2 :=
    fun c hc => ⟨hi, Std.TreeMap.mem_toList_iff_getElem?_eq_some.mp hc⟩
  refine ⟨fun room hroom => ?_, List.nodup_cons.mpr ⟨fun hself => ?_, ?_⟩, fun j => ?_, ?_⟩
  · -- what is enough for a node leaves enough for its children
    obtain ⟨room, rfl⟩ := Nat.exists_eq_add_one.mpr (show 0 < room by omega)
    refine h.fold?_succ hi fun c hc => (hchildren c hc).ends room ?_
    have hlt := (h.after i c.1 c.2 (hchild c hc)).1
    omega
  · obtain ⟨c, hc, hself⟩ := List.mem_flatMap.mp hself
    have hle := h.le_of_below (((hchildren c hc).mem_iff i).mp hself)
    exact absurd (h.after i c.1 c.2 (hchild c hc)).1 (Nat.not_lt.mpr hle)
  · refine List.nodup_flatMap.mpr ⟨fun c hc => (hchildren c hc).nodup, ?_⟩
    refine (h.pairwise_children hi).imp_of_mem fun {c c'} hc hc' hapart j hj hj' => ?_
    exact hapart j (((hchildren c hc).mem_iff j).mp hj) (((hchildren c' hc').mem_iff j).mp hj')
  · rw [List.mem_cons, List.mem_flatMap, below_iff hi, eq_comm]
    refine or_congr_right (exists_congr fun c => and_congr_right fun hc => ?_)
    exact (hchildren c hc).mem_iff j
  · rw [List.map_cons, List.map_flatMap, h.subtree_eq hi, Series.all, Series.allOfList_eq_flatMap,
      List.flatMap_map]
    congr 1
    exact List.flatMap_congr fun c hc => (hchildren c hc).all

/-- **From every node on the recursion ends**, since children come after their parent. -/
theorem IsTree.exists_visits (h : IsTree nodes) (hi : i < nodes.size) :
    ∃ others, Visits nodes i (i :: others) := by
  induction hk : nodes.size - i using Nat.strongRecOn generalizing i with
  | ind k ih =>
    have hlater : ∀ c, i < c ∧ c < nodes.size → ∃ others, Visits nodes c (c :: others) :=
      fun c hc => ih _ (by omega) hc.2 rfl
    choose! others hothers using hlater
    let visits : Nat → List Nat := fun c => c :: others c
    have hvisits : ∀ c ∈ nodes[i].children.toList, Visits nodes c.2 (visits c.2) :=
      fun c hc => hothers c.2
        (h.after i c.1 c.2 ⟨hi, Std.TreeMap.mem_toList_iff_getElem?_eq_some.mp hc⟩)
    exact ⟨_, h.visits_of_children hi hvisits⟩

end IsTree

/-! ## What a draft is folded into -/

/-- **A draft is folded into one series for each node but the root**, which comes first. -/
structure FoldsOnce (d : Draft) (others : List Nat) : Prop where
  /-- The recursion ends, with what the draft is finished as. -/
  ends : ∀ room, d.nodes.size ≤ room →
    ∃ top, fold? d.nodes room root = some (top, root :: others) ∧ d.finish.series = top.series
  /-- Every node is visited once. -/
  once : (root :: others).Perm (List.range d.nodes.size)
  /-- The series of the tabulation, nested ones included, are those that the other nodes are folded
  into. -/
  series : (Series.allOfList d.finish.series).map some
    = others.map fun number => (fold? d.nodes d.nodes.size number).map Prod.fst

/-- **A tree is folded into one series for each node but the root.** -/
theorem IsTree.foldsOnce {d : Draft} (h : IsTree d.nodes) : ∃ others, d.FoldsOnce others := by
  obtain ⟨others, hvisits⟩ := h.exists_visits (i := root) h.pos
  have honce : (root :: others).Perm (List.range d.nodes.size) := by
    refine (List.perm_ext_iff_of_nodup hvisits.nodup List.nodup_range).mpr fun j => ?_
    rw [hvisits.mem_iff, List.mem_range]
    exact ⟨h.lt_size_of_below h.pos, h.below_root⟩
  have hall : Series.allOfList (subtree d.nodes root).series = others.map (subtree d.nodes) := by
    have hvisited := hvisits.all
    rw [Series.all_eq_cons, List.map_cons] at hvisited
    exact (List.cons.inj hvisited).2
  refine ⟨others, fun room hroom => ?_, honce, ?_⟩
  · exact ⟨_, hvisits.ends room (Nat.le_trans (Nat.sub_le ..) hroom), series_finish d⟩
  · rw [series_finish]
    show (Series.allOfList (subtree d.nodes root).series).map some = _
    rw [hall, List.map_map]
    refine List.map_congr_left fun number hnumber => ?_
    have hlt := List.mem_range.mp (honce.mem_iff.mp (List.mem_cons_of_mem root hnumber))
    obtain ⟨_, hbelow⟩ := h.exists_visits hlt
    rw [hbelow.ends _ (Nat.sub_le ..)]
    rfl

/-- A node with two parents would be visited twice. -/
example : (fold? #[{ children := .ofList [("a", 1), ("b", 2)] },
    { children := .ofList [("c", 2)] }, {}] 3 root).map Prod.snd = some [0, 1, 2, 2] := by decide

end Draft

namespace Desk

variable {ε : Type}

/-- **The arena of a draft is a tree**, whatever has been done, and whatever of it has failed: the
numbers of children are in order and in range, and every node but the root has one parent and one
name. So every draft is folded into one series for each node but the root. Every handle of a series
stands for such a node. -/
theorem arenas_are_trees (commands : List (Command ε)) :
    let desk := Desk.after {} commands
    (∀ d ∈ desk.bench.drafts, Draft.IsTree d.nodes ∧ ∃ others, d.FoldsOnce others)
      ∧ ∀ id number, (id, number) ∈ desk.series →
        ∃ d, desk.bench.drafts[id]? = some d ∧ 0 < number ∧ number < d.nodes.size := by
  intro desk
  obtain ⟨paths, hreads⟩ := reads_empty.after commands
  refine ⟨fun d hd => ?_, hreads.valid⟩
  obtain ⟨id, hid⟩ := Array.mem_iff_getElem?.mp hd
  have htree := (hreads.rooted id d hid).isTree
  exact ⟨htree, htree.foldsOnce⟩

end Desk

end LedgerReports
