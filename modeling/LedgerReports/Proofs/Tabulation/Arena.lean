import LedgerReports.Proofs.Tabulation.Plan

/-!
# The arena of a draft is a tree

A draft keeps its series as nodes in one array, which know their children by
number. Nothing in the type says that this is a tree: two nodes could have a
child in common, or a node could be below itself. It is a tree because nodes
are only ever added at the end, as a new child of a node that is there.

`Rooted` says so in terms of paths: every node has a path of names, different
nodes have different paths, and the children of a node are the nodes whose
path is one name longer. The folding of a draft into nested series is then a
recursion over the tree, and a change at one node is a change at its path
(`subtree_of_changed`).
-/

namespace LedgerReports

/-! ## Names in order -/

namespace Series

section Names

variable {α β : Type}

theorem lookup_map_snd (name : String) (f : α → β) (l : List (String × α)) :
    (l.map fun (n, x) => (n, f x)).lookup name = (l.lookup name).map f := by
  induction l with
  | nil => rfl
  | cons c rest ih =>
    rw [List.map_cons, List.lookup_cons, List.lookup_cons, ih]
    cases name == c.1 <;> rfl

theorem insertNamed_map_snd (name : String) (x : α) (f : α → β) (l : List (String × α)) :
    insertNamed name (f x) (l.map fun (n, y) => (n, f y))
      = (insertNamed name x l).map fun (n, y) => (n, f y) := by
  induction l with
  | nil => rfl
  | cons c rest ih =>
    rw [List.map_cons, insertNamed, insertNamed, ih]
    split <;> rfl

theorem insertNamed_perm (name : String) (x : α) (l : List (String × α)) :
    (insertNamed name x l).Perm ((name, x) :: l) := by
  induction l with
  | nil => exact .refl _
  | cons c rest ih =>
    rw [insertNamed]
    split
    · exact (ih.cons c).trans (.swap _ _ _)
    · exact .refl _

/-- A list in the order of its names stays so when a new name is put in. -/
theorem pairwise_insertNamed {name : String} {x : α} {l : List (String × α)}
    (hl : l.Pairwise fun a b => compare a.1 b.1 = .lt) (hname : ∀ c ∈ l, c.1 ≠ name) :
    (insertNamed name x l).Pairwise fun a b => compare a.1 b.1 = .lt := by
  induction l with
  | nil => exact List.pairwise_singleton _ _
  | cons c rest ih =>
    obtain ⟨hc, hrest⟩ := List.pairwise_cons.mp hl
    rw [insertNamed]
    split
    case isTrue hlt =>
      refine List.pairwise_cons.mpr ⟨fun d hd => ?_, ih hrest fun d hd => hname d (by simp [hd])⟩
      obtain rfl | hd := List.mem_cons.mp ((insertNamed_perm name x rest).mem_iff.mp hd)
      · exact hlt
      · exact hc d hd
    case isFalse hnlt =>
      have hgt : compare name c.1 = .lt := by
        rw [Std.OrientedOrd.eq_swap]
        cases hcompare : compare c.1 name with
        | lt => exact absurd hcompare hnlt
        | eq => exact absurd (Std.LawfulEqCmp.eq_of_compare hcompare) (hname c (by simp))
        | gt => rfl
      refine List.pairwise_cons.mpr ⟨fun d hd => ?_, hl⟩
      obtain rfl | hd := List.mem_cons.mp hd
      · exact hgt
      · exact Std.TransCmp.lt_trans hgt (hc d hd)

theorem lookup_toList (children : Std.TreeMap String Nat) (name : String) :
    children.toList.lookup name = children[name]? := by
  cases hlookup : children.toList.lookup name with
  | none =>
    cases hget : children[name]? with
    | none => rfl
    | some number =>
      have hmem := Std.TreeMap.mem_toList_iff_getElem?_eq_some.mpr hget
      exact absurd (List.lookup_eq_none_iff.mp hlookup _ hmem) (by simp)
  | some number =>
    obtain ⟨l₁, l₂, hl, -⟩ := List.lookup_eq_some_iff.mp hlookup
    refine (Std.TreeMap.mem_toList_iff_getElem?_eq_some.mp ?_).symm
    rw [hl]
    exact List.mem_append_right _ List.mem_cons_self

/-- A new child is put in by its name. -/
theorem toList_insert {children : Std.TreeMap String Nat} {name : String} (number : Nat)
    (h : children[name]? = none) :
    (children.insert name number).toList = insertNamed name number children.toList := by
  have hname : ∀ c ∈ children.toList, c.1 ≠ name := by
    rintro ⟨n, m⟩ hc rfl
    rw [Std.TreeMap.mem_toList_iff_getElem?_eq_some.mp hc] at h
    cases h
  have hfilter : children.toList.filter (fun c => ¬ (name == c.1)) = children.toList :=
    List.filter_eq_self.mpr fun c hc => by simp [(hname c hc).symm]
  -- both sides are in order and have the same entries
  have hperm := Std.TreeMap.toList_insert_perm (t := children) (k := name) (v := number)
  rw [hfilter] at hperm
  refine List.Perm.eq_of_pairwise (fun a b _ _ hab hba => ?_)
    Std.TreeMap.ordered_keys_toList (pairwise_insertNamed Std.TreeMap.ordered_keys_toList hname)
    (hperm.trans (insertNamed_perm name number _).symm)
  -- no two entries are each before the other
  have hself := Std.TransCmp.lt_trans hab hba
  rw [Std.ReflOrd.compare_self] at hself
  cases hself

end Names

end Series

namespace Draft

/-! ## Folding -/

/-- The series of the last nodes of an arena, the last node first. -/
def foldLast (size : Nat) (last : List Node) : Array Series :=
  last.foldr
    (fun node built =>
      built.push (.mk node.values (node.children.toList.filterMap fun (name, number) =>
        built[size - 1 - number]?.map fun s => (name, s))))
    #[]

theorem foldNodes_eq (nodes : Array Node) : foldNodes nodes = foldLast nodes.size nodes.toList :=
  (Array.foldr_toList ..).symm

theorem foldLast_cons (size : Nat) (node : Node) (rest : List Node) :
    foldLast size (node :: rest)
      = (foldLast size rest).push (.mk node.values
        (node.children.toList.filterMap fun (name, number) =>
          (foldLast size rest)[size - 1 - number]?.map fun s => (name, s))) := rfl

theorem size_foldLast (size : Nat) (last : List Node) :
    (foldLast size last).size = last.length := by
  induction last with
  | nil => rfl
  | cons node rest ih =>
    rw [foldLast_cons, Array.size_push, ih, List.length_cons]

/-- Nodes that come before do not matter. -/
theorem getElem?_foldLast_append (size : Nat) (first last : List Node) {k : Nat}
    (hk : k < last.length) : (foldLast size (first ++ last))[k]? = (foldLast size last)[k]? := by
  induction first with
  | nil => rfl
  | cons node rest ih =>
    rw [List.cons_append, foldLast_cons,
      Array.getElem?_push_lt (by rw [size_foldLast, List.length_append]; omega),
      ← Array.getElem?_eq_getElem, ih]

/-- The series that a node becomes. -/
def subtree (nodes : Array Node) (i : Nat) : Series :=
  (foldNodes nodes)[nodes.size - 1 - i]?.getD default

theorem getElem?_foldNodes {nodes : Array Node} {i : Nat} (hi : i < nodes.size) :
    (foldNodes nodes)[nodes.size - 1 - i]? = some (subtree nodes i) := by
  have hlt : nodes.size - 1 - i < (foldNodes nodes).size := by
    rw [foldNodes_eq, size_foldLast, Array.length_toList]
    omega
  rw [subtree, Array.getElem?_eq_getElem hlt, Option.getD_some]

/-- A node becomes its values with what its children have become, as far as
they come after it. -/
theorem subtree_eq_filterMap {nodes : Array Node} {i : Nat} (hi : i < nodes.size) :
    subtree nodes i = .mk nodes[i].values
      (nodes[i].children.toList.filterMap fun (name, number) =>
        (foldLast nodes.size (nodes.toList.drop (i + 1)))[nodes.size - 1 - number]?.map
          fun s => (name, s)) := by
  have hlength : (nodes.toList.drop (i + 1)).length = nodes.size - 1 - i := by
    rw [List.length_drop, Array.length_toList]
    omega
  have hdrop : nodes.toList.drop i = nodes[i] :: nodes.toList.drop (i + 1) := by
    rw [← Array.getElem_toList, List.drop_eq_getElem_cons]
  refine Option.some.inj ?_
  rw [← getElem?_foldNodes hi, foldNodes_eq]
  conv_lhs => rw [← List.take_append_drop i nodes.toList]
  rw [getElem?_foldLast_append _ _ _ (by rw [hdrop, List.length_cons]; omega), hdrop,
    foldLast_cons, Array.getElem?_push, size_foldLast, hlength, if_pos rfl]

/-- **A node becomes its values with what its children become**, if they come
after it. -/
theorem subtree_eq {nodes : Array Node} {i : Nat} (hi : i < nodes.size)
    (hchildren : ∀ (name : String) (number : Nat), nodes[i].children[name]? = some number →
      i < number ∧ number < nodes.size) :
    subtree nodes i = .mk nodes[i].values
      (nodes[i].children.toList.map fun (name, number) => (name, subtree nodes number)) := by
  have hlast : ∀ c ∈ nodes[i].children.toList,
      (foldLast nodes.size (nodes.toList.drop (i + 1)))[nodes.size - 1 - c.2]?
        = some (subtree nodes c.2) := by
    intro c hc
    obtain ⟨hlo, hhi⟩ := hchildren c.1 c.2 (Std.TreeMap.mem_toList_iff_getElem?_eq_some.mp hc)
    rw [← getElem?_foldNodes hhi, foldNodes_eq]
    conv_rhs => rw [← List.take_append_drop (i + 1) nodes.toList]
    refine (getElem?_foldLast_append _ _ _ ?_).symm
    rw [List.length_drop, Array.length_toList]
    omega
  rw [subtree_eq_filterMap hi, ← List.filterMap_eq_map]
  congr 1
  refine List.filterMap_congr fun c hc => ?_
  show Option.map _ _ = _
  rw [hlast c hc]
  rfl

/-! ## Paths -/

/-- **The nodes of an arena form a tree.** Every node has a path of names, by
which it can be told from the others. -/
structure Rooted (nodes : Array Node) (path : Nat → List String) : Prop where
  /-- There is a root, -/
  pos : 0 < nodes.size
  /-- whose path is empty. -/
  root : path 0 = []
  /-- Different nodes have different paths. -/
  inj : ∀ i j, i < nodes.size → j < nodes.size → path i = path j → i = j
  /-- A child comes after its parent, and its path is longer by its name. -/
  child : ∀ (i : Nat) (hi : i < nodes.size) (name : String) (number : Nat),
    nodes[i].children[name]? = some number →
      i < number ∧ number < nodes.size ∧ path number = path i ++ [name]
  /-- Every node but the root is the child of one before it. -/
  parent : ∀ c, 0 < c → c < nodes.size → ∃ (i : Nat) (hi : i < nodes.size) (name : String),
    i < c ∧ nodes[i].children[name]? = some c

section Rooted

variable {nodes : Array Node} {path : Nat → List String}

theorem rooted_empty : Rooted #[{}] fun _ => [] := by
  refine ⟨Nat.one_pos, rfl, fun i j hi hj _ => ?_, fun i hi name number h => ?_,
    fun c hpos hc => ?_⟩
  · rw [List.size_toArray, List.length_singleton] at hi hj
    omega
  · have hi0 : i = 0 := Nat.lt_one_iff.mp hi
    subst hi0
    exact absurd h (by simp)
  · rw [List.size_toArray, List.length_singleton] at hc
    omega

theorem Rooted.subtree_eq (h : Rooted nodes path) {i : Nat} (hi : i < nodes.size) :
    subtree nodes i = .mk nodes[i].values
      (nodes[i].children.toList.map fun (name, number) => (name, subtree nodes number)) :=
  Draft.subtree_eq hi fun name number hchild =>
    ⟨(h.child i hi name number hchild).1, (h.child i hi name number hchild).2.1⟩

/-- A node that is not the root has a path, that of its parent and its name. -/
theorem Rooted.path_eq (h : Rooted nodes path) {c : Nat} (hpos : 0 < c) (hc : c < nodes.size) :
    ∃ (i : Nat) (hi : i < nodes.size) (name : String), i < c
      ∧ nodes[i].children[name]? = some c ∧ path c = path i ++ [name] := by
  obtain ⟨i, hi, name, hlt, hchild⟩ := h.parent c hpos hc
  exact ⟨i, hi, name, hlt, hchild, (h.child i hi name c hchild).2.2⟩

/-- **Every node is found at its path.** -/
theorem Rooted.at?_subtree (h : Rooted nodes path) {i : Nat} (hi : i < nodes.size) :
    (subtree nodes 0).at? (path i) = some (subtree nodes i) := by
  induction i using Nat.strongRecOn with
  | ind i ih =>
    obtain rfl | hpos := Nat.eq_zero_or_pos i
    · rw [h.root]
      rfl
    · obtain ⟨p, hp, name, hlt, hchild, hpath⟩ := h.path_eq hpos hi
      rw [hpath, Series.at?_append, ih p hlt hp, Option.bind_some, h.subtree_eq hp,
        Series.at?_cons_mk, Series.lookup_map_snd, Series.lookup_toList, hchild]
      rfl

end Rooted

/-! ## Changes at one node -/

section Change

variable {nodes nodes' : Array Node} {path : Nat → List String} {n : Nat}

/-- Only one node is changed, but there may be more at the end. -/
structure SameExcept (n : Nat) (nodes nodes' : Array Node) : Prop where
  /-- No node is lost. -/
  size_le : nodes.size ≤ nodes'.size
  /-- The other nodes are as before. -/
  same : ∀ i (hi : i < nodes.size), i ≠ n → nodes'[i] = nodes[i]

theorem SameExcept.subtree_eq (hchange : SameExcept n nodes nodes') (h : Rooted nodes path)
    {i : Nat} (hi : i < nodes.size) (hin : i ≠ n) :
    subtree nodes' i = .mk nodes[i].values
      (nodes[i].children.toList.map fun (name, number) => (name, subtree nodes' number)) := by
  rw [← hchange.same i hi hin]
  refine Draft.subtree_eq (Nat.lt_of_lt_of_le hi hchange.size_le) fun name number hchild => ?_
  rw [hchange.same i hi hin] at hchild
  obtain ⟨hlt, hsize, -⟩ := h.child i hi name number hchild
  exact ⟨hlt, Nat.lt_of_lt_of_le hsize hchange.size_le⟩

/-- **What is not above the changed node stays as it was.** -/
theorem subtree_of_not_prefix (hchange : SameExcept n nodes nodes') (h : Rooted nodes path)
    {i : Nat} (hi : i < nodes.size) (habove : ¬ path i <+: path n) :
    subtree nodes' i = subtree nodes i := by
  -- on the number of nodes from `i` on: children come after their parent
  induction hk : nodes.size - i using Nat.strongRecOn generalizing i with
  | ind k ih =>
    have hin : i ≠ n := by
      rintro rfl
      exact habove (List.prefix_refl _)
    rw [hchange.subtree_eq h hi hin, h.subtree_eq hi]
    congr 1
    refine List.map_congr_left fun c hc => ?_
    obtain ⟨hlt, hsize, hpath⟩ := h.child i hi c.1 c.2
      (Std.TreeMap.mem_toList_iff_getElem?_eq_some.mp hc)
    refine congrArg (Prod.mk c.1) (ih _ (by omega) hsize (fun hc => habove ?_) rfl)
    rw [hpath] at hc
    exact (List.prefix_append _ _).trans hc

/-- In particular what is below the changed node does. -/
theorem map_subtree_of_changed (hchange : SameExcept n nodes nodes') (h : Rooted nodes path)
    (hn : n < nodes.size) :
    (nodes[n].children.toList.map fun (name, number) => (name, subtree nodes' number))
      = nodes[n].children.toList.map fun (name, number) => (name, subtree nodes number) := by
  refine List.map_congr_left fun c hc => congrArg (Prod.mk c.1) ?_
  obtain ⟨-, hsize, hpath⟩ := h.child n hn c.1 c.2
    (Std.TreeMap.mem_toList_iff_getElem?_eq_some.mp hc)
  refine subtree_of_not_prefix hchange h hsize fun habove => ?_
  have hlength := habove.length_le
  rw [hpath, List.length_append, List.length_singleton] at hlength
  omega

/-- **A change at a node is a change at its path**, seen from every node
above it. -/
theorem subtree_of_changed (hchange : SameExcept n nodes nodes') (h : Rooted nodes path)
    (hn : n < nodes.size) {f : Series → Series} (hf : subtree nodes' n = f (subtree nodes n))
    {i : Nat} (hi : i < nodes.size) {q : List String} (hq : path n = path i ++ q) :
    subtree nodes' i = (subtree nodes i).modifyAt f q := by
  induction q generalizing i with
  | nil =>
    -- only the changed node has its path
    rw [List.append_nil] at hq
    rw [← h.inj n i hn hi hq, hf]
    rfl
  | cons name q ih =>
    have hin : i ≠ n := by
      rintro rfl
      simpa using congrArg List.length hq
    rw [hchange.subtree_eq h hi hin, h.subtree_eq hi, Series.modifyAt_cons_mk, List.map_map]
    congr 1
    refine List.map_congr_left fun c hc => ?_
    obtain ⟨hlt, hsize, hpath⟩ := h.child i hi c.1 c.2
      (Std.TreeMap.mem_toList_iff_getElem?_eq_some.mp hc)
    show (c.1, subtree nodes' c.2) = if c.1 = name then (c.1, _) else (c.1, _)
    -- the child on the way to the changed node, and the others
    by_cases hname : c.1 = name
    · rw [if_pos hname, ih hsize (by rw [hpath, hname, hq, List.append_assoc]; rfl)]
    · rw [if_neg hname, subtree_of_not_prefix hchange h hsize]
      rw [hpath, hq, List.prefix_append_right_inj]
      simpa using hname

end Change

/-! ## Growth -/

section Growth

variable {nodes : Array Node} {path : Nat → List String}

/-- A tree stays one when only values change. -/
theorem Rooted.of_children {nodes' : Array Node} (h : Rooted nodes path)
    (hsize : nodes'.size = nodes.size)
    (hchildren : ∀ i (hi : i < nodes.size), nodes'[i].children = nodes[i].children) :
    Rooted nodes' path := by
  refine ⟨hsize ▸ h.pos, h.root, fun i j hi hj => h.inj i j (hsize ▸ hi) (hsize ▸ hj),
    fun i hi name number hchild => ?_, fun c hpos hc => ?_⟩
  · rw [hchildren i (hsize ▸ hi)] at hchild
    rw [hsize]
    exact h.child i (hsize ▸ hi) name number hchild
  · obtain ⟨i, hi, name, hlt, hchild⟩ := h.parent c hpos (hsize ▸ hc)
    refine ⟨i, hsize.symm ▸ hi, name, hlt, ?_⟩
    rw [hchildren i hi]
    exact hchild

/-- The arena with a new node below another. -/
def addNode (nodes : Array Node) (parent : Nat) (name : String) : Array Node :=
  (nodes.modify parent fun n => { n with children := n.children.insert name nodes.size }).push {}

theorem size_addNode (nodes : Array Node) (parent : Nat) (name : String) :
    (addNode nodes parent name).size = nodes.size + 1 := by
  rw [addNode, Array.size_push, Array.size_modify]

theorem lt_size_addNode {parent : Nat} {name : String} {i : Nat} (hi : i < nodes.size) :
    i < (addNode nodes parent name).size := by
  rw [size_addNode]
  omega

theorem getElem_addNode {parent : Nat} {name : String} {i : Nat} (hi : i < nodes.size)
    (hi' : i < (addNode nodes parent name).size) :
    (addNode nodes parent name)[i]
      = if parent = i then
          { nodes[i] with children := nodes[i].children.insert name nodes.size }
        else nodes[i] := by
  refine Option.some.inj ?_
  rw [← Array.getElem?_eq_getElem, addNode, Array.getElem?_push, Array.size_modify,
    if_neg (Nat.ne_of_lt hi), Array.getElem?_modify, Array.getElem?_eq_getElem hi]
  split <;> rfl

theorem getElem_addNode_size {parent : Nat} {name : String}
    (hi : nodes.size < (addNode nodes parent name).size) :
    (addNode nodes parent name)[nodes.size] = {} := by
  refine Option.some.inj ?_
  rw [← Array.getElem?_eq_getElem, addNode, Array.getElem?_push, Array.size_modify, if_pos rfl]

/-- The paths when there is a new node. -/
def addPath (nodes : Array Node) (path : Nat → List String) (parent : Nat) (name : String) :
    Nat → List String :=
  fun i => if i = nodes.size then path parent ++ [name] else path i

theorem addPath_of_lt {parent : Nat} {name : String} {i : Nat} (hi : i < nodes.size) :
    addPath nodes path parent name i = path i := if_neg (Nat.ne_of_lt hi)

theorem addPath_size (parent : Nat) (name : String) :
    addPath nodes path parent name nodes.size = path parent ++ [name] := if_pos rfl

/-- No node has the path of a child that is not there. -/
theorem Rooted.path_ne (h : Rooted nodes path) {parent : Nat} (hparent : parent < nodes.size)
    {name : String} (hfresh : nodes[parent].children[name]? = none) {i : Nat}
    (hi : i < nodes.size) : path i ≠ path parent ++ [name] := by
  intro hpath
  obtain rfl | hpos := Nat.eq_zero_or_pos i
  · rw [h.root] at hpath
    simpa using congrArg List.length hpath
  · obtain ⟨p, hp, n, hlt, hchild, hpath'⟩ := h.path_eq hpos hi
    obtain ⟨hsame, hname⟩ := List.append_inj' (hpath'.symm.trans hpath) rfl
    obtain rfl := h.inj p parent hp hparent hsame
    obtain rfl := List.singleton_inj.mp hname
    rw [hfresh] at hchild
    cases hchild

/-- **A tree stays one when a child is added that is not there.** -/
theorem Rooted.addNode (h : Rooted nodes path) {parent : Nat} (hparent : parent < nodes.size)
    {name : String} (hfresh : nodes[parent].children[name]? = none) :
    Rooted (addNode nodes parent name) (addPath nodes path parent name) := by
  have hpos := h.pos
  refine ⟨lt_size_addNode hpos, ?_, fun i j hi hj hij => ?_,
    fun i hi n number hchild => ?_, fun c hc hsize => ?_⟩
  · rw [addPath_of_lt hpos, h.root]
  · -- two nodes with one path: each is an old node or the new one
    rw [size_addNode] at hi hj
    obtain hi | rfl := Nat.lt_succ_iff_lt_or_eq.mp hi
    · rw [addPath_of_lt hi] at hij
      obtain hj | rfl := Nat.lt_succ_iff_lt_or_eq.mp hj
      · rw [addPath_of_lt hj] at hij
        exact h.inj i j hi hj hij
      · rw [addPath_size] at hij
        exact absurd hij (h.path_ne hparent hfresh hi)
    · rw [addPath_size] at hij
      obtain hj | rfl := Nat.lt_succ_iff_lt_or_eq.mp hj
      · rw [addPath_of_lt hj] at hij
        exact absurd hij.symm (h.path_ne hparent hfresh hj)
      · rfl
  · -- the only new child is the new node
    have hi' := hi
    rw [size_addNode] at hi' ⊢
    obtain hi' | rfl := Nat.lt_succ_iff_lt_or_eq.mp hi'
    · rw [getElem_addNode hi'] at hchild
      rw [addPath_of_lt hi']
      split at hchild
      case isTrue hparent' =>
        subst hparent'
        rw [Std.TreeMap.getElem?_insert] at hchild
        split at hchild
        case isTrue hname =>
          cases hchild
          rw [addPath_size, Std.LawfulEqCmp.eq_of_compare hname]
          exact ⟨hi', Nat.lt_succ_self _, rfl⟩
        case isFalse =>
          obtain ⟨hlt, hnumber, hpath⟩ := h.child parent hi' n number hchild
          rw [addPath_of_lt hnumber]
          exact ⟨hlt, by omega, hpath⟩
      case isFalse =>
        obtain ⟨hlt, hnumber, hpath⟩ := h.child i hi' n number hchild
        rw [addPath_of_lt hnumber]
        exact ⟨hlt, by omega, hpath⟩
    · rw [getElem_addNode_size] at hchild
      exact absurd hchild (by simp)
  · rw [size_addNode] at hsize
    obtain hsize | rfl := Nat.lt_succ_iff_lt_or_eq.mp hsize
    · obtain ⟨i, hi, n, hlt, hchild⟩ := h.parent c hc hsize
      refine ⟨i, lt_size_addNode hi, n, hlt, ?_⟩
      rw [getElem_addNode hi]
      split
      case isFalse => exact hchild
      case isTrue hparent' =>
        subst hparent'
        -- the name of an old child is not the new one
        rw [Std.TreeMap.getElem?_insert, if_neg]
        · exact hchild
        · intro hname
          rw [← Std.LawfulEqCmp.eq_of_compare hname, hfresh] at hchild
          cases hchild
    · refine ⟨parent, lt_size_addNode hparent, name, hparent, ?_⟩
      rw [getElem_addNode hparent, if_pos rfl, Std.TreeMap.getElem?_insert_self]

end Growth

/-! ## The two changes of an arena -/

section Changes

variable {nodes : Array Node} {path : Nat → List String}

theorem lookup_subtree (h : Rooted nodes path) {i : Nat} (hi : i < nodes.size) (name : String) :
    (subtree nodes i).series.lookup name = nodes[i].children[name]?.map (subtree nodes) := by
  rw [h.subtree_eq hi]
  exact (Series.lookup_map_snd name (subtree nodes) _).trans
    (congrArg (Option.map _) (Series.lookup_toList _ name))

/-- A child that is there need not be added. -/
theorem subtree_addChild_of_there (h : Rooted nodes path) {parent number : Nat} {name : String}
    (hparent : parent < nodes.size) (hthere : nodes[parent].children[name]? = some number) :
    subtree nodes parent = (subtree nodes parent).addChild name := by
  have hlookup := lookup_subtree h hparent name
  rw [hthere] at hlookup
  exact (Series.addChild_of_lookup_eq_some hlookup).symm

theorem sameExcept_addNode (parent : Nat) (name : String) :
    SameExcept parent nodes (addNode nodes parent name) := by
  refine ⟨by rw [size_addNode]; omega, fun i hi hne => ?_⟩
  rw [getElem_addNode hi, if_neg (Ne.symm hne)]

/-- A new node is a child without values or children. -/
theorem subtree_addNode (h : Rooted nodes path) {parent : Nat} {name : String}
    (hparent : parent < nodes.size) (hfresh : nodes[parent].children[name]? = none) :
    subtree (addNode nodes parent name) parent = (subtree nodes parent).addChild name := by
  have h' := h.addNode hparent hfresh
  have hnew : subtree (addNode nodes parent name) nodes.size = default := by
    rw [h'.subtree_eq (by rw [size_addNode]; omega), getElem_addNode_size]
    rfl
  have hlookup := lookup_subtree h hparent name
  rw [hfresh] at hlookup
  rw [Series.addChild_of_lookup_eq_none hlookup, h'.subtree_eq (lt_size_addNode hparent),
    getElem_addNode hparent, if_pos rfl, h.subtree_eq hparent, ← hnew]
  show Series.mk nodes[parent].values _ = Series.mk nodes[parent].values _
  rw [Series.toList_insert _ hfresh, ← Series.insertNamed_map_snd,
    map_subtree_of_changed (sameExcept_addNode parent name) h hparent]
  rfl

/-- The arena with other values at a node. -/
def withValues (nodes : Array Node) (number : Nat) (values : Array Float) : Array Node :=
  nodes.modify number fun n => { n with values }

theorem getElem_withValues {number : Nat} {values : Array Float} {i : Nat} (hi : i < nodes.size)
    (hi' : i < (withValues nodes number values).size) :
    (withValues nodes number values)[i]
      = if number = i then { nodes[i] with values } else nodes[i] := Array.getElem_modify hi'

theorem size_withValues (nodes : Array Node) (number : Nat) (values : Array Float) :
    (withValues nodes number values).size = nodes.size := Array.size_modify

theorem Rooted.withValues (h : Rooted nodes path) (number : Nat) (values : Array Float) :
    Rooted (withValues nodes number values) path := by
  refine h.of_children (size_withValues _ _ _) fun i hi => ?_
  rw [getElem_withValues hi]
  split <;> rfl

theorem sameExcept_withValues (number : Nat) (values : Array Float) :
    SameExcept number nodes (withValues nodes number values) := by
  refine ⟨Nat.le_of_eq (size_withValues _ _ _).symm, fun i hi hne => ?_⟩
  rw [getElem_withValues hi, if_neg (Ne.symm hne)]

/-- Values of a node are the values of what it becomes. -/
theorem subtree_withValues (h : Rooted nodes path) {number : Nat} {g : Array Float → Array Float}
    (hnumber : number < nodes.size) :
    subtree (withValues nodes number (g nodes[number].values)) number
      = (subtree nodes number).modifyValues g := by
  rw [(h.withValues number _).subtree_eq (by rw [size_withValues]; exact hnumber),
    getElem_withValues hnumber, if_pos rfl, h.subtree_eq hnumber]
  rw [map_subtree_of_changed (sameExcept_withValues number _) h hnumber]
  rfl

end Changes

end Draft

end LedgerReports
