import LedgerReports.Proofs.Json.Floats
import LedgerReports.Proofs.Tabulation.Refinement
import LedgerReports.Tabulation.Json
import Mathlib

/-!
# Tabulations that are written and read

A client gets a tabulation as a JSON text, and `written_tabulation_reads_back`
says that nothing is lost by it: what the text is read as is the tabulation,
with all its texts, and with every series under its name and with its values.

Three things are needed for it. The text is read as the JSON value that was
written, whatever characters there are in names and labels (`parse?_render`). The
series below a series are written in the order of their names, and the reader
puts them in this order again, so that what it gets does not differ if they
were in order before (`Series.sorted_eq_self`). And a series takes two levels of
nesting, one for itself and one for what is below it, so that the reader, which
does not go deeper than 127 levels, reads more than sixty levels of series
(`Series.ofJson?_toJson`).

Floats are the one thing that need not come back. A reader that computes a float
from its digits with a few operations may be off by the last bit, so it is a
condition on each value that it is read as itself (`Json.ComesBack`). Every
tabulation that a script finishes has its series in order
(`Draft.inOrder_finish`).
-/

namespace LedgerReports

/-! ## Floats, lists and names -/

/-- **A float comes back**: the text that is written for it is read as this float. -/
def Json.ComesBack (x : Float) : Prop :=
  (Json.parse? (Json.ofFloat x).render.toUTF8).bind Series.floatOfJson? = some x

instance (x : Float) : Decidable (Json.ComesBack x) := inferInstanceAs (Decidable (_ = _))

theorem Json.ComesBack.floatOfJson?_ofFloat {x : Float} (h : ComesBack x) :
    Series.floatOfJson? (ofFloat x) = some x := by
  rw [ComesBack, parse?_render (writable_ofFloat x)] at h
  exact h

/-- What succeeds for every element succeeds for the list. -/
theorem mapM_eq_some_map {α β : Type} {f : α → Option β} {g : α → β} {xs : List α}
    (h : ∀ x ∈ xs, f x = some (g x)) : xs.mapM f = some (xs.map g) := by
  induction xs with
  | nil => rfl
  | cons x xs ih =>
    obtain ⟨hx, hxs⟩ := List.forall_mem_cons.mp h
    rw [List.mapM_cons, hx, ih hxs]
    rfl

/-- What is read as it was written is so in a list. -/
theorem mapM_map_eq_some {α β : Type} {write : α → β} {read : β → Option α} {xs : List α}
    (h : ∀ x ∈ xs, read (write x) = some x) : (xs.map write).mapM read = some xs := by
  rw [List.mapM_map]
  exact (mapM_eq_some_map (g := id) h).trans (congrArg some (List.map_id xs))

namespace Series

section Names

variable {α : Type} {named : List (String × α)}

/-- Things with new names are added to those that are there. -/
theorem foldl_insert_perm {t : Std.TreeMap String α}
    (hnamed : named.Pairwise fun a b => a.1 ≠ b.1) (hnew : ∀ a ∈ named, a.1 ∉ t) :
    (named.foldl (fun t (name, a) => t.insert name a) t).toList.Perm (named ++ t.toList) := by
  induction named generalizing t with
  | nil => exact List.Perm.refl _
  | cons a named ih =>
    obtain ⟨hfirst, hrest⟩ := List.pairwise_cons.mp hnamed
    obtain ⟨ha, hothers⟩ := List.forall_mem_cons.mp hnew
    have hkept : t.toList.filter (fun c => ¬ (a.1 == c.1)) = t.toList := by
      refine List.filter_eq_self.mpr fun c hc => decide_eq_true fun hsame => ?_
      rw [eq_of_beq hsame, ← Std.TreeMap.isSome_getElem?_iff_mem,
        Std.TreeMap.mem_toList_iff_getElem?_eq_some.mp hc] at ha
      exact ha rfl
    have hinsert := Std.TreeMap.toList_insert_perm (t := t) (k := a.1) (v := a.2)
    rw [hkept] at hinsert
    refine (ih hrest fun c hc hmem => ?_).trans
      ((hinsert.append_left named).trans List.perm_middle)
    obtain hsame | hmem := Std.TreeMap.mem_insert.mp hmem
    · exact hfirst c hc (Std.LawfulEqCmp.eq_of_compare hsame)
    · exact hothers c hc hmem

/-- **Things in the order of their names stay as they are.** -/
theorem sorted_eq_self (h : named.Pairwise fun a b => compare a.1 b.1 = .lt) :
    sorted named = named := by
  have hdistinct : named.Pairwise fun a b => a.1 ≠ b.1 := by
    refine h.imp fun {a b} hlt hsame => ?_
    rw [hsame, Std.ReflOrd.compare_self] at hlt
    cases hlt
  have hperm := foldl_insert_perm (t := ∅) hdistinct fun a _ => Std.TreeMap.not_mem_emptyc
  have hempty : (∅ : Std.TreeMap String α).toList = [] := rfl
  rw [hempty, List.append_nil] at hperm
  refine List.Perm.eq_of_pairwise (fun a b _ _ hab hba => ?_)
    Std.TreeMap.ordered_keys_toList h hperm
  -- no two things are each before the other
  have hself := Std.TransCmp.lt_trans hab hba
  rw [Std.ReflOrd.compare_self] at hself
  cases hself

end Names

/-! ## Series in JSON -/

mutual

/-- The series of a tree: the series itself and all below it. -/
def all : Series → List Series
  | mk values series => mk values series :: allOfList series

/-- The series of the trees of a list. -/
def allOfList : List (String × Series) → List Series
  | [] => []
  | (_, s) :: rest => s.all ++ allOfList rest

end

/-- **The series right below a series are in the order of their names**, no two with one name. -/
def InOrder (s : Series) : Prop := s.series.Pairwise fun a b => compare a.1 b.1 = .lt

instance (s : Series) : Decidable s.InOrder := inferInstanceAs (Decidable (List.Pairwise _ _))

section Trees

variable {values : Array Float} {series : List (String × Series)} {c : String × Series}

theorem all_eq_cons (s : Series) : s.all = s :: allOfList s.series := by
  cases s
  rfl

theorem allOfList_eq_flatMap (series : List (String × Series)) :
    allOfList series = series.flatMap fun c => c.2.all := by
  induction series with
  | nil => rfl
  | cons c rest ih => rw [allOfList, ih, List.flatMap_cons]

theorem mem_allOfList (hc : c ∈ series) {s : Series} (hs : s ∈ c.2.all) :
    s ∈ allOfList series := by
  rw [allOfList_eq_flatMap]
  exact List.mem_flatMap_of_mem hc hs

theorem depth_le_depthOfList (hc : c ∈ series) : c.2.depth ≤ depthOfList series := by
  induction series with
  | nil => cases hc
  | cons d series ih =>
    rw [depthOfList]
    obtain rfl | hc := List.mem_cons.mp hc
    · exact Nat.le_max_left _ _
    · exact Nat.le_trans (ih hc) (Nat.le_max_right _ _)

theorem membersOf_eq_map (series : List (String × Series)) :
    membersOf series = series.map fun c => (some c.1, c.2.toJson) := by
  induction series with
  | nil => rw [membersOf, List.map_nil]
  | cons c series ih => rw [membersOf, ih, List.map_cons]

/-- **Series by name are read as they are written**, if each of them is and they are in order. -/
theorem namedOfJson?_listToJson {read : Json → Option Series}
    (h : ∀ c ∈ series, read c.2.toJson = some c.2)
    (horder : series.Pairwise fun a b => compare a.1 b.1 = .lt) :
    namedOfJson? read (listToJson series) = some series := by
  have hmembers : (series.map fun c => ((some c.1, c.2.toJson) : Option String × Json)).mapM
      (fun m => m.1.bind fun name => (read m.2).bind fun s => some (name, s)) = some series := by
    refine mapM_map_eq_some fun c hc => ?_
    rw [h c hc]
    rfl
  rw [listToJson, membersOf_eq_map]
  refine (congrArg (Option.bind · fun named => some (sorted named)) hmembers).trans ?_
  exact congrArg some (sorted_eq_self horder)

theorem fields?_toJson (values : Array Float) (series : List (String × Series)) :
    Json.fields? ["values", "series"] (mk values series).toJson
      = some [.array (values.toList.map Json.ofFloat), listToJson series] := by
  rw [toJson]
  rfl

/-- **A tree of series is read as it is written**, with two levels of nesting for each of its
own. -/
theorem ofJson?_toJson {levels room : Nat} {s : Series} (hlevels : s.depth ≤ levels)
    (hroom : 2 * levels ≤ room) (horder : ∀ u ∈ s.all, u.InOrder)
    (hvalues : ∀ u ∈ s.all, ∀ x ∈ u.values, Json.ComesBack x) :
    ofJson? room s.toJson = some s := by
  induction levels generalizing s room with
  | zero =>
    obtain ⟨values, series⟩ := s
    rw [depth] at hlevels
    omega
  | succ levels ih =>
    obtain ⟨values, series⟩ := s
    obtain ⟨room, rfl⟩ : ∃ r, room = r + 2 := ⟨room - 2, by omega⟩
    rw [depth] at hlevels
    rw [all] at horder hvalues
    obtain ⟨hnames, horder⟩ := List.forall_mem_cons.mp horder
    obtain ⟨hown, hvalues⟩ := List.forall_mem_cons.mp hvalues
    have hread : (values.toList.map Json.ofFloat).mapM floatOfJson? = some values.toList :=
      mapM_map_eq_some fun x hx => (hown x (Array.mem_toList_iff.mp hx)).floatOfJson?_ofFloat
    have hbelow : namedOfJson? (ofJson? room) (listToJson series) = some series := by
      refine namedOfJson?_listToJson (fun c hc => ?_) hnames
      have hdepth := depth_le_depthOfList hc
      exact ih (by omega) (by omega) (fun u hu => horder u (mem_allOfList hc hu))
        fun u hu => hvalues u (mem_allOfList hc hu)
    rw [ofJson?, fields?_toJson]
    show Option.bind (List.mapM floatOfJson? _) (fun values' =>
      (namedOfJson? (ofJson? room) (listToJson series)).bind fun series' =>
        some (mk values'.toArray series')) = _
    rw [hread, hbelow]
    rfl

/-- Series by name can be written if each of them can. -/
theorem writable_listToJson (h : ∀ c ∈ series, c.2.toJson.Writable) :
    (listToJson series).Writable := by
  rw [listToJson, membersOf_eq_map]
  refine .object (fun m hm => ?_) fun m hm => ?_
  all_goals obtain ⟨c, hc, rfl⟩ := List.mem_map.mp hm
  · rfl
  · exact h c hc

end Trees

mutual

theorem writable_toJson : (s : Series) → s.toJson.Writable
  | mk values series => by
    rw [toJson]
    refine Json.writable_ofFields fun f hf => ?_
    simp only [List.mem_cons, List.not_mem_nil, or_false] at hf
    obtain rfl | rfl := hf
    · refine .array fun v hv => ?_
      obtain ⟨x, -, rfl⟩ := List.mem_map.mp hv
      exact Json.writable_ofFloat x
    · exact writable_listToJson (writable_of_mem series)

theorem writable_of_mem : (series : List (String × Series)) → ∀ c ∈ series, c.2.toJson.Writable
  | [] => nofun
  | (_, s) :: series => List.forall_mem_cons.mpr ⟨writable_toJson s, writable_of_mem series⟩

end

end Series

/-! ## Tabulations in JSON -/

namespace Tabulation

variable {t : Tabulation}

/-- **All series of a tabulation are in the order of their names.** -/
def InOrder (t : Tabulation) : Prop := ∀ s ∈ t.tree.all, s.InOrder

instance (t : Tabulation) : Decidable t.InOrder := inferInstanceAs (Decidable (∀ s ∈ _, _))

theorem writable_toJson (t : Tabulation) : t.toJson.Writable := by
  refine Json.writable_ofFields fun f hf => ?_
  simp only [List.mem_cons, List.not_mem_nil, or_false] at hf
  obtain rfl | rfl | rfl | rfl | rfl | rfl := hf
  · exact Json.writable_ofInt t.reportId
  · exact Json.writable_ofText t.title
  · exact Json.writable_ofText t.subtitle
  · exact Json.writable_ofText t.units
  · refine .array fun v hv => ?_
    obtain ⟨text, -, rfl⟩ := List.mem_map.mp hv
    exact Json.writable_ofText text
  · exact Series.writable_listToJson (Series.writable_of_mem t.series)

/-- **A tabulation is read from its JSON** if it is not nested too deeply for the reader. -/
theorem ofJson?_toJson (hid : -2 ^ 63 ≤ t.reportId ∧ t.reportId < 2 ^ 63)
    (hdepth : 2 * Series.depthOfList t.series ≤ maxNesting - 2) (horder : t.InOrder)
    (hvalues : ∀ s ∈ t.tree.all, ∀ x ∈ s.values, Json.ComesBack x) :
    ofJson? t.toJson = some t := by
  have htree : t.tree.all = t.tree :: Series.allOfList t.series := rfl
  rw [InOrder, htree] at horder
  rw [htree] at hvalues
  obtain ⟨hnames, horder⟩ := List.forall_mem_cons.mp horder
  obtain ⟨-, hvalues⟩ := List.forall_mem_cons.mp hvalues
  have hseries : Series.namedOfJson? (Series.ofJson? (maxNesting - 2)) (Series.listToJson t.series)
      = some t.series := by
    refine Series.namedOfJson?_listToJson (fun c hc => ?_) hnames
    have hbelow := Series.depth_le_depthOfList hc
    exact Series.ofJson?_toJson (Nat.le_refl _) (by omega)
      (fun s hs => horder s (Series.mem_allOfList hc hs))
      fun s hs => hvalues s (Series.mem_allOfList hc hs)
  have hlabels : (t.labels.toList.map Json.ofText).mapM Json.toText? = some t.labels.toList :=
    mapM_map_eq_some fun text _ => rfl
  show Option.bind (List.mapM Json.toText? _) (fun labels =>
    (Numeral.ofInt t.reportId).toInt64?.bind fun id =>
      Option.bind (Series.namedOfJson? (Series.ofJson? (maxNesting - 2)) _) fun series =>
        some (⟨id, t.title, t.subtitle, t.units, labels.toArray, series⟩ : Tabulation)) = some t
  rw [hlabels, Numeral.toInt64?_ofInt hid.1 hid.2, hseries]
  rfl

end Tabulation

/-! ## Finished tabulations -/

namespace Series

theorem forall_mem_allOfList {p : Series → Prop} {series : List (String × Series)}
    (h : ∀ c ∈ series, ∀ s ∈ c.2.all, p s) : ∀ s ∈ allOfList series, p s := by
  intro s hs
  rw [allOfList_eq_flatMap] at hs
  obtain ⟨c, hc, hs⟩ := List.mem_flatMap.mp hs
  exact h c hc s hs

end Series

namespace Draft

/-- The series below the one that a node becomes, when `built` is what has become of the nodes. -/
def Node.below (node : Node) (built : Nat → Option Series) : List (String × Series) :=
  node.children.toList.filterMap fun child => (built child.2).map fun s => (child.1, s)

/-- What holds of every series with the names of some node holds of all series that nodes
become. -/
theorem forall_mem_foldLast {p : Series → Prop} (size : Nat) (last : List Node)
    (h : ∀ node ∈ last, ∀ built, p (.mk node.values (node.below built))) :
    ∀ u ∈ foldLast size last, ∀ s ∈ u.all, p s := by
  induction last with
  | nil => nofun
  | cons node rest ih =>
    obtain ⟨hnode, hrest⟩ := List.forall_mem_cons.mp h
    intro u hu
    rw [foldLast_cons] at hu
    obtain hu | rfl := Array.mem_push.mp hu
    · exact ih hrest u hu
    · rw [Series.all]
      refine List.forall_mem_cons.mpr ⟨?_, Series.forall_mem_allOfList fun c hc => ?_⟩
      · exact hnode fun number => (foldLast size rest)[size - 1 - number]?
      · obtain ⟨child, -, hchild⟩ := List.mem_filterMap.mp hc
        obtain ⟨s, hs, rfl⟩ := Option.map_eq_some_iff.mp hchild
        exact ih hrest s (Array.mem_of_getElem? hs)

/-- What holds of every series with the names of some node, whatever its values, holds of all series
of a finished tabulation. -/
theorem forall_mem_all_finish {p : Series → Prop} {d : Draft} (hempty : p (.mk #[] []))
    (h : ∀ node ∈ d.nodes, ∀ values built, p (.mk values (node.below built))) :
    ∀ s ∈ d.finish.tree.all, p s := by
  -- the values of the root are left out, and nothing else
  have hroot : ∀ u ∈ foldNodes d.nodes, p (.mk #[] u.series) ∧ ∀ s ∈ u.all, p s := by
    rw [foldNodes_eq]
    intro u hu
    refine ⟨?_, forall_mem_foldLast _ _ (fun node hnode => h node (Array.mem_toList_iff.mp hnode) _)
      u hu⟩
    have hall := forall_mem_foldLast (p := fun s => p (.mk #[] s.series)) _ _
      (fun node hnode => h node (Array.mem_toList_iff.mp hnode) _) u hu
    obtain ⟨values, series⟩ := u
    exact hall _ (List.mem_cons_self ..)
  show ∀ s ∈ (Series.mk #[] ((foldNodes d.nodes).back?.getD default).series).all, p s
  cases hback : (foldNodes d.nodes).back? with
  | none => exact List.forall_mem_singleton.mpr hempty
  | some u =>
    obtain ⟨hnames, hall⟩ := hroot u (Array.mem_of_back? hback)
    obtain ⟨values, series⟩ := u
    rw [Series.all] at hall ⊢
    exact List.forall_mem_cons.mpr ⟨hnames, (List.forall_mem_cons.mp hall).2⟩

/-- **A tabulation that is finished has its series in order**, since each node knows its children by
name. -/
theorem inOrder_finish (d : Draft) : d.finish.InOrder := by
  refine forall_mem_all_finish List.Pairwise.nil fun node _ values built => ?_
  refine Std.TreeMap.ordered_keys_toList.filterMap _ fun a b hab a' ha' b' hb' => ?_
  obtain ⟨s, -, rfl⟩ := Option.map_eq_some_iff.mp ha'
  obtain ⟨s', -, rfl⟩ := Option.map_eq_some_iff.mp hb'
  exact hab

end Draft

namespace Tabulation

/-- **A tabulation that was written is what is read**, whatever its texts, with series up to sixty
levels deep. It is a condition that the number that is written for a value is
read as this value. -/
theorem written_tabulation_reads_back (t : Tabulation)
    (hid : -2 ^ 63 ≤ t.reportId ∧ t.reportId < 2 ^ 63) (horder : t.InOrder)
    (hdepth : Series.depthOfList t.series ≤ 60)
    (hfinite : ∀ s ∈ t.tree.all, ∀ x ∈ s.values, x.isFinite)
    (hback : ∀ s ∈ t.tree.all, ∀ x ∈ s.values, x.isFinite → Json.ComesBack x) :
    (Json.parse? t.toJson.render.toUTF8).bind ofJson? = some t := by
  rw [Json.parse?_render t.writable_toJson, Option.bind_some]
  refine ofJson?_toJson hid ?_ horder fun s hs x hx => hback s hs x hx (hfinite s hs x hx)
  show 2 * Series.depthOfList t.series ≤ 127 - 2
  omega

/-- A series in a series, with texts that have to be escaped, and the least number of a report. -/
theorem written_tabulation_reads_back_nested :
    let bank : Series := .mk #[-0.5, 0.0, 1e16] []
    let t : Tabulation :=
      { reportId := -2 ^ 63, title := "\"Net\x01\nWorth\"", units := "€", labels := #["", "Jän\t\\"]
        series := [("", .mk #[] []), ("Assets", .mk #[115.82] [("Bank", bank), ("bank", bank)])] }
    (Json.parse? t.toJson.render.toUTF8).bind ofJson? = some t := by
  intro bank t
  have hvalues : ∀ s ∈ t.tree.all, ∀ x ∈ s.values, x.isFinite ∧ Json.ComesBack x := by
    decide +kernel
  exact written_tabulation_reads_back t (by decide) (by decide) (by decide)
    (fun s hs x hx => (hvalues s hs x hx).1) fun s hs x hx _ => (hvalues s hs x hx).2

end Tabulation

end LedgerReports
