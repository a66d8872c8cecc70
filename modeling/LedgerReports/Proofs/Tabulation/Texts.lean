import LedgerReports.Proofs.Tabulation.ReadingBack
import LedgerReports.Proofs.Tabulation.Refinement
import LedgerReports.Proofs.Tabulation.Success
import LedgerReports.Proofs.Text.Lossy
import Mathlib

/-!
# The texts of tabulations

A text is given as bytes, and an operation refuses more than
`Draft.maxText` of them. What is kept is the text that the bytes are read as,
and that may be longer: an unreadable part of the bytes is kept as a
replacement character of three bytes. So the limit is one of what is given.
What is held stays within it exactly as long as everything that is given
would with three bytes for each unreadable part (`Desk.texts_within_iff`),
and a title can be three times as long (`Desk.title_beyond_limit`).

The texts of a draft are its title, the two lines with it, its labels, and the
names of its series. A finished tabulation has no other texts than its draft,
however deep the series lie.
-/

namespace LedgerReports

/-! ## Texts that are held -/

/-- **A draft holds a text.** -/
inductive Draft.Holds (d : Draft) : String → Prop where
  /-- The title. -/
  | title : Holds d d.title
  /-- The line below the title. -/
  | subtitle : Holds d d.subtitle
  /-- What the numbers count. -/
  | units : Holds d d.units
  /-- A label. -/
  | label {text : String} (mem : text ∈ d.labels) : Holds d text
  /-- The name of a series. -/
  | name {n : Draft.Node} {text : String} (mem : n ∈ d.nodes) (named : text ∈ n.children) :
    Holds d text

/-- **A tabulation holds a text**, which may be the name of a series at any
depth. -/
inductive Tabulation.Holds (t : Tabulation) : String → Prop where
  /-- The title. -/
  | title : Holds t t.title
  /-- The line below the title. -/
  | subtitle : Holds t t.subtitle
  /-- What the numbers count. -/
  | units : Holds t t.units
  /-- A label. -/
  | label {text : String} (mem : text ∈ t.labels) : Holds t text
  /-- The name of a series. -/
  | name {s : Series} {c : String × Series} (mem : s ∈ t.tree.all) (below : c ∈ s.series) :
    Holds t c.1

/-- A finished tabulation has the texts of its draft. -/
theorem Draft.holds_of_holds_finish {d : Draft} {text : String} (h : d.finish.Holds text) :
    d.Holds text := by
  cases h with
  | title => exact .title
  | subtitle => exact .subtitle
  | units => exact .units
  | label mem => exact .label mem
  | @name s c mem below =>
    have hnames : ∀ s ∈ d.finish.tree.all, ∀ c ∈ s.series, d.Holds c.1 := by
      refine forall_mem_all_finish (by nofun) fun node hnode values built c hc => ?_
      obtain ⟨child, hchild, hsome⟩ := List.mem_filterMap.mp hc
      obtain ⟨s, -, rfl⟩ := Option.map_eq_some_iff.mp hsome
      have hkey := Std.TreeMap.mem_toList_iff_getElem?_eq_some.mp hchild
      exact .name hnode (Std.TreeMap.mem_iff_isSome_getElem?.mpr (by rw [hkey]; rfl))
    exact hnames s mem c below

/-- All texts that a draft holds are as they should be. -/
structure Draft.AllTexts (p : String → Prop) (d : Draft) : Prop where
  /-- The title is. -/
  title : p d.title
  /-- The line below the title is. -/
  subtitle : p d.subtitle
  /-- What the numbers count is. -/
  units : p d.units
  /-- The labels are. -/
  labels : ∀ label ∈ d.labels, p label
  /-- The names of the series are. -/
  names : ∀ n ∈ d.nodes, ∀ name ∈ n.children, p name

theorem Draft.allTexts_iff {p : String → Prop} {d : Draft} :
    d.AllTexts p ↔ ∀ text, d.Holds text → p text := by
  constructor
  · intro h text hheld
    cases hheld with
    | title => exact h.title
    | subtitle => exact h.subtitle
    | units => exact h.units
    | label mem => exact h.labels _ mem
    | name mem named => exact h.names _ mem _ named
  · intro h
    exact ⟨h _ .title, h _ .subtitle, h _ .units, fun _ mem => h _ (.label mem),
      fun _ mem _ named => h _ (.name mem named)⟩

/-! ## What the operations keep -/

namespace Workbench

variable {p : String → Prop} {d : Draft}

theorem names_empty : ∀ name ∈ ({} : Draft.Node).children, p name :=
  fun _ named => absurd named Std.TreeMap.not_mem_emptyc

theorem allTexts_empty (hempty : p "") : Draft.AllTexts p {} :=
  ⟨hempty, hempty, hempty, fun _ mem => absurd mem (Array.not_mem_empty _), fun n mem => by
    obtain rfl := List.mem_singleton.mp (Array.mem_toList_iff.mpr mem)
    exact names_empty⟩

theorem allTexts_replace (field : TextField) {new : String} (hnew : p new) (h : d.AllTexts p) :
    (field.replace new d).AllTexts p := by
  cases field with
  | title => exact { h with title := hnew }
  | subtitle => exact { h with subtitle := hnew }
  | units => exact { h with units := hnew }

theorem allTexts_withLabel (position : Nat) {new : String} (hempty : p "") (hnew : p new)
    (h : d.AllTexts p) : (withLabel position new d).AllTexts p :=
  { h with labels := forall_mem_put h.labels hnew hempty }

theorem allTexts_withValue (number position : Nat) (value : Float) (h : d.AllTexts p) :
    (withValue number position value d).AllTexts p := by
  have hnames : ∀ n ∈ d.nodes.modify number fun n =>
      { n with values := put n.values position value 0.0 }, ∀ name ∈ n.children, p name :=
    forall_mem_modify h.names fun _ _ hn => hn
  exact { h with names := hnames }

theorem allTexts_withChild (parent : Nat) {name : String} (hname : p name) (h : d.AllTexts p) :
    (withChild parent name d).AllTexts p := by
  refine { h with names := fun n mem => ?_ }
  obtain mem | rfl := Array.mem_push.mp mem
  · refine forall_mem_modify h.names (fun m _ hm other hother => ?_) n mem
    obtain heq | hother := Std.TreeMap.mem_insert.mp hother
    · rw [← Std.LawfulEqOrd.eq_of_compare heq]
      exact hname
    · exact hm other hother
  · exact names_empty

/-- A named child is known to its parent. -/
theorem holds_withChild {parent : Nat} {name : String} (hparent : parent < d.nodes.size) :
    (withChild parent name d).Holds name := by
  have hlt : parent < (withChild parent name d).nodes.size := by
    rw [withChild, Array.size_push, Array.size_modify]
    omega
  have hnode : (withChild parent name d).nodes[parent]
      = { d.nodes[parent] with children := d.nodes[parent].children.insert name d.nodes.size } := by
    simp only [withChild]
    rw [Array.getElem_push_lt (by rw [Array.size_modify]; exact hparent),
      Array.getElem_modify, if_pos rfl]
  refine .name (Array.getElem_mem hlt) ?_
  rw [hnode]
  exact Std.TreeMap.mem_insert_self

end Workbench

/-! ## Commands -/

namespace Command

variable {ε : Type}

/-- The bytes that a command gives to be kept as texts. -/
def given : Command ε → List ByteArray
  | .setText _ _ bytes => [bytes]
  | .setLabels _ labels => labels.filterMap Except.toOption
  | .setLabel _ _ bytes => [bytes]
  | .series _ name => [name]
  | .begin | .setValue .. | .pushValue .. => []

theorem given_setLabels (id : Nat) (given : List ByteArray) :
    (.setLabels id (given.map .ok) : Command ε).given = given := by
  rw [Command.given, List.filterMap_map]
  exact List.filterMap_some

end Command

namespace Desk

open Workbench

variable {ε : Type} {p : String → Prop} {desk : Desk}

/-- All texts of all drafts are as they should be. -/
def AllTexts (p : String → Prop) (desk : Desk) : Prop := ∀ d ∈ desk.bench.drafts, d.AllTexts p

theorem AllTexts.change {v : Workbench} {id : Nat} {f : Draft → Draft} (h : desk.AllTexts p)
    (hcharged : Charged desk.bench v) (hf : ∀ d, d.AllTexts p → (f d).AllTexts p) :
    ∀ d ∈ (v.change id f).drafts, d.AllTexts p := by
  rw [Workbench.change, hcharged.drafts]
  exact forall_mem_modify h fun d _ => hf d

/-- A successful command keeps nothing but what is given. -/
theorem Effect.allTexts {desk' : Desk} {command : Command ε} (heffect : desk.Effect command desk')
    (hempty : p "") (hgiven : ∀ bytes ∈ command.given, p (Utf8.decodeLossy bytes))
    (h : desk.AllTexts p) : desk'.AllTexts p := by
  cases heffect with
  | begin v paid charged =>
    intro d hd
    obtain hd | rfl := Array.mem_push.mp hd
    · exact h d (charged.drafts ▸ hd)
    · exact allTexts_empty hempty
  | setText field id bytes v held paid charged =>
    exact h.change charged fun d => allTexts_replace field (hgiven _ (List.mem_singleton_self _))
  | setLabels id given kept v held read few paid_text paid_cells charged =>
    rw [Command.given_setLabels] at hgiven
    refine h.change charged fun d hd => { hd with labels := fun label hlabel => ?_ }
    rw [read, List.mem_toArray, List.mem_map] at hlabel
    obtain ⟨bytes, hbytes, rfl⟩ := hlabel
    exact hgiven bytes hbytes
  | setLabel id position bytes v held low paid charged =>
    exact h.change charged fun d =>
      allTexts_withLabel position hempty (hgiven _ (List.mem_singleton_self _))
  | found place name id parent number asked there => exact h
  | made place name id parent number v asked fresh last paid charged =>
    exact h.change charged fun d => allTexts_withChild parent (hgiven _ (List.mem_singleton_self _))
  | setValue handle id number position value v held low finite paid charged =>
    exact h.change charged fun d => allTexts_withValue number position value
  | pushValue handle id number position value v held last low finite paid charged =>
    exact h.change charged fun d => allTexts_withValue number position value

/-- A draft that was changed is one of the drafts. -/
theorem mem_drafts_change {v : Workbench} {id : Nat} {d : Draft} (f : Draft → Draft)
    (hcharged : Charged desk.bench v) (hd : desk.bench.drafts[id]? = some d) :
    f d ∈ (v.change id f).drafts := by
  rw [← hcharged.drafts] at hd
  exact Array.mem_of_getElem? (getElem?_change_self hd f)

/-- **What a successful command gives is held** right after it. -/
theorem Effect.holds {desk' : Desk} {command : Command ε} {plan : Plan}
    {paths : Nat → Nat → List String} (heffect : desk.Effect command desk')
    (h : Reads desk plan paths) :
    ∀ bytes ∈ command.given, ∃ d ∈ desk'.bench.drafts, d.Holds (Utf8.decodeLossy bytes) := by
  cases heffect with
  | begin v paid charged => exact List.forall_mem_nil _
  | setText field id bytes v held paid charged =>
    refine List.forall_mem_singleton.mpr
      ⟨_, mem_drafts_change _ charged (Array.getElem?_eq_getElem held), ?_⟩
    cases field with
    | title => exact .title
    | subtitle => exact .subtitle
    | units => exact .units
  | setLabels id given kept v held read few paid_text paid_cells charged =>
    rw [Command.given_setLabels]
    intro bytes hbytes
    refine ⟨_, mem_drafts_change _ charged (Array.getElem?_eq_getElem held), .label ?_⟩
    rw [read, List.mem_toArray]
    exact List.mem_map_of_mem hbytes
  | setLabel id position bytes v held low paid charged =>
    refine List.forall_mem_singleton.mpr
      ⟨_, mem_drafts_change _ charged (Array.getElem?_eq_getElem held), .label ?_⟩
    refine Array.mem_of_getElem? (i := position) ?_
    rw [withLabel, getElem?_put, if_pos rfl]
  | found place name id parent number asked there =>
    obtain ⟨-, d, hd, hparent⟩ := h.path?_of_node? asked
    refine List.forall_mem_singleton.mpr ⟨d, Array.mem_of_getElem? hd, ?_⟩
    rw [node_eq_getElem hd hparent] at there
    refine .name (Array.getElem_mem hparent) (Std.TreeMap.mem_iff_isSome_getElem?.mpr ?_)
    rw [there]
    rfl
  | made place name id parent number v asked fresh last paid charged =>
    obtain ⟨-, d, hd, hparent⟩ := h.path?_of_node? asked
    exact List.forall_mem_singleton.mpr
      ⟨_, mem_drafts_change _ charged hd, holds_withChild hparent⟩
  | setValue handle id number position value v held low finite paid charged =>
    exact List.forall_mem_nil _
  | pushValue handle id number position value v held last low finite paid charged =>
    exact List.forall_mem_nil _

/-! ## Runs -/

/-- **What is held in the course of a run is what is given.** All texts are as they
should be at every point exactly when all are that a successful command
gives. -/
theorem allTexts_after_iff {plan : Plan} {paths : Nat → Nat → List String} (hempty : p "")
    (hreads : Reads desk plan paths) (h : desk.AllTexts p) (commands : List (Command ε)) :
    (∀ done, done <+: commands → (desk.after done).AllTexts p)
      ↔ ∀ command ∈ desk.succeeding commands, ∀ bytes ∈ command.given,
        p (Utf8.decodeLossy bytes) := by
  induction commands generalizing desk plan paths with
  | nil =>
    refine iff_of_true (fun done hdone => ?_) nofun
    rw [List.prefix_nil.mp hdone]
    exact h
  | cons command rest ih =>
    obtain ⟨paths', hreads'⟩ := hreads.perform command
    have hruns : (∀ done, done <+: command :: rest → (desk.after done).AllTexts p)
        ↔ ∀ done, done <+: rest → ((desk.perform command).1.after done).AllTexts p := by
      refine ⟨fun hall done hdone => hall (command :: done) (List.cons_prefix_cons.mpr ⟨rfl, hdone⟩),
        fun hall done hdone => ?_⟩
      obtain rfl | ⟨done', rfl, hdone'⟩ := List.prefix_cons_iff.mp hdone
      · exact h
      · exact hall done' hdone'
    rw [hruns, succeeding]
    obtain ⟨hfailed, hunmoved⟩ | ⟨hsucceeded, heffect⟩ := perform_ends desk command
    · rw [hfailed, if_neg Bool.false_ne_true]
      refine ih hreads' fun d hd => h d ?_
      rw [← hunmoved.charged.drafts]
      exact hd
    · rw [hsucceeded, if_pos rfl, List.forall_mem_cons]
      constructor
      · intro hall
        have hgiven : ∀ bytes ∈ command.given, p (Utf8.decodeLossy bytes) := by
          intro bytes hbytes
          obtain ⟨d, hd, hheld⟩ := heffect.holds hreads bytes hbytes
          exact Draft.allTexts_iff.mp (hall [] (List.nil_prefix) d hd) _ hheld
        exact ⟨hgiven, (ih hreads' (heffect.allTexts hempty hgiven h)).mp hall⟩
      · rintro ⟨hgiven, hrest⟩
        exact (ih hreads' (heffect.allTexts hempty hgiven h)).mpr hrest

/-- What an allowed command gives is not too long as it is given. -/
theorem Allows.size_le {command : Command ε} (h : desk.Allows command) :
    ∀ bytes ∈ command.given, bytes.size ≤ Draft.maxText := by
  cases command with
  | begin => nofun
  | setText field id bytes => exact List.forall_mem_singleton.mpr h.2.1
  | setLabels id labels =>
    obtain ⟨-, given, rfl, -, hall, -⟩ := h
    rw [Command.given_setLabels]
    exact hall
  | setLabel id index bytes => exact List.forall_mem_singleton.mpr h.2.2.1.1
  | series place name =>
    obtain ⟨_, _, -, hsize, -⟩ := h
    exact List.forall_mem_singleton.mpr hsize
  | setValue handle index value => nofun
  | pushValue handle value => nofun

theorem size_le_of_mem_succeeding (hsound : desk.bench.Sound) (commands : List (Command ε)) :
    ∀ command ∈ desk.succeeding commands, ∀ bytes ∈ command.given,
      bytes.size ≤ Draft.maxText := by
  induction commands generalizing desk with
  | nil => nofun
  | cons command rest ih =>
    have hrest := ih (sound_perform hsound command)
    rw [succeeding]
    split
    case isTrue hsucceeded =>
      have hallows := (perform_succeeds_iff hsound.within command).mp hsucceeded
      exact List.forall_mem_cons.mpr ⟨hallows.size_le, hrest⟩
    case isFalse => exact hrest

/-- **How long the texts of a run are.** All texts that drafts hold in the course of a run have
at most 4096 bytes exactly when all that is given to successful operations
would, with each part that is no UTF-8 made three bytes long; so they do when
all that is given is UTF-8. As they are given, all have at most 4096 bytes, and
what is held has at most three times as many. A finished tabulation holds what
its draft does, and a new tabulation with options is a run like any other. -/
theorem texts_within_iff (commands : List (Command ε)) :
    let given := (Desk.succeeding {} commands).flatMap Command.given
    let Within := ∀ done, done <+: commands → ∀ d ∈ (Desk.after {} done).bench.drafts,
      ∀ text, d.Holds text → text.utf8ByteSize ≤ 4096
    (Within ↔ ∀ bytes ∈ given, bytes.size + Utf8.growth bytes ≤ 4096)
      ∧ ((∀ bytes ∈ given, ∃ text, Utf8.decode bytes = .ok text) → Within)
      ∧ (∀ bytes ∈ given, bytes.size ≤ 4096)
      ∧ (∀ d ∈ (Desk.after {} commands).bench.drafts,
        (∀ text, d.Holds text → text.utf8ByteSize ≤ 3 * 4096)
          ∧ ∀ text, d.finish.Holds text → d.Holds text)
      ∧ ∀ options : Options ε, ∃ given : List (Command ε),
        (Desk.after {} commands).create options = Desk.after {} (commands ++ given) := by
  intro given Within
  have hsizes : ∀ bytes ∈ given, bytes.size ≤ 4096 := by
    have hsound : (Desk.bench {}).Sound := sound_empty
    exact List.forall_mem_flatMap.mpr (size_le_of_mem_succeeding hsound commands)
  have hbound : ∀ limit, (∀ done, done <+: commands →
      (Desk.after {} done).AllTexts fun text => text.utf8ByteSize ≤ limit)
        ↔ ∀ bytes ∈ given, bytes.size + Utf8.growth bytes ≤ limit := by
    intro limit
    have hiff := allTexts_after_iff (p := fun text => text.utf8ByteSize ≤ limit) (Nat.zero_le _)
      reads_empty (by nofun) commands
    simp only [Utf8.size_decodeLossy] at hiff
    rw [hiff, List.forall_mem_flatMap]
  have hwithin : Within ↔ ∀ bytes ∈ given, bytes.size + Utf8.growth bytes ≤ 4096 := by
    rw [← hbound]
    simp only [Within, AllTexts, Draft.allTexts_iff]
  refine ⟨hwithin, fun hutf8 => hwithin.mpr fun bytes hbytes => ?_, hsizes, fun d hd => ⟨?_, ?_⟩,
    fun options => ?_⟩
  · obtain ⟨text, htext⟩ := hutf8 bytes hbytes
    rw [Utf8.growth_eq_zero htext]
    exact hsizes bytes hbytes
  · have hall := (hbound (3 * 4096)).mpr fun bytes hbytes => by
      have hsize := hsizes bytes hbytes
      have hgrowth := Utf8.growth_le bytes
      omega
    exact Draft.allTexts_iff.mp (hall commands (List.prefix_refl _) d hd)
  · exact fun text => Draft.holds_of_holds_finish
  · obtain ⟨given, -, hcreate⟩ := create_eq_after (Desk.after {} commands) options
    exact ⟨given, by rw [hcreate, after_append]⟩

theorem Effect.draft_of_setText {desk' : Desk} {field : TextField} {id : Nat} {bytes : ByteArray}
    (h : desk.Effect (.setText field id bytes : Command ε) desk') :
    desk'.bench.draft id = field.replace (Utf8.decodeLossy bytes) (desk.bench.draft id) := by
  cases h with
  | setText _ _ _ v held paid charged =>
    obtain ⟨d, hd⟩ : ∃ d, desk.bench.drafts[id]? = some d := ⟨_, Array.getElem?_eq_getElem held⟩
    rw [draft_eq hd]
    rw [← charged.drafts] at hd
    exact draft_eq (getElem?_change_self hd _)

/-- A new tabulation takes a title that is not too long as it is given. -/
theorem setText_title_of_new {bytes : ByteArray} (hsize : bytes.size ≤ Draft.maxText)
    (hroom : (Utf8.decodeLossy bytes).utf8ByteSize ≤ Resource.limit .text) :
    let commands : List (Command Empty) := [.begin, .setText .title 0 bytes]
    Desk.succeeding {} commands = commands
      ∧ ((Desk.after {} commands).bench.draft 0).finish.title = Utf8.decodeLossy bytes := by
  intro commands
  -- the desk once the tabulation has been begun
  have hbegin : Desk.perform {} (.begin : Command Empty)
      = ({ bench := { budget := { series := 1 }, drafts := #[{}] } }, true) := rfl
  generalize hdesk : ({ bench := { budget := { series := 1 }, drafts := #[{}] } } : Desk) = desk
    at hbegin
  have hempty : (Desk.bench {}).Sound := sound_empty
  have hsound := sound_perform hempty (.begin : Command Empty)
  rw [hbegin] at hsound
  have hallows : desk.Allows (.setText .title 0 bytes : Command Empty) := by
    rw [← hdesk]
    exact ⟨Nat.zero_lt_one, hsize, by rw [HasRoom]; exact (Nat.zero_add _).symm ▸ hroom⟩
  have hsucceeds := (perform_succeeds_iff hsound.within _).mpr hallows
  refine ⟨by simp only [commands, succeeding, hbegin, hsucceeds, if_true], ?_⟩
  obtain ⟨hfailed, -⟩ | ⟨-, heffect⟩ :=
    perform_ends desk (.setText .title 0 bytes : Command Empty)
  · rw [hsucceeds] at hfailed
    cases hfailed
  · have hafter : Desk.after {} commands
        = (desk.perform (.setText .title 0 bytes : Command Empty)).1 := by
      simp only [commands, after, List.foldl_cons, List.foldl_nil, hbegin]
    rw [hafter, heffect.draft_of_setText]
    rfl

/-- As many bytes as may be given, none of which can begin a character. -/
def unreadableTitle : ByteArray := ⟨Array.replicate 4096 0xff⟩

theorem size_unreadableTitle : unreadableTitle.size = 4096 := Array.size_replicate

theorem size_decodeLossy_unreadableTitle :
    (Utf8.decodeLossy unreadableTitle).utf8ByteSize = 12288 := by
  have hbytes : ∀ b ∈ unreadableTitle.data, b.toNat = 0xff := by
    intro b hb
    rw [(Array.mem_replicate.mp hb).2]
    rfl
  rw [Utf8.size_decodeLossy, Utf8.growth_of_forall hbytes (by decide), size_unreadableTitle]

/-- **A title that is kept beyond the limit.** Both commands succeed, and the finished
tabulation has a title of three times the bytes that a text may have. -/
theorem title_beyond_limit :
    let commands : List (Command Empty) := [.begin, .setText .title 0 unreadableTitle]
    Desk.succeeding {} commands = commands ∧ unreadableTitle.size ≤ 4096
      ∧ ((Desk.after {} commands).bench.draft 0).finish.title.utf8ByteSize = 12288 := by
  intro commands
  obtain ⟨hsucceeding, htitle⟩ := setText_title_of_new
    (Nat.le_of_eq size_unreadableTitle)
    (by rw [size_decodeLossy_unreadableTitle]; decide)
  refine ⟨hsucceeding, Nat.le_of_eq size_unreadableTitle, ?_⟩
  rw [htitle, size_decodeLossy_unreadableTitle]

end Desk

end LedgerReports
