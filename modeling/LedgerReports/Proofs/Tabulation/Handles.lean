import LedgerReports.Proofs.Tabulation.Budget
import Mathlib

/-!
# Who has a handle

A new tabulation is set up before the script gets a handle of it, and the options
may be computed by functions of the script, which do other things meanwhile and
may begin tabulations of their own. So there are tabulations that are *pending*:
only the function that has begun them knows of them. When an option cannot be
kept, or cannot be had at all, the function fails, and nobody knows of the
tabulation any more.

`Holding` is the desk of a run together with what is pending and what the script
has been given, and a `Deed` is one thing that happens to it. Commands go through
handles that have been given (`Holding.allows`). A tabulation that is neither
pending nor given, and of which there is no series, is `Lost`: whatever happens
later, it stays so, and its draft stays as it is (`Lost.after`). What the script
can present as a result is what it has been given (`Holding.results`).
-/

namespace LedgerReports

namespace Desk

variable {ε : Type} {desk desk' : Desk} {command : Command ε} {id : Nat}

/-- The draft that a command works on. -/
def target? (desk : Desk) : Command ε → Option Nat
  | .begin => none
  | .setText _ id _ | .setLabels id _ | .setLabel id _ _ => some id
  | .series place _ => (desk.node? place).map Prod.fst
  | .setValue handle _ _ | .pushValue handle _ => desk.series[handle]?.map Prod.fst

/-- **What a command leaves alone**: drafts other than the one that it works on, of which there are
no new handles either, and none of the drafts is taken away. -/
structure Spares (desk : Desk) (command : Command ε) (desk' : Desk) : Prop where
  /-- Other drafts stay as they are. -/
  drafts : ∀ id, id < desk.bench.drafts.size → desk.target? command ≠ some id →
    desk'.bench.drafts[id]? = desk.bench.drafts[id]?
  /-- A new handle is of a series of the draft. -/
  series : ∀ c ∈ desk'.series, c ∈ desk.series ∨ desk.target? command = some c.1
  /-- No draft is taken away. -/
  size_le : desk.bench.drafts.size ≤ desk'.bench.drafts.size

theorem Unmoved.spares (h : Unmoved desk desk') : desk.Spares command desk' where
  drafts _ _ _ := by rw [h.charged.drafts]
  series _ hc := .inl (h.series ▸ hc)
  size_le := Nat.le_of_eq (congrArg Array.size h.charged.drafts).symm

/-- A command that changes one draft leaves the others alone. -/
theorem spares_change {v : Workbench} {f : Draft → Draft} {series : List (Nat × Nat)}
    (charged : Workbench.Charged desk.bench v) (htarget : desk.target? command = some id)
    (hseries : ∀ c ∈ series, c ∈ desk.series ∨ c.1 = id) :
    desk.Spares command { bench := v.change id f, series } where
  drafts id' _ hother := by
    have hne : id ≠ id' := fun h => hother (h ▸ htarget)
    show (v.drafts.modify id f)[id']? = _
    rw [Array.getElem?_modify, if_neg hne, charged.drafts]
  series c hc := (hseries c hc).imp_right fun h => by rw [htarget, h]
  size_le := by
    show _ ≤ (v.drafts.modify id f).size
    rw [Array.size_modify, charged.drafts]

/-- **A successful command leaves other drafts alone.** -/
theorem Effect.spares (h : desk.Effect command desk') : desk.Spares command desk' := by
  cases h with
  | begin v paid charged =>
    refine ⟨fun id hid _ => ?_, fun c hc => .inl hc, ?_⟩
    · rw [charged.drafts, Array.getElem?_push, if_neg (Nat.ne_of_lt hid)]
    · rw [charged.drafts, Array.size_push]
      exact Nat.le_succ _
  | setText field id bytes v held paid charged =>
    exact spares_change charged rfl fun c hc => .inl hc
  | setLabels id given kept v held read few paid_text paid_cells charged =>
    exact spares_change charged rfl fun c hc => .inl hc
  | setLabel id position bytes v held low paid charged =>
    exact spares_change charged rfl fun c hc => .inl hc
  | found place name id parent number asked there =>
    refine ⟨fun _ _ _ => rfl, fun c hc => ?_, Nat.le_refl _⟩
    rcases List.mem_append.mp hc with hc | hc
    · exact .inl hc
    · rw [List.mem_singleton.mp hc]
      exact .inr (congrArg (Option.map Prod.fst) asked)
  | made place name id parent number v asked fresh last paid charged =>
    refine spares_change charged (congrArg (Option.map Prod.fst) asked) fun c hc => ?_
    rcases List.mem_append.mp hc with hc | hc
    · exact .inl hc
    · rw [List.mem_singleton.mp hc]
      exact .inr rfl
  | setValue handle id number position value v held low finite paid charged =>
    exact spares_change charged (congrArg (Option.map Prod.fst) held) fun c hc => .inl hc
  | pushValue handle id number position value v held last low finite paid charged =>
    exact spares_change charged (congrArg (Option.map Prod.fst) held) fun c hc => .inl hc

/-- **A command leaves other drafts alone**, whether it fails or not. -/
theorem spares_perform (desk : Desk) (command : Command ε) :
    desk.Spares command (desk.perform command).1 := by
  obtain ⟨-, hunmoved⟩ | ⟨-, heffect⟩ := perform_ends desk command
  · exact hunmoved.spares
  · exact heffect.spares

/-! ## Setting up -/

/-- Whether a command is one by which a tabulation is set up: it begins one, or keeps an option of
it. -/
def setsUp (tabulation : Nat) : Command ε → Bool
  | .begin => true
  | .setText _ id _ | .setLabels id _ => id == tabulation
  | .setLabel _ _ _ | .series _ _ | .setValue _ _ _ | .pushValue _ _ => false

theorem target?_of_setsUp (h : setsUp id command = true) {id' : Nat} (hne : id' ≠ id) :
    desk.target? command ≠ some id' := by
  cases command with
  | begin => exact nofun
  | setText field tabulation bytes =>
    rw [← beq_iff_eq.mp h] at hne
    exact fun heq => hne (Option.some.inj heq).symm
  | setLabels tabulation labels =>
    rw [← beq_iff_eq.mp h] at hne
    exact fun heq => hne (Option.some.inj heq).symm
  | _ => cases h

/-- Setting up a tabulation hands out no series. -/
theorem series_perform_of_setsUp (desk : Desk) (h : setsUp id command = true) :
    (desk.perform command).1.series = desk.series := by
  obtain ⟨-, hunmoved⟩ | ⟨-, heffect⟩ := desk.perform_ends command
  · exact hunmoved.series
  · generalize (desk.perform command).1 = desk' at heffect
    cases heffect with
    | begin | setText | setLabels => rfl
    | _ => cases h

end Desk

/-! ## What a script holds -/

/-- The desk of a run, and who knows of its tabulations. -/
structure Holding where
  /-- The drafts, and the handles of series. -/
  desk : Desk := {}
  /-- The tabulations that are being set up. -/
  pending : List Nat := []
  /-- The tabulations that the script has a handle of. -/
  given : List Nat := []

/-- An option of a new tabulation. -/
inductive TabulationOption (ε : Type) where
  /-- A text. -/
  | text (field : TextField) (bytes : ByteArray)
  /-- The labels. -/
  | labels (given : List (Except ε ByteArray))

/-- The command that keeps an option of a tabulation. -/
def TabulationOption.command {ε : Type} (tabulation : Nat) : TabulationOption ε → Command ε
  | text field bytes => .setText field tabulation bytes
  | labels given => .setLabels tabulation given

theorem TabulationOption.setsUp_command {ε : Type} (option : TabulationOption ε)
    (tabulation : Nat) : Desk.setsUp tabulation (option.command tabulation) = true := by
  cases option <;> exact beq_self_eq_true tabulation

/-- One thing that happens to what a script holds. -/
inductive Deed (ε : Type) where
  /-- A tabulation is begun. -/
  | begin
  /-- An option of a pending tabulation is kept. If that fails, the tabulation is given up. -/
  | setUp (tabulation : Nat) (option : TabulationOption ε)
  /-- A pending tabulation is given up because an option cannot be had. -/
  | giveUp (tabulation : Nat)
  /-- The script gets a handle of a pending tabulation, since all options have been kept. -/
  | handOver (tabulation : Nat)
  /-- The script gives a command through its handles. -/
  | use (command : Command ε)

/-- The tabulation that a deed goes on setting up, or gives up. -/
def Deed.setsUp? {ε : Type} : Deed ε → Option Nat
  | setUp tabulation _ | giveUp tabulation => some tabulation
  | begin | handOver _ | use _ => none

namespace Holding

variable {ε : Type} {h : Holding} {id : Nat}

/-- Whether a command goes through handles that the script has been given. Series have handles of
their own. -/
def allows (h : Holding) : Command ε → Bool
  | .begin => false
  | .setText _ id _ | .setLabels id _ => h.given.contains id
  | .setLabel id _ _ | .series (.top id) _ => h.given.contains id
  | .series (.below _) _ | .setValue _ _ _ | .pushValue _ _ => true

/-- Does one thing, and tells whether it went well. -/
def perform (h : Holding) : Deed ε → Holding × Bool
  | .begin =>
    let outcome := h.desk.perform (.begin : Command ε)
    let pending := if outcome.2 then h.desk.bench.drafts.size :: h.pending else h.pending
    ({ h with desk := outcome.1, pending }, outcome.2)
  | .setUp id option =>
    if id ∈ h.pending then
      let outcome := h.desk.perform (option.command id)
      let pending := if outcome.2 then h.pending else h.pending.erase id
      ({ h with desk := outcome.1, pending }, outcome.2)
    else (h, false)
  | .giveUp id => ({ h with pending := h.pending.erase id }, false)
  | .handOver id =>
    if id ∈ h.pending then
      ({ h with pending := h.pending.erase id, given := id :: h.given }, true)
    else (h, false)
  | .use command =>
    if h.allows command then
      let outcome := h.desk.perform command
      ({ h with desk := outcome.1 }, outcome.2)
    else (h, false)

/-- What a script holds after some things have happened. -/
def after (h : Holding) (deeds : List (Deed ε)) : Holding :=
  deeds.foldl (fun h deed => (h.perform deed).1) h

/-- What is done to the desk is a command, or nothing. -/
theorem exists_desk_perform (h : Holding) (deed : Deed ε) :
    ∃ commands : List (Command ε), (h.perform deed).1.desk = h.desk.after commands := by
  cases deed with
  | begin => exact ⟨[.begin], rfl⟩
  | setUp tabulation option =>
    rw [perform]
    split
    case isTrue => exact ⟨[option.command tabulation], rfl⟩
    case isFalse => exact ⟨[], rfl⟩
  | giveUp tabulation => exact ⟨[], rfl⟩
  | handOver tabulation =>
    rw [perform]
    split <;> exact ⟨[], rfl⟩
  | use command =>
    rw [perform]
    split
    case isTrue => exact ⟨[command], rfl⟩
    case isFalse => exact ⟨[], rfl⟩

/-- The desk of what a script holds is one after some commands. -/
theorem exists_desk_after (h : Holding) (deeds : List (Deed ε)) :
    ∃ commands : List (Command ε), (h.after deeds).desk = h.desk.after commands := by
  induction deeds generalizing h with
  | nil => exact ⟨[], rfl⟩
  | cons deed rest ih =>
    obtain ⟨first, hfirst⟩ := h.exists_desk_perform deed
    obtain ⟨more, hmore⟩ := ih (h.perform deed).1
    refine ⟨first ++ more, ?_⟩
    rw [Desk.after_append, ← hfirst]
    exact hmore

/-- What a script can present as results: the tabulations that it has been given. -/
def results (h : Holding) : List Tabulation := h.given.map fun id => (h.desk.bench.draft id).finish

/-- **A tabulation is known once at most**: pending or given, and a series is one of a tabulation
that has been given. -/
structure Apart (h : Holding) : Prop where
  /-- What is known has been begun. -/
  lt_size : ∀ id ∈ h.pending ++ h.given, id < h.desk.bench.drafts.size
  /-- Nothing is known twice. -/
  nodup : (h.pending ++ h.given).Nodup
  /-- A series is one of a tabulation that has been given. -/
  series : ∀ c ∈ h.desk.series, c.1 ∈ h.given

/-- **Nobody knows of a tabulation** that has been begun. -/
structure Lost (h : Holding) (id : Nat) : Prop where
  /-- The tabulation has been begun. -/
  lt_size : id < h.desk.bench.drafts.size
  /-- The tabulation is not being set up. -/
  pending : id ∉ h.pending
  /-- The script has no handle of the tabulation. -/
  given : id ∉ h.given
  /-- The script has no handle of a series of the tabulation. -/
  series : ∀ c ∈ h.desk.series, c.1 ≠ id

theorem apart_empty : Apart {} where
  lt_size := nofun
  nodup := List.nodup_nil
  series := nofun

/-- A command that goes through handles works on a tabulation that has been given, or on one of
which there is a series. -/
theorem known_of_allows {command : Command ε} (hallows : h.allows command = true)
    (htarget : h.desk.target? command = some id) :
    id ∈ h.given ∨ ∃ c ∈ h.desk.series, c.1 = id := by
  have hseries (handle : Nat) (hhandle : h.desk.series[handle]?.map Prod.fst = some id) :
      ∃ c ∈ h.desk.series, c.1 = id := by
    obtain ⟨c, hc, rfl⟩ := Option.map_eq_some_iff.mp hhandle
    exact ⟨c, List.mem_of_getElem? hc, rfl⟩
  cases command with
  | begin => cases hallows
  | setText field tabulation bytes =>
    cases htarget
    exact .inl (List.contains_iff_mem.mp hallows)
  | setLabels tabulation labels =>
    cases htarget
    exact .inl (List.contains_iff_mem.mp hallows)
  | setLabel tabulation index bytes =>
    cases htarget
    exact .inl (List.contains_iff_mem.mp hallows)
  | series place name =>
    cases place with
    | top tabulation =>
      obtain ⟨_, hnode, rfl⟩ := Option.map_eq_some_iff.mp htarget
      rw [Desk.node?] at hnode
      split at hnode <;> cases hnode
      exact .inl (List.contains_iff_mem.mp hallows)
    | below handle => exact .inr (hseries handle htarget)
  | setValue handle index value => exact .inr (hseries handle htarget)
  | pushValue handle value => exact .inr (hseries handle htarget)

/-! ## Known tabulations -/

/-- A tabulation that is begun gets the next number. -/
theorem size_perform_begin {desk : Desk} (h : (desk.perform (.begin : Command ε)).2 = true) :
    (desk.perform (.begin : Command ε)).1.bench.drafts.size = desk.bench.drafts.size + 1 := by
  obtain ⟨hfailed, -⟩ | ⟨-, heffect⟩ := desk.perform_ends (.begin : Command ε)
  · rw [h] at hfailed
    cases hfailed
  · generalize (desk.perform (.begin : Command ε)).1 = desk' at heffect
    cases heffect with
    | begin v paid charged => rw [Array.size_push, charged.drafts]

/-- **A tabulation is known once at most, whatever is done.** -/
theorem Apart.perform (hapart : h.Apart) (deed : Deed ε) : (h.perform deed).1.Apart := by
  have hlater {desk : Desk} (hsize : h.desk.bench.drafts.size ≤ desk.bench.drafts.size) :
      ∀ id ∈ h.pending ++ h.given, id < desk.bench.drafts.size :=
    fun id hid => Nat.lt_of_lt_of_le (hapart.lt_size id hid) hsize
  have herase (tabulation : Nat) : (h.pending.erase tabulation ++ h.given).Sublist
      (h.pending ++ h.given) :=
    List.erase_sublist.append_right h.given
  cases deed with
  | begin =>
    have hspares := h.desk.spares_perform (.begin : Command ε)
    have hbegins : Desk.setsUp 0 (.begin : Command ε) = true := rfl
    have hseries : ∀ c ∈ (h.desk.perform (.begin : Command ε)).1.series, c.1 ∈ h.given := by
      rw [h.desk.series_perform_of_setsUp hbegins]
      exact hapart.series
    rw [Holding.perform]
    by_cases hbegun : (h.desk.perform (.begin : Command ε)).2 = true
    · have hsize := size_perform_begin hbegun
      refine ⟨fun id hid => ?_, ?_, hseries⟩
      · simp only [if_pos hbegun] at hid ⊢
        rcases List.mem_cons.mp hid with rfl | hid
        · omega
        · exact hlater hspares.size_le id hid
      · simp only [if_pos hbegun]
        exact List.nodup_cons.mpr
          ⟨fun hmem => Nat.lt_irrefl _ (hapart.lt_size _ hmem), hapart.nodup⟩
    · simp only [if_neg hbegun]
      exact ⟨hlater hspares.size_le, hapart.nodup, hseries⟩
  | setUp tabulation option =>
    rw [Holding.perform]
    split
    case isTrue hpending =>
      have hsize := (h.desk.spares_perform (option.command tabulation)).size_le
      have hseries : ∀ c ∈ (h.desk.perform (option.command tabulation)).1.series,
          c.1 ∈ h.given := by
        rw [h.desk.series_perform_of_setsUp (option.setsUp_command tabulation)]
        exact hapart.series
      dsimp only
      split
      case isTrue => exact ⟨hlater hsize, hapart.nodup, hseries⟩
      case isFalse =>
        exact ⟨fun id hid => hlater hsize id ((herase tabulation).subset hid),
          hapart.nodup.sublist (herase tabulation), hseries⟩
    case isFalse => exact hapart
  | giveUp tabulation =>
    exact ⟨fun id hid => hapart.lt_size id ((herase tabulation).subset hid),
      hapart.nodup.sublist (herase tabulation), hapart.series⟩
  | handOver tabulation =>
    rw [Holding.perform]
    split
    case isTrue hpending =>
      have hperm : (h.pending.erase tabulation ++ tabulation :: h.given).Perm
          (h.pending ++ h.given) :=
        List.perm_middle.trans ((List.perm_cons_erase hpending).symm.append_right h.given)
      exact ⟨fun id hid => hapart.lt_size id (hperm.subset hid), hperm.nodup_iff.mpr hapart.nodup,
        fun c hc => List.mem_cons_of_mem _ (hapart.series c hc)⟩
    case isFalse => exact hapart
  | use command =>
    rw [Holding.perform]
    split
    case isTrue hallows =>
      have hspares := h.desk.spares_perform command
      refine ⟨hlater hspares.size_le, hapart.nodup, fun c hc => ?_⟩
      rcases hspares.series c hc with hold | hnew
      · exact hapart.series c hold
      · rcases known_of_allows hallows hnew with hgiven | ⟨c', hc', heq⟩
        · exact hgiven
        · exact heq ▸ hapart.series c' hc'
    case isFalse => exact hapart

theorem Apart.after (hapart : h.Apart) (deeds : List (Deed ε)) : (h.after deeds).Apart := by
  induction deeds generalizing h with
  | nil => exact hapart
  | cons deed rest ih => exact ih (hapart.perform deed)

/-! ## Lost tabulations -/

/-- A tabulation that is no longer pending, and has not been given, is lost. -/
theorem Apart.lost_of_erase (hapart : h.Apart) (hid : id ∈ h.pending) {desk : Desk}
    (hsize : h.desk.bench.drafts.size ≤ desk.bench.drafts.size)
    (hseries : desk.series = h.desk.series) : Lost ⟨desk, h.pending.erase id, h.given⟩ id := by
  obtain ⟨hpending, -, hdisjoint⟩ := List.nodup_append.mp hapart.nodup
  have hlt := hapart.lt_size id (List.mem_append_left _ hid)
  refine ⟨Nat.lt_of_lt_of_le hlt hsize, hpending.not_mem_erase,
    fun hgiven => hdisjoint id hid id hgiven rfl, ?_⟩
  rw [hseries]
  rintro c hc rfl
  exact hdisjoint c.1 hid c.1 (hapart.series c hc) rfl

/-- A command that does not work on a lost tabulation leaves it lost, and as it is. -/
theorem Lost.of_spares {command : Command ε} {desk : Desk} (hlost : h.Lost id)
    (hspares : h.desk.Spares command desk) (htarget : h.desk.target? command ≠ some id)
    {pending given : List Nat} (hpending : id ∉ pending) (hgiven : id ∉ given) :
    Lost ⟨desk, pending, given⟩ id ∧ desk.bench.drafts[id]? = h.desk.bench.drafts[id]? := by
  refine ⟨⟨Nat.lt_of_lt_of_le hlost.lt_size hspares.size_le, hpending, hgiven, ?_⟩,
    hspares.drafts id hlost.lt_size htarget⟩
  rintro c hc rfl
  rcases hspares.series c hc with hold | hnew
  · exact hlost.series c hold rfl
  · exact htarget hnew

/-- **What is lost stays lost, and its draft as it is**, whatever is done. -/
theorem Lost.perform (hlost : h.Lost id) (deed : Deed ε) :
    (h.perform deed).1.Lost id
      ∧ (h.perform deed).1.desk.bench.drafts[id]? = h.desk.bench.drafts[id]? := by
  have herase (tabulation : Nat) : id ∉ h.pending.erase tabulation :=
    fun hmem => hlost.pending (List.mem_of_mem_erase hmem)
  cases deed with
  | begin =>
    refine hlost.of_spares (h.desk.spares_perform (.begin : Command ε)) nofun ?_ hlost.given
    split
    case isTrue =>
      exact List.not_mem_cons_of_ne_of_not_mem (Nat.ne_of_lt hlost.lt_size) hlost.pending
    case isFalse => exact hlost.pending
  | setUp tabulation option =>
    rw [Holding.perform]
    split
    case isTrue hpending =>
      have hne : id ≠ tabulation := fun heq => hlost.pending (heq ▸ hpending)
      have htarget : h.desk.target? (option.command tabulation) ≠ some id :=
        Desk.target?_of_setsUp (option.setsUp_command tabulation) hne
      refine hlost.of_spares (h.desk.spares_perform _) htarget ?_ hlost.given
      split
      case isTrue => exact hlost.pending
      case isFalse => exact herase tabulation
    case isFalse => exact ⟨hlost, rfl⟩
  | giveUp tabulation => exact ⟨⟨hlost.lt_size, herase _, hlost.given, hlost.series⟩, rfl⟩
  | handOver tabulation =>
    rw [Holding.perform]
    split
    case isTrue hpending =>
      have hne : id ≠ tabulation := fun heq => hlost.pending (heq ▸ hpending)
      have hgiven := List.not_mem_cons_of_ne_of_not_mem hne hlost.given
      exact ⟨⟨hlost.lt_size, herase _, hgiven, hlost.series⟩, rfl⟩
    case isFalse => exact ⟨hlost, rfl⟩
  | use command =>
    rw [Holding.perform]
    split
    case isTrue hallows =>
      refine hlost.of_spares (h.desk.spares_perform command) (fun htarget => ?_) hlost.pending
        hlost.given
      rcases known_of_allows hallows htarget with hgiven | ⟨c, hc, heq⟩
      · exact hlost.given hgiven
      · exact hlost.series c hc heq
    case isFalse => exact ⟨hlost, rfl⟩

theorem Lost.after (hlost : h.Lost id) (deeds : List (Deed ε)) :
    (h.after deeds).Lost id
      ∧ (h.after deeds).desk.bench.drafts[id]? = h.desk.bench.drafts[id]? := by
  induction deeds generalizing h with
  | nil => exact ⟨hlost, rfl⟩
  | cons deed rest ih =>
    obtain ⟨hstep, hdraft⟩ := hlost.perform deed
    obtain ⟨hrest, hdrafts⟩ := ih hstep
    exact ⟨hrest, hdrafts.trans hdraft⟩

/-- **A tabulation is lost when it is not set up to the end**, and more has been used up at most. -/
theorem Apart.lost_of_setsUp? (hapart : h.Apart) (hid : id ∈ h.pending) {deed : Deed ε}
    (hdeed : deed.setsUp? = some id) (hfailed : (h.perform deed).2 = false) :
    (h.perform deed).1.Lost id
      ∧ Workbench.Charged h.desk.bench (h.perform deed).1.desk.bench := by
  cases deed with
  | begin => cases hdeed
  | handOver tabulation => cases hdeed
  | use command => cases hdeed
  | giveUp tabulation =>
    cases hdeed
    exact ⟨hapart.lost_of_erase hid (Nat.le_refl _) rfl, .refl _⟩
  | setUp tabulation option =>
    cases hdeed
    rw [Holding.perform, if_pos hid] at hfailed ⊢
    dsimp only at hfailed ⊢
    rw [hfailed, if_neg Bool.false_ne_true]
    obtain ⟨-, hunmoved⟩ | ⟨hkept, -⟩ := h.desk.perform_ends (option.command id)
    · have hsize := Nat.le_of_eq (congrArg Array.size hunmoved.charged.drafts).symm
      exact ⟨hapart.lost_of_erase hid hsize hunmoved.series, hunmoved.charged⟩
    · exact absurd (hkept.symm.trans hfailed) (by decide)

/-- The same with another draft in the place of one. -/
def withDraft (h : Holding) (id : Nat) (d : Draft) : Holding :=
  { h with desk.bench.drafts := h.desk.bench.drafts.setIfInBounds id d }

/-- Nothing of a draft that the script has no handle of is in what it can present. -/
theorem results_withDraft (hgiven : id ∉ h.given) (d : Draft) :
    (h.withDraft id d).results = h.results := by
  refine List.map_congr_left fun id' hid' => ?_
  have hne : id ≠ id' := fun heq => hgiven (heq ▸ hid')
  have hdraft : (h.withDraft id d).desk.bench.draft id' = h.desk.bench.draft id' := by
    rw [Workbench.draft, Workbench.draft, Array.getD_eq_getD_getElem?, Array.getD_eq_getD_getElem?,
      withDraft, Array.getElem?_setIfInBounds_ne hne]
  rw [hdraft]

end Holding

end LedgerReports
