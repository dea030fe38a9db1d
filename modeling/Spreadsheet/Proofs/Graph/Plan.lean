import Mathlib.Data.Fintype.EquivFin
import Mathlib.Data.List.Nodup
import Spreadsheet.Proofs.Graph.Components
import Spreadsheet.Proofs.Graph.Dependencies

/-! # Recalculation plans

A plan takes the strongly connected components of the affected cells in turn (`Schedule`). It holds each
affected cell once, a cell after what it reads unless both are on one cycle, and its cycles are the
components with a path from a cell back to itself. It does not depend on the order or repetition of the
changed cells. -/

namespace Spreadsheet
open Relation Spreadsheet.Graph

namespace Dependencies
variable {d : Dependencies} {changed : List Location}

/-! ### Affected cells -/

/-- The least set of cells that holds the changed ones and, with a cell, all that read it. -/
inductive Affected (d : Dependencies) (changed : List Location) : Location → Prop where
  | changed {l : Location} (h : l ∈ changed) : Affected d changed l
  | dependent {l m : Location} (h : Affected d changed l) (hm : m ∈ d.dependents l) : Affected d changed m

theorem affected_iff {l : Location} : Affected d changed l ↔ ∃ s ∈ changed, Leads d.dependents s l := by
  constructor
  · intro h
    induction h with
    | changed hl => exact ⟨_, hl, .refl _⟩
    | dependent _ hm ih =>
      obtain ⟨s, hs, hl⟩ := ih
      exact ⟨s, hs, hl.tail hm⟩
  · rintro ⟨s, hs, hl⟩
    induction hl with
    | refl => exact .changed hs
    | tail _ hedge ih => exact .dependent ih hedge

theorem Coherent.affected_iff_reads (h : d.Coherent) {l : Location} :
    Affected d changed l ↔ ∃ s ∈ changed, ReflTransGen d.Reads l s := by
  simp only [affected_iff, h.leads_iff]

theorem Coherent.mem_affected (h : d.Coherent) {l : Location} :
    l ∈ d.affected changed ↔ Affected d changed l := by
  have hc : Closed d.dependents (· ∈ Std.ExtTreeSet.ofList (changed ++ d.readers)) := fun x _ y hy =>
    mem_ofList_iff.mpr (List.mem_append_right _ (mem_readers_of_reads (h.mem_dependents.mp hy)))
  rw [affected, mem_sorted, affected_iff,
    mem_reach_of_closed hc fun s hs => mem_ofList_iff.mpr (List.mem_append_left _ hs)]

/-- Only which cells changed counts, not in which order and how often they are listed. -/
theorem Coherent.affected_congr (h : d.Coherent) {others : List Location} (heq : ∀ l, l ∈ changed ↔ l ∈ others) :
    d.affected changed = d.affected others := by
  have hsorted : ∀ cells : List Location, d.affected cells = sorted (d.affected cells) := fun cells =>
    sorted_congr fun l => mem_sorted.symm
  rw [hsorted changed, hsorted others]
  refine sorted_congr fun l => ?_
  rw [h.mem_affected, h.mem_affected, affected_iff, affected_iff]
  simp only [heq]

theorem Coherent.closed_affected (h : d.Coherent) : Closed d.dependents (· ∈ d.affected changed) := fun _ hx _ hy =>
  h.mem_affected.mpr (.dependent (h.mem_affected.mp hx) hy)

/-! ### Cycles -/

/-- A cell that reads itself through others is on a cycle with the last of them. -/
theorem Coherent.onCycle_iff (h : d.Coherent) {l : Location} :
    d.OnCycle l ↔ ∃ m ∈ d.dependents l, Leads d.dependents m l := by
  rw [OnCycle, TransGen.tail'_iff]
  constructor
  · rintro ⟨m, hlm, hml⟩
    exact ⟨m, h.mem_dependents.mpr hml, h.leads_iff.mpr hlm⟩
  · rintro ⟨m, hm, hl⟩
    exact ⟨m, h.leads_iff.mp hl, h.mem_dependents.mp hm⟩

theorem Coherent.hasCycle_iff (h : d.Coherent) {l : Location} : d.HasCycle l ↔ d.OnCycle l := by
  have hmem : ∀ x, ∀ y ∈ d.dependents x, y ∈ Std.ExtTreeSet.ofList d.readers := fun x y hy =>
    mem_ofList_iff.mpr (mem_readers_of_reads (h.mem_dependents.mp hy))
  rw [HasCycle, mem_reach_of_closed (fun x _ y hy => hmem x y hy) fun s hs => hmem l s hs, h.onCycle_iff]

theorem Coherent.onCycle_of_mutual (h : d.Coherent) {l m : Location} (hm : Mutual d.dependents l m) (hne : l ≠ m) :
    d.OnCycle l := by
  rcases ReflTransGen.cases_head hm.1 with heq | ⟨s, hs, hsm⟩
  · exact absurd heq hne
  · exact h.onCycle_iff.mpr ⟨s, hs, Leads.trans hsm hm.2⟩

/-- What holds of a cell on no cycle once it holds of all such cells that it reads holds of every one. -/
theorem acyclic_induction {motive : Location → Prop}
    (hstep : ∀ l, ¬d.OnCycle l → (∀ m, d.Reads l m → ¬d.OnCycle m → motive m) → motive l) {l : Location}
    (hl : ¬d.OnCycle l) : motive l := by
  -- Of the finitely many cells that read anything, each one that is on no cycle comes after those it reads.
  have hwf : WellFounded fun x y : { x // x ∈ d.readers } => ¬d.OnCycle x.1 ∧ TransGen d.Reads y.1 x.1 := by
    have : IsTrans { x // x ∈ d.readers } fun x y => ¬d.OnCycle x.1 ∧ TransGen d.Reads y.1 x.1 :=
      ⟨fun _ _ _ hxy hyz => ⟨hxy.1, hyz.2.trans hxy.2⟩⟩
    have : Std.Irrefl fun x y : { x // x ∈ d.readers } => ¬d.OnCycle x.1 ∧ TransGen d.Reads y.1 x.1 :=
      ⟨fun _ hx => hx.1 hx.2⟩
    exact Finite.wellFounded_of_trans_of_irrefl _
  have hidle : ∀ m, m ∉ d.readers → ¬d.OnCycle m → motive m := fun m hm hno =>
    hstep m hno fun _ hr _ => absurd (mem_readers_of_reads hr) hm
  have hreader : ∀ x : { x // x ∈ d.readers }, ¬d.OnCycle x.1 → motive x.1 := by
    intro x
    induction x using hwf.induction with
    | _ x ih =>
      intro hx
      refine hstep x.1 hx fun m hr hm => ?_
      by_cases hmem : m ∈ d.readers
      · exact ih ⟨m, hmem⟩ ⟨hm, .single hr⟩ hm
      · exact hidle m hmem hm
  by_cases hmem : l ∈ d.readers
  · exact hreader ⟨l, hmem⟩ hl
  · exact hidle l hmem hl

/-- A change of precedents makes and breaks no cycles but those of affected cells. -/
theorem Coherent.onCycle_congr {f : Dependencies} (h : f.Coherent)
    (hsame : ∀ l, l ∉ changed → f.precedents l = d.precedents l) {l : Location} (hl : ¬f.Affected changed l) :
    f.OnCycle l ↔ d.OnCycle l := by
  have hreads : ∀ x, ¬f.Affected changed x → ∀ y, f.Reads x y ↔ d.Reads x y := fun x hx y => by
    rw [Reads, Reads, hsame x fun hmem => hx (.changed hmem)]
  have hstep : ∀ x, ¬f.Affected changed x → ∀ y, f.Reads x y → ¬f.Affected changed y := fun x hx y hr hy =>
    hx (.dependent hy (h.mem_dependents.mpr hr))
  constructor
  · exact transGen_congr (p := fun x => ¬f.Affected changed x)
      (fun x hx y hr => ⟨(hreads x hx y).mp hr, hstep x hx y hr⟩) hl
  · refine transGen_congr (p := fun x => ¬f.Affected changed x) (fun x hx y hr => ?_) hl
    have hr' := (hreads x hx y).mpr hr
    exact ⟨hr', hstep x hx y hr'⟩

/-! ### Steps -/

theorem getD_dependentsOf {cells : List Location} {l : Location} :
    (d.dependentsOf cells).getD l [] = if l ∈ cells then d.dependents l else [] := by
  suffices h : ∀ (cells : List Location) (found : Std.ExtTreeMap Location (List Location)),
      (cells.foldl (fun found l => found.insert l (d.dependents l)) found).getD l [] =
        if l ∈ cells then d.dependents l else found.getD l [] by
    rw [dependentsOf, h]
    simp
  intro cells
  induction cells with
  | nil => simp
  | cons x cells ih =>
    intro found
    rw [List.foldl_cons, ih, Std.ExtTreeMap.getD_insert]
    by_cases hl : l ∈ cells
    · simp [hl]
    · by_cases hx : x = l <;> simp [hl, hx, eq_comm (a := l)]

theorem mem_stepOf {next : Location → List Location} {g : List Location} {l : Location} :
    l ∈ (stepOf next g).cells ↔ l ∈ g := by
  unfold stepOf
  split
  · split <;> rfl
  · exact mem_sorted

theorem pairwise_stepOf (next : Location → List Location) (g : List Location) :
    (stepOf next g).cells.Pairwise fun a b => compare a b = .lt := by
  unfold stepOf
  split
  · split <;> exact List.pairwise_singleton ..
  · exact pairwise_sorted g

theorem eq_singleton_of_stepOf {next : Location → List Location} {g : List Location} {l : Location}
    (h : stepOf next g = .cell l) : g = [l] ∧ l ∉ next l := by
  unfold stepOf at h
  split at h
  · split at h
    · cases h
    · rename_i hno
      cases h
      exact ⟨rfl, hno⟩
  · cases h

theorem cyclic_of_stepOf {next : Location → List Location} {g cells : List Location} (hne : g ≠ [])
    (hnodup : g.Nodup) (h : stepOf next g = .cycle cells) :
    (∃ l, g = [l] ∧ l ∈ next l) ∨ ∀ l, ∃ m ∈ g, m ≠ l := by
  unfold stepOf at h
  split at h
  · rename_i l
    split at h
    · exact Or.inl ⟨l, rfl, ‹_›⟩
    · cases h
  · rename_i hno
    refine Or.inr fun l => ?_
    match g, hne, hno, hnodup with
    | [a], _, hno, _ => exact absurd rfl (hno a)
    | a :: b :: _, _, _, hnodup =>
      by_cases ha : a = l
      · refine ⟨b, by simp, fun hb => ?_⟩
        exact (List.nodup_cons.mp hnodup).1 (by simp [ha, hb])
      · exact ⟨a, by simp, ha⟩

/-! ### Schedules -/

/-- No two steps have a common cell, no step reads a cell of a later one, and the cycles are the steps whose
    cells read themselves. -/
structure Sequence (d : Dependencies) (steps : List Step) : Prop where
  acyclic : ∀ l, .cell l ∈ steps → ¬d.OnCycle l
  cyclic : ∀ cells, .cycle cells ∈ steps → ∀ l ∈ cells, d.OnCycle l
  disjoint : steps.Pairwise fun s t => s.cells.Disjoint t.cells
  ordered : steps.Pairwise fun s t => ∀ x ∈ s.cells, ∀ y ∈ t.cells, ¬d.Reads x y

/-- What remains after the first step is a sequence too. -/
theorem Sequence.tail {s : Step} {steps : List Step} (h : d.Sequence (s :: steps)) : d.Sequence steps where
  acyclic l hl := h.acyclic l (List.mem_cons_of_mem s hl)
  cyclic cells hc := h.cyclic cells (List.mem_cons_of_mem s hc)
  disjoint := h.disjoint.of_cons
  ordered := h.ordered.of_cons

/-- The steps are the components of the affected cells, each in order. -/
structure Schedule (d : Dependencies) (changed : List Location) (steps : List Step) : Prop extends
    Sequence d steps where
  mem : ∀ l, (∃ s ∈ steps, l ∈ s.cells) ↔ Affected d changed l
  nonempty : ∀ s ∈ steps, s.cells ≠ []
  sorted : ∀ s ∈ steps, s.cells.Pairwise fun a b => compare a b = .lt
  joined : ∀ s ∈ steps, ∀ x ∈ s.cells, ∀ y, y ∈ s.cells ↔ Mutual d.dependents x y

theorem Coherent.schedule (h : d.Coherent) (changed : List Location) :
    d.Schedule changed (d.plan changed).steps := by
  -- The successors looked up are the dependents, on the affected cells.
  obtain ⟨next, hnext, hsteps⟩ : ∃ next : Location → List Location,
      (∀ l ∈ d.affected changed, next l = d.dependents l) ∧
        (d.plan changed).steps = (components next (d.affected changed)).map (stepOf next) :=
    ⟨fun l => (d.dependentsOf (d.affected changed)).getD l [], fun l hl => getD_dependentsOf.trans (if_pos hl), rfl⟩
  have hdep : Closed d.dependents (· ∈ d.affected changed) := h.closed_affected
  have hclosed : Closed next (· ∈ d.affected changed) := fun x hx y hy => hdep x hx y (hnext x hx ▸ hy)
  have hc := components_condensation hclosed
  have hleads : ∀ x ∈ d.affected changed, ∀ y, Leads next x y ↔ Leads d.dependents x y := fun x hx y =>
    ⟨Leads.congr hclosed (fun l hl m hm => hnext l hl ▸ hm) hx, Leads.congr hdep (fun l hl m hm => (hnext l hl).symm ▸ hm) hx⟩
  have haff : ∀ g ∈ components next (d.affected changed), ∀ x ∈ g, x ∈ d.affected changed := fun g hg x hx =>
    (hc.mem x).mp (List.mem_flatten_of_mem hg hx)
  have hjoined : ∀ g ∈ components next (d.affected changed), ∀ x ∈ g, ∀ y, y ∈ g ↔ Mutual d.dependents x y := by
    intro g hg x hx y
    rw [hc.joined g hg x hx y]
    constructor
    · intro hm
      have hy := hclosed.of_leads (haff g hg x hx) hm.1
      exact ⟨(hleads x (haff g hg x hx) y).mp hm.1, (hleads y hy x).mp hm.2⟩
    · intro hm
      have hy := hdep.of_leads (haff g hg x hx) hm.1
      exact ⟨(hleads x (haff g hg x hx) y).mpr hm.1, (hleads y hy x).mpr hm.2⟩
  have hnodup : ∀ g ∈ components next (d.affected changed), g.Nodup := fun g hg =>
    (List.nodup_flatten.mp hc.nodup).1 g hg
  rw [hsteps]
  constructor
  case toSequence =>
    constructor
    case acyclic =>
      intro l hl hcyc
      obtain ⟨g, hg, hstep⟩ := List.mem_map.mp hl
      obtain ⟨rfl, hno⟩ := eq_singleton_of_stepOf hstep
      obtain ⟨m, hm, hml⟩ := h.onCycle_iff.mp hcyc
      have hmem := (hjoined _ hg l (List.mem_singleton_self l) m).mpr ⟨.single hm, hml⟩
      obtain rfl := List.mem_singleton.mp hmem
      exact hno ((hnext m (haff _ hg m (List.mem_singleton_self m))).symm ▸ hm)
    case cyclic =>
      intro cells hcells l hl
      obtain ⟨g, hg, hstep⟩ := List.mem_map.mp hcells
      have hlg : l ∈ g := mem_stepOf.mp (hstep ▸ hl : l ∈ (stepOf next g).cells)
      rcases cyclic_of_stepOf (hc.nonempty g hg) (hnodup g hg) hstep with ⟨m, rfl, hself⟩ | hmany
      · obtain rfl := List.mem_singleton.mp hlg
        exact h.onCycle_iff.mpr ⟨l, hnext l (haff _ hg l hlg) ▸ hself, .refl l⟩
      · obtain ⟨m, hm, hne⟩ := hmany l
        exact h.onCycle_of_mutual ((hjoined g hg l hlg m).mp hm) hne.symm
    case disjoint =>
      rw [List.pairwise_map]
      refine (List.nodup_flatten.mp hc.nodup).2.imp fun hdis x hx hy => ?_
      exact hdis (mem_stepOf.mp hx) (mem_stepOf.mp hy)
    case ordered =>
      rw [List.pairwise_map]
      refine hc.ordered.imp_of_mem fun hg hr hord x hx y hy hreads => ?_
      rw [mem_stepOf] at hx hy
      exact hord x hx y hy ((hleads y (haff _ hr y hy) x).mpr (.single (h.mem_dependents.mpr hreads)))
  case mem =>
    intro l
    rw [← h.mem_affected, ← hc.mem, List.mem_flatten]
    simp only [List.mem_map, exists_exists_and_eq_and, mem_stepOf]
  case nonempty =>
    refine List.forall_mem_map.mpr fun g hg hnil => ?_
    obtain ⟨x, hx⟩ := List.exists_mem_of_ne_nil g (hc.nonempty g hg)
    have hmem : x ∈ (stepOf next g).cells := mem_stepOf.mpr hx
    simp [hnil] at hmem
  case sorted => exact List.forall_mem_map.mpr fun g _ => pairwise_stepOf next g
  case joined =>
    refine List.forall_mem_map.mpr fun g hg x hx y => ?_
    rw [mem_stepOf, hjoined g hg x (mem_stepOf.mp hx)]

/-! ### The plan -/

section Order
variable {p : Plan}

theorem Schedule.mem_order (hs : d.Schedule changed p.steps) {l : Location} : l ∈ p.order ↔ Affected d changed l :=
  List.mem_flatMap.trans (hs.mem l)

theorem Schedule.nodup_order (hs : d.Schedule changed p.steps) : p.order.Nodup :=
  List.nodup_flatMap.mpr ⟨fun s hmem => nodup_of_pairwise_lt (hs.sorted s hmem), hs.disjoint⟩

theorem idxOf_lt_idxOf_of_append {a b : List Location} {x y : Location} (hn : (a ++ b).Nodup) (hx : x ∈ a)
    (hy : y ∈ b) : (a ++ b).idxOf x < (a ++ b).idxOf y := by
  have hya : y ∉ a := fun hmem => (List.nodup_append.mp hn).2.2 y hmem y hy rfl
  rw [List.idxOf_append_of_mem hx, List.idxOf_append_of_notMem hya]
  have := List.idxOf_lt_length_iff.mpr hx
  omega

/-- What a cell reads comes before it, unless both are on one cycle of the plan. -/
theorem Schedule.idxOf_lt (hs : d.Schedule changed p.steps) {x y : Location} (hx : x ∈ p.order) (hy : y ∈ p.order)
    (hr : d.Reads y x) : p.order.idxOf x < p.order.idxOf y ∨ ∃ g, .cycle g ∈ p.steps ∧ x ∈ g ∧ y ∈ g := by
  obtain ⟨s, hsm, hxs⟩ := List.mem_flatMap.mp hx
  obtain ⟨t, htm, hyt⟩ := List.mem_flatMap.mp hy
  obtain ⟨before, later, heq⟩ := List.append_of_mem hsm
  have hord := hs.ordered
  rw [heq] at htm hord
  rcases List.mem_append.mp htm with ht | ht
  · exact absurd hr ((List.pairwise_append.mp hord).2.2 t ht s List.mem_cons_self y hyt x hxs)
  rcases List.mem_cons.mp ht with rfl | ht
  · cases t with
    | cell l =>
      obtain rfl := List.mem_singleton.mp hxs
      obtain rfl := List.mem_singleton.mp hyt
      exact absurd (TransGen.single hr) (hs.acyclic _ hsm)
    | cycle g => exact Or.inr ⟨g, hsm, hxs, hyt⟩
  · left
    have horder : p.order = (before.flatMap Step.cells ++ s.cells) ++ later.flatMap Step.cells := by
      simp [Plan.order, heq]
    have hnodup := hs.nodup_order
    rw [horder] at hnodup ⊢
    exact idxOf_lt_idxOf_of_append hnodup (List.mem_append_right _ hxs) (List.mem_flatMap.mpr ⟨t, ht, hyt⟩)

theorem mem_cycles {g : List Location} : g ∈ p.cycles ↔ .cycle g ∈ p.steps := by
  rw [Plan.cycles, List.mem_filterMap]
  constructor
  · rintro ⟨s, hs, heq⟩
    cases s with
    | cell l => cases heq
    | cycle cells =>
      cases heq
      exact hs
  · exact fun h => ⟨_, h, rfl⟩

theorem Schedule.isCircular_iff (hs : d.Schedule changed p.steps) {l : Location} (hl : l ∈ p.order) :
    p.IsCircular l ↔ d.OnCycle l := by
  constructor
  · rintro ⟨g, hg, hlg⟩
    exact hs.cyclic g (mem_cycles.mp hg) l hlg
  · intro hcyc
    obtain ⟨s, hsm, hls⟩ := List.mem_flatMap.mp hl
    cases s with
    | cell m =>
      obtain rfl := List.mem_singleton.mp hls
      exact absurd hcyc (hs.acyclic _ hsm)
    | cycle g => exact ⟨g, mem_cycles.mpr hsm, hls⟩

theorem Schedule.infix_order {g : List Location} (hg : .cycle g ∈ p.steps) : g <:+: p.order := by
  obtain ⟨before, later, heq⟩ := List.append_of_mem hg
  exact ⟨before.flatMap Step.cells, later.flatMap Step.cells, by simp [Plan.order, heq, Step.cells]⟩

theorem Schedule.disjoint_cycles (hs : d.Schedule changed p.steps) : p.cycles.Pairwise List.Disjoint := by
  rw [Plan.cycles, List.pairwise_filterMap]
  refine hs.disjoint.imp fun {s t} hdis g hg r hr => ?_
  cases s <;> cases t <;> cases hg <;> cases hr
  exact hdis

end Order

/-! ### Cyclic groups -/

/-- The dependents of a cell among the given cells. -/
def dependentsAmong (d : Dependencies) (cells : List Location) (l : Location) : List Location :=
  (d.dependents l).filter (· ∈ cells)

/-- A strongly connected group of the graph on the given cells, listed in order, that has several members or
    one that reads itself. -/
structure CyclicGroup (d : Dependencies) (cells group : List Location) : Prop where
  sorted : group.Pairwise fun a b => compare a b = .lt
  joined : ∃ x ∈ cells, ∀ y, y ∈ group ↔ y ∈ cells ∧ Mutual (d.dependentsAmong cells) x y
  cyclic : 1 < group.length ∨ ∃ x ∈ group, d.Reads x x

/-- Paths among the affected cells are all paths from one of them. -/
theorem Coherent.leads_among (h : d.Coherent) {x y : Location} (hx : x ∈ d.affected changed) :
    Leads (d.dependentsAmong (d.affected changed)) x y ↔ Leads d.dependents x y := by
  have hdep : Closed d.dependents (· ∈ d.affected changed) := h.closed_affected
  have hsub : ∀ l m, m ∈ d.dependentsAmong (d.affected changed) l → m ∈ d.dependents l := fun l m hm =>
    (List.mem_filter.mp hm).1
  constructor
  · exact Leads.congr (p := (· ∈ d.affected changed)) (fun l hl m hm => hdep l hl m (hsub l m hm))
      (fun l _ m hm => hsub l m hm) hx
  · exact Leads.congr hdep (fun l hl m hm => List.mem_filter.mpr ⟨hm, decide_eq_true (hdep l hl m hm)⟩) hx

theorem Coherent.mutual_among (h : d.Coherent) {x y : Location} (hx : x ∈ d.affected changed) :
    y ∈ d.affected changed ∧ Mutual (d.dependentsAmong (d.affected changed)) x y ↔ Mutual d.dependents x y := by
  constructor
  · rintro ⟨hy, hm⟩
    exact ⟨(h.leads_among hx).mp hm.1, (h.leads_among hy).mp hm.2⟩
  · intro hm
    have hy := h.closed_affected.of_leads hx hm.1
    exact ⟨hy, (h.leads_among hx).mpr hm.1, (h.leads_among hy).mpr hm.2⟩

/-- The cycles of a schedule are the cyclic groups of the affected cells. -/
theorem Schedule.mem_cycles_iff {p : Plan} (h : d.Coherent) (hs : d.Schedule changed p.steps) {g : List Location} :
    g ∈ p.cycles ↔ d.CyclicGroup (d.affected changed) g := by
  rw [mem_cycles]
  have haff : ∀ s ∈ p.steps, ∀ x ∈ s.cells, x ∈ d.affected changed := fun s hsm x hx =>
    h.mem_affected.mpr ((hs.mem x).mp ⟨s, hsm, hx⟩)
  constructor
  · intro hg
    obtain ⟨x, hx⟩ := List.exists_mem_of_ne_nil g (hs.nonempty _ hg)
    refine ⟨hs.sorted _ hg, ⟨x, haff _ hg x hx, fun y => ?_⟩, ?_⟩
    · rw [h.mutual_among (haff _ hg x hx)]
      exact hs.joined _ hg x hx y
    · by_cases hlen : 1 < g.length
      · exact Or.inl hlen
      · obtain ⟨l, rfl⟩ : ∃ l, g = [l] := List.length_eq_one_iff.mp (by have := List.length_pos_of_mem hx; omega)
        obtain rfl := List.mem_singleton.mp hx
        obtain ⟨m, hm, hml⟩ := h.onCycle_iff.mp (hs.cyclic _ hg x hx)
        have hmx := (hs.joined _ hg x hx m).mpr ⟨.single hm, hml⟩
        obtain rfl := List.mem_singleton.mp hmx
        exact Or.inr ⟨m, hx, h.mem_dependents.mp hm⟩
  · rintro ⟨hsorted, ⟨x, hx, hjoined⟩, hcyc⟩
    obtain ⟨s, hsm, hxs⟩ := (hs.mem x).mpr (h.mem_affected.mp hx)
    have heq : s.cells = g := eq_of_pairwise_lt (hs.sorted s hsm) hsorted fun y => by
      rw [hs.joined s hsm x hxs y, hjoined, h.mutual_among hx]
    cases s with
    | cycle cells => exact heq ▸ hsm
    | cell l =>
      obtain rfl : [l] = g := heq
      rcases hcyc with hlen | ⟨m, hm, hself⟩
      · exact absurd hlen (by simp)
      · obtain rfl := List.mem_singleton.mp hm
        exact absurd (TransGen.single hself) (hs.acyclic _ hsm)

/-! ### What a plan is -/

/-- The order of the plan lists the least set of cells that holds the changed ones and their dependents, each
    cell once and after what it reads, unless both are on one cycle. The cycles are the cyclic groups of
    these cells, each without gaps in the order, no two with a common cell. -/
structure Plans (d : Dependencies) (changed : List Location) (p : Plan) : Prop where
  affected : ∀ l, l ∈ d.affected changed ↔ Affected d changed l
  mem_order : ∀ l, l ∈ p.order ↔ l ∈ d.affected changed
  nodup_order : p.order.Nodup
  before : ∀ x ∈ p.order, ∀ y ∈ p.order, d.Reads y x →
    p.order.idxOf x < p.order.idxOf y ∨ ∃ g ∈ p.cycles, x ∈ g ∧ y ∈ g
  mem_cycles : ∀ g, g ∈ p.cycles ↔ d.CyclicGroup (d.affected changed) g
  contiguous : ∀ g ∈ p.cycles, g <:+: p.order
  disjoint : p.cycles.Pairwise List.Disjoint
  circular : ∀ l, p.IsCircular l ↔ ∃ g ∈ p.cycles, l ∈ g

/-- After any changes to the dependencies, the plan for any changed cells is one, and the same for every
    list of these cells. -/
theorem plans_of_changes (changes : List Change) (changed : List Location) :
    (ofChanges changes).Plans changed ((ofChanges changes).plan changed) ∧
      ∀ others : List Location, (∀ l, l ∈ changed ↔ l ∈ others) →
        (ofChanges changes).plan others = (ofChanges changes).plan changed := by
  have h := coherent_ofChanges changes
  have hs := h.schedule changed
  refine ⟨?_, fun others heq => ?_⟩
  · constructor
    case affected => exact fun l => h.mem_affected
    case mem_order => exact fun l => hs.mem_order.trans h.mem_affected.symm
    case nodup_order => exact hs.nodup_order
    case before =>
      intro x hx y hy hr
      rcases hs.idxOf_lt hx hy hr with hlt | ⟨g, hg, hxy⟩
      · exact Or.inl hlt
      · exact Or.inr ⟨g, mem_cycles.mpr hg, hxy⟩
    case mem_cycles => exact fun g => hs.mem_cycles_iff h
    case contiguous => exact fun g hg => Schedule.infix_order (mem_cycles.mp hg)
    case disjoint => exact hs.disjoint_cycles
    case circular => exact fun l => Iff.rfl
  · unfold plan
    rw [h.affected_congr heq]

/-- Two cells that read each other, in another order and with a repetition. -/
theorem plans_of_changes_reordered :
    (ofChanges [.set ⟨0, 0, 0⟩ [.cell ⟨0, 0, 1⟩], .set ⟨0, 0, 1⟩ [.cell ⟨0, 0, 0⟩]]).plan
        [⟨0, 0, 1⟩, ⟨0, 0, 0⟩, ⟨0, 0, 1⟩] =
      (ofChanges [.set ⟨0, 0, 0⟩ [.cell ⟨0, 0, 1⟩], .set ⟨0, 0, 1⟩ [.cell ⟨0, 0, 0⟩]]).plan [⟨0, 0, 0⟩, ⟨0, 0, 1⟩] := by
  refine (plans_of_changes _ _).2 _ fun l => ?_
  simp only [List.mem_cons, List.not_mem_nil, or_false]
  constructor
  · rintro (hl | hl)
    · exact Or.inr (Or.inl hl)
    · exact Or.inl hl
  · rintro (hl | hl | hl)
    · exact Or.inr hl
    · exact Or.inl hl
    · exact Or.inr hl

/-! ### Two ways to find cycles -/

/-- On the cells of a plan both ways to find cycles agree: a cell is among the cycles of the plan exactly if a
    search from the cell alone comes back to it, and that exactly if a chain of reads does. A cell that reads a
    block around itself is on a cycle of its own. -/
theorem isCircular_iff_hasCycle (changes : List Change) (changed : List Location) {l : Location}
    (hl : l ∈ ((ofChanges changes).plan changed).order) :
    (((ofChanges changes).plan changed).IsCircular l ↔ (ofChanges changes).HasCycle l) ∧
      ((ofChanges changes).HasCycle l ↔ TransGen (ofChanges changes).Reads l l) ∧
      ∀ b, .block b ∈ (ofChanges changes).precedents l → b.Contains l →
        ((ofChanges changes).plan changed).IsCircular l := by
  have h := coherent_ofChanges changes
  have hcircular := (h.schedule changed).isCircular_iff hl
  refine ⟨hcircular.trans h.hasCycle_iff.symm, h.hasCycle_iff, fun b hb hcontains => hcircular.mpr ?_⟩
  exact TransGen.single ⟨.block b, hb, hcontains⟩

/-- A cell that reads a block around itself, from a plan that starts elsewhere, and a cell that reads it and is
    on no cycle. -/
theorem isCircular_iff_hasCycle_block :
    let d := ofChanges [.set ⟨0, 0, 0⟩ [.block ⟨0, 0, 0, 1, 1⟩], .set ⟨0, 5, 5⟩ [.cell ⟨0, 0, 0⟩]]
    ((d.plan [⟨0, 1, 1⟩]).IsCircular ⟨0, 0, 0⟩ ∧ d.HasCycle ⟨0, 0, 0⟩) ∧
      ((d.plan [⟨0, 1, 1⟩]).IsCircular ⟨0, 5, 5⟩ ↔ d.HasCycle ⟨0, 5, 5⟩) := by
  intro d
  have h : d.Coherent := coherent_ofChanges _
  have hblock : .block ⟨0, 0, 0, 1, 1⟩ ∈ d.precedents ⟨0, 0, 0⟩ := by
    simp [d, ofChanges, after, precedents_set, mem_distinct]
  have hcell : .cell ⟨0, 0, 0⟩ ∈ d.precedents ⟨0, 5, 5⟩ := by
    simp [d, ofChanges, after, precedents_set, mem_distinct]
  have haffected : d.Affected [⟨0, 1, 1⟩] ⟨0, 0, 0⟩ :=
    .dependent (.changed (List.mem_singleton_self _)) (h.mem_dependents.mpr ⟨_, hblock, by decide⟩)
  have hfirst := (h.schedule _).mem_order.mpr haffected
  have hlast := (h.schedule _).mem_order.mpr (.dependent haffected (h.mem_dependents.mpr ⟨_, hcell, rfl⟩))
  obtain ⟨hagree, -, hcircular⟩ := isCircular_iff_hasCycle _ _ hfirst
  have hmarked := hcircular ⟨0, 0, 0, 1, 1⟩ hblock (by decide)
  exact ⟨⟨hmarked, hagree.mp hmarked⟩, (isCircular_iff_hasCycle _ _ hlast).1⟩

end Dependencies

end Spreadsheet
