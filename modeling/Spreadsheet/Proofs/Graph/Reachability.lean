import Mathlib.Logic.Relation
import Spreadsheet.Graph.Search

/-! # What a search meets

`Leads next x y`: a path goes from `x` to `y`. A search that starts from pending nodes meets the nodes
to which a path through unmet nodes leads, each once. On a set of nodes that no edge leaves these are
all nodes to which any path leads. -/

namespace Spreadsheet.Graph
open Relation

/-! ### Paths -/

section Paths
variable {α : Type} {next : α → List α}

/-- A path goes from the first node to the second. -/
def Leads (next : α → List α) : α → α → Prop :=
  ReflTransGen fun x y => y ∈ next x

/-- Two nodes on a common cycle, or the same node twice. -/
def Mutual (next : α → List α) (x y : α) : Prop :=
  Leads next x y ∧ Leads next y x

/-- No edge goes out of the nodes that satisfy `p`. -/
def Closed (next : α → List α) (p : α → Prop) : Prop :=
  ∀ x, p x → ∀ y ∈ next x, p y

theorem Leads.refl (x : α) : Leads next x x := ReflTransGen.refl

theorem Leads.single {x y : α} (h : y ∈ next x) : Leads next x y := ReflTransGen.single h

theorem Leads.trans {x y z : α} (h : Leads next x y) (k : Leads next y z) : Leads next x z :=
  ReflTransGen.trans h k

theorem Leads.head {x y z : α} (h : y ∈ next x) (k : Leads next y z) : Leads next x z :=
  ReflTransGen.head h k

theorem Leads.tail {x y z : α} (h : Leads next x y) (k : z ∈ next y) : Leads next x z :=
  ReflTransGen.tail h k

theorem Mutual.refl (x : α) : Mutual next x x := ⟨.refl x, .refl x⟩

theorem Mutual.symm {x y : α} (h : Mutual next x y) : Mutual next y x := ⟨h.2, h.1⟩

theorem Mutual.trans {x y z : α} (h : Mutual next x y) (k : Mutual next y z) : Mutual next x z :=
  ⟨h.1.trans k.1, k.2.trans h.2⟩

theorem Closed.of_leads {p : α → Prop} (h : Closed next p) {x y : α} (hx : p x) (hl : Leads next x y) : p y := by
  induction hl with
  | refl => exact hx
  | tail _ hedge ih => exact h _ ih _ hedge

/-- A path that starts in a closed set runs in any graph that agrees with the first one there. -/
theorem Leads.congr {other : α → List α} {p : α → Prop} (hp : Closed next p)
    (hagree : ∀ x, p x → ∀ y, y ∈ next x → y ∈ other x) {x y : α} (hx : p x) (hl : Leads next x y) :
    Leads other x y := by
  induction hl with
  | refl => exact .refl x
  | tail hab hedge ih => exact ih.tail (hagree _ (hp.of_leads hx hab) _ hedge)

/-- A path that starts where the edges of one relation are those of another, and do not lead away, is a path
    of the other. -/
theorem transGen_congr {r s : α → α → Prop} {p : α → Prop} (hp : ∀ x, p x → ∀ y, r x y → s x y ∧ p y) {x y : α}
    (hx : p x) (h : TransGen r x y) : TransGen s x y := by
  suffices hboth : TransGen s x y ∧ p y from hboth.1
  induction h with
  | single hedge =>
    obtain ⟨hs, hy⟩ := hp _ hx _ hedge
    exact ⟨.single hs, hy⟩
  | tail _ hedge ih =>
    obtain ⟨hs, hy⟩ := hp _ ih.2 _ hedge
    exact ⟨ih.1.tail hs, hy⟩

end Paths

/-! ### Searches -/

variable {α : Type} [Ord α] [Std.TransOrd α] {next : α → List α}

/-- A path whose nodes after the first are in `nodes`. -/
def LeadsWithin (next : α → List α) (nodes : Std.ExtTreeSet α) : α → α → Prop :=
  ReflTransGen fun x y => y ∈ next x ∧ y ∈ nodes

theorem LeadsWithin.mem {nodes : Std.ExtTreeSet α} {x y : α} (hx : x ∈ nodes) (h : LeadsWithin next nodes x y) :
    y ∈ nodes := by
  cases h with
  | refl => exact hx
  | tail _ hedge => exact hedge.2

theorem LeadsWithin.mono {nodes more : Std.ExtTreeSet α} (hsub : ∀ x ∈ nodes, x ∈ more) {x y : α}
    (h : LeadsWithin next nodes x y) : LeadsWithin next more x y := by
  induction h with
  | refl => exact .refl
  | tail _ hedge ih => exact ih.tail ⟨hedge.1, hsub _ hedge.2⟩

theorem leadsWithin_iff {nodes : Std.ExtTreeSet α} (hc : Closed next (· ∈ nodes)) {x y : α} (hx : x ∈ nodes) :
    LeadsWithin next nodes x y ↔ Leads next x y := by
  constructor
  · intro h
    induction h with
    | refl => exact .refl x
    | tail _ hedge ih => exact ih.tail hedge.1
  · intro h
    induction h with
    | refl => exact .refl
    | tail hab hedge ih => exact ih.tail ⟨hedge, hc _ (hc.of_leads hx hab) _ hedge⟩

variable [Std.LawfulEqOrd α]

theorem mem_erase_iff {nodes : Std.ExtTreeSet α} {x y : α} : y ∈ nodes.erase x ↔ y ≠ x ∧ y ∈ nodes := by
  rw [Std.ExtTreeSet.mem_erase, ne_eq, Std.compare_eq_iff_eq, eq_comm]

theorem mem_ofList_iff {nodes : List α} {x : α} : x ∈ Std.ExtTreeSet.ofList nodes ↔ x ∈ nodes := by
  classical
  let _ : BEq α := instBEqOfDecidableEq
  rw [Std.ExtTreeSet.mem_ofList, List.contains_iff_mem]

/-- A path either avoids `x` after its first node, or ends in `x`, or goes on from a successor of `x`
    and avoids `x` from there. -/
theorem LeadsWithin.avoid {nodes : Std.ExtTreeSet α} {x s y : α} (h : LeadsWithin next nodes s y) :
    LeadsWithin next (nodes.erase x) s y ∨ y = x ∨
      ∃ z ∈ next x, z ∈ nodes.erase x ∧ LeadsWithin next (nodes.erase x) z y := by
  induction h with
  | refl => exact Or.inl .refl
  | @tail a b _ hedge ih =>
    by_cases hb : b = x
    · exact Or.inr (Or.inl hb)
    have hmem : b ∈ nodes.erase x := mem_erase_iff.mpr ⟨hb, hedge.2⟩
    rcases ih with ih | rfl | ⟨z, hz, hzm, ih⟩
    · exact Or.inl (ih.tail ⟨hedge.1, hmem⟩)
    · exact Or.inr (Or.inr ⟨b, hedge.1, hmem, .refl⟩)
    · exact Or.inr (Or.inr ⟨z, hz, hzm, ih.tail ⟨hedge.1, hmem⟩⟩)

/-- What a search collects: the nodes on paths from pending nodes through unmet ones. -/
theorem mem_reach {unmet : Std.ExtTreeSet α} {pending : List α} {y : α} :
    y ∈ reach next unmet pending ↔ ∃ s ∈ pending, s ∈ unmet ∧ LeadsWithin next unmet s y := by
  fun_induction reach next unmet pending with
  | case1 => simp
  | case2 unmet x pending hx ih =>
    rw [List.mem_cons, ih]
    constructor
    · rintro (rfl | ⟨s, hs, hsm, hl⟩)
      · exact ⟨y, List.mem_cons_self, hx, .refl⟩
      · have hsm' := (mem_erase_iff.mp hsm).2
        have hl' : LeadsWithin next unmet s y := hl.mono fun z hz => (mem_erase_iff.mp hz).2
        rcases List.mem_append.mp hs with hs | hs
        · exact ⟨x, List.mem_cons_self, hx, .head ⟨hs, hsm'⟩ hl'⟩
        · exact ⟨s, List.mem_cons_of_mem _ hs, hsm', hl'⟩
    · rintro ⟨s, hs, hsm, hl⟩
      -- What a path meets after its last visit of `x` is found by the search that goes on without `x`.
      have later : (∃ z ∈ next x, z ∈ unmet.erase x ∧ LeadsWithin next (unmet.erase x) z y) →
          ∃ s ∈ next x ++ pending, s ∈ unmet.erase x ∧ LeadsWithin next (unmet.erase x) s y :=
        fun ⟨z, hz, hzm, hzy⟩ => ⟨z, List.mem_append_left _ hz, hzm, hzy⟩
      rcases hl.avoid (x := x) with hl | rfl | hl
      · by_cases hsx : s = x
        · subst hsx
          rcases ReflTransGen.cases_head hl with rfl | ⟨z, hz, hzy⟩
          · exact Or.inl rfl
          · exact Or.inr (later ⟨z, hz.1, hz.2, hzy⟩)
        · have hs' := (List.mem_cons.mp hs).resolve_left hsx
          exact Or.inr ⟨s, List.mem_append_right _ hs', mem_erase_iff.mpr ⟨hsx, hsm⟩, hl⟩
      · exact Or.inl rfl
      · exact Or.inr (later hl)
  | case3 unmet x pending hx ih =>
    rw [ih]
    constructor
    · rintro ⟨s, hs, h⟩
      exact ⟨s, List.mem_cons_of_mem _ hs, h⟩
    · rintro ⟨s, hs, hsm, hl⟩
      rcases List.mem_cons.mp hs with rfl | hs
      · exact absurd hsm hx
      · exact ⟨s, hs, hsm, hl⟩

theorem mem_unmet_of_mem_reach {unmet : Std.ExtTreeSet α} {pending : List α} {y : α}
    (h : y ∈ reach next unmet pending) : y ∈ unmet := by
  obtain ⟨s, -, hs, hl⟩ := mem_reach.mp h
  exact hl.mem hs

/-- A search on a closed set of nodes meets all that its pending nodes lead to. -/
theorem mem_reach_of_closed {unmet : Std.ExtTreeSet α} (hc : Closed next (· ∈ unmet)) {pending : List α}
    (hp : ∀ s ∈ pending, s ∈ unmet) {y : α} : y ∈ reach next unmet pending ↔ ∃ s ∈ pending, Leads next s y := by
  rw [mem_reach]
  constructor
  · rintro ⟨s, hs, hsm, hl⟩
    exact ⟨s, hs, (leadsWithin_iff hc hsm).mp hl⟩
  · rintro ⟨s, hs, hl⟩
    exact ⟨s, hs, hp s hs, (leadsWithin_iff hc (hp s hs)).mpr hl⟩

theorem reach_nodup (next : α → List α) (unmet : Std.ExtTreeSet α) (pending : List α) :
    (reach next unmet pending).Nodup := by
  fun_induction reach next unmet pending with
  | case1 => exact List.nodup_nil
  | case2 unmet x pending hx ih =>
    refine List.nodup_cons.mpr ⟨fun hmem => ?_, ih⟩
    exact (mem_erase_iff.mp (mem_unmet_of_mem_reach hmem)).1 rfl
  | case3 unmet x pending hx ih => exact ih

end Spreadsheet.Graph
