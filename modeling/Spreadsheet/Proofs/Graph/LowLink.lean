import Mathlib.Order.Nat
import Spreadsheet.Graph.LowLink
import Spreadsheet.Proofs.Graph.Components

/-! # Strongly connected components by low links: what the search gives

Each node on the path of the search stands on the stack above those that were met before it, and all of these lead to it
(`Layer`). What stands above it, up to the next node of the path, is on a cycle with it. So when a node is left whose
low link is its own number, the stack down to it is a component, and no edge leads from it to what stays on the stack.
A node left with a smaller low link is on a cycle with the one before it on the path. -/

namespace Spreadsheet.Graph

namespace LowLink
open Relation

variable {α : Type} {next : α → List α} {x y u : α} {n i : Nat} {frames : List (α × Nat)}
  {above below followed stack : List α}

theorem popThrough_append [DecidableEq α] (h : x ∉ above) :
    popThrough x (above ++ x :: below) = (above ++ [x], below) := by
  induction above with
  | nil => simp [popThrough]
  | cons y above ih =>
    obtain ⟨hy, habove⟩ := not_or.mp (mt List.mem_cons.mpr h)
    rw [List.cons_append, popThrough, if_neg (Ne.symm hy), ih habove]
    rfl

variable [Ord α] [Std.TransOrd α] {s t : LowLink α}

/-! ### Numbers and low links -/

theorem number_meet_self : (s.meet x).number x = s.nextIndex := by
  simp [meet, number]

theorem lowest_meet_self : (s.meet x).lowest x = s.nextIndex := by
  simp [meet, lowest]

theorem lowest_lower_self : (s.lower x n).lowest x = min (s.lowest x) n := by
  simp [lower, lowest]

theorem index_passUp : (s.passUp x frames).index = s.index := by
  cases frames <;> rfl

theorem stack_passUp : (s.passUp x frames).stack = s.stack := by
  cases frames <;> rfl

theorem groups_passUp : (s.passUp x frames).groups = s.groups := by
  cases frames <;> rfl

theorem getElem?_index (h : x ∈ s.index) : s.index[x]? = some (s.number x) := by
  rw [number, Std.ExtTreeMap.getD_eq_getD_getElem?]
  obtain ⟨n, hn⟩ := Option.isSome_iff_exists.mp (Std.ExtTreeMap.mem_iff_isSome_getElem?.mp h)
  rw [hn, Option.getD_some]

section Lawful
variable [Std.LawfulEqOrd α]

theorem mem_index_meet : y ∈ (s.meet x).index ↔ y = x ∨ y ∈ s.index := by
  rw [meet, Std.ExtTreeMap.mem_insert, Std.compare_eq_iff_eq, eq_comm]

theorem number_meet_of_ne (h : y ≠ x) : (s.meet x).number y = s.number y := by
  have hne : compare x y ≠ .eq := fun heq => h (Std.compare_eq_iff_eq.mp heq).symm
  simp [meet, number, Std.ExtTreeMap.getD_insert, hne]

theorem lowest_meet_of_ne (h : y ≠ x) : (s.meet x).lowest y = s.lowest y := by
  have hne : compare x y ≠ .eq := fun heq => h (Std.compare_eq_iff_eq.mp heq).symm
  simp [meet, lowest, Std.ExtTreeMap.getD_insert, hne]

theorem lowest_lower_of_ne (h : y ≠ x) : (s.lower x n).lowest y = s.lowest y := by
  have hne : compare x y ≠ .eq := fun heq => h (Std.compare_eq_iff_eq.mp heq).symm
  simp [lower, lowest, Std.ExtTreeMap.getD_insert, hne]

theorem lowest_lower_of_le (h : s.lowest x ≤ n) (y : α) : (s.lower x n).lowest y = s.lowest y := by
  by_cases hyx : y = x
  · rw [hyx, lowest_lower_self, Nat.min_eq_left h]
  · exact lowest_lower_of_ne hyx

/-- A node is not lowered below its own low link. -/
theorem lowest_lower_lowest : (s.lower y (s.lowest x)).lowest x = s.lowest x := by
  by_cases hxy : x = y
  · rw [hxy, lowest_lower_self, Nat.min_self]
  · exact lowest_lower_of_ne hxy

end Lawful

/-! ### Layers of the stack -/

/-- What holds of a node on the path, of which the edges to the nodes `followed` have been followed. What stands on the
    stack above it belongs to it, and what stands below it was met before. -/
structure Layer (next : α → List α) (s : LowLink α) (x : α) (followed above below : List α) : Prop where
  lowest_le : s.lowest x ≤ s.number x
  hook : ∃ u ∈ x :: below, s.number u = s.lowest x ∧ Leads next x u
  joined : ∀ y ∈ above, Mutual next x y
  led : ∀ y ∈ below, Leads next y x
  edges : ∀ y ∈ followed ++ above.flatMap next, y ∈ s.index ∧ (y ∈ below → s.lowest x ≤ s.number y)

/-- The stack is that of the nodes on the path, with what belongs to each above it. -/
def Layers (next : α → List α) (s : LowLink α) : List (α × Nat) → List α → Prop
  | [], stack => stack = []
  | (x, i) :: frames, stack => ∃ above below, stack = above ++ x :: below ∧
      Layer next s x ((next x).take i) above below ∧ Layers next s frames below

theorem Layer.congr (h : Layer next s x followed above below) (hx : t.lowest x = s.lowest x)
    (hnumber : ∀ y ∈ x :: below, t.number y = s.number y) (hindex : ∀ y ∈ s.index, y ∈ t.index) :
    Layer next t x followed above below where
  lowest_le := by
    rw [hx, hnumber x List.mem_cons_self]
    exact h.lowest_le
  hook := by
    obtain ⟨u, hu, hlow, hleads⟩ := h.hook
    exact ⟨u, hu, by rw [hnumber u hu, hlow, hx], hleads⟩
  joined := h.joined
  led := h.led
  edges y hy := by
    obtain ⟨hmet, hlow⟩ := h.edges y hy
    refine ⟨hindex y hmet, fun hbelow => ?_⟩
    rw [hx, hnumber y (List.mem_cons_of_mem _ hbelow)]
    exact hlow hbelow

theorem Layers.congr (h : Layers next s frames stack) (hlow : ∀ y ∈ stack, t.lowest y = s.lowest y)
    (hnumber : ∀ y ∈ stack, t.number y = s.number y) (hindex : ∀ y ∈ s.index, y ∈ t.index) :
    Layers next t frames stack := by
  induction frames generalizing stack with
  | nil => exact h
  | cons frame frames ih =>
    obtain ⟨above, below, rfl, hlayer, hlayers⟩ := h
    have hbelow : ∀ y ∈ frame.1 :: below, y ∈ above ++ frame.1 :: below := fun y => List.mem_append_right above
    refine ⟨above, below, rfl, ?_, ih hlayers (fun y hy => ?_) fun y hy => ?_⟩
    · exact hlayer.congr (hlow _ (hbelow _ List.mem_cons_self)) (fun y hy => hnumber y (hbelow y hy)) hindex
    · exact hlow y (hbelow y (List.mem_cons_of_mem _ hy))
    · exact hnumber y (hbelow y (List.mem_cons_of_mem _ hy))

/-- The whole stack leads to the last node of the path. -/
theorem Layer.leads (h : Layer next s x followed above below) (hu : u ∈ above ++ x :: below) : Leads next u x := by
  rcases List.mem_append.mp hu with hu | hu
  · exact (h.joined u hu).2
  · rcases List.mem_cons.mp hu with rfl | hu
    · exact .refl u
    · exact h.led u hu

theorem Layer.advance (h : Layer next s x ((next x).take i) above below) (hy : (next x)[i]? = some y)
    (hmet : y ∈ s.index) (hlow : y ∈ below → s.lowest x ≤ s.number y) :
    Layer next s x ((next x).take (i + 1)) above below where
  lowest_le := h.lowest_le
  hook := h.hook
  joined := h.joined
  led := h.led
  edges z hz := by
    rw [List.take_add_one, hy, Option.toList_some] at hz
    rcases List.mem_append.mp hz with hz | hz
    · rcases List.mem_append.mp hz with hz | hz
      · exact h.edges z (List.mem_append_left _ hz)
      · obtain rfl := List.mem_singleton.mp hz
        exact ⟨hmet, hlow⟩
    · exact h.edges z (List.mem_append_right _ hz)

/-- The low link of a node may be lowered to the number of a node on the stack to which it leads. -/
theorem Layer.lower (h : Layer next s x followed above below) (habove : ∀ y ∈ above, s.number x < s.number y)
    (hu : u ∈ above ++ x :: below) (hleads : Leads next x u) :
    Layer next (s.lower x (s.number u)) x followed above below where
  lowest_le := by
    rw [lowest_lower_self]
    exact (Nat.min_le_left _ _).trans h.lowest_le
  hook := by
    rw [lowest_lower_self]
    rcases Nat.le_total (s.lowest x) (s.number u) with hle | hle
    · rw [Nat.min_eq_left hle]
      exact h.hook
    · rw [Nat.min_eq_right hle]
      rcases List.mem_append.mp hu with hu | hu
      · exact absurd (hle.trans h.lowest_le) (Nat.not_le.mpr (habove u hu))
      · exact ⟨u, hu, rfl, hleads⟩
  joined := h.joined
  led := h.led
  edges y hy := by
    obtain ⟨hmet, hlow⟩ := h.edges y hy
    rw [lowest_lower_self]
    exact ⟨hmet, fun hbelow => (Nat.min_le_left _ _).trans (hlow hbelow)⟩

/-- What a node leads to that is left with a low link below its own number. -/
theorem Layer.absorb {followed' above' : List α} (hx : Layer next s x followed' above' below)
    (hy : Layer next s y (next y) above (above' ++ x :: below)) (hle : s.lowest x ≤ s.lowest y)
    (hleads : Leads next y x) : Layer next s x followed' (above ++ y :: above') below where
  lowest_le := hx.lowest_le
  hook := hx.hook
  joined := by
    have hxy : Mutual next x y := ⟨hy.led x (List.mem_append_right _ List.mem_cons_self), hleads⟩
    intro z hz
    rcases List.mem_append.mp hz with hz | hz
    · exact hxy.trans (hy.joined z hz)
    · rcases List.mem_cons.mp hz with rfl | hz
      · exact hxy
      · exact hx.joined z hz
  led := hx.led
  edges z hz := by
    have hedge : z ∈ next y ++ above.flatMap next → z ∈ s.index ∧ (z ∈ below → s.lowest x ≤ s.number z) := by
      intro hz
      obtain ⟨hmet, hlow⟩ := hy.edges z hz
      exact ⟨hmet, fun hbelow => hle.trans (hlow (List.mem_append_right _ (List.mem_cons_of_mem _ hbelow)))⟩
    rw [List.flatMap_append, List.flatMap_cons] at hz
    simp only [List.mem_append] at hz hedge
    rcases hz with hz | hz | hz | hz
    · exact hx.edges z (List.mem_append_left _ hz)
    · exact hedge (.inr hz)
    · exact hedge (.inl hz)
    · exact hx.edges z (List.mem_append_right _ hz)

theorem Layers.leads (h : Layers next s ((x, i) :: frames) stack) (hu : u ∈ stack) : Leads next u x := by
  obtain ⟨above, below, rfl, hlayer, -⟩ := h
  exact hlayer.leads hu

theorem Layers.advance (h : Layers next s ((x, i) :: frames) stack) (hy : (next x)[i]? = some y) (hmet : y ∈ s.index)
    (hlow : y ∈ stack → s.lowest x ≤ s.number y) : Layers next s ((x, i + 1) :: frames) stack := by
  obtain ⟨above, below, rfl, hlayer, hlayers⟩ := h
  refine ⟨above, below, rfl, hlayer.advance hy hmet fun hbelow => hlow ?_, hlayers⟩
  exact List.mem_append_right _ (List.mem_cons_of_mem _ hbelow)

/-! ### What every step keeps -/

/-- What holds throughout the search: the nodes met are those on the stack, in the order of their numbers, and those of
    the components found. -/
structure Invariant (next : α → List α) (s : LowLink α) (frames : List (α × Nat)) : Prop where
  layers : Layers next s frames s.stack
  numbered : s.stack.Pairwise fun x y => s.number y < s.number x
  fresh : ∀ x ∈ s.stack, s.number x < s.nextIndex
  met : ∀ x, x ∈ s.index ↔ x ∈ s.stack ∨ x ∈ s.groups.flatten
  onStack : ∀ x, x ∈ s.onStack ↔ x ∈ s.stack
  apart : ∀ x ∈ s.stack, x ∉ s.groups.flatten
  closed : Closed next (· ∈ s.groups.flatten)
  condensed : Condensation next (· ∈ s.groups.flatten) s.groups

theorem invariant_start : Invariant next (start : LowLink α) [] where
  layers := rfl
  numbered := .nil
  fresh := nofun
  met x := by simp [start]
  onStack x := by simp [start]
  apart := nofun
  closed := nofun
  condensed := ⟨nofun, .nil, fun _ => .rfl, nofun, .nil⟩

theorem Invariant.nodup (h : Invariant next s frames) : s.stack.Nodup :=
  h.numbered.imp fun {x y} (hlt : s.number y < s.number x) (heq : x = y) => Nat.lt_irrefl _ (heq ▸ hlt)

theorem ne_of_numbered {below : List α} (h : (x :: below).Pairwise fun y z => s.number z < s.number y) :
    ∀ y ∈ below, y ≠ x :=
  fun y hy heq => Nat.lt_irrefl _ (heq ▸ (List.pairwise_cons.mp h).1 y hy)

theorem Invariant.mem_index (h : Invariant next s ((x, i) :: frames)) : x ∈ s.index := by
  obtain ⟨above, below, hstack, -⟩ := h.layers
  exact (h.met x).mpr (.inl (hstack ▸ List.mem_append_right _ List.mem_cons_self))

theorem Invariant.lower {frames' : List (α × Nat)} (h : Invariant next s frames)
    (hlayers : Layers next (s.lower x n) frames' s.stack) : Invariant next (s.lower x n) frames' where
  layers := hlayers
  numbered := h.numbered
  fresh := h.fresh
  met := h.met
  onStack := h.onStack
  apart := h.apart
  closed := h.closed
  condensed := h.condensed

/-- What stands on top of the stack is a component if it lies on common cycles and no edge leads from it to the rest of
    the stack. -/
theorem Invariant.component (h : Invariant next s frames) {g rest : List α} (hstack : s.stack = g ++ rest) (hx : x ∈ g)
    (hmutual : ∀ y ∈ g, Mutual next x y) (hedges : ∀ y ∈ g, ∀ z ∈ next y, z ∈ s.index ∧ z ∉ rest) :
    Closed next (· ∈ (g :: s.groups).flatten) ∧ Condensation next (· ∈ (g :: s.groups).flatten) (g :: s.groups) := by
  have hclosed : Closed next (· ∈ (g :: s.groups).flatten) := by
    intro y hy z hz
    rw [List.flatten_cons, List.mem_append] at hy ⊢
    rcases hy with hy | hy
    · obtain ⟨hmet, hrest⟩ := hedges y hy z hz
      rcases (h.met z).mp hmet with hmem | hmem
      · exact .inl ((List.mem_append.mp (hstack ▸ hmem)).resolve_right hrest)
      · exact .inr hmem
    · exact .inr (h.closed y hy z hz)
  have hmem : ∀ y ∈ g, y ∈ s.stack := fun y hy => hstack ▸ List.mem_append_left _ hy
  refine ⟨hclosed, h.condensed.cons hclosed hx ?_ (fun y => ?_) hmutual fun y => ?_⟩
  · exact (List.nodup_append.mp (hstack ▸ h.nodup)).1
  · rw [List.flatten_cons, List.mem_append]
    constructor
    · exact fun hy => ⟨.inl hy, (hmutual y hy).2⟩
    · rintro ⟨hy | hy, hleads⟩
      · exact hy
      · exact absurd (h.closed.of_leads hy hleads) (h.apart x (hmem x hx))
  · rw [List.flatten_cons, List.mem_append]
    constructor
    · exact fun hy => ⟨.inr hy, fun hyg => h.apart y (hmem y hyg) hy⟩
    · exact fun ⟨hy, hyg⟩ => hy.resolve_left hyg

/-- A node is left either to stay on the stack or with its component. -/
inductive Leaves (s t : LowLink α) (x : α) : Prop where
  | stays (hstack : t.stack = s.stack) (hgroups : t.groups = s.groups)
  | closes (g : List α) (hx : x ∈ g) (hrest : x ∉ t.stack) (hstack : s.stack = g ++ t.stack)
      (hgroups : t.groups = g :: s.groups)

section Steps
variable [Std.LawfulEqOrd α]

theorem Invariant.meet (h : Invariant next s frames) (hy : y ∉ s.index) (hled : ∀ u ∈ s.stack, Leads next u y)
    {frames' : List (α × Nat)} (hlayers : Layers next (s.meet y) frames' s.stack) :
    Invariant next (s.meet y) ((y, 0) :: frames') := by
  have hne : ∀ z ∈ s.stack, z ≠ y := fun z hz heq => hy ((h.met y).mpr (.inl (heq ▸ hz)))
  have hnumber : ∀ z ∈ s.stack, (s.meet y).number z < s.nextIndex := fun z hz => by
    rw [number_meet_of_ne (hne z hz)]
    exact h.fresh z hz
  constructor
  case layers =>
    refine ⟨[], s.stack, rfl, ⟨?_, ?_, nofun, hled, nofun⟩, hlayers⟩
    · rw [lowest_meet_self, number_meet_self]
    · exact ⟨y, List.mem_cons_self, by rw [lowest_meet_self, number_meet_self], .refl y⟩
  case numbered =>
    refine List.pairwise_cons.mpr ⟨fun z hz => ?_, h.numbered.imp_of_mem fun hz hw hlt => ?_⟩
    · rw [number_meet_self]
      exact hnumber z hz
    · rw [number_meet_of_ne (hne _ hz), number_meet_of_ne (hne _ hw)]
      exact hlt
  case fresh =>
    refine List.forall_mem_cons.mpr ⟨?_, fun z hz => Nat.lt_succ_of_lt (hnumber z hz)⟩
    rw [number_meet_self]
    exact Nat.lt_succ_self _
  case met =>
    intro z
    rw [mem_index_meet, h.met, ← or_assoc]
    exact or_congr_left List.mem_cons.symm
  case onStack =>
    intro z
    rw [LowLink.meet, Std.ExtTreeSet.mem_insert, h.onStack, Std.compare_eq_iff_eq, List.mem_cons, eq_comm]
  case apart =>
    exact List.forall_mem_cons.mpr ⟨fun hmem => hy ((h.met y).mpr (.inr hmem)), h.apart⟩
  case closed => exact h.closed
  case condensed => exact h.condensed

theorem Invariant.root (h : Invariant next s []) (hy : y ∉ s.index) : Invariant next (s.meet y) [(y, 0)] := by
  have hstack : s.stack = [] := h.layers
  exact h.meet hy (by simp [hstack]) hstack

/-- The next successor was not met before. -/
theorem Invariant.descend (h : Invariant next s ((x, i) :: frames)) (hy : (next x)[i]? = some y) (hmet : y ∉ s.index) :
    Invariant next (s.meet y) ((y, 0) :: (x, i + 1) :: frames) := by
  have hstack : y ∉ s.stack := fun hmem => hmet ((h.met y).mpr (.inl hmem))
  have hne : ∀ z ∈ s.stack, z ≠ y := fun z hz heq => hstack (heq ▸ hz)
  refine h.meet hmet (fun u hu => (h.layers.leads hu).tail (List.mem_of_getElem? hy)) (Layers.advance ?_ hy ?_ ?_)
  · exact h.layers.congr (fun z hz => lowest_meet_of_ne (hne z hz)) (fun z hz => number_meet_of_ne (hne z hz))
      fun z hz => mem_index_meet.mpr (.inr hz)
  · exact mem_index_meet.mpr (.inl rfl)
  · exact fun hmem => absurd hmem hstack

theorem Layers.lower (h : Layers next s ((x, i) :: frames) stack)
    (hnumbered : stack.Pairwise fun y z => s.number z < s.number y) (hu : u ∈ stack) (hleads : Leads next x u) :
    Layers next (s.lower x (s.number u)) ((x, i) :: frames) stack := by
  obtain ⟨above, below, rfl, hlayer, hlayers⟩ := h
  obtain ⟨-, hbelow, habove⟩ := List.pairwise_append.mp hnumbered
  have hne := ne_of_numbered hbelow
  refine ⟨above, below, rfl, hlayer.lower (fun y hy => habove y hy x List.mem_cons_self) hu hleads, ?_⟩
  exact hlayers.congr (fun y hy => lowest_lower_of_ne (hne y hy)) (fun _ _ => rfl) fun _ hy => hy

/-- The next successor was met before. -/
theorem Invariant.follow (h : Invariant next s ((x, i) :: frames)) (hy : (next x)[i]? = some y) (hmet : y ∈ s.index) :
    Invariant next (if y ∈ s.onStack then s.lower x (s.number y) else s) ((x, i + 1) :: frames) := by
  split
  · next hon =>
    have hmem := (h.onStack y).mp hon
    refine h.lower ((h.layers.lower h.numbered hmem (.single (List.mem_of_getElem? hy))).advance hy hmet fun _ => ?_)
    rw [lowest_lower_self]
    exact Nat.min_le_right _ _
  · next hon =>
    exact { h with layers := h.layers.advance hy hmet fun hmem => absurd ((h.onStack y).mpr hmem) hon }

/-- A node that is left with a smaller low link belongs to the node before it on the path. -/
theorem Layers.merge {parent : α} {j : Nat} (h : Layers next s ((x, i) :: (parent, j) :: frames) stack)
    (hnumbered : stack.Pairwise fun y z => s.number z < s.number y) (hdone : (next x)[i]? = none)
    (hlow : s.lowest x ≠ s.number x) : Layers next (s.lower parent (s.lowest x)) ((parent, j) :: frames) stack := by
  obtain ⟨above, _, rfl, hx, above', below, rfl, hparent, hlayers⟩ := h
  rw [List.take_of_length_le (List.getElem?_eq_none_iff.mp hdone)] at hx
  obtain ⟨-, hnumbered, -⟩ := List.pairwise_append.mp hnumbered
  obtain ⟨-, hbelow, habove⟩ := List.pairwise_append.mp (List.pairwise_cons.mp hnumbered).2
  have hmem : parent ∈ above' ++ parent :: below := List.mem_append_right _ List.mem_cons_self
  have hne := ne_of_numbered hbelow
  obtain ⟨u, hu, hnumber, hleads⟩ := hx.hook
  have hu : u ∈ above' ++ parent :: below := by
    rcases List.mem_cons.mp hu with rfl | hu
    · exact absurd hnumber.symm hlow
    · exact hu
  have hlowered := hparent.lower (fun y hy => habove y hy parent List.mem_cons_self) hu
    ((hx.led parent hmem).trans hleads)
  rw [hnumber] at hlowered
  refine ⟨above ++ x :: above', below, by simp, ?_, ?_⟩
  · refine hlowered.absorb (hx.congr lowest_lower_lowest (fun _ _ => rfl) fun _ hy => hy) ?_
      (hleads.trans (hparent.leads hu))
    rw [lowest_lower_lowest, lowest_lower_self]
    exact Nat.min_le_right _ _
  · exact hlayers.congr (fun y hy => lowest_lower_of_ne (hne y hy)) (fun _ _ => rfl) fun _ hy => hy

/-- A low link that is a node's own number changes nothing for the node before it. -/
theorem Invariant.passUp (h : Invariant next s ((x, i) :: frames)) (hlow : s.lowest x = s.number x) :
    Invariant next (s.passUp x frames) ((x, i) :: frames) ∧ ∀ y, (s.passUp x frames).lowest y = s.lowest y := by
  cases frames with
  | nil => exact ⟨h, fun _ => rfl⟩
  | cons frame frames =>
    obtain ⟨above, _, hstack, -, above', below, rfl, hparent, -⟩ := h.layers
    have hsmaller : s.number frame.1 < s.number x := by
      have hnumbered := (List.pairwise_append.mp (hstack ▸ h.numbered)).2.1
      exact (List.pairwise_cons.mp hnumbered).1 _ (List.mem_append_right _ List.mem_cons_self)
    have hle : s.lowest frame.1 ≤ s.lowest x := hlow ▸ hparent.lowest_le.trans hsmaller.le
    refine ⟨h.lower (h.layers.congr (fun y _ => lowest_lower_of_le hle y) (fun _ _ => rfl) fun _ hy => hy), ?_⟩
    exact lowest_lower_of_le hle

variable [DecidableEq α]

/-- A node that is left with its own number as its low link closes its component. -/
theorem Invariant.close (h : Invariant next s ((x, i) :: frames)) (hdone : (next x)[i]? = none)
    (hlow : s.lowest x = s.number x) : Invariant next (s.close x) frames ∧ Leaves s (s.close x) x := by
  obtain ⟨above, below, hstack, hlayer, hlayers⟩ := h.layers
  rw [List.take_of_length_le (List.getElem?_eq_none_iff.mp hdone)] at hlayer
  have hsplit : s.stack = (above ++ [x]) ++ below := by
    rw [hstack, List.append_assoc]
    rfl
  obtain ⟨-, hbelow, happart⟩ := List.nodup_append.mp (hsplit ▸ h.nodup)
  obtain ⟨-, hnumbered, hsmaller⟩ := List.pairwise_append.mp (hsplit ▸ h.numbered)
  have hxg : x ∈ above ++ [x] := List.mem_append_right _ (List.mem_singleton_self x)
  have hx : x ∉ above := fun hmem =>
    (List.nodup_append.mp (hstack ▸ h.nodup)).2.2 x hmem x List.mem_cons_self rfl
  have hclose : s.close x =
      { s with
        onStack := (above ++ [x]).foldl Std.ExtTreeSet.erase s.onStack
        stack := below
        groups := (above ++ [x]) :: s.groups } := by
    rw [LowLink.close, hstack, popThrough_append hx]
  have hmutual : ∀ y ∈ above ++ [x], Mutual next x y := by
    intro y hy
    rcases List.mem_append.mp hy with hy | hy
    · exact hlayer.joined y hy
    · obtain rfl := List.mem_singleton.mp hy
      exact .refl y
  have hedges : ∀ y ∈ above ++ [x], ∀ z ∈ next y, z ∈ s.index ∧ z ∉ below := by
    intro y hy z hz
    have hmem : z ∈ next x ++ above.flatMap next := by
      rcases List.mem_append.mp hy with hy | hy
      · exact List.mem_append_right _ (List.mem_flatMap.mpr ⟨y, hy, hz⟩)
      · exact List.mem_append_left _ (List.mem_singleton.mp hy ▸ hz)
    obtain ⟨hmet, hle⟩ := hlayer.edges z hmem
    refine ⟨hmet, fun hbelow => Nat.lt_irrefl _ ((hsmaller x hxg z hbelow).trans_le ?_)⟩
    exact hlow ▸ hle hbelow
  obtain ⟨hclosed, hcondensed⟩ := h.component hsplit hxg hmutual hedges
  rw [hclose]
  refine ⟨⟨hlayers.congr (fun _ _ => rfl) (fun _ _ => rfl) fun _ hy => hy, hnumbered, fun y hy => ?_, fun y => ?_,
    fun y => ?_, fun y hy => ?_, hclosed, hcondensed⟩, .closes _ hxg (fun hmem => happart x hxg x hmem rfl) hsplit rfl⟩
  · exact h.fresh y (hsplit ▸ List.mem_append_right _ hy)
  · rw [h.met, hsplit, List.flatten_cons]
    simp only [List.mem_append]
    exact or_assoc.trans or_left_comm
  · rw [mem_foldl_erase, h.onStack, hsplit, List.mem_append]
    exact ⟨fun hy => hy.1.resolve_left hy.2, fun hy => ⟨.inr hy, fun hyg => happart y hyg y hy rfl⟩⟩
  · rw [List.flatten_cons, List.mem_append, not_or]
    exact ⟨fun hyg => happart y hyg y hy rfl, h.apart y (hsplit ▸ List.mem_append_right _ hy)⟩

theorem Invariant.leave (h : Invariant next s ((x, i) :: frames)) (hdone : (next x)[i]? = none) :
    Invariant next (s.leave x frames) frames ∧ Leaves s (s.leave x frames) x ∧ (s.leave x frames).index = s.index := by
  obtain ⟨above, below, -, hlayer, hlayers⟩ := h.layers
  have hindex : (s.passUp x frames).index[x]? = some (s.number x) := by
    rw [index_passUp]
    exact getElem?_index h.mem_index
  by_cases hlow : s.lowest x = s.number x
  · obtain ⟨hup, hkept⟩ := h.passUp hlow
    have hleave : s.leave x frames = (s.passUp x frames).close x := by
      rw [LowLink.leave, hindex, hkept, hlow]
      exact if_pos rfl
    have hnumber : (s.passUp x frames).number x = s.number x := by
      rw [number, index_passUp, ← number]
    obtain ⟨hclosed, hleaves⟩ := hup.close hdone (by rw [hkept, hlow, hnumber])
    rw [hleave]
    refine ⟨hclosed, ?_, index_passUp⟩
    cases hleaves with
    | stays hs hg => exact .stays (hs.trans stack_passUp) (hg.trans groups_passUp)
    | closes g hx hrest hs hg =>
      exact .closes g hx hrest (stack_passUp.symm.trans hs) (hg.trans (congrArg (g :: ·) groups_passUp))
  · cases frames with
    | nil =>
      obtain rfl : below = [] := hlayers
      obtain ⟨u, hu, hnumber, -⟩ := hlayer.hook
      exact absurd (List.mem_singleton.mp hu ▸ hnumber).symm hlow
    | cons frame frames =>
      have hleave : s.leave x (frame :: frames) = s.lower frame.1 (s.lowest x) := by
        rw [LowLink.leave, hindex]
        exact if_neg fun heq => hlow ((Option.some.inj heq).trans lowest_lower_lowest).symm
      rw [hleave]
      exact ⟨h.lower (h.layers.merge h.numbered hdone hlow), .stays rfl rfl, rfl⟩

end Steps

end LowLink

end Spreadsheet.Graph
