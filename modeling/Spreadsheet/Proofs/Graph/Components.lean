import Spreadsheet.Graph.Components
import Spreadsheet.Proofs.Graph.Reachability

/-! # Strongly connected components: what the search gives

On a set of nodes that no edge leaves, `components` lists each node once, groups the nodes by common
cycles, and puts each group before those that it leads to (`Condensation`). The finishing order of the
depth-first search carries this: of the nodes that lead to `x` and were left before it, each is on a
cycle with `x` or with a node left after `x` (`Settled`). -/

namespace Spreadsheet.Graph
open Relation

variable {α : Type} {next : α → List α}

/-- The lists of nodes are the strongly connected components on the nodes that satisfy `p`, each before
    those that it leads to. -/
structure Condensation (next : α → List α) (p : α → Prop) (groups : List (List α)) : Prop where
  nonempty : ∀ g ∈ groups, g ≠ []
  nodup : groups.flatten.Nodup
  mem : ∀ x, x ∈ groups.flatten ↔ p x
  joined : ∀ g ∈ groups, ∀ x ∈ g, ∀ y, y ∈ g ↔ Mutual next x y
  ordered : groups.Pairwise fun g h => ∀ x ∈ g, ∀ y ∈ h, ¬Leads next y x

/-- In a list of nodes, last finished first: a node of the rest that leads to the head is on a cycle with
    it, or with one of the nodes finished `later`. -/
def Settled (next : α → List α) : (later order : List α) → Prop
  | _, [] => True
  | later, x :: order =>
    (∀ y ∈ order, Leads next y x → Leads next x y ∨ ∃ w ∈ later, Mutual next y w) ∧
      Settled next (x :: later) order

theorem Settled.mono {order : List α} : ∀ {later more : List α}, (∀ w ∈ later, w ∈ more) →
    Settled next later order → Settled next more order := by
  induction order with
  | nil => exact fun _ _ => trivial
  | cons x order ih =>
    intro later more hsub h
    refine ⟨fun y hy hl => ?_, ih (fun w hw => ?_) h.2⟩
    · rcases h.1 y hy hl with hxy | ⟨w, hw, hm⟩
      · exact Or.inl hxy
      · exact Or.inr ⟨w, hsub w hw, hm⟩
    · rcases List.mem_cons.mp hw with rfl | hw
      · exact List.mem_cons_self
      · exact List.mem_cons_of_mem _ (hsub w hw)

/-- What leads to the first node of a settled order is on a cycle with it, once what was finished later is
    taken away. -/
theorem Settled.mutual_of_leads {p : α → Prop} {later order : List α} {x : α}
    (hs : Settled next later (x :: order)) (hc : Closed next p) (hcov : ∀ y, p y → y ∈ x :: order)
    (hlater : ∀ w ∈ later, ¬p w) {y : α} (hy : p y) (hl : Leads next y x) : Mutual next x y := by
  refine ⟨?_, hl⟩
  rcases List.mem_cons.mp (hcov y hy) with rfl | hmem
  · exact .refl y
  · rcases hs.1 y hmem hl with hxy | ⟨w, hw, hm⟩
    · exact hxy
    · exact absurd (hc.of_leads hy hm.1) (hlater w hw)

/-- Taking a strongly connected component away in front of the components of the rest. -/
theorem Condensation.cons {x : α} {g : List α} {p q : α → Prop} {groups : List (List α)} (hc : Closed next p)
    (hx : x ∈ g) (hnodup : g.Nodup) (hg : ∀ y, y ∈ g ↔ p y ∧ Leads next y x) (hm : ∀ y ∈ g, Mutual next x y)
    (hq : ∀ y, q y ↔ p y ∧ y ∉ g) (h : Condensation next q groups) : Condensation next p (g :: groups) where
  nonempty := List.forall_mem_cons.mpr ⟨List.ne_nil_of_mem hx, h.nonempty⟩
  nodup := by
    rw [List.flatten_cons, List.nodup_append]
    refine ⟨hnodup, h.nodup, fun y hy z hz heq => ?_⟩
    exact ((hq z).mp ((h.mem z).mp hz)).2 (heq ▸ hy)
  mem y := by
    rw [List.flatten_cons, List.mem_append, h.mem, hq]
    constructor
    · rintro (hy | hy)
      · exact ((hg y).mp hy).1
      · exact hy.1
    · intro hy
      by_cases hyg : y ∈ g
      · exact Or.inl hyg
      · exact Or.inr ⟨hy, hyg⟩
  joined := by
    refine List.forall_mem_cons.mpr ⟨fun y hy z => ⟨fun hz => (hm y hy).symm.trans (hm z hz), fun hyz => ?_⟩, h.joined⟩
    obtain ⟨hpy, hyx⟩ := (hg y).mp hy
    exact (hg z).mpr ⟨hc.of_leads hpy hyz.1, hyz.2.trans hyx⟩
  ordered := by
    refine List.pairwise_cons.mpr ⟨fun r hr y hy z hz hzy => ?_, h.ordered⟩
    have hqz := (hq z).mp ((h.mem z).mp (List.mem_flatten_of_mem hr hz))
    exact hqz.2 ((hg z).mpr ⟨hqz.1, hzy.trans ((hg y).mp hy).2⟩)

/-- Taking the first component away leaves the components of the other nodes. -/
theorem Condensation.tail {g : List α} {p q : α → Prop} {groups : List (List α)}
    (h : Condensation next p (g :: groups)) (hq : ∀ y, q y ↔ p y ∧ y ∉ g) : Condensation next q groups where
  nonempty := (List.forall_mem_cons.mp h.nonempty).2
  nodup := (List.nodup_append.mp h.nodup).2.1
  mem y := by
    rw [hq, ← h.mem, List.flatten_cons, List.mem_append]
    refine ⟨fun hy => ⟨.inr hy, fun hyg => ?_⟩, fun hy => hy.1.resolve_left hy.2⟩
    exact (List.nodup_append.mp h.nodup).2.2 y hyg y hy rfl
  joined := (List.forall_mem_cons.mp h.joined).2
  ordered := (List.pairwise_cons.mp h.ordered).2

theorem Condensation.not_leads {x y : α} {g : List α} {p : α → Prop} {groups : List (List α)}
    (h : Condensation next p (g :: groups)) (hx : x ∈ g) (hp : p y) (hy : y ∉ g) : ¬Leads next y x := by
  rcases List.mem_append.mp ((h.mem y).mpr hp) with hyg | hrest
  · exact absurd hyg hy
  · obtain ⟨g', hg', hyg'⟩ := List.mem_flatten.mp hrest
    exact (List.pairwise_cons.mp h.ordered).1 g' hg' x hx y hyg'

/-! ### Depth-first search -/

/-- The node of a visit. -/
def Visit.node : Visit α → α
  | .enter x => x
  | .leave x => x

/-- The nodes that a search has met and not left. -/
def opened : List (Visit α) → List α
  | [] => []
  | .enter _ :: visits => opened visits
  | .leave x :: visits => x :: opened visits

theorem mem_opened {visits : List (Visit α)} {x : α} : x ∈ opened visits ↔ .leave x ∈ visits := by
  induction visits with
  | nil => simp [opened]
  | cons v visits ih => cases v <;> simp [opened, ih]

theorem opened_enter_append (xs : List α) (visits : List (Visit α)) :
    opened (xs.map .enter ++ visits) = opened visits := by
  induction xs with
  | nil => rfl
  | cons x xs ih => exact ih

/-- Whenever a node is left, none of its successors is still unmet. -/
def Exhausts (next : α → List α) : (unmet : α → Prop) → List (Visit α) → Prop
  | _, [] => True
  | unmet, .enter x :: visits => Exhausts next (fun y => unmet y ∧ y ≠ x) visits
  | unmet, .leave x :: visits => (∀ y ∈ next x, ¬unmet y) ∧ Exhausts next unmet visits

theorem Exhausts.anti {visits : List (Visit α)} : ∀ {unmet fewer : α → Prop}, (∀ x, fewer x → unmet x) →
    Exhausts next unmet visits → Exhausts next fewer visits := by
  induction visits with
  | nil => exact fun _ _ => trivial
  | cons v visits ih =>
    intro unmet fewer hsub h
    cases v with
    | enter x => exact ih (fun y hy => ⟨hsub y hy.1, hy.2⟩) (show Exhausts next _ visits from h)
    | leave x => exact ⟨fun y hy hf => h.1 y hy (hsub y hf), ih hsub h.2⟩

theorem exhausts_enter_append {visits : List (Visit α)} (xs : List α) : ∀ {unmet : α → Prop},
    Exhausts next (fun y => unmet y ∧ y ∉ xs) visits → Exhausts next unmet (xs.map .enter ++ visits) := by
  induction xs with
  | nil => exact fun h => h.anti fun y hy => ⟨hy, List.not_mem_nil⟩
  | cons x xs ih =>
    intro unmet h
    refine ih (h.anti fun y hy => ⟨hy.1.1, fun hmem => ?_⟩)
    rcases List.mem_cons.mp hmem with rfl | hmem
    · exact hy.1.2 rfl
    · exact hy.2 hmem

variable [Ord α] [Std.TransOrd α]

/-- What holds throughout a depth-first search on the nodes that satisfy `p`: each open node leads to all
    that is visited before it is left, and a node that was left leads to such nodes only, or is on a cycle
    with an open one. -/
structure DepthFirst (next : α → List α) (p : α → Prop) (unmet : Std.ExtTreeSet α) (left : List α)
    (visits : List (Visit α)) : Prop where
  nodes : ∀ x, p x ↔ x ∈ unmet ∨ x ∈ opened visits ++ left
  pending : ∀ x ∈ unmet, .enter x ∈ visits
  met : ∀ x ∈ opened visits ++ left, x ∉ unmet
  distinct : (opened visits ++ left).Nodup
  exhausts : Exhausts next (· ∈ unmet) visits
  nested : visits.Pairwise fun v w => ∀ x, w = .leave x → Leads next x v.node
  leftNext : ∀ x ∈ left, ∀ y ∈ next x, y ∉ unmet
  hooked : ∀ x ∈ left, (∀ y, Leads next x y → y ∈ left) ∨ ∃ w ∈ opened visits, Mutual next x w
  settled : Settled next (opened visits) left

section Search
variable {p : α → Prop} {unmet : Std.ExtTreeSet α} {left : List α} {visits : List (Visit α)} {x : α}

theorem DepthFirst.skip (h : DepthFirst next p unmet left (.enter x :: visits)) (hx : x ∉ unmet) :
    DepthFirst next p unmet left visits where
  nodes := h.nodes
  pending y hy := by
    rcases List.mem_cons.mp (h.pending y hy) with heq | hmem
    · cases heq
      exact absurd hy hx
    · exact hmem
  met := h.met
  distinct := h.distinct
  exhausts := by
    have hex : Exhausts next (fun y => y ∈ unmet ∧ y ≠ x) visits := h.exhausts
    exact hex.anti fun y hy => ⟨hy, fun heq => hx (heq ▸ hy)⟩
  nested := (List.pairwise_cons.mp h.nested).2
  leftNext := h.leftNext
  hooked := h.hooked
  settled := h.settled

/-- The nodes still open when `x` is left lead to `x`. -/
theorem DepthFirst.leads_of_opened (h : DepthFirst next p unmet left (.leave x :: visits)) {w : α}
    (hw : w ∈ opened visits) : Leads next w x :=
  (List.pairwise_cons.mp h.nested).1 _ (mem_opened.mp hw) w rfl

/-- If `x` leads to no node that stays open, it leads to nodes that were left only. -/
theorem DepthFirst.closed_of_leave (hp : Closed next p) (h : DepthFirst next p unmet left (.leave x :: visits))
    (hno : ¬∃ w ∈ opened visits, Leads next x w) {y : α} (hl : Leads next x y) : y ∈ x :: left := by
  have hpx : p x := (h.nodes x).mpr (Or.inr (List.mem_append_left _ List.mem_cons_self))
  induction hl with
  | refl => exact List.mem_cons_self
  | @tail a b hab hedge ih =>
    have hb : b ∉ unmet := by
      rcases List.mem_cons.mp ih with rfl | ha
      · exact h.exhausts.1 b hedge
      · exact h.leftNext a ha b hedge
    have hpb : p b := hp.of_leads hpx (hab.tail hedge)
    rcases List.mem_append.mp (((h.nodes b).mp hpb).resolve_left hb) with hopen | hleft
    · rcases List.mem_cons.mp hopen with rfl | hopen
      · exact List.mem_cons_self
      · exact absurd ⟨b, hopen, hab.tail hedge⟩ hno
    · exact List.mem_cons_of_mem _ hleft

theorem DepthFirst.leave (hp : Closed next p) (h : DepthFirst next p unmet left (.leave x :: visits)) :
    DepthFirst next p unmet (x :: left) visits where
  nodes y := by
    rw [h.nodes y]
    simp only [opened, List.cons_append, List.mem_cons, List.mem_append]
    exact or_congr_right or_left_comm
  pending y hy := by
    rcases List.mem_cons.mp (h.pending y hy) with heq | hmem
    · cases heq
    · exact hmem
  met y hy := by
    refine h.met y ?_
    simp only [opened, List.cons_append, List.mem_cons, List.mem_append] at hy ⊢
    exact or_left_comm.mp hy
  distinct := List.perm_middle.nodup_iff.mpr h.distinct
  exhausts := h.exhausts.2
  nested := (List.pairwise_cons.mp h.nested).2
  leftNext y hy := by
    rcases List.mem_cons.mp hy with rfl | hy
    · exact h.exhausts.1
    · exact h.leftNext y hy
  hooked := by
    -- Either `x` hangs on a node that stays open, and passes that node on to what hung on `x`, or `x`
    -- leads to left nodes only, and so does all that hung on it.
    by_cases hno : ∃ w ∈ opened visits, Leads next x w
    · obtain ⟨w, hw, hxw⟩ := hno
      have hm : Mutual next x w := ⟨hxw, h.leads_of_opened hw⟩
      intro y hy
      rcases List.mem_cons.mp hy with rfl | hy
      · exact Or.inr ⟨w, hw, hm⟩
      rcases h.hooked y hy with hall | ⟨v, hv, hyv⟩
      · exact Or.inl fun z hz => List.mem_cons_of_mem _ (hall z hz)
      rcases List.mem_cons.mp hv with rfl | hv
      · exact Or.inr ⟨w, hw, hyv.trans hm⟩
      · exact Or.inr ⟨v, hv, hyv⟩
    · have hall : ∀ z, Leads next x z → z ∈ x :: left := fun z => h.closed_of_leave hp hno
      intro y hy
      rcases List.mem_cons.mp hy with rfl | hy
      · exact Or.inl hall
      rcases h.hooked y hy with hleft | ⟨v, hv, hyv⟩
      · exact Or.inl fun z hz => List.mem_cons_of_mem _ (hleft z hz)
      rcases List.mem_cons.mp hv with rfl | hv
      · exact Or.inl fun z hz => hall z (hyv.2.trans hz)
      · exact Or.inr ⟨v, hv, hyv⟩
  settled := by
    refine ⟨fun y hy hl => ?_, h.settled⟩
    rcases h.hooked y hy with hall | ⟨w, hw, hm⟩
    · have hx : x ∉ left := fun hmem => (List.nodup_cons.mp h.distinct).1 (List.mem_append_right _ hmem)
      exact absurd (hall x hl) hx
    · rcases List.mem_cons.mp hw with rfl | hw
      · exact Or.inl hm.2
      · exact Or.inr ⟨w, hw, hm⟩

variable [Std.LawfulEqOrd α]

theorem DepthFirst.enter (h : DepthFirst next p unmet left (.enter x :: visits)) (hx : x ∈ unmet) :
    DepthFirst next p (unmet.erase x) left ((next x).map .enter ++ .leave x :: visits) := by
  have hopened : opened ((next x).map .enter ++ .leave x :: visits) = x :: opened visits :=
    opened_enter_append _ _
  have hfresh : x ∉ opened visits ++ left := fun hmem => h.met x hmem hx
  constructor
  case nodes =>
    intro y
    have hy := h.nodes y
    simp only [opened] at hy
    rw [hopened, hy, mem_erase_iff, List.cons_append, List.mem_cons]
    by_cases hyx : y = x
    · simp [hyx, hx]
    · simp [hyx]
  case pending =>
    intro y hy
    obtain ⟨hyx, hy⟩ := mem_erase_iff.mp hy
    rcases List.mem_cons.mp (h.pending y hy) with heq | hmem
    · cases heq
      exact absurd rfl hyx
    · exact List.mem_append_right _ (List.mem_cons_of_mem _ hmem)
  case met =>
    intro y hy hmem
    obtain ⟨hyx, hmem⟩ := mem_erase_iff.mp hmem
    rw [hopened, List.cons_append] at hy
    exact h.met y ((List.mem_cons.mp hy).resolve_left hyx) hmem
  case distinct =>
    rw [hopened]
    exact List.nodup_cons.mpr ⟨hfresh, h.distinct⟩
  case exhausts =>
    have hex : Exhausts next (fun y => y ∈ unmet ∧ y ≠ x) visits := h.exhausts
    refine exhausts_enter_append _ ⟨fun y hy hn => hn.2 hy, hex.anti fun y hy => ?_⟩
    obtain ⟨hyx, hy⟩ := mem_erase_iff.mp hy.1
    exact ⟨hy, hyx⟩
  case nested =>
    obtain ⟨hhead, htail⟩ := List.pairwise_cons.mp h.nested
    have hedges : ∀ v ∈ (next x).map Visit.enter, Leads next x v.node := by
      intro v hv
      obtain ⟨y, hy, rfl⟩ := List.mem_map.mp hv
      exact .single hy
    refine List.pairwise_append.mpr ⟨?_, List.pairwise_cons.mpr ⟨hhead, htail⟩, fun v hv w hw z hz => ?_⟩
    · rw [List.pairwise_map]
      exact List.pairwise_of_forall fun _ _ _ hw => nomatch hw
    · rcases List.mem_cons.mp hw with rfl | hw
      · cases hz
        exact hedges v hv
      · exact (hhead w hw z hz).trans (hedges v hv)
  case leftNext => exact fun y hy z hz hmem => h.leftNext y hy z hz (mem_erase_iff.mp hmem).2
  case hooked =>
    intro y hy
    rw [hopened]
    rcases h.hooked y hy with hall | ⟨w, hw, hm⟩
    · exact Or.inl hall
    · exact Or.inr ⟨w, List.mem_cons_of_mem _ hw, hm⟩
  case settled =>
    rw [hopened]
    exact h.settled.mono fun w hw => List.mem_cons_of_mem _ hw

/-- What a depth-first search leaves is settled, and is all nodes. -/
theorem DepthFirst.finish (hp : Closed next p) (h : DepthFirst next p unmet left visits) :
    Settled next [] (finish next unmet left visits) ∧ ∀ y, p y → y ∈ finish next unmet left visits := by
  fun_induction Graph.finish next unmet left visits with
  | case1 unmet left =>
    refine ⟨h.settled, fun y hy => ?_⟩
    rcases (h.nodes y).mp hy with hmem | hmem
    · exact absurd (h.pending y hmem) List.not_mem_nil
    · exact hmem
  | case2 unmet left x visits ih => exact ih (h.leave hp)
  | case3 unmet left x visits hx ih => exact ih (h.enter hx)
  | case4 unmet left x visits hx ih => exact ih (h.skip hx)

/-- At the start all nodes are to be entered. -/
theorem depthFirst_start (next : α → List α) (nodes : List α) :
    DepthFirst next (· ∈ nodes) (.ofList nodes) [] (nodes.map .enter) := by
  have hopened : opened (nodes.map Visit.enter) = [] := by
    rw [← List.append_nil (nodes.map Visit.enter)]
    exact opened_enter_append nodes []
  constructor
  case nodes => simp [hopened, mem_ofList_iff]
  case pending => exact fun y hy => List.mem_map_of_mem (mem_ofList_iff.mp hy)
  case met => simp [hopened]
  case distinct => simp [hopened]
  case exhausts =>
    rw [← List.append_nil (nodes.map Visit.enter)]
    exact exhausts_enter_append nodes trivial
  case nested =>
    rw [List.pairwise_map]
    exact List.pairwise_of_forall fun _ _ _ hw => nomatch hw
  case leftNext => simp
  case hooked => simp
  case settled => exact trivial

/-! ### Predecessors -/

theorem mem_addPredecessor {successors : List α} {y z : α} : ∀ {found : Std.ExtTreeMap α (List α)},
    z ∈ (addPredecessor found x successors).getD y [] ↔ z ∈ found.getD y [] ∨ z = x ∧ y ∈ successors := by
  induction successors with
  | nil => simp [addPredecessor]
  | cons s successors ih =>
    intro found
    rw [show addPredecessor found x (s :: successors) =
      addPredecessor (found.alter s fun before => some (x :: before.getD [])) x successors from rfl, ih,
      Std.ExtTreeMap.getD_alter, List.mem_cons]
    by_cases hs : s = y
    · subst hs
      simp only [Std.compare_self, if_true, Option.getD_some, ← Std.ExtTreeMap.getD_eq_getD_getElem?,
        List.mem_cons, true_or, and_true]
      by_cases hz : z = x <;> simp [hz]
    · have hne : compare s y ≠ .eq := fun heq => hs (Std.compare_eq_iff_eq.mp heq)
      simp [hne, Ne.symm hs]

theorem mem_predecessors {nodes : List α} {y z : α} :
    z ∈ (predecessors next nodes).getD y [] ↔ z ∈ nodes ∧ y ∈ next z := by
  suffices h : ∀ (nodes : List α) (found : Std.ExtTreeMap α (List α)),
      z ∈ (nodes.foldl (fun found x => addPredecessor found x (next x)) found).getD y [] ↔
        z ∈ found.getD y [] ∨ z ∈ nodes ∧ y ∈ next z by
    rw [predecessors, h nodes ∅]
    simp
  intro nodes
  induction nodes with
  | nil => simp
  | cons x nodes ih =>
    intro found
    rw [List.foldl_cons, ih, mem_addPredecessor, List.mem_cons, or_assoc]
    refine or_congr_right ?_
    constructor
    · rintro (⟨rfl, h⟩ | ⟨hz, h⟩)
      · exact ⟨Or.inl rfl, h⟩
      · exact ⟨Or.inr hz, h⟩
    · rintro ⟨rfl | hz, h⟩
      · exact Or.inl ⟨rfl, h⟩
      · exact Or.inr ⟨hz, h⟩

/-! ### Taking components away -/

theorem mem_foldl_erase {g : List α} {y : α} : ∀ {nodes : Std.ExtTreeSet α},
    y ∈ g.foldl Std.ExtTreeSet.erase nodes ↔ y ∈ nodes ∧ y ∉ g := by
  induction g with
  | nil => simp
  | cons x g ih =>
    intro nodes
    rw [List.foldl_cons, ih, mem_erase_iff, List.mem_cons, not_or, and_assoc, and_left_comm]

/-- The backward search from `x` collects the remaining nodes that lead to `x`. -/
theorem mem_reach_back {back : α → List α} {remaining : Std.ExtTreeSet α} (hc : Closed next (· ∈ remaining))
    (hback : ∀ x y, y ∈ remaining → (y ∈ back x ↔ x ∈ next y)) (hx : x ∈ remaining) {y : α} :
    y ∈ reach back remaining [x] ↔ y ∈ remaining ∧ Leads next y x := by
  constructor
  · intro h
    refine ⟨mem_unmet_of_mem_reach h, ?_⟩
    obtain ⟨s, hs, -, hl⟩ := mem_reach.mp h
    obtain rfl := List.mem_singleton.mp hs
    induction hl with
    | refl => exact .refl s
    | @tail a b hab hedge ih =>
      have ha : a ∈ reach back remaining [s] := mem_reach.mpr ⟨s, List.mem_singleton_self s, hx, hab⟩
      exact .head ((hback a b hedge.2).mp hedge.1) (ih ha)
  · rintro ⟨hy, hl⟩
    refine mem_reach.mpr ⟨x, List.mem_singleton_self x, hx, ?_⟩
    induction hl using ReflTransGen.head_induction_on with
    | refl => exact .refl
    | @head a b hab _ ih =>
      have hb : b ∈ remaining := hc a hy b hab
      exact (ih hb).tail ⟨(hback b a hy).mpr hab, hy⟩

/-- Along a settled order, what is taken away are the strongly connected components. -/
theorem peel_condensation {back : α → List α} {order : List α} : ∀ (remaining : Std.ExtTreeSet α) (later : List α),
    Closed next (· ∈ remaining) → (∀ x y, y ∈ remaining → (y ∈ back x ↔ x ∈ next y)) →
    (∀ y ∈ remaining, y ∈ order) → (∀ w ∈ later, w ∉ remaining) → Settled next later order →
    Condensation next (· ∈ remaining) (peel back remaining order) := by
  induction order with
  | nil =>
    intro remaining later _ _ hcov _ _
    have hnone : ∀ y, y ∉ remaining := fun y hy => absurd (hcov y hy) List.not_mem_nil
    exact ⟨by simp [peel], by simp [peel], by simp [peel, hnone], by simp [peel], by simp [peel]⟩
  | cons x order ih =>
    intro remaining later hc hback hcov hlater hs
    unfold peel
    split
    · rename_i hx
      have hg := fun y => mem_reach_back (y := y) hc hback hx
      have hxg : x ∈ reach back remaining [x] := (hg x).mpr ⟨hx, .refl x⟩
      have hrest : ∀ y, y ∈ (reach back remaining [x]).foldl Std.ExtTreeSet.erase remaining ↔
          y ∈ remaining ∧ y ∉ reach back remaining [x] := fun y => mem_foldl_erase
      refine Condensation.cons hc hxg (reach_nodup ..) hg ?_ hrest (ih _ (x :: later) ?_ ?_ ?_ ?_ hs.2)
      · exact fun y hy => hs.mutual_of_leads hc hcov hlater ((hg y).mp hy).1 ((hg y).mp hy).2
      · intro y hy z hz
        obtain ⟨hyr, hyg⟩ := (hrest y).mp hy
        refine (hrest z).mpr ⟨hc y hyr z hz, fun hzg => hyg ?_⟩
        exact (hg y).mpr ⟨hyr, .head hz ((hg z).mp hzg).2⟩
      · exact fun y z hz => hback y z ((hrest z).mp hz).1
      · intro y hy
        obtain ⟨hyr, hyg⟩ := (hrest y).mp hy
        exact (List.mem_cons.mp (hcov y hyr)).resolve_left fun heq => hyg (heq ▸ hxg)
      · intro w hw hwr
        obtain ⟨hwr, hwg⟩ := (hrest w).mp hwr
        rcases List.mem_cons.mp hw with rfl | hw
        · exact hwg hxg
        · exact hlater w hw hwr
    · rename_i hx
      refine ih _ _ hc hback (fun y hy => ?_) ?_ hs.2
      · exact (List.mem_cons.mp (hcov y hy)).resolve_left fun heq => hx (heq ▸ hy)
      · exact List.forall_mem_cons.mpr ⟨hx, hlater⟩

/-- On a closed list of nodes, the strongly connected components are found. -/
theorem components_condensation {nodes : List α} (hc : Closed next (· ∈ nodes)) :
    Condensation next (· ∈ nodes) (components next nodes) := by
  have hall : ∀ x, x ∈ Std.ExtTreeSet.ofList nodes ↔ x ∈ nodes := fun x => mem_ofList_iff
  obtain ⟨hs, hcov⟩ := (depthFirst_start next nodes).finish hc
  have hclosed : Closed next (· ∈ Std.ExtTreeSet.ofList nodes) := fun x hx y hy =>
    (hall y).mpr (hc x ((hall x).mp hx) y hy)
  have hback : ∀ x y, y ∈ Std.ExtTreeSet.ofList nodes → (y ∈ (predecessors next nodes).getD x [] ↔ x ∈ next y) :=
    fun x y hy => by simp [mem_predecessors, (hall y).mp hy]
  have h := peel_condensation (.ofList nodes) [] hclosed hback (fun y hy => hcov y ((hall y).mp hy)) (by simp) hs
  exact ⟨h.nonempty, h.nodup, fun x => (h.mem x).trans (hall x), h.joined, h.ordered⟩

end Search

end Spreadsheet.Graph
