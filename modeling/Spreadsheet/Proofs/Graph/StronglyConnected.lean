import Spreadsheet.Proofs.Graph.LowLink
import Spreadsheet.Proofs.Graph.Plan

/-! # Strongly connected components by low links: the whole search

The search by low links visits nodes in the same order as the depth-first search that lists nodes as they are left
(`Traversal.resume`). So it ends, and its components, the last one first, are those that are taken away along that list
(`Ranked.peel`). Plans are made of them (`Dependencies.Coherent.steps_plan_eq`). -/

namespace Spreadsheet.Graph

variable {α : Type} {next : α → List α} {p : α → Prop} {x y : α} {i : Nat} {frames : List (α × Nat)}
  {rest left taken order : List α} {groups : List (List α)}

/-! ### The order in which components are found -/

/-- Along the nodes that were left, the last one first, and passing over those `taken`, each node comes with its
    component unless that has come before. -/
inductive Ranked : (taken order : List α) → (groups : List (List α)) → Prop where
  | nil {taken : List α} : Ranked taken [] []
  | skip {taken order : List α} {groups : List (List α)} {x : α} (hx : x ∈ taken) (h : Ranked taken order groups) :
      Ranked taken (x :: order) groups
  | take {taken order g : List α} {groups : List (List α)} {x : α} (hx : x ∉ taken) (hg : x ∈ g)
      (h : Ranked (g ++ taken) order groups) : Ranked taken (x :: order) (g :: groups)

theorem Ranked.congr {taken' : List α} (h : Ranked taken order groups) (heq : ∀ x ∈ order, x ∈ taken ↔ x ∈ taken') :
    Ranked taken' order groups := by
  induction h generalizing taken' with
  | nil => exact .nil
  | skip hx _ ih =>
    obtain ⟨hhead, htail⟩ := List.forall_mem_cons.mp heq
    exact .skip (hhead.mp hx) (ih htail)
  | take hx hg _ ih =>
    obtain ⟨hhead, htail⟩ := List.forall_mem_cons.mp heq
    refine .take (mt hhead.mpr hx) hg (ih fun y hy => ?_)
    rw [List.mem_append, List.mem_append, htail y hy]

/-- What a depth-first search still has to visit: for each frame the successors that were not followed, and then the
    nodes at which it starts anew. -/
def pending (next : α → List α) (rest : List α) : List (α × Nat) → List (Visit α)
  | [] => rest.map .enter
  | (x, i) :: frames => ((next x).drop i).map .enter ++ .leave x :: pending next rest frames

theorem pending_of_some (hy : (next x)[i]? = some y) :
    pending next rest ((x, i) :: frames) = .enter y :: pending next rest ((x, i + 1) :: frames) := by
  obtain ⟨hi, rfl⟩ := List.getElem?_eq_some_iff.mp hy
  rw [pending, List.drop_eq_getElem_cons hi]
  rfl

theorem pending_of_none (hdone : (next x)[i]? = none) :
    pending next rest ((x, i) :: frames) = .leave x :: pending next rest frames := by
  rw [pending, List.drop_of_length_le (List.getElem?_eq_none_iff.mp hdone)]
  rfl

theorem pending_eq_nil (h : pending next rest frames = []) : frames = [] ∧ rest = [] := by
  cases frames with
  | nil => exact ⟨rfl, List.map_eq_nil_iff.mp h⟩
  | cons frame frames => exact absurd (List.append_eq_nil_iff.mp h).2 (List.cons_ne_nil _ _)

theorem pending_eq_leave {visits : List (Visit α)} (h : pending next rest frames = .leave x :: visits) :
    ∃ i frames', frames = (x, i) :: frames' ∧ (next x)[i]? = none ∧ visits = pending next rest frames' := by
  cases frames with
  | nil =>
    obtain ⟨y, rest', -, hy, -⟩ := List.map_eq_cons_iff.mp h
    cases hy
  | cons frame frames =>
    obtain ⟨z, i⟩ := frame
    cases hnext : (next z)[i]? with
    | none =>
      rw [pending_of_none hnext] at h
      cases h
      exact ⟨i, frames, rfl, hnext, rfl⟩
    | some y =>
      rw [pending_of_some hnext] at h
      cases h

theorem pending_eq_enter {visits : List (Visit α)} (h : pending next rest frames = .enter y :: visits) :
    (∃ rest', frames = [] ∧ rest = y :: rest' ∧ visits = pending next rest' []) ∨
      ∃ x i frames', frames = (x, i) :: frames' ∧ (next x)[i]? = some y ∧
        visits = pending next rest ((x, i + 1) :: frames') := by
  cases frames with
  | nil =>
    obtain ⟨z, rest', hrest, hz, hvisits⟩ := List.map_eq_cons_iff.mp h
    cases hz
    exact .inl ⟨rest', rfl, hrest, hvisits.symm⟩
  | cons frame frames =>
    obtain ⟨x, i⟩ := frame
    cases hnext : (next x)[i]? with
    | none =>
      rw [pending_of_none hnext] at h
      cases h
    | some z =>
      rw [pending_of_some hnext] at h
      cases h
      exact .inr ⟨x, i, frames, rfl, hnext, rfl⟩

variable [Ord α] [Std.TransOrd α]

/-- Where the components of the nodes that are not taken come along an order, they are what is taken away along that
    order. -/
theorem Ranked.peel [Std.LawfulEqOrd α] {back : α → List α} {remaining : Std.ExtTreeSet α}
    (h : Ranked taken order groups) (hcondensed : Condensation next (· ∈ remaining) groups)
    (hclosed : Closed next (· ∈ remaining)) (hback : ∀ x y, y ∈ remaining → (y ∈ back x ↔ x ∈ next y)) (htaken : ∀ x ∈ taken, x ∉ remaining) :
    List.Forall₂ List.Perm groups (peel back remaining order) := by
  induction h generalizing remaining with
  | nil => exact .nil
  | @skip taken order groups x hx _ ih =>
    rw [Graph.peel, if_neg (htaken x hx)]
    exact ih hcondensed hclosed hback htaken
  | @take taken order g groups x hx hg _ ih =>
    have hxr : x ∈ remaining := (hcondensed.mem x).mp (List.mem_flatten_of_mem List.mem_cons_self hg)
    have hjoined : ∀ y, y ∈ g ↔ Mutual next x y := hcondensed.joined g List.mem_cons_self x hg
    have hreach : ∀ y, y ∈ g ↔ y ∈ reach back remaining [x] := by
      intro y
      rw [mem_reach_back hclosed hback hxr]
      constructor
      · exact fun hy => ⟨hclosed.of_leads hxr ((hjoined y).mp hy).1, ((hjoined y).mp hy).2⟩
      · rintro ⟨hy, hleads⟩
        exact Classical.byContradiction fun hyg => hcondensed.not_leads hg hy hyg hleads
    have hrest : ∀ y, y ∈ (reach back remaining [x]).foldl Std.ExtTreeSet.erase remaining ↔ y ∈ remaining ∧ y ∉ g :=
      fun y => by rw [mem_foldl_erase, hreach]
    rw [Graph.peel, if_pos hxr]
    refine .cons ?_ (ih (hcondensed.tail hrest) (fun y hy z hz => ?_) (fun y z hz => ?_) fun y hy => ?_)
    · exact (List.perm_ext_iff_of_nodup (List.nodup_append.mp hcondensed.nodup).1 (reach_nodup ..)).mpr hreach
    · obtain ⟨hyr, hyg⟩ := (hrest y).mp hy
      refine (hrest z).mpr ⟨hclosed y hyr z hz, fun hzg => hcondensed.not_leads hzg hyr hyg (.single hz)⟩
    · exact hback y z ((hrest z).mp hz).1
    · intro hyr
      obtain ⟨hyr, hyg⟩ := (hrest y).mp hyr
      rcases List.mem_append.mp hy with hy | hy
      · exact hyg hy
      · exact htaken y hy hyr

/-! ### The two searches -/

namespace LowLink
variable {s t : LowLink α} {unmet : Std.ExtTreeSet α}

section Steps
variable [DecidableEq α]

/-- What is left to do of a search: the frames and then the other roots. -/
def resume (next : α → List α) (rest : List α) (frames : List (α × Nat)) (s : LowLink α) : Option (LowLink α) :=
  (run next frames s).bind fun s => rest.foldlM (visit next) s

theorem resume_nil : resume next [] [] s = some s := by
  rw [resume, run]
  rfl

theorem resume_root_of_mem (h : x ∈ s.index) : resume next (x :: rest) [] s = resume next rest [] s := by
  rw [resume, resume, run, Option.bind_some, Option.bind_some, List.foldlM_cons, visit, if_pos h]
  rfl

theorem resume_root (h : x ∉ s.index) : resume next (x :: rest) [] s = resume next rest [(x, 0)] (s.meet x) := by
  rw [resume, resume, run, Option.bind_some, List.foldlM_cons, visit, if_neg h]
  rfl

theorem resume_cons : resume next rest ((x, i) :: frames) s =
    resume next rest (step next x i frames s).1 (step next x i frames s).2 := by
  rw [resume, resume, run]

theorem step_of_not_mem (hy : (next x)[i]? = some y) (hmet : y ∉ s.index) :
    step next x i frames s = ((y, 0) :: (x, i + 1) :: frames, s.meet y) := by
  rw [step, hy]
  simp only
  rw [Std.ExtTreeMap.getElem?_eq_none hmet]

theorem step_of_mem (hy : (next x)[i]? = some y) (hmet : y ∈ s.index) :
    step next x i frames s =
      ((x, i + 1) :: frames, if y ∈ s.onStack then s.lower x (s.number y) else s) := by
  rw [step, hy]
  simp only
  rw [getElem?_index hmet]

theorem step_of_done (hdone : (next x)[i]? = none) : step next x i frames s = (frames, s.leave x frames) := by
  rw [step, hdone]

end Steps

variable [Std.LawfulEqOrd α]

/-- The search, and where a depth-first search is that visits the same nodes. -/
structure Traversal (next : α → List α) (p : α → Prop) (s : LowLink α) (frames : List (α × Nat))
    (unmet : Std.ExtTreeSet α) (left : List α) : Prop where
  invariant : Invariant next s frames
  nodes : ∀ x ∈ s.index, p x
  unmet : ∀ x, x ∈ unmet ↔ p x ∧ x ∉ s.index
  leftMet : ∀ x ∈ left, x ∈ s.index
  ranked : Ranked s.stack left s.groups

theorem Traversal.meet {frames' : List (α × Nat)} (h : Traversal next p s frames unmet left) (hy : y ∈ unmet)
    (hinv : Invariant next (s.meet y) frames') : Traversal next p (s.meet y) frames' (unmet.erase y) left where
  invariant := hinv
  nodes x hx := by
    rcases mem_index_meet.mp hx with rfl | hx
    · exact ((h.unmet x).mp hy).1
    · exact h.nodes x hx
  unmet x := by
    rw [mem_erase_iff, h.unmet, mem_index_meet, not_or, and_left_comm]
  leftMet x hx := mem_index_meet.mpr (.inr (h.leftMet x hx))
  ranked := by
    refine h.ranked.congr fun x hx => ⟨List.mem_cons_of_mem y, fun hmem => (List.mem_cons.mp hmem).resolve_left ?_⟩
    rintro rfl
    exact ((h.unmet x).mp hy).2 (h.leftMet x hx)

theorem Traversal.follow (h : Traversal next p s ((x, i) :: frames) unmet left) (hy : (next x)[i]? = some y)
    (hmet : y ∈ s.index) :
    Traversal next p (if y ∈ s.onStack then s.lower x (s.number y) else s) ((x, i + 1) :: frames) unmet left := by
  have hinv := h.invariant.follow hy hmet
  split at hinv
  · next hon =>
    rw [if_pos hon]
    exact ⟨hinv, h.nodes, h.unmet, h.leftMet, h.ranked⟩
  · next hon =>
    rw [if_neg hon]
    exact ⟨hinv, h.nodes, h.unmet, h.leftMet, h.ranked⟩

theorem traversal_start (next : α → List α) (nodes : List α) :
    Traversal next (· ∈ nodes) start [] (.ofList nodes) [] where
  invariant := invariant_start
  nodes x hx := by simp [start] at hx
  unmet x := by
    rw [mem_ofList_iff]
    simp [start]
  leftMet := nofun
  ranked := .nil

variable [DecidableEq α]

theorem Traversal.leave (h : Traversal next p s ((x, i) :: frames) unmet left) (hdone : (next x)[i]? = none) :
    Traversal next p (s.leave x frames) frames unmet (x :: left) := by
  obtain ⟨hinv, hleaves, hindex⟩ := h.invariant.leave hdone
  have hx := h.invariant.mem_index
  have hranked := h.ranked
  refine ⟨hinv, hindex ▸ h.nodes, hindex ▸ h.unmet, hindex ▸ List.forall_mem_cons.mpr ⟨hx, h.leftMet⟩, ?_⟩
  cases hleaves with
  | stays hstack hgroups =>
    obtain ⟨above, below, hsplit, -⟩ := h.invariant.layers
    rw [hstack, hgroups]
    exact .skip (hsplit ▸ List.mem_append_right _ List.mem_cons_self) hranked
  | closes g hxg hrest hstack hgroups =>
    rw [hgroups]
    exact .take hrest hxg (hstack ▸ hranked)

/-- The search ends, and visits the nodes as a depth-first search does. The induction is on that search. -/
theorem Traversal.resume (hp : Closed next p) (h : Traversal next p s frames unmet left) (hrest : ∀ x ∈ rest, p x)
    (hcover : ∀ x ∈ unmet, x ∈ rest) :
    ∃ t, resume next rest frames s = some t ∧
      Traversal next p t [] ∅ (finish next unmet left (pending next rest frames)) := by
  generalize hvisits : pending next rest frames = visits
  fun_induction finish next unmet left visits generalizing s frames rest with
  | case1 unmet left =>
    obtain ⟨rfl, rfl⟩ := pending_eq_nil hvisits
    refine ⟨s, resume_nil, h.invariant, h.nodes, fun x => ?_, h.leftMet, h.ranked⟩
    refine iff_of_false Std.ExtTreeSet.not_mem_empty fun hx => ?_
    exact List.not_mem_nil (hcover x ((h.unmet x).mpr hx))
  | case2 unmet left x visits ih =>
    obtain ⟨i, frames, rfl, hdone, rfl⟩ := pending_eq_leave hvisits
    rw [resume_cons, step_of_done hdone]
    exact ih (h.leave hdone) hrest hcover rfl
  | case3 unmet left y visits hy ih =>
    have hmet : y ∉ s.index := ((h.unmet y).mp hy).2
    rcases pending_eq_enter hvisits with ⟨rest, rfl, rfl, rfl⟩ | ⟨x, i, frames, rfl, hnext, rfl⟩
    · rw [resume_root hmet]
      refine ih (h.meet hy (h.invariant.root hmet)) (List.forall_mem_cons.mp hrest).2 (fun z hz => ?_) rfl
      obtain ⟨hzy, hz⟩ := mem_erase_iff.mp hz
      exact (List.mem_cons.mp (hcover z hz)).resolve_left hzy
    · rw [resume_cons, step_of_not_mem hnext hmet]
      exact ih (h.meet hy (h.invariant.descend hnext hmet)) hrest
        (fun z hz => hcover z (mem_erase_iff.mp hz).2) rfl
  | case4 unmet left y visits hy ih =>
    have hmet (hpy : p y) : y ∈ s.index := Classical.byContradiction fun hn => hy ((h.unmet y).mpr ⟨hpy, hn⟩)
    rcases pending_eq_enter hvisits with ⟨rest, rfl, rfl, rfl⟩ | ⟨x, i, frames, rfl, hnext, rfl⟩
    · obtain ⟨hpy, hrest⟩ := List.forall_mem_cons.mp hrest
      rw [resume_root_of_mem (hmet hpy)]
      refine ih h hrest (fun z hz => (List.mem_cons.mp (hcover z hz)).resolve_left ?_) rfl
      rintro rfl
      exact hy hz
    · have hpy := hp x (h.nodes x h.invariant.mem_index) y (List.mem_of_getElem? hnext)
      rw [resume_cons, step_of_mem hnext (hmet hpy)]
      exact ih (h.follow hnext (hmet hpy)) hrest hcover rfl

/-- From the nodes of a closed list, the search finds the strongly connected components, in the reverse of the order in
    which they are taken away along the order in which the nodes are left. -/
theorem exists_search_eq_some {nodes : List α} (hc : Closed next (· ∈ nodes)) :
    ∃ s, search next nodes = some s ∧ Condensation next (· ∈ nodes) s.groups ∧
      List.Forall₂ List.Perm s.groups (components next nodes) := by
  obtain ⟨s, hs, ht⟩ := (traversal_start next nodes).resume hc (fun _ hx => hx) fun x hx => mem_ofList_iff.mp hx
  have hsearch : search next nodes = some s := by
    rw [LowLink.resume, run] at hs
    exact hs
  have hstack : s.stack = [] := ht.invariant.layers
  have hmem : ∀ x, x ∈ s.groups.flatten ↔ x ∈ nodes := by
    intro x
    have hmet := ht.invariant.met x
    have hunmet := ht.unmet x
    simp only [hstack, List.not_mem_nil, false_or, Std.ExtTreeSet.not_mem_empty, false_iff, not_and,
      Classical.not_not] at hmet hunmet
    exact hmet.symm.trans ⟨ht.nodes x, hunmet⟩
  have hcondensed := ht.invariant.condensed
  have hset : ∀ x, x ∈ Std.ExtTreeSet.ofList nodes ↔ x ∈ nodes := fun x => mem_ofList_iff
  have hall : Condensation next (· ∈ Std.ExtTreeSet.ofList nodes) s.groups :=
    { hcondensed with mem := fun x => (hmem x).trans (hset x).symm }
  have hclosed : Closed next (· ∈ Std.ExtTreeSet.ofList nodes) := fun x hx y hy =>
    (hset y).mpr (hc x ((hset x).mp hx) y hy)
  have hback : ∀ x y, y ∈ Std.ExtTreeSet.ofList nodes → (y ∈ (predecessors next nodes).getD x [] ↔ x ∈ next y) :=
    fun x y hy => by simp [mem_predecessors, (hset y).mp hy]
  have hranked := ht.ranked
  rw [hstack] at hranked
  exact ⟨s, hsearch, { hcondensed with mem := hmem }, hranked.peel hall hclosed hback nofun⟩

end LowLink

/-! ### Lists of successors -/

/-- The search by low links ends on every list of successors that are places in it. It divides the places into the
    classes of those that lead to each other, and each class comes after the other classes to which it leads. -/
theorem stronglyConnected_partition {successors : List (List Nat)}
    (h : ∀ ys ∈ successors, ∀ y ∈ ys, y < successors.length) :
    ∃ groups, stronglyConnected successors = some groups ∧ (∀ g ∈ groups, g ≠ []) ∧
      groups.flatten.Perm (List.range successors.length) ∧
      (∀ x < successors.length, ∀ y < successors.length,
        (∃ g ∈ groups, x ∈ g ∧ y ∈ g) ↔ Mutual (successorsIn successors) x y) ∧
      groups.Pairwise fun g g' => ∀ x ∈ g, ∀ y ∈ g', ¬Leads (successorsIn successors) x y := by
  have hc : Closed (successorsIn successors) (· ∈ List.range successors.length) := by
    intro x hx y hy
    have hlt := List.mem_range.mp hx
    rw [successorsIn, List.getD_eq_getElem?_getD, List.getElem?_eq_getElem hlt, Option.getD_some] at hy
    exact List.mem_range.mpr (h _ (List.getElem_mem hlt) y hy)
  obtain ⟨s, hs, hcondensed, -⟩ := LowLink.exists_search_eq_some hc
  refine ⟨s.groups.reverse, by rw [stronglyConnected, hs, Option.map_some], fun g hg => ?_, ?_, fun x hx y _ => ?_, ?_⟩
  · exact hcondensed.nonempty g (List.mem_reverse.mp hg)
  · refine (List.reverse_perm _).flatten.trans ?_
    exact (List.perm_ext_iff_of_nodup hcondensed.nodup List.nodup_range).mpr hcondensed.mem
  · constructor
    · rintro ⟨g, hg, hxg, hyg⟩
      exact (hcondensed.joined g (List.mem_reverse.mp hg) x hxg y).mp hyg
    · intro hm
      obtain ⟨g, hg, hxg⟩ := List.mem_flatten.mp ((hcondensed.mem x).mpr (List.mem_range.mpr hx))
      exact ⟨g, List.mem_reverse.mpr hg, hxg, (hcondensed.joined g hg x hxg y).mpr hm⟩
  · exact List.pairwise_reverse.mpr (hcondensed.ordered.imp fun hgg' x hx y hy => hgg' y hy x hx)

theorem stronglyConnected_partition_ring :
    (∀ ys ∈ [[1, 1], [2], [0, 3], [3]], ∀ y ∈ ys, y < [[1, 1], [2], [0, 3], [3]].length) ∧
      ∃ groups, stronglyConnected [[1, 1], [2], [0, 3], [3]] = some groups ∧
        groups.flatten.Perm (List.range [[1, 1], [2], [0, 3], [3]].length) ∧ ∃ g ∈ groups, 1 ∈ g ∧ 0 ∈ g := by
  have hbound : ∀ ys ∈ [[1, 1], [2], [0, 3], [3]], ∀ y ∈ ys, y < [[1, 1], [2], [0, 3], [3]].length := by decide
  obtain ⟨groups, hgroups, -, hperm, hjoined, -⟩ := stronglyConnected_partition hbound
  refine ⟨hbound, groups, hgroups, hperm, (hjoined 1 (by decide) 0 (by decide)).mpr ⟨?_, ?_⟩⟩
  · exact .head (by decide : 2 ∈ _) (.single (by decide))
  · exact .single (by decide)

example : stronglyConnected [[1, 1], [2], [0, 3], [3]] = some [[3], [2, 1, 0]] := by cbv

end Spreadsheet.Graph

namespace Spreadsheet.Dependencies
open Spreadsheet.Graph

/-! ### Plans -/

theorem stepOf_congr {next : Location → List Location} {g g' : List Location} (h : g.Perm g') :
    stepOf next g = stepOf next g' := by
  have hsorted : sorted g = sorted g' := sorted_congr fun l => h.mem_iff
  match g, g' with
  | [], g' => rw [List.nil_perm.mp h]
  | [l], g' => rw [List.singleton_perm.mp h]
  | l :: m :: g, [] => cases List.perm_nil.mp h
  | l :: m :: g, [l'] => cases List.perm_singleton.mp h
  | l :: m :: g, l' :: m' :: g' => exact congrArg Step.cycle hsorted

theorem map_stepOf_congr {next : Location → List Location} {groups groups' : List (List Location)}
    (h : List.Forall₂ List.Perm groups groups') : groups.map (stepOf next) = groups'.map (stepOf next) := by
  induction h with
  | nil => rfl
  | cons hg _ ih => rw [List.map_cons, List.map_cons, stepOf_congr hg, ih]

/-- The steps of a plan are the components that the search by low links finds, the last one first. -/
theorem Coherent.steps_plan_eq {d : Dependencies} (h : d.Coherent) (changed : List Location) :
    ∃ next : Location → List Location, (∀ l ∈ d.affected changed, next l = d.dependents l) ∧
      ∃ s, LowLink.search next (d.affected changed) = some s ∧
        (d.plan changed).steps = s.groups.map (stepOf next) := by
  have hnext : ∀ l ∈ d.affected changed, (d.dependentsOf (d.affected changed)).getD l [] = d.dependents l :=
    fun l hl => getD_dependentsOf.trans (if_pos hl)
  refine ⟨fun l => (d.dependentsOf (d.affected changed)).getD l [], hnext, ?_⟩
  obtain ⟨s, hs, -, hperm⟩ := LowLink.exists_search_eq_some fun x hx y hy =>
    h.closed_affected x hx y (hnext x hx ▸ hy)
  exact ⟨s, hs, (map_stepOf_congr hperm).symm⟩

end Spreadsheet.Dependencies
