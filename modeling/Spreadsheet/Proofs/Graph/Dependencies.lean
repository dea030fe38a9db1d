import Spreadsheet.Graph.Plan
import Spreadsheet.Proofs.Graph.Reachability

/-! # Dependencies in both directions

The readers kept for each cell and block are those whose precedents name it (`Coherent`), after any
changes. So the dependents of a cell are exactly the cells that read it, themselves or in a block. -/

namespace Spreadsheet
open Relation Spreadsheet.Graph

namespace Dependencies

/-! ### Lists in order -/

theorem mem_distinct {ps : List Precedent} {p : Precedent} : p ∈ distinct ps ↔ p ∈ ps := by
  rw [distinct, Std.ExtTreeSet.mem_toList, mem_ofList_iff]

theorem distinct_congr {ps qs : List Precedent} (h : ∀ p, p ∈ ps ↔ p ∈ qs) : distinct ps = distinct qs := by
  unfold distinct
  rw [Std.ExtTreeSet.toList_inj]
  exact Std.ExtTreeSet.ext_mem fun p => by rw [mem_ofList_iff, mem_ofList_iff, h]

theorem distinct_distinct (ps : List Precedent) : distinct (distinct ps) = distinct ps :=
  distinct_congr fun _ => mem_distinct

theorem pairwise_distinct (ps : List Precedent) : (distinct ps).Pairwise fun a b => compare a b = .lt :=
  Std.ExtTreeSet.ordered_toList

theorem mem_sorted {cells : List Location} {l : Location} : l ∈ sorted cells ↔ l ∈ cells := by
  rw [sorted, Std.ExtTreeSet.mem_toList, mem_ofList_iff]

theorem sorted_congr {cells others : List Location} (h : ∀ l, l ∈ cells ↔ l ∈ others) :
    sorted cells = sorted others := by
  unfold sorted
  rw [Std.ExtTreeSet.toList_inj]
  exact Std.ExtTreeSet.ext_mem fun l => by rw [mem_ofList_iff, mem_ofList_iff, h]

theorem pairwise_sorted (cells : List Location) : (sorted cells).Pairwise fun a b => compare a b = .lt :=
  Std.ExtTreeSet.ordered_toList

theorem nodup_of_pairwise_lt {cells : List Location} (h : cells.Pairwise fun a b => compare a b = .lt) :
    cells.Nodup :=
  h.imp fun hlt heq => by simp [heq] at hlt

/-- Lists in order are equal if they have the same members. -/
theorem eq_of_pairwise_lt {cells others : List Location} (hc : cells.Pairwise fun a b => compare a b = .lt)
    (ho : others.Pairwise fun a b => compare a b = .lt) (hmem : ∀ l, l ∈ cells ↔ l ∈ others) : cells = others := by
  have hperm := (List.perm_ext_iff_of_nodup (nodup_of_pairwise_lt hc) (nodup_of_pairwise_lt ho)).mpr hmem
  refine hperm.eq_of_pairwise (fun a b _ _ hab hba => ?_) hc ho
  rw [Std.OrientedCmp.gt_iff_lt.mpr hab] at hba
  cases hba

/-! ### Readers -/

theorem mem_get_add {κ : Type} [Ord κ] [Std.TransOrd κ] [Std.LawfulEqOrd κ] {r : Readers κ} {k j : κ} {y z : Location} :
    z ∈ (r.add y k).get j ↔ k = j ∧ z = y ∨ z ∈ r.get j := by
  simp only [Readers.get, Readers.add, Std.ExtTreeMap.getD_alter, Std.compare_eq_iff_eq]
  by_cases hk : k = j
  · subst hk
    simp [eq_comm (a := z), Std.ExtTreeMap.getD_eq_getD_getElem?]
  · simp [hk]

theorem mem_get_remove {κ : Type} [Ord κ] [Std.TransOrd κ] [Std.LawfulEqOrd κ] {r : Readers κ} {k j : κ}
    {y z : Location} : z ∈ (r.remove y k).get j ↔ z ∈ r.get j ∧ ¬(k = j ∧ z = y) := by
  simp only [Readers.get, Readers.remove, Std.ExtTreeMap.getD_alter, Std.compare_eq_iff_eq]
  by_cases hk : k = j
  · subst hk
    have hz : z ∈ ((r.readersOf[k]?).getD ∅).erase y ↔ z ∈ r.readersOf.getD k ∅ ∧ ¬z = y := by
      rw [mem_erase_iff, Std.ExtTreeMap.getD_eq_getD_getElem?, and_comm]
    rw [if_pos Std.compare_self]
    split
    · rename_i hempty
      rw [Std.ExtTreeSet.isEmpty_iff.mp hempty] at hz
      simpa using hz
    · simpa using hz
  · simp [hk]

theorem eq_empty_of_isEmpty {κ : Type} [Ord κ] [Std.TransOrd κ] {r : Readers κ} (h : r.isEmpty = true) : r = .empty :=
  congrArg Readers.mk (Std.ExtTreeMap.isEmpty_iff.mp h)

theorem blocksOn_addReader {d : Dependencies} {b : Block} {y : Location} {sheet : Nat} :
    (addReader y d (.block b)).blocksOn sheet =
      if b.sheet = sheet then (d.blocksOn sheet).add y b else d.blocksOn sheet := by
  simp only [addReader, blocksOn, Std.ExtTreeMap.getD_alter, Std.compare_eq_iff_eq]
  split
  · rename_i hsheet
    rw [hsheet, Option.getD_some, Std.ExtTreeMap.getD_eq_getD_getElem?]
  · rfl

theorem blocksOn_removeReader {d : Dependencies} {b : Block} {y : Location} {sheet : Nat} :
    (removeReader y d (.block b)).blocksOn sheet =
      if b.sheet = sheet then (d.blocksOn sheet).remove y b else d.blocksOn sheet := by
  simp only [removeReader, blocksOn, Std.ExtTreeMap.getD_alter, Std.compare_eq_iff_eq]
  split
  · rename_i hsheet
    rw [hsheet, ← Std.ExtTreeMap.getD_eq_getD_getElem?]
    split
    · rename_i hempty
      exact (eq_empty_of_isEmpty hempty).symm
    · rfl
  · rfl

/-- The cells kept as readers of a precedent. -/
def readersOf (d : Dependencies) : Precedent → Std.ExtTreeSet Location
  | .cell l => d.cellReaders.get l
  | .block b => (d.blocksOn b.sheet).get b

theorem mem_readersOf_addReader {d : Dependencies} {p q : Precedent} {y z : Location} :
    z ∈ (addReader y d p).readersOf q ↔ p = q ∧ z = y ∨ z ∈ d.readersOf q := by
  cases p with
  | cell l => cases q <;> simp [addReader, readersOf, blocksOn, mem_get_add]
  | block b =>
    cases q with
    | cell m => simp [addReader, readersOf]
    | block c =>
      simp only [readersOf, blocksOn_addReader, Precedent.block.injEq]
      split
      · exact mem_get_add
      · rename_i hsheet
        have hne : b ≠ c := fun heq => hsheet (congrArg Block.sheet heq)
        simp [hne]

theorem mem_readersOf_removeReader {d : Dependencies} {p q : Precedent} {y z : Location} :
    z ∈ (removeReader y d p).readersOf q ↔ z ∈ d.readersOf q ∧ ¬(p = q ∧ z = y) := by
  cases p with
  | cell l => cases q <;> simp [removeReader, readersOf, blocksOn, mem_get_remove]
  | block b =>
    cases q with
    | cell m => simp [removeReader, readersOf]
    | block c =>
      simp only [readersOf, blocksOn_removeReader, Precedent.block.injEq]
      split
      · exact mem_get_remove
      · rename_i hsheet
        have hne : b ≠ c := fun heq => hsheet (congrArg Block.sheet heq)
        simp [hne]

theorem mem_readersOf_addAll {q : Precedent} {y z : Location} {ps : List Precedent} : ∀ {d : Dependencies},
    z ∈ (ps.foldl (addReader y) d).readersOf q ↔ q ∈ ps ∧ z = y ∨ z ∈ d.readersOf q := by
  induction ps with
  | nil => simp
  | cons p ps ih =>
    intro d
    rw [List.foldl_cons, ih, mem_readersOf_addReader, List.mem_cons, ← or_assoc, ← or_and_right, or_comm (a := q ∈ ps),
      eq_comm (a := p)]

theorem mem_readersOf_removeAll {q : Precedent} {y z : Location} {ps : List Precedent} : ∀ {d : Dependencies},
    z ∈ (ps.foldl (removeReader y) d).readersOf q ↔ z ∈ d.readersOf q ∧ ¬(q ∈ ps ∧ z = y) := by
  induction ps with
  | nil => simp
  | cons p ps ih =>
    intro d
    rw [List.foldl_cons, ih, mem_readersOf_removeReader, List.mem_cons, and_assoc, ← not_or, ← or_and_right,
      eq_comm (a := p)]

/-! ### What changes do -/

theorem precedents_clear {d : Dependencies} {y z : Location} :
    (d.clear y).precedents z = if z = y then [] else d.precedents z := by
  simp only [clear, precedents, Std.ExtTreeMap.getD_erase, Std.compare_eq_iff_eq, eq_comm (a := y)]

theorem mem_readersOf_clear {d : Dependencies} {q : Precedent} {y z : Location} :
    z ∈ (d.clear y).readersOf q ↔ z ∈ d.readersOf q ∧ ¬(q ∈ d.precedents y ∧ z = y) :=
  mem_readersOf_removeAll (d := d)

theorem precedents_set {d : Dependencies} {ps : List Precedent} {y z : Location} :
    (d.set y ps).precedents z = if z = y then distinct ps else d.precedents z := by
  unfold set
  split
  · rename_i hnil
    rw [precedents_clear, hnil]
  · simp only [precedents, Std.ExtTreeMap.getD_insert, Std.compare_eq_iff_eq, eq_comm (a := y)]
    split
    · rfl
    · rename_i hne
      have hclear := precedents_clear (d := d) (y := y) (z := z)
      rwa [if_neg hne] at hclear

theorem mem_readersOf_set {d : Dependencies} {ps : List Precedent} {q : Precedent} {y z : Location} :
    z ∈ (d.set y ps).readersOf q ↔ q ∈ ps ∧ z = y ∨ z ∈ (d.clear y).readersOf q := by
  unfold set
  split
  · rename_i hnil
    have hno : q ∉ ps := fun hq => by simpa [hnil] using mem_distinct.mpr hq
    simp [hno]
  · have hq : q ∈ distinct ps ↔ q ∈ ps := mem_distinct
    rw [← hq]
    exact mem_readersOf_addAll (d := d.clear y)

/-! ### The invariant -/

/-- Each list of precedents is in order without repetition, and the readers of each precedent are those
    whose list names it. -/
structure Coherent (d : Dependencies) : Prop where
  distinct : ∀ y, distinct (d.precedents y) = d.precedents y
  readers : ∀ p y, y ∈ d.readersOf p ↔ p ∈ d.precedents y

theorem coherent_empty : Coherent empty where
  distinct _ := by simp [empty, precedents, Dependencies.distinct]
  readers p _ := by cases p <;> simp [empty, precedents, readersOf, blocksOn, Readers.empty, Readers.get]

theorem Coherent.clear {d : Dependencies} (h : d.Coherent) (y : Location) : (d.clear y).Coherent where
  distinct z := by
    rw [precedents_clear]
    split
    · rfl
    · exact h.distinct z
  readers p z := by
    rw [mem_readersOf_clear, h.readers, precedents_clear]
    split
    · rename_i hz
      subst hz
      simp
    · rename_i hz
      simp [hz]

theorem Coherent.set {d : Dependencies} (h : d.Coherent) (y : Location) (ps : List Precedent) :
    (d.set y ps).Coherent where
  distinct z := by
    rw [precedents_set]
    split
    · exact distinct_distinct ps
    · exact h.distinct z
  readers p z := by
    rw [mem_readersOf_set, (h.clear y).readers, precedents_clear, precedents_set]
    split
    · rename_i hz
      simp [hz, mem_distinct]
    · rename_i hz
      simp [hz]

/-- A change to the dependencies as a whole. -/
inductive Change where
  /-- A cell reads the given precedents and nothing else. -/
  | set (cell : Location) (precedents : List Precedent)
  /-- A cell reads nothing any more. -/
  | clear (cell : Location)
  /-- No cell reads anything any more. -/
  | clearAll

/-- The dependencies after a change. -/
def after (d : Dependencies) : Change → Dependencies
  | .set cell precedents => d.set cell precedents
  | .clear cell => d.clear cell
  | .clearAll => empty

/-- The dependencies after changes in turn, from none. -/
def ofChanges (changes : List Change) : Dependencies :=
  changes.foldl after empty

theorem coherent_ofChanges (changes : List Change) : (ofChanges changes).Coherent := by
  suffices h : ∀ d : Dependencies, d.Coherent → (changes.foldl after d).Coherent from h empty coherent_empty
  induction changes with
  | nil => exact fun _ hd => hd
  | cons c changes ih =>
    intro d hd
    refine ih _ ?_
    cases c with
    | set cell precedents => exact hd.set cell precedents
    | clear cell => exact hd.clear cell
    | clearAll => exact coherent_empty

/-! ### Who reads a cell -/

/-- A cell reads another one, itself or in a block. -/
def Reads (d : Dependencies) (reader cell : Location) : Prop :=
  ∃ p ∈ d.precedents reader, p.Covers cell

/-- A cell reads itself, through other cells or at once. -/
def OnCycle (d : Dependencies) : Location → Prop :=
  fun cell => TransGen d.Reads cell cell

theorem mem_foldl_union {entries : List (Block × Std.ExtTreeSet Location)} {z : Location} :
    ∀ {found : Std.ExtTreeSet Location},
      z ∈ entries.foldl (fun found (_, readers) => found ∪ readers) found ↔ z ∈ found ∨ ∃ e ∈ entries, z ∈ e.2 := by
  induction entries with
  | nil => simp
  | cons e entries ih =>
    intro found
    rw [List.foldl_cons, ih, Std.ExtTreeSet.mem_union_iff, or_assoc]
    simp only [List.mem_cons, or_and_right, exists_or, exists_eq_left]

theorem mem_dependents {d : Dependencies} {x y : Location} :
    y ∈ d.dependents x ↔ ∃ p : Precedent, p.Covers x ∧ y ∈ d.readersOf p := by
  rw [dependents, Std.ExtTreeSet.mem_toList, mem_foldl_union]
  constructor
  · rintro (hy | ⟨⟨b, readers⟩, he, hy⟩)
    · exact ⟨.cell x, rfl, hy⟩
    · obtain ⟨he, hb⟩ := List.mem_filter.mp he
      have hget := Std.ExtTreeMap.mem_toList_iff_getElem?_eq_some.mp he
      have hcover : b.Contains x := of_decide_eq_true hb
      refine ⟨.block b, hcover, ?_⟩
      simpa [readersOf, ← hcover.1, Readers.get, Std.ExtTreeMap.getD_eq_getD_getElem?, hget] using hy
  · rintro ⟨p, hp, hy⟩
    cases p with
    | cell l =>
      obtain rfl : l = x := hp
      exact Or.inl hy
    | block b =>
      have hsheet : x.sheet = b.sheet := (show b.Contains x from hp).1
      rw [readersOf, ← hsheet] at hy
      refine Or.inr ?_
      cases hget : (d.blocksOn x.sheet).readersOf[b]? with
      | none => simp [Readers.get, Std.ExtTreeMap.getD_eq_getD_getElem?, hget] at hy
      | some readers =>
        refine ⟨(b, readers), List.mem_filter.mpr ⟨?_, decide_eq_true hp⟩, ?_⟩
        · exact Std.ExtTreeMap.mem_toList_iff_getElem?_eq_some.mpr hget
        · simpa [Readers.get, Std.ExtTreeMap.getD_eq_getD_getElem?, hget] using hy

theorem pairwise_dependents (d : Dependencies) (x : Location) :
    (d.dependents x).Pairwise fun a b => compare a b = .lt :=
  Std.ExtTreeSet.ordered_toList

/-- The dependents of a cell are the cells that read it. -/
theorem Coherent.mem_dependents {d : Dependencies} (h : d.Coherent) {x y : Location} :
    y ∈ d.dependents x ↔ d.Reads y x := by
  rw [Dependencies.mem_dependents]
  constructor
  · rintro ⟨p, hp, hy⟩
    exact ⟨p, (h.readers p y).mp hy, hp⟩
  · rintro ⟨p, hmem, hp⟩
    exact ⟨p, hp, (h.readers p y).mpr hmem⟩

theorem mem_readers_of_reads {d : Dependencies} {x y : Location} (h : d.Reads y x) : y ∈ d.readers := by
  obtain ⟨p, hp, -⟩ := h
  rw [readers, Std.ExtTreeMap.mem_keys, Std.ExtTreeMap.mem_iff_isSome_getElem?]
  cases hget : d.precedentsOf[y]? with
  | none => simp [precedents, Std.ExtTreeMap.getD_eq_getD_getElem?, hget] at hp
  | some ps => rfl

/-- A path of dependents goes from a cell to those that read it, through other cells. -/
theorem Coherent.leads_iff {d : Dependencies} (h : d.Coherent) {x y : Location} :
    Leads d.dependents x y ↔ ReflTransGen d.Reads y x := by
  constructor
  · intro hl
    induction hl with
    | refl => exact .refl
    | tail _ hedge ih => exact ih.head (h.mem_dependents.mp hedge)
  · intro hr
    induction hr with
    | refl => exact .refl y
    | tail _ hedge ih => exact .head (h.mem_dependents.mpr hedge) ih

end Dependencies

end Spreadsheet
