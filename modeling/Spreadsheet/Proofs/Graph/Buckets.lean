import Mathlib.Data.Set.Card
import Spreadsheet.Proofs.Graph.Dependencies

/-! # Nothing is kept that nobody reads

What the two directions of the dependencies hold is settled by the precedents that were last set for each
cell: a map has a key only where there is something to find (`Frugal`), so that what is looked up tells the
maps apart. The order of changes leaves no trace, and without precedents nothing is left. -/

namespace Spreadsheet
open Spreadsheet.Graph

/-! ### Maps without idle keys -/

/-- No key is kept with the value that stands for a missing one. -/
def Frugal {κ β : Type} [Ord κ] [Std.TransOrd κ] (m : Std.ExtTreeMap κ β) (missing : β) : Prop :=
  ∀ (k : κ) (v : β), m[k]? = some v → v ≠ missing

namespace Frugal
variable {κ β : Type} [Ord κ] [Std.TransOrd κ] {m n : Std.ExtTreeMap κ β} {missing : β}

theorem empty : Frugal (∅ : Std.ExtTreeMap κ β) missing := by
  simp [Frugal]

theorem getElem?_eq (h : Frugal m missing) {k : κ} {v : β} : m[k]? = some v ↔ m.getD k missing = v ∧ v ≠ missing := by
  rw [Std.ExtTreeMap.getD_eq_getD_getElem?]
  constructor
  · intro hk
    exact ⟨by rw [hk, Option.getD_some], h k v hk⟩
  · rintro ⟨hk, hv⟩
    cases hget : m[k]? with
    | none =>
      rw [hget, Option.getD_none] at hk
      exact absurd hk.symm hv
    | some w => rw [← hk, hget, Option.getD_some]

theorem alter (h : Frugal m missing) {k : κ} {f : Option β → Option β} (hf : ∀ v, f m[k]? = some v → v ≠ missing) :
    Frugal (m.alter k f) missing := by
  intro j v hv
  rw [Std.ExtTreeMap.getElem?_alter] at hv
  split at hv
  · exact hf v hv
  · exact h j v hv

theorem insert (h : Frugal m missing) {k : κ} {v : β} (hv : v ≠ missing) : Frugal (m.insert k v) missing := by
  intro j w hw
  rw [Std.ExtTreeMap.getElem?_insert] at hw
  split at hw
  · cases hw
    exact hv
  · exact h j w hw

theorem erase (h : Frugal m missing) (k : κ) : Frugal (m.erase k) missing := by
  intro j v hv
  rw [Std.ExtTreeMap.getElem?_erase] at hv
  split at hv
  · cases hv
  · exact h j v hv

/-- What is found under each key settles the map. -/
theorem ext [Std.LawfulEqOrd κ] (hm : Frugal m missing) (hn : Frugal n missing)
    (heq : ∀ k, m.getD k missing = n.getD k missing) : m = n := by
  refine Std.ExtTreeMap.ext_getElem? fun k => Option.ext fun v => ?_
  rw [hm.getElem?_eq, hn.getElem?_eq, heq]

end Frugal

/-! ### Readers -/

namespace Readers
variable {κ : Type} [Ord κ] [Std.TransOrd κ] {r s : Readers κ}

/-- Nothing is kept without readers. -/
def Tidy (r : Readers κ) : Prop :=
  Frugal r.readersOf ∅

theorem tidy_empty : (empty : Readers κ).Tidy := Frugal.empty

theorem Tidy.add (h : r.Tidy) (y : Location) (k : κ) : (r.add y k).Tidy := by
  refine Frugal.alter h fun readers hreaders => ?_
  cases hreaders
  exact Std.ExtTreeSet.insert_ne_empty

theorem Tidy.remove (h : r.Tidy) (y : Location) (k : κ) : (r.remove y k).Tidy := by
  refine Frugal.alter h fun readers hreaders => ?_
  dsimp only at hreaders
  split at hreaders
  · cases hreaders
  · rename_i hempty
    cases hreaders
    exact fun heq => hempty (Std.ExtTreeSet.isEmpty_iff.mpr heq)

variable [Std.LawfulEqOrd κ]

theorem Tidy.ext (hr : r.Tidy) (hs : s.Tidy) (hget : ∀ k y, y ∈ r.get k ↔ y ∈ s.get k) : r = s :=
  congrArg mk (Frugal.ext hr hs fun k => Std.ExtTreeSet.ext_mem (hget k))

theorem add_ne_empty {y : Location} {k : κ} : r.add y k ≠ empty := by
  intro heq
  have hmem : y ∈ (r.add y k).get k := Dependencies.mem_get_add.mpr (Or.inl ⟨rfl, rfl⟩)
  rw [heq] at hmem
  simp [get, empty] at hmem

end Readers

namespace Dependencies
variable {d f : Dependencies} {l m : Location} {p : Precedent} {ps : List Precedent}

/-- No cell is kept without precedents, no cell and no block without readers, and no sheet without a block that
    is its own. -/
structure Tidy (d : Dependencies) : Prop where
  precedents : Frugal d.precedentsOf []
  cells : d.cellReaders.Tidy
  sheets : Frugal d.blockReaders .empty
  blocks : ∀ sheet, (d.blocksOn sheet).Tidy
  placed : ∀ sheet b y, y ∈ (d.blocksOn sheet).get b → b.sheet = sheet

theorem tidy_empty : empty.Tidy where
  precedents := .empty
  cells := Readers.tidy_empty
  sheets := .empty
  blocks _ := by simpa [empty, blocksOn] using Readers.tidy_empty
  placed _ _ _ h := by simp [empty, blocksOn, Readers.empty, Readers.get] at h

theorem Tidy.addReader (h : d.Tidy) (y : Location) (p : Precedent) : (addReader y d p).Tidy := by
  cases p with
  | cell l => exact ⟨h.precedents, h.cells.add y l, h.sheets, h.blocks, h.placed⟩
  | block b =>
    refine ⟨h.precedents, h.cells, h.sheets.alter fun blocks hblocks => ?_, fun sheet => ?_, fun sheet c z hz => ?_⟩
    · cases hblocks
      exact Readers.add_ne_empty
    · rw [blocksOn_addReader]
      split
      · exact (h.blocks sheet).add y b
      · exact h.blocks sheet
    · rw [blocksOn_addReader] at hz
      split at hz
      · rename_i hsheet
        rcases mem_get_add.mp hz with ⟨rfl, -⟩ | hz
        · exact hsheet
        · exact h.placed sheet c z hz
      · exact h.placed sheet c z hz

theorem Tidy.removeReader (h : d.Tidy) (y : Location) (p : Precedent) : (removeReader y d p).Tidy := by
  cases p with
  | cell l => exact ⟨h.precedents, h.cells.remove y l, h.sheets, h.blocks, h.placed⟩
  | block b =>
    refine ⟨h.precedents, h.cells, h.sheets.alter fun blocks hblocks => ?_, fun sheet => ?_, fun sheet c z hz => ?_⟩
    · dsimp only at hblocks
      split at hblocks
      · cases hblocks
      · rename_i hempty
        cases hblocks
        intro heq
        rw [heq] at hempty
        exact hempty Std.ExtTreeMap.isEmpty_empty
    · rw [blocksOn_removeReader]
      split
      · exact (h.blocks sheet).remove y b
      · exact h.blocks sheet
    · rw [blocksOn_removeReader] at hz
      split at hz
      · exact h.placed sheet c z (mem_get_remove.mp hz).1
      · exact h.placed sheet c z hz

theorem Tidy.clear (h : d.Tidy) (y : Location) : (d.clear y).Tidy := by
  have hremoved : ((d.precedents y).foldl (Dependencies.removeReader y) d).Tidy :=
    List.foldlRecOn (motive := Tidy) _ _ h fun _ hd p _ => hd.removeReader y p
  exact ⟨h.precedents.erase y, hremoved.cells, hremoved.sheets, hremoved.blocks, hremoved.placed⟩

theorem Tidy.set (h : d.Tidy) (y : Location) (ps : List Precedent) : (d.set y ps).Tidy := by
  unfold Dependencies.set
  split
  · exact h.clear y
  · rename_i hne
    have hadded : ((distinct ps).foldl (Dependencies.addReader y) (d.clear y)).Tidy :=
      List.foldlRecOn (motive := Tidy) _ _ (h.clear y) fun _ hd p _ => hd.addReader y p
    exact ⟨(h.clear y).precedents.insert hne, hadded.cells, hadded.sheets, hadded.blocks, hadded.placed⟩

theorem Tidy.after (h : d.Tidy) (c : Change) : (d.after c).Tidy := by
  cases c with
  | set cell precedents => exact h.set cell precedents
  | clear cell => exact h.clear cell
  | clearAll => exact tidy_empty

theorem tidy_ofChanges (changes : List Change) : (ofChanges changes).Tidy :=
  List.foldlRecOn (motive := Tidy) changes after tidy_empty fun _ hd c _ => hd.after c

/-! ### The maps by what they tell -/

theorem Tidy.mem_get_blocksOn (h : d.Tidy) {sheet : Nat} {b : Block} {y : Location} :
    y ∈ (d.blocksOn sheet).get b ↔ b.sheet = sheet ∧ y ∈ d.readersOf (.block b) := by
  constructor
  · intro hy
    obtain rfl := h.placed sheet b y hy
    exact ⟨rfl, hy⟩
  · rintro ⟨rfl, hy⟩
    exact hy

/-- The precedents of the cells settle all that is kept. -/
theorem Tidy.ext (hd : d.Tidy) (hf : f.Tidy) (hcd : d.Coherent) (hcf : f.Coherent)
    (heq : ∀ l, d.precedents l = f.precedents l) : d = f := by
  have hreaders : ∀ p y, y ∈ d.readersOf p ↔ y ∈ f.readersOf p := fun p y => by
    rw [hcd.readers, hcf.readers, heq]
  have hprecedents : d.precedentsOf = f.precedentsOf := hd.precedents.ext hf.precedents heq
  have hcells : d.cellReaders = f.cellReaders := hd.cells.ext hf.cells fun l => hreaders (.cell l)
  have hblocks : d.blockReaders = f.blockReaders := hd.sheets.ext hf.sheets fun sheet =>
    (hd.blocks sheet).ext (hf.blocks sheet) fun b y => by
      show y ∈ (d.blocksOn sheet).get b ↔ y ∈ (f.blocksOn sheet).get b
      rw [hd.mem_get_blocksOn, hf.mem_get_blocksOn, hreaders]
  cases d
  cases f
  cases hprecedents
  cases hcells
  cases hblocks
  rfl

theorem Tidy.mem_readers (h : d.Tidy) : l ∈ d.readers ↔ d.precedents l ≠ [] := by
  rw [readers, Std.ExtTreeMap.mem_keys, Std.ExtTreeMap.mem_iff_isSome_getElem?, Option.isSome_iff_exists]
  simp only [h.precedents.getElem?_eq, exists_eq_left']
  rfl

/-- As many cells are kept as have precedents. -/
theorem Tidy.size_eq (h : d.Tidy) : (d.size : ℕ∞) = {l | d.precedents l ≠ []}.encard := by
  have hset : {l | d.precedents l ≠ []} = (d.readers.toFinset : Set Location) :=
    Set.ext fun l => by rw [Set.mem_ofPred_eq, Finset.mem_coe, List.mem_toFinset, h.mem_readers]
  rw [hset, Set.encard_coe_eq_coe_finsetCard, List.toFinset_card_of_nodup (nodup_of_pairwise_lt ?_), readers,
    Std.ExtTreeMap.length_keys, size]
  exact Std.ExtTreeMap.ordered_keys

/-! ### What was last set -/

/-- What a cell was last told to read. -/
def lastSet (l : Location) (changes : List Change) : List Precedent :=
  changes.foldl (fun ps c =>
    match c with
    | .set cell precedents => if cell = l then precedents else ps
    | .clear cell => if cell = l then [] else ps
    | .clearAll => []) []

theorem precedents_ofChanges (changes : List Change) (l : Location) :
    (ofChanges changes).precedents l = distinct (lastSet l changes) := by
  suffices h : ∀ (d : Dependencies) (ps : List Precedent), d.precedents l = distinct ps →
      (changes.foldl after d).precedents l = distinct (changes.foldl _ ps) from
    h empty [] (by simp [empty, precedents, distinct])
  induction changes with
  | nil => exact fun _ _ h => h
  | cons c changes ih =>
    intro d ps h
    refine ih _ _ ?_
    cases c with
    | set cell precedents =>
      rw [after, precedents_set]
      simp only [eq_comm (a := l)]
      split
      · rfl
      · exact h
    | clear cell =>
      rw [after, precedents_clear]
      simp only [eq_comm (a := l)]
      split
      · rfl
      · exact h
    | clearAll => simp [after, empty, Dependencies.precedents, distinct]

/-- The dependencies hold what each cell reads, in both directions, and nothing besides. -/
structure Reflects (d : Dependencies) (reads : Location → List Precedent) : Prop where
  ordered : ∀ l, (d.precedents l).Pairwise fun a b => compare a b = .lt
  precedents : ∀ l p, p ∈ d.precedents l ↔ p ∈ reads l
  orderedDependents : ∀ l, (d.dependents l).Pairwise fun a b => compare a b = .lt
  dependents : ∀ l m, m ∈ d.dependents l ↔ ∃ p ∈ reads m, p.Covers l
  forward : ∀ (l : Location) (ps : List Precedent), d.precedentsOf[l]? = some ps → ps ≠ []
  cells : ∀ (l : Location) (readers : Std.ExtTreeSet Location), d.cellReaders.readersOf[l]? = some readers →
    readers ≠ ∅ ∧ ∀ m ∈ readers, .cell l ∈ d.precedents m
  sheets : ∀ (sheet : Nat) (blocks : Readers Block), d.blockReaders[sheet]? = some blocks →
    blocks.readersOf ≠ ∅ ∧ ∀ (b : Block) (readers : Std.ExtTreeSet Location), blocks.readersOf[b]? = some readers →
      b.sheet = sheet ∧ readers ≠ ∅ ∧ ∀ m ∈ readers, .block b ∈ d.precedents m
  size : (d.size : ℕ∞) = {l | reads l ≠ []}.encard

theorem mem_get_of_getElem? {κ : Type} [Ord κ] [Std.TransOrd κ] {r : Readers κ} {k : κ}
    {readers : Std.ExtTreeSet Location} (h : r.readersOf[k]? = some readers) : r.get k = readers := by
  rw [Readers.get, Std.ExtTreeMap.getD_eq_getD_getElem?, h, Option.getD_some]

theorem distinct_eq_nil {ps : List Precedent} : distinct ps = [] ↔ ps = [] := by
  simp only [List.eq_nil_iff_forall_not_mem, mem_distinct]

theorem Tidy.reflects (ht : d.Tidy) (hc : d.Coherent) {reads : Location → List Precedent}
    (hreads : ∀ l, d.precedents l = distinct (reads l)) : d.Reflects reads where
  ordered l := hreads l ▸ pairwise_distinct _
  precedents l p := by rw [hreads, mem_distinct]
  orderedDependents := d.pairwise_dependents
  dependents l m := by simp only [hc.mem_dependents, Reads, hreads, mem_distinct]
  forward := ht.precedents
  cells l readers hget := by
    refine ⟨ht.cells l readers hget, fun m hm => (hc.readers (.cell l) m).mp ?_⟩
    rwa [readersOf, mem_get_of_getElem? hget]
  sheets sheet blocks hsheet := by
    refine ⟨fun hempty => ht.sheets sheet blocks hsheet (congrArg Readers.mk hempty), fun b readers hget => ?_⟩
    have hblocks : d.blocksOn sheet = blocks := by
      rw [blocksOn, Std.ExtTreeMap.getD_eq_getD_getElem?, hsheet, Option.getD_some]
    have hne : readers ≠ ∅ := ht.blocks sheet b readers (by rw [hblocks, hget])
    have hfrom : ∀ m ∈ readers, b.sheet = sheet ∧ .block b ∈ d.precedents m := fun m hm => by
      rw [← mem_get_of_getElem? hget, ← hblocks, ht.mem_get_blocksOn] at hm
      exact ⟨hm.1, (hc.readers (.block b) m).mp hm.2⟩
    -- The bucket has a reader, and whom it reads says on which sheet the block is.
    obtain ⟨m, hm⟩ := not_forall_not.mp (mt Std.ExtTreeSet.eq_empty_iff_forall_not_mem.mpr hne)
    exact ⟨(hfrom m hm).1, hne, fun m hm => (hfrom m hm).2⟩
  size := by simp only [ht.size_eq, hreads, ne_eq, distinct_eq_nil]

/-- After any changes, both directions hold what each cell was last told to read and nothing besides. So they
    are empty once no cell reads anything, and the order in which the cells were told leaves no trace. -/
theorem reflects_ofChanges (changes : List Change) :
    (ofChanges changes).Reflects (lastSet · changes) ∧
      ((∀ l, lastSet l changes = []) → ofChanges changes = empty) ∧
      ∀ others, (∀ l p, p ∈ lastSet l others ↔ p ∈ lastSet l changes) → ofChanges others = ofChanges changes := by
  have hsame : ∀ others, (∀ l p, p ∈ lastSet l others ↔ p ∈ lastSet l changes) →
      ofChanges others = ofChanges changes := fun others h =>
    (tidy_ofChanges others).ext (tidy_ofChanges changes) (coherent_ofChanges others) (coherent_ofChanges changes)
      fun l => by rw [precedents_ofChanges, precedents_ofChanges, distinct_congr (h l)]
  refine ⟨(tidy_ofChanges changes).reflects (coherent_ofChanges changes) (precedents_ofChanges changes),
    fun h => ?_, hsame⟩
  -- Nothing was set either if there were no changes at all.
  exact (hsame [] fun l p => by rw [h]; rfl).symm

/-- A column read from its own sheet and from another one, whose formula first reads a column there too. -/
theorem reflects_ofChanges_shared :
    ofChanges [.set ⟨1, 0, 5⟩ [.block ⟨0, 0, 0, 99, 0⟩, .block ⟨0, 0, 0, 99, 0⟩],
        .set ⟨0, 0, 5⟩ [.block ⟨0, 0, 0, 99, 0⟩]] =
      ofChanges [.set ⟨0, 0, 5⟩ [.block ⟨0, 0, 0, 99, 0⟩],
        .set ⟨1, 0, 5⟩ [.block ⟨1, 0, 0, 99, 0⟩, .block ⟨0, 0, 0, 99, 0⟩],
        .set ⟨1, 0, 5⟩ [.block ⟨0, 0, 0, 99, 0⟩]] ∧
    ofChanges [.set ⟨0, 0, 5⟩ [.block ⟨0, 0, 0, 99, 0⟩], .set ⟨1, 0, 5⟩ [.block ⟨0, 0, 0, 99, 0⟩],
      .clear ⟨0, 0, 5⟩, .clear ⟨1, 0, 5⟩] = empty := by
  refine ⟨(reflects_ofChanges _).2.2 _ fun l p => ?_, (reflects_ofChanges _).2.1 fun l => ?_⟩
  · simp only [lastSet, List.foldl_cons, List.foldl_nil]
    by_cases hhere : (⟨0, 0, 5⟩ : Location) = l
    · subst hhere
      simp
    · by_cases hthere : (⟨1, 0, 5⟩ : Location) = l
      · subst hthere
        simp
      · simp [hhere, hthere]
  · simp only [lastSet, List.foldl_cons, List.foldl_nil]
    by_cases hhere : (⟨0, 0, 5⟩ : Location) = l
    · subst hhere
      simp
    · simp [hhere]

end Dependencies

end Spreadsheet
