import Spreadsheet.Proofs.Engine.History

/-! # What is reported as changed

A pass visits each cell of its plan once. So what it notes at a visit, the value before against the value
there is now, still holds when the pass ends (`Pass.Notes`), and the cells it does not visit keep their
values. Where something was entered the value before is one that was kept, elsewhere the one that the pass
finds; either way it is the value that the cell had before the command. -/

namespace Spreadsheet

/-! ### Changes and values before -/

namespace Changes
variable {c : Changes} {l m : Location} {v old new : Value}

theorem value?_note :
    (c.note l old new).value? m = if m = l then if new.same old then c.value? l else some new else c.value? m := by
  unfold note
  by_cases hsame : new.same old = true
  · by_cases hm : m = l <;> simp [hsame, hm]
  · simp [hsame, value?, Std.ExtTreeMap.getElem?_insert, eq_comm (a := l)]

theorem mem_toList : (l, v) ∈ c.toList ↔ c.value? l = some v :=
  Std.ExtTreeMap.mem_toList_iff_getElem?_eq_some

theorem pairwise_toList : c.toList.Pairwise fun a b => compare a.1 b.1 = .lt :=
  Std.ExtTreeMap.ordered_keys_toList

theorem isEmpty_eq : c.isEmpty = decide (c.toList = []) := by
  rw [isEmpty, toList, ← Std.ExtTreeMap.isEmpty_toList]
  cases c.values.toList <;> rfl

theorem eq_none_of_value? (h : ∀ l, c.value? l = Option.none) : c = none :=
  congrArg mk (Std.ExtTreeMap.ext_getElem? fun l => (h l).trans Std.ExtTreeMap.getElem?_empty.symm)

end Changes

namespace Before
variable {b : Before} {s t : Store} {l m : Location}

theorem value_none : none.value s l = s.value l := by
  simp [none, value]

theorem value_congr (h : t.value l = s.value l) : b.value t l = b.value s l := by
  rw [value, value, h]

/-- A value is kept at the first write to a cell, and what is written does not matter from then on. -/
theorem value_keep (hother : ∀ m, m ≠ l → t.value m = s.value m) : (b.keep s l).value t m = b.value s m := by
  simp only [value, keep, Std.ExtTreeMap.getD_eq_getD_getElem?, Std.ExtTreeMap.getElem?_insertIfNew,
    Std.compare_eq_iff_eq]
  by_cases hm : l = m
  · subst hm
    by_cases hkept : l ∈ b.values <;> simp [hkept]
  · simp [hm, hother m fun heq => hm heq.symm]

end Before

/-! ### Visits -/

namespace Pass
variable {rules : Rules} {b : Before} {s : Store} {p : Pass} {act : Pass → Location → Pass} {seen : List Location}

/-- The pass started from the store and has come to the cells that are `seen`. Its changes are those of their
    values that are others than before, and no other value is touched. -/
structure Notes (b : Before) (s : Store) (p : Pass) (seen : List Location) : Prop where
  visited : ∀ l ∈ seen, p.changes.value? l =
    if (p.store.value l).same (b.value s l) then none else some (p.store.value l)
  untouched : ∀ l, l ∉ seen → p.changes.value? l = none ∧ p.store.value l = s.value l

/-- What is done to a cell concerns no value but its own, and is not what notes changes. -/
def Local (act : Pass → Location → Pass) : Prop :=
  ∀ p l, (act p l).changes = p.changes ∧ ∀ m, m ≠ l → (act p l).store.value m = p.store.value m

theorem local_evaluate : Local (evaluate rules) := by
  intro p l
  unfold evaluate
  split
  · exact ⟨rfl, fun _ _ => rfl⟩
  · exact ⟨rfl, fun m hm => Store.value_setValue.trans (if_neg hm)⟩
  · exact ⟨rfl, fun m hm => Store.value_setValue.trans (if_neg hm)⟩

theorem local_mark : Local mark :=
  fun _ _ => ⟨rfl, fun _ hm => Store.value_setValue.trans (if_neg hm)⟩

theorem notes_start : Notes b s (start s) [] where
  visited _ hl := absurd hl List.not_mem_nil
  untouched l _ := by simp [start, Changes.none, Changes.value?]

theorem Notes.visit (h : Notes b s p seen) (hact : Local act) {l : Location} (hl : l ∉ seen) :
    Notes b s (p.visit b act l) (seen ++ [l]) := by
  obtain ⟨hchanges, hother⟩ := hact p l
  obtain ⟨hnone, hstore⟩ := h.untouched l hl
  have hvalue? : ∀ m, (p.visit b act l).changes.value? m =
      if m = l then if ((act p l).store.value l).same (b.value s l) then none else some ((act p l).store.value l)
      else p.changes.value? m := by
    intro m
    rw [Pass.visit, Changes.value?_note, hchanges, hnone, Before.value_congr hstore]
  constructor
  case visited =>
    intro m hm
    rw [hvalue?, store_visit]
    split
    · rename_i heq
      rw [heq]
    · rename_i hne
      have hseen : m ∈ seen := (List.mem_append.mp hm).resolve_right fun hml => hne (List.mem_singleton.mp hml)
      rw [h.visited m hseen, hother m hne]
  case untouched =>
    intro m hm
    rw [List.mem_append, List.mem_singleton, not_or] at hm
    rw [hvalue?, if_neg hm.2, store_visit, hother m hm.2]
    exact h.untouched m hm.1

theorem Notes.visits (hact : Local act) {cells : List Location} : ∀ {p : Pass} {seen : List Location},
    Notes b s p seen → (seen ++ cells).Nodup → Notes b s (cells.foldl (Pass.visit b act) p) (seen ++ cells) := by
  induction cells with
  | nil =>
    intro p seen h _
    rwa [List.append_nil]
  | cons l cells ih =>
    intro p seen h hnodup
    have hl : l ∉ seen := fun hmem => (List.nodup_append.mp hnodup).2.2 l hmem l List.mem_cons_self rfl
    rw [List.append_cons] at hnodup ⊢
    exact ih (h.visit hact hl) hnodup

theorem Notes.take {step : Step} (h : Notes b s p seen) (hnodup : (seen ++ step.cells).Nodup) :
    Notes b s (p.take rules b step) (seen ++ step.cells) := by
  cases step with
  | cell l =>
    show Notes b s ([l].foldl (Pass.visit b (evaluate rules)) p) (seen ++ [l])
    exact Notes.visits local_evaluate h hnodup
  | cycle cells => exact Notes.visits local_mark h hnodup

theorem Notes.steps {steps : List Step} : ∀ {p : Pass} {seen : List Location}, Notes b s p seen →
    (seen ++ steps.flatMap Step.cells).Nodup →
      Notes b s (steps.foldl (Pass.take rules b) p) (seen ++ steps.flatMap Step.cells) := by
  induction steps with
  | nil =>
    intro p seen h _
    rwa [List.flatMap_nil, List.append_nil]
  | cons step steps ih =>
    intro p seen h hnodup
    rw [List.flatMap_cons, ← List.append_assoc] at hnodup ⊢
    exact ih (h.take (List.nodup_append.mp hnodup).1) hnodup

theorem notes_run {plan : Plan} (hnodup : plan.order.Nodup) : Notes b s (run rules b s plan) plan.order := by
  have h : Notes b s (run rules b s plan) ([] ++ plan.order) := notes_start.steps hnodup
  rwa [List.nil_append] at h

end Pass

/-! ### Commands -/

namespace Engine
variable {e f : Engine} {changes : Changes}

/-- The changes are the values of `f` that are others than in `e`, each once, in the order of the cells. -/
structure Reports (e f : Engine) (changes : Changes) : Prop where
  value? : ∀ l, changes.value? l = if (f.value l).same (e.value l) then none else some (f.value l)
  toList : ∀ l v, (l, v) ∈ changes.toList ↔ changes.value? l = some v
  sorted : changes.toList.Pairwise fun a b => compare a.1 b.1 = .lt

theorem Reports.of_value? (h : ∀ l, changes.value? l = if (f.value l).same (e.value l) then none else some (f.value l)) :
    e.Reports f changes :=
  ⟨h, fun _ _ => Changes.mem_toList, Changes.pairwise_toList⟩

/-- Where no value is another one, there is nothing to report. -/
theorem reports_none (hvalue : f.store.value = e.store.value) (hc : e.store.Comparable) : e.Reports f .none :=
  .of_value? fun l => by
    rw [Engine.value, Engine.value, hvalue, Value.same_self, hc l]
    simp [Changes.none, Changes.value?]

/-- A pass reports what changes from the values in `e` on, if those of other cells than the seeds are still the
    same. -/
theorem Linked.reports_recalculateFrom (hf : f.Linked) (hc : e.store.Comparable) {before : Before}
    {seeds : List Location} (hbefore : ∀ l, before.value f.store l = e.store.value l)
    (hother : ∀ l, l ∉ seeds → f.store.value l = e.store.value l) :
    e.Reports (f.recalculateFrom before seeds).1 (f.recalculateFrom before seeds).2 := by
  have hs := hf.coherent.schedule seeds
  have hnotes : Pass.Notes before f.store (Pass.run f.rules before f.store (f.dependencies.plan seeds))
      (f.dependencies.plan seeds).order := Pass.notes_run hs.nodup_order
  obtain ⟨listeners, lastPass, heq⟩ := f.recalculateFrom_eq before seeds
  refine .of_value? fun l => ?_
  rw [heq]
  by_cases hl : l ∈ (f.dependencies.plan seeds).order
  · exact (hnotes.visited l hl).trans (by rw [hbefore]; rfl)
  · obtain ⟨hnone, hvalue⟩ := hnotes.untouched l hl
    have hseed : l ∉ seeds := fun hmem => hl (hs.mem_order.mpr (.changed hmem))
    have hsame : ((Pass.run f.rules before f.store (f.dependencies.plan seeds)).store.value l).same (e.store.value l) :=
      by rw [hvalue, hother l hseed, Value.same_self, hc l]; rfl
    exact hnone.trans (if_pos hsame).symm

theorem value_write {l m : Location} {edit : Edit} (hm : m ≠ l) : (e.write l edit).store.value m = e.store.value m := by
  obtain ⟨c, h, -⟩ := e.exists_replaces_write (l := l) edit
  rw [Store.value, Store.value, h.cell, if_neg hm]

/-- Of each cell, the value before the first input to it is kept. -/
theorem value_writeAll {edits : List (Location × Edit)} {l : Location} :
    (e.writeAll edits).2.value (e.writeAll edits).1.store l = e.store.value l := by
  suffices h : ∀ (b : Before) (e : Engine),
      let result := edits.foldl (fun p edit => (p.1.write edit.1 edit.2, Before.keep p.2 p.1.store edit.1)) (e, b)
      result.2.value result.1.store l = b.value e.store l from (h .none e).trans Before.value_none
  induction edits with
  | nil => exact fun _ _ => rfl
  | cons edit edits ih =>
    intro b e
    exact (ih (b.keep e.store edit.1) (e.write edit.1 edit.2)).trans
      (Before.value_keep fun m hm => value_write hm)

theorem value_relinked {sheets : Sheets} {cells : List Location} :
    (e.relinked sheets cells).store.value = e.store.value := by
  refine List.foldlRecOn (motive := fun f : Engine => f.store.value = e.store.value) cells _ rfl fun f hf l _ => ?_
  unfold relink
  split
  · exact hf
  · exact Store.value_setMissing.trans hf

theorem Linked.reports_recalculateIfAny (hf : f.Linked) (hc : e.store.Comparable) {seeds : List Location}
    (hvalue : f.store.value = e.store.value) :
    e.Reports (f.recalculateIfAny seeds).1 (f.recalculateIfAny seeds).2 := by
  unfold Engine.recalculateIfAny
  split
  · exact reports_none hvalue hc
  · exact hf.reports_recalculateFrom hc (fun l => Before.value_none.trans (congrFun hvalue l)) fun l _ => congrFun hvalue l

theorem Linked.reports_apply (he : e.Linked) (hc : e.store.Comparable) (c : Command) :
    e.Reports (e.apply (e.edits c)).1 (e.apply (e.edits c)).2 := by
  obtain ⟨hlinked, hprepares⟩ := prepares_writeAll he fun edit hmem => check_of_mem_edits he.inhabited hmem
  refine hlinked.reports_recalculateFrom hc (fun l => value_writeAll) fun l hl => ?_
  have hcell := hprepares.cell l fun hmem => hl (Dependencies.mem_sorted.mpr hmem)
  rw [Store.value, Store.value, hcell]

/-- A command reports the values that it changes. -/
theorem Linked.reports (he : e.Linked) (hc : e.store.Comparable) {c : Command} {result : Engine × Changes}
    (h : e.perform c = .ok result) : e.Reports result.1 result.2 := by
  cases outcome h with
  | input r => exact he.reports_apply hc _
  | batch requests => exact he.reports_apply hc _
  | addSheet hadd => exact (prepares_addSheet he hadd).1.reports_recalculateIfAny hc value_relinked
  | register f => exact (prepares_register he f).1.reports_recalculateIfAny hc rfl
  | recalculate cells => exact he.reports_recalculateFrom hc (fun _ => Before.value_none) fun _ _ => rfl
  | recalculateAll => exact he.reports_recalculateFrom hc (fun _ => Before.value_none) fun _ _ => rfl
  | listen => exact reports_none rfl hc

/-! ### Listeners -/

theorem listeners_write {l : Location} {edit : Edit} : (e.write l edit).listeners = e.listeners := by
  unfold write
  split
  · split <;> rfl
  · rfl

theorem listeners_writeAll {edits : List (Location × Edit)} : (e.writeAll edits).1.listeners = e.listeners := by
  rw [writeAll_fst]
  exact List.foldlRecOn (motive := fun f : Engine => f.listeners = e.listeners) edits _ rfl
    fun f hf edit _ => listeners_write.trans hf

theorem listeners_relinked {sheets : Sheets} {cells : List Location} :
    (e.relinked sheets cells).listeners = e.listeners := by
  refine List.foldlRecOn (motive := fun f : Engine => f.listeners = e.listeners) cells _ rfl fun f hf l _ => ?_
  unfold relink
  split <;> exact hf

/-- Every listener hears of changes once, and of no changes not at all. -/
def Notifies (e f : Engine) (changes : Changes) : Prop :=
  f.listeners = if changes.toList = [] then e.listeners else e.listeners.map (Listener.hear changes)

theorem notifies_recalculateFrom {before : Before} {seeds : List Location} :
    e.Notifies (e.recalculateFrom before seeds).1 (e.recalculateFrom before seeds).2 := by
  unfold Notifies recalculateFrom announce
  dsimp only
  rw [Changes.isEmpty_eq]
  by_cases hnil : (Pass.run e.rules before e.store (e.dependencies.plan seeds)).changes.toList = []
  · simp [hnil]
  · simp [hnil]

theorem notifies_recalculateIfAny {seeds : List Location} :
    e.Notifies (e.recalculateIfAny seeds).1 (e.recalculateIfAny seeds).2 := by
  unfold recalculateIfAny
  split
  · simp [Notifies, Changes.none, Changes.toList]
  · exact notifies_recalculateFrom

theorem Notifies.of_listeners {g : Engine} (h : e.Notifies f changes) (hg : e.listeners = g.listeners) :
    g.Notifies f changes := by
  rwa [Notifies, ← hg]

theorem notifies {c : Command} {result : Engine × Changes} (h : e.perform c = .ok result) (hlisten : c ≠ .listen) :
    e.Notifies result.1 result.2 := by
  cases outcome h with
  | input r => exact notifies_recalculateFrom.of_listeners listeners_writeAll
  | batch requests => exact notifies_recalculateFrom.of_listeners listeners_writeAll
  | addSheet hadd => exact notifies_recalculateIfAny.of_listeners listeners_relinked
  | register f => exact notifies_recalculateIfAny
  | recalculate cells => exact notifies_recalculateFrom
  | recalculateAll => exact notifies_recalculateFrom
  | listen => exact absurd rfl hlisten

/-! ### Runs -/

/-- A command after any others reports the cells whose value it changes, with their new values, each once and
    in order, and every listener hears of them once, or of nothing if there are none. -/
theorem changes_afterAll (h : e.Started) {commands : List Command} {c : Command}
    (hvalues : ∀ c ∈ commands, ∀ r ∈ c.requests, ∀ v, r.edit = .value v → v.isNaN = false)
    (hperform : (e.afterAll commands).perform c = .ok (f, changes)) :
    (e.afterAll commands).Reports f changes ∧ (c ≠ .listen → (e.afterAll commands).Notifies f changes) :=
  ⟨(h.linked_afterAll commands).reports (h.comparable_afterAll hvalues) hperform, notifies hperform⟩

theorem perform_input {r : Request} {edit : Location × Edit} (h : e.accept r = .ok edit) :
    e.perform (.input r) = .ok (e.apply [edit]) := by
  rw [perform, input, h]
  rfl

/-- A formula replaces a text that was put in, while one listens. -/
theorem changes_afterAll_initial : ∃ f changes,
    (initial.afterAll [.listen, .input ⟨.location ⟨0, 0, 0⟩, .value (.text "x")⟩]).perform
        (.input ⟨.location ⟨0, 0, 0⟩, .text "=B1"⟩) = .ok (f, changes) ∧
      (initial.afterAll [.listen, .input ⟨.location ⟨0, 0, 0⟩, .value (.text "x")⟩]).Reports f changes ∧
      (initial.afterAll [.listen, .input ⟨.location ⟨0, 0, 0⟩, .value (.text "x")⟩]).Notifies f changes := by
  have haccept : initial.accept ⟨.location ⟨0, 0, 0⟩, .text "=B1"⟩ = .ok (⟨0, 0, 0⟩, .text "=B1") := rfl
  have hperform := perform_input (accept_after (accept_after haccept .listen)
    (.input ⟨.location ⟨0, 0, 0⟩, .value (.text "x")⟩))
  obtain ⟨hreports, hnotifies⟩ := @changes_afterAll initial _ _ (Or.inl rfl)
    [.listen, .input ⟨.location ⟨0, 0, 0⟩, .value (.text "x")⟩] _ (by simp [Command.requests, Value.isNaN]) hperform
  exact ⟨_, _, hperform, hreports, hnotifies Command.noConfusion⟩

end Engine

end Spreadsheet
