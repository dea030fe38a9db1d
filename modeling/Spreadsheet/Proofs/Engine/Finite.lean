import Spreadsheet.Proofs.Engine.Changes

/-! # Numbers stay finite

Whatever functions are registered and whatever is entered, all that can be seen of an engine are finite
numbers and values that were put in as they are. The invariant (`Engine.Keeps`) is about any property that the
finite values have: what was entered has it, so every cell has it along what the formulas read, and so have the
changes that are told. -/

namespace Spreadsheet

theorem Snapshot.value_of_mem {s : Store} {l : Location} {v : Value} (h : (l, v) ∈ (of s).toList) : s.value l = v := by
  rw [toList, Std.ExtTreeMap.mem_toList_iff_getElem?_eq_some, of, Std.ExtTreeMap.getElem?_filterMap',
    Option.bind_eq_some_iff] at h
  obtain ⟨c, hc, hv⟩ := h
  rw [Option.ite_none_left_eq_some, Option.some_inj] at hv
  rw [Store.value, Store.get?, hc]
  exact hv.2

/-- A value that a command puts in. -/
def Command.Supplies (c : Command) (v : Value) : Prop :=
  ∃ r ∈ c.requests, r.edit = .value v

namespace Engine
variable {e f : Engine} {c : Command} {changes : Changes} {commands : List Command} {l : Location} {v : Value}

/-- A value that can be seen after commands: what stands in a cell, its value, a value in the snapshot or among
    the changes that a listener was told, or one among the changes that the last command reports. -/
inductive Exhibits (e : Engine) : List Command → Value → Prop where
  | content {commands : List Command} {l : Location} {v : Value}
      (h : (e.afterAll commands).store.content l = .literal v) : Exhibits e commands v
  | cell (commands : List Command) (l : Location) : Exhibits e commands ((e.afterAll commands).value l)
  | snapshot {commands : List Command} {l : Location} {v : Value}
      (h : (l, v) ∈ (e.afterAll commands).snapshot.toList) : Exhibits e commands v
  | told {commands : List Command} {l : Location} {v : Value} {listener : Listener} {changes : Changes}
      (hlistener : listener ∈ (e.afterAll commands).listeners) (hchanges : changes ∈ listener.received)
      (h : (l, v) ∈ changes.toList) : Exhibits e commands v
  | reported {commands : List Command} {l : Location} {v : Value} {c : Command} {f : Engine} {changes : Changes}
      (hperform : (e.afterAll commands).perform c = .ok (f, changes)) (h : (l, v) ∈ changes.toList) :
      Exhibits e (commands ++ [c]) v

/-! ### Values that are reported, and values that are put in -/

theorem Linked.value_of_recalculateFrom (he : e.Linked) {before : Before} {seeds : List Location}
    (hv : (e.recalculateFrom before seeds).2.value? l = some v) : (e.recalculateFrom before seeds).1.value l = v := by
  have hs := he.coherent.schedule seeds
  have hnotes : Pass.Notes before e.store (Pass.run e.rules before e.store (e.dependencies.plan seeds))
      (e.dependencies.plan seeds).order := Pass.notes_run hs.nodup_order
  obtain ⟨listeners, lastPass, heq⟩ := e.recalculateFrom_eq before seeds
  rw [heq]
  by_cases hl : l ∈ (e.dependencies.plan seeds).order
  · have hnoted := (hnotes.visited l hl).symm.trans hv
    rw [Option.ite_none_left_eq_some, Option.some_inj] at hnoted
    exact hnoted.2
  · cases (hnotes.untouched l hl).1.symm.trans hv

/-- What is reported of a cell is the value that it has after the command. -/
theorem Linked.value_of_reported (he : e.Linked) {result : Engine × Changes} (hperform : e.perform c = .ok result)
    (hv : result.2.value? l = some v) : result.1.value l = v := by
  cases he.course hperform with
  | pass hlinked => exact hlinked.value_of_recalculateFrom hv
  | still => simp [Changes.none, Changes.value?] at hv

/-- A value that is put into a cell is its value as it is. -/
theorem Linked.value_after_input (he : e.Linked) {r : Request} (haccept : e.accept r = .ok (l, .value v)) :
    (e.after (.input r)).value l = v := by
  have hstored : (e.after (.input r)).Stored := (he.step (.input r)).toStored
  have hcontent : (e.after (.input r)).store.content l = .ofValue v := by
    rw [he.content_after, edits, haccept]
    exact lastContent_singleton.trans (if_pos rfl)
  have hexpr : (e.after (.input r)).store.expr? l = none := by
    rw [hstored.expr?_eq, hcontent]
    cases v <;> rfl
  rw [value, hstored.value_eq hexpr, hcontent]
  cases v <;> rfl

/-! ### The invariant -/

variable {p : Value → Prop}

/-- The values that stand in cells, those of the cells, and those that listeners were told have a property. -/
structure Keeps (e : Engine) (p : Value → Prop) : Prop where
  content : ∀ l v, e.store.content l = .literal v → p v
  value : ∀ l, p (e.value l)
  told : ∀ listener ∈ e.listeners, ∀ changes ∈ listener.received, ∀ l v, changes.value? l = some v → p v

section
variable (hfinite : ∀ v, v.isFinite = true → p v)
include hfinite

theorem holds_ownValue {content : Content} (h : ∀ v, content = .literal v → p v) : p content.ownValue := by
  cases content with
  | empty => exact hfinite _ rfl
  | literal v => exact h v rfl
  | formula text =>
    unfold Content.ownValue
    dsimp only
    split <;> exact hfinite _ rfl

/-- A formula that is on no cycle has its value from finite ones and those that it reads. -/
theorem Consistent.holds_value (he : e.Consistent) (hcontent : ∀ l v, e.store.content l = .literal v → p v)
    (l : Location) : p (e.value l) := by
  have hcircular : ∀ l, e.dependencies.OnCycle l → p (e.store.value l) := fun l hl => by
    rw [(he.current l).circular hl]
    exact hfinite _ rfl
  by_cases hl : e.dependencies.OnCycle l
  · exact hcircular l hl
  -- The induction is along what the formulas read, which comes to an end outside of cycles.
  refine Dependencies.acyclic_induction (motive := fun l => p (e.store.value l)) (fun l hl ih => ?_) hl
  cases hexpr : e.store.expr? l with
  | none =>
    rw [he.value_eq hexpr]
    exact holds_ownValue hfinite (hcontent l)
  | some expr =>
    rw [(he.current l).evaluated hl _ (by rw [Rules.compute, hexpr, Option.map_some])]
    cases hr : expr.evaluate (e.rules.setting e.store l) with
    | error fault => exact hfinite _ rfl
    | ok v =>
      refine Expr.holds_evaluate hfinite (fun r hr m hm => ?_) hr
      have hreads : e.dependencies.Reads l m := he.mirrors.reads hexpr hr hm rfl
      by_cases hc : e.dependencies.OnCycle m
      · exact hcircular m hc
      · exact ih m hreads hc

theorem holds_edit {edit : Edit} (hsupplied : ∀ w, edit = .value w → p w) (h : edit.content = .literal v) : p v := by
  have hv : edit.content.constantValue = v := by rw [h, Content.constantValue]
  cases edit with
  | text s =>
    rw [← hv]
    exact hfinite _ (Content.isFinite_ofText s)
  | value w =>
    rw [Edit.content, Content.constantValue_ofValue] at hv
    exact hsupplied v (congrArg _ hv)

theorem Linked.holds_content (he : e.Linked) (hsupplied : ∀ v, c.Supplies v → p v)
    (hcontent : ∀ l v, e.store.content l = .literal v → p v) (l : Location) (v : Value)
    (h : (e.after c).store.content l = .literal v) : p v := by
  rw [he.content_after, lastContent] at h
  revert v
  refine List.foldlRecOn (motive := fun content : Content => ∀ v, content = .literal v → p v) (e.edits c) _
    (hcontent l) fun content hcontent edit hmem v h => ?_
  dsimp only at h
  split at h
  · obtain ⟨r, hr, haccept⟩ := exists_request hmem
    obtain ⟨m, -, rfl⟩ := Except.map_eq_ok.mp haccept
    exact holds_edit hfinite (fun w hw => hsupplied w ⟨r, hr, hw⟩) h
  · exact hcontent v h

/-- A command keeps the property, and reports no value without it. -/
theorem Keeps.perform (h : e.Keeps p) (he : e.Consistent) (hsupplied : ∀ v, c.Supplies v → p v)
    (hperform : e.perform c = .ok (f, changes)) : f.Keeps p ∧ ∀ l v, changes.value? l = some v → p v := by
  have hafter : e.after c = f := after_ok hperform
  have hcontent := he.toLinked.holds_content hfinite hsupplied h.content
  rw [hafter] at hcontent
  have hvalue := (hafter ▸ he.after c).holds_value hfinite hcontent
  have hchanges : ∀ l v, changes.value? l = some v → p v := fun l v hv => by
    rw [← he.toLinked.value_of_reported hperform hv]
    exact hvalue l
  refine ⟨⟨hcontent, hvalue, fun listener hlistener => ?_⟩, hchanges⟩
  -- A new listener was told nothing yet, and the others these changes at most.
  by_cases hc : c = .listen
  · subst hc
    cases hperform
    rcases List.mem_append.mp hlistener with hold | hnew
    · exact h.told listener hold
    · obtain rfl := List.mem_singleton.mp hnew
      exact fun _ hnone => absurd hnone List.not_mem_nil
  · rw [notifies hperform hc] at hlistener
    split at hlistener
    · exact h.told listener hlistener
    · obtain ⟨old, hold, rfl⟩ := List.mem_map.mp hlistener
      intro heard hheard
      rcases List.mem_cons.mp hheard with rfl | hheard
      · exact hchanges
      · exact h.told old hold heard hheard

theorem Keeps.after (h : e.Keeps p) (he : e.Consistent) (hsupplied : ∀ v, c.Supplies v → p v) : (e.after c).Keeps p := by
  cases hperform : e.perform c with
  | error refusal => rwa [after_refused hperform]
  | ok result =>
    rw [after_ok hperform]
    exact (h.perform hfinite he hsupplied hperform).1

theorem Started.keeps (h : e.Started) : e.Keeps p := by
  have hcontent : ∀ l v, e.store.content l = .literal v → p v := fun l v hl => by
    rw [Store.content, h.get?_eq_none] at hl
    cases hl
  refine ⟨hcontent, h.consistent.holds_value hfinite hcontent, fun listener hlistener => ?_⟩
  obtain ⟨limits, sheets, -, rfl⟩ := h.exists_onSheets
  cases hlistener

theorem Started.keeps_afterAll (h : e.Started) (hsupplied : ∀ c ∈ commands, ∀ v, c.Supplies v → p v) :
    (e.afterAll commands).Keeps p :=
  (afterAll_induction (motive := fun e => e.Consistent ∧ e.Keeps p) commands ⟨h.consistent, h.keeps hfinite⟩
    fun _ he c hc => ⟨he.1.after c, he.2.after hfinite he.1 (hsupplied c hc)⟩).2

/-- All that can be seen has a property that the finite values have and those that are put in. -/
theorem Started.holds_of_exhibits (h : e.Started) (hsupplied : ∀ c ∈ commands, ∀ v, c.Supplies v → p v)
    (hv : e.Exhibits commands v) : p v := by
  cases hv with
  | content hl => exact (h.keeps_afterAll hfinite hsupplied).content _ _ hl
  | cell _ l => exact (h.keeps_afterAll hfinite hsupplied).value l
  | snapshot hl =>
    rw [← Snapshot.value_of_mem hl]
    exact (h.keeps_afterAll hfinite hsupplied).value _
  | told hlistener hchanges hl =>
    exact (h.keeps_afterAll hfinite hsupplied).told _ hlistener _ hchanges _ _ (Changes.mem_toList.mp hl)
  | @reported earlier _ _ c _ _ hperform hl =>
    have hkeeps : (e.afterAll earlier).Keeps p :=
      h.keeps_afterAll hfinite fun c hc => hsupplied c (List.mem_append_left _ hc)
    have hlast := hsupplied c (List.mem_append_right _ (List.mem_singleton_self c))
    exact (hkeeps.perform hfinite (h.consistent_afterAll earlier) hlast hperform).2 _ _ (Changes.mem_toList.mp hl)

end

/-- A number that can be seen after any commands is finite, or it was put in as it is: neither texts nor operators nor
    functions bring any other, whatever functions are registered and whatever they return. -/
theorem isFinite_of_exhibits (h : e.Started) (hv : e.Exhibits commands v) :
    v.isFinite = true ∨ ∃ c ∈ commands, c.Supplies v :=
  h.holds_of_exhibits (p := fun w => w.isFinite = true ∨ ∃ c ∈ commands, c.Supplies w) (fun _ => Or.inl)
    (fun c hc _ hw => Or.inr ⟨c, hc, hw⟩) hv

/-- A function that returns infinity, a call of it, and a number from elsewhere that a formula makes infinite. -/
theorem isFinite_of_exhibits_infinity :
    let infinity : Callable := .eager "INF" 0 (some 0) fun _ _ => .ok (.number ⟨0x7FF0000000000000⟩)
    let commands : List Command :=
      [.listen, .register infinity, .input ⟨.address "A1", .text "=INF()"⟩,
        .batch [⟨.address "B1", .value (.number ⟨0x7FE0000000000000⟩)⟩, ⟨.address "C1", .text "=B1*B1"⟩]]
    ∀ l, ((initial.afterAll commands).value l).isFinite = true := by
  intro infinity commands l
  rcases isFinite_of_exhibits (Or.inl rfl) (.cell commands l) with hfinite | ⟨c, hc, r, hr, hedit⟩
  · exact hfinite
  generalize (initial.afterAll commands).value l = w at hedit ⊢
  have hsupplied : (Value.number ⟨0x7FE0000000000000⟩).isFinite = true := by decide
  simp only [commands, List.mem_cons, List.not_mem_nil, or_false] at hc
  rcases hc with rfl | rfl | rfl | rfl
  · cases hr
  · cases hr
  · obtain rfl := List.mem_singleton.mp hr
    cases hedit
  · simp only [Command.requests, List.mem_cons, List.not_mem_nil, or_false] at hr
    rcases hr with rfl | rfl
    · cases hedit
      exact hsupplied
    · cases hedit

/-- An infinite number that is put into A1 can be seen there. -/
theorem exists_exhibits_infinity :
    let infinity : Value := .number ⟨0x7FF0000000000000⟩
    ∃ v, initial.Exhibits [.input ⟨.location ⟨0, 0, 0⟩, .value infinity⟩] v ∧ v = infinity ∧ v.isFinite = false := by
  intro infinity
  have hvalue : (initial.after (.input ⟨.location ⟨0, 0, 0⟩, .value infinity⟩)).value ⟨0, 0, 0⟩ = infinity :=
    (Started.linked (Or.inl rfl)).value_after_input rfl
  refine ⟨_, .cell _ ⟨0, 0, 0⟩, hvalue, ?_⟩
  rw [afterAll, List.foldl_cons, List.foldl_nil, hvalue]
  decide

end Engine

end Spreadsheet
