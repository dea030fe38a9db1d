import Spreadsheet.Proofs.Engine.Changes

/-! # How far a pass goes

A pass visits the cells that it starts from and those that read them, directly or through others, each
once, and counts what it does to them (`Engine.PassFrom`). All other cells are left as they are, and only
an input makes a new one. -/

namespace Spreadsheet
open Relation

/-! ### Counts -/

open scoped Classical in
/-- The steps that are cycles hold the cells of the plan that are on cycles. -/
theorem Dependencies.Sequence.circularCount {d : Dependencies} {steps : List Step} (h : d.Sequence steps) :
    Plan.circularCount ⟨steps⟩ = (Plan.order ⟨steps⟩).countP (d.OnCycle ·) := by
  induction steps with
  | nil => rfl
  | cons step steps ih =>
    have hrest := ih h.tail
    simp only [Plan.circularCount, Plan.cycles, Plan.order] at hrest
    simp only [Plan.circularCount, Plan.cycles, Plan.order, List.flatMap_cons, List.countP_append]
    cases step with
    | cell l =>
      have hno := h.acyclic l List.mem_cons_self
      simp [hrest, Step.cells, hno]
    | cycle cells =>
      have hall : cells.countP (d.OnCycle ·) = cells.length := List.countP_eq_length.mpr fun l hl =>
        decide_eq_true (h.cyclic cells List.mem_cons_self l hl)
      simp only [List.filterMap_cons, List.flatten_cons, List.length_append, hrest, Step.cells, hall]

namespace Pass
variable {rules : Rules} {b : Before} {d : Dependencies} {step : Step} {steps : List Step}

theorem evaluated_evaluate {p : Pass} {l : Location} :
    (p.evaluate rules l).evaluated = p.evaluated + if (p.store.expr? l).isSome then 1 else 0 := by
  unfold evaluate Rules.compute
  cases p.store.expr? l with
  | none => rfl
  | some expr =>
    rw [Option.map_some]
    cases Expr.evaluate (rules.setting p.store l) expr <;> rfl

theorem evaluated_foldl_mark {cells : List Location} {p : Pass} :
    (cells.foldl (visit b mark) p).evaluated = p.evaluated :=
  List.foldlRecOn (motive := fun q : Pass => q.evaluated = p.evaluated) cells (visit b mark) rfl fun _ hq _ _ => hq

open scoped Classical in
theorem evaluated_take {p : Pass} (hs : d.Sequence (step :: steps)) : (p.take rules b step).evaluated =
    p.evaluated + step.cells.countP fun l => ¬d.OnCycle l ∧ (p.store.expr? l).isSome := by
  cases step with
  | cell l =>
    have hno := hs.acyclic l List.mem_cons_self
    show (p.evaluate rules l).evaluated = _
    rw [evaluated_evaluate]
    simp [Step.cells, List.countP_cons, hno]
  | cycle cells =>
    have hnone : cells.countP (fun l => ¬d.OnCycle l ∧ (p.store.expr? l).isSome) = 0 :=
      List.countP_eq_zero.mpr fun l hl => by simp [hs.cyclic cells List.mem_cons_self l hl]
    rw [take, evaluated_foldl_mark, Step.cells, hnone, Nat.add_zero]

open scoped Classical in
/-- The formulas that are on no cycle are evaluated, each once. -/
theorem evaluated_steps : ∀ {p : Pass}, d.Mirrors rules.sheets p.store → d.Sequence steps →
    (steps.foldl (take rules b) p).evaluated =
      p.evaluated + (steps.flatMap Step.cells).countP fun l => ¬d.OnCycle l ∧ (p.store.expr? l).isSome := by
  induction steps with
  | nil => exact fun _ _ => rfl
  | cons step steps ih =>
    intro p hd hs
    have hstep := revalued_take (b := b) hd hs
    rw [List.foldl_cons, ih (hd.revalued hstep) hs.tail, evaluated_take hs, List.flatMap_cons, List.countP_append,
      Nat.add_assoc]
    simp only [hstep.expr?]

open scoped Classical in
theorem evaluated_run (rules : Rules) (b : Before) (hd : d.Coherent) {store : Store} (hm : d.Mirrors rules.sheets store)
    (changed : List Location) : (run rules b store (d.plan changed)).evaluated =
      (d.plan changed).order.countP fun l => ¬d.OnCycle l ∧ (store.expr? l).isSome := by
  have h := evaluated_steps (b := b) (p := start store) hm (hd.schedule changed).toSequence
  exact h.trans (Nat.zero_add _)

end Pass

/-! ### Reports on passes -/

namespace Engine
variable {e f : Engine} {changes : Changes}

open scoped Classical in
/-- The latest pass visited the given cells and all that read them, once each, and the counts in the report on
    it are those of these cells. -/
structure PassFrom (f : Engine) (seeds : List Location) (changes : Changes) : Prop where
  nodup : f.lastPass.touched.Nodup
  touched : ∀ l, l ∈ f.lastPass.touched ↔ ∃ s ∈ seeds, ReflTransGen f.dependencies.Reads l s
  evaluated : f.lastPass.evaluated =
    f.lastPass.touched.countP fun l => ¬f.dependencies.OnCycle l ∧ (f.store.expr? l).isSome
  circular : f.lastPass.circular = f.lastPass.touched.countP fun l => f.dependencies.OnCycle l
  changed : f.lastPass.changed = changes.size

theorem lastPass_recalculateFrom {before : Before} {seeds : List Location} :
    (e.recalculateFrom before seeds).1.lastPass = .of seeds.length (e.dependencies.plan seeds)
      (Pass.run e.rules before e.store (e.dependencies.plan seeds)) := by
  unfold recalculateFrom announce
  dsimp only
  split <;> rfl

open scoped Classical in
theorem Linked.passFrom (he : e.Linked) {before : Before} {seeds : List Location} (hpass : e.Recalculated seeds f)
    (hlast : f.lastPass = .of seeds.length (e.dependencies.plan seeds)
      (Pass.run e.rules before e.store (e.dependencies.plan seeds)))
    (hchanges : changes = (Pass.run e.rules before e.store (e.dependencies.plan seeds)).changes) :
    f.PassFrom seeds changes := by
  have hs := he.coherent.schedule seeds
  constructor
  case nodup =>
    rw [hlast]
    exact hs.nodup_order
  case touched =>
    intro l
    rw [hlast, hpass.dependencies]
    exact hs.mem_order.trans he.coherent.affected_iff_reads
  case evaluated =>
    simp only [hlast, hpass.dependencies, hpass.revalued.expr?]
    exact Pass.evaluated_run e.rules before he.coherent he.mirrors seeds
  case circular =>
    rw [hlast, hpass.dependencies]
    exact hs.toSequence.circularCount
  case changed =>
    rw [hlast, hchanges]
    rfl

theorem Linked.passFrom_recalculateFrom (he : e.Linked) (before : Before) (seeds : List Location) :
    (e.recalculateFrom before seeds).1.PassFrom seeds (e.recalculateFrom before seeds).2 :=
  he.passFrom (he.recalculateFrom before seeds) lastPass_recalculateFrom rfl

theorem PassFrom.congr {seeds others : List Location} (h : f.PassFrom seeds changes) (heq : ∀ l, l ∈ seeds ↔ l ∈ others) :
    f.PassFrom others changes where
  nodup := h.nodup
  touched l := (h.touched l).trans (exists_congr fun s => and_congr_left' (heq s))
  evaluated := h.evaluated
  circular := h.circular
  changed := h.changed

/-! ### Commands -/

theorem seeds?_input {r : Request} {edit : Location × Edit} (h : e.accept r = .ok edit) :
    e.seeds? (.input r) = some [edit.1] := by
  rw [seeds?, edits, h]
  rfl

theorem Linked.exists_recalculateFrom (he : e.Linked) {c : Command} {seeds : List Location} {result : Engine × Changes}
    (h : e.perform c = .ok result) (hseeds : e.seeds? c = some seeds) : ∃ g before cells,
      g.Linked ∧ e.Prepares (e.edits c) g cells ∧ (∀ l, l ∈ cells ↔ l ∈ seeds) ∧
        result = g.recalculateFrom before cells := by
  cases he.course h with
  | pass hlinked hprepares hsome hcells =>
    cases hseeds.symm.trans hsome
    exact ⟨_, _, _, hlinked, hprepares, hcells, rfl⟩
  | still _ _ hnone => cases hseeds.symm.trans hnone

/-- The pass of a command visits the cells that it starts from and those that read them, and counts them as what
    they are. Every other cell stays what it is, and no cell is made but by an input. -/
theorem frame_afterAll (h : e.Started) {commands : List Command} {c : Command} {seeds : List Location}
    (hperform : (e.afterAll commands).perform c = .ok (f, changes))
    (hseeds : (e.afterAll commands).seeds? c = some seeds) :
    f.PassFrom seeds changes ∧
      (∀ l, l ∉ f.lastPass.touched → f.store.get? l = (e.afterAll commands).store.get? l) ∧
      ∀ l, (f.store.get? l).isSome →
        ((e.afterAll commands).store.get? l).isSome ∨ l ∈ ((e.afterAll commands).edits c).map Prod.fst := by
  obtain ⟨g, before, cells, hg, hprepares, hcells, heq⟩ := (h.linked_afterAll commands).exists_recalculateFrom hperform hseeds
  have hpass := hg.recalculateFrom before cells
  have hfrom := hg.passFrom_recalculateFrom before cells
  rw [← heq] at hpass hfrom
  dsimp only at hpass hfrom
  refine ⟨hfrom.congr hcells, fun l hl => ?_, fun l hl => ?_⟩
  · have hno : ¬g.dependencies.Affected cells l := fun haffected => by
      obtain ⟨s, hs, hleads⟩ := Dependencies.affected_iff.mp haffected
      rw [hg.coherent.leads_iff, ← hpass.dependencies] at hleads
      exact hl ((hfrom.touched l).mpr ⟨s, hs, hleads⟩)
    rw [hpass.revalued.get?_eq fun hmem => hno hmem.2, hprepares.cell l fun hmem => hno (.changed hmem)]
  · by_contra hnew
    rw [not_or, Option.not_isSome_iff_eq_none] at hnew
    obtain ⟨hnone, hedits⟩ := hnew
    have hblank : g.store.get? l = none := by
      rw [hprepares.unedited l hedits (by rw [Store.expr?, hnone, Option.bind_none]), hnone]
    rw [hpass.revalued.isSome_get?, hblank] at hl
    cases hl

/-- A number is put into a cell that a formula reads, next to a formula that reads itself. -/
theorem frame_afterAll_initial : ∃ f changes,
    (initial.afterAll [.batch [⟨.location ⟨0, 0, 0⟩, .text "=B1+B1"⟩, ⟨.location ⟨0, 1, 0⟩, .text "=A2"⟩]]).perform
        (.input ⟨.location ⟨0, 0, 1⟩, .text "1"⟩) = .ok (f, changes) ∧
      f.PassFrom [⟨0, 0, 1⟩] changes ∧ ∀ l, l ∉ f.lastPass.touched → f.store.get? l =
        (initial.afterAll
          [.batch [⟨.location ⟨0, 0, 0⟩, .text "=B1+B1"⟩, ⟨.location ⟨0, 1, 0⟩, .text "=A2"⟩]]).store.get? l := by
  have haccept : initial.accept ⟨.location ⟨0, 0, 1⟩, .text "1"⟩ = .ok (⟨0, 0, 1⟩, .text "1") := rfl
  have hafter := accept_after haccept
    (.batch [⟨.location ⟨0, 0, 0⟩, .text "=B1+B1"⟩, ⟨.location ⟨0, 1, 0⟩, .text "=A2"⟩])
  have hperform := perform_input hafter
  obtain ⟨hpass, hframe, -⟩ := @frame_afterAll initial _ _ (Or.inl rfl)
    [.batch [⟨.location ⟨0, 0, 0⟩, .text "=B1+B1"⟩, ⟨.location ⟨0, 1, 0⟩, .text "=A2"⟩]] _ [⟨0, 0, 1⟩] hperform
    (seeds?_input hafter)
  exact ⟨_, _, hperform, hpass, hframe⟩

end Engine

end Spreadsheet
