import Spreadsheet.Engine.Pass
import Spreadsheet.Proofs.Engine.Store
import Spreadsheet.Proofs.Evaluation.Agreement
import Spreadsheet.Proofs.Evaluation.Numbers
import Spreadsheet.Proofs.Graph.Plan

/-! # What a pass achieves

Where the dependencies are those of the formulas, a formula reads nothing but the cells that it depends
on. So after the steps of a plan each of its formulas has the value that it should have (`Current`): no
later step changes a cell that it reads. -/

namespace Spreadsheet
open Relation

/-! ### Formulas and their dependencies -/

/-- What the formula at a location reads, if there is one. -/
def Store.precedents (s : Store) (sheets : Sheets) (l : Location) : List Precedent :=
  match s.expr? l with
  | some expr => Dependencies.distinct ((Resolver.atCell sheets l).precedents expr)
  | none => []

/-- The dependencies are those of the formulas in the store. -/
def Dependencies.Mirrors (d : Dependencies) (sheets : Sheets) (s : Store) : Prop :=
  ∀ l, d.precedents l = s.precedents sheets l

namespace Dependencies.Mirrors
variable {d : Dependencies} {sheets : Sheets} {s t : Store} {l m : Location}

theorem isSome_of_reads (h : d.Mirrors sheets s) (hr : d.Reads l m) : (s.expr? l).isSome := by
  obtain ⟨p, hp, -⟩ := hr
  rw [h l, Store.precedents] at hp
  split at hp
  · rename_i hexpr
    rw [hexpr]
    rfl
  · cases hp

theorem isSome_of_onCycle (h : d.Mirrors sheets s) (hc : d.OnCycle l) : (s.expr? l).isSome := by
  obtain ⟨m, hr, -⟩ := TransGen.head'_iff.mp hc
  exact h.isSome_of_reads hr

/-- A formula reads the cells that its references mean. -/
theorem reads (h : d.Mirrors sheets s) {expr : Expr} (hexpr : s.expr? l = some expr) {reference : Reference}
    (hmem : reference ∈ expr.references) {p : Precedent}
    (hp : (Resolver.atCell sheets l).resolve reference = .ok p) (hm : p.Covers m) : d.Reads l m := by
  refine ⟨p, ?_, hm⟩
  rw [h l, Store.precedents, hexpr]
  exact mem_distinct.mpr (Resolver.mem_precedents.mpr ⟨reference, hmem, hp⟩)

theorem revalued (h : d.Mirrors sheets s) {p : Location → Prop} (hrev : s.Revalued t p) : d.Mirrors sheets t := by
  intro l
  rw [h l, Store.precedents, Store.precedents, hrev.expr?]

end Dependencies.Mirrors

/-! ### What a formula should be -/

/-- The rules do not differ in anything that the formula of a cell mentions. -/
structure Rules.Alike (rules others : Rules) (l : Location) (expr : Expr) : Prop where
  limits : rules.limits = others.limits
  sheets : ∀ reference ∈ expr.references,
    (Resolver.atCell rules.sheets l).Alike (Resolver.atCell others.sheets l) reference
  library : ∀ name, expr.calls name = true → rules.library.find? name = others.library.find? name

theorem Rules.Alike.refl {rules : Rules} {l : Location} {expr : Expr} : rules.Alike rules l expr where
  limits := rfl
  sheets _ _ := ⟨rfl, rfl, fun _ _ => rfl⟩
  library _ _ := rfl

theorem Rules.Alike.trans {rules others third : Rules} {l : Location} {expr : Expr} (h : rules.Alike others l expr)
    (h' : others.Alike third l expr) : rules.Alike third l expr where
  limits := h.limits.trans h'.limits
  sheets reference hmem := (h.sheets reference hmem).trans (h'.sheets reference hmem)
  library name hcall := (h.library name hcall).trans (h'.library name hcall)

/-- An evaluation depends on no cell but those that the formula reads. -/
theorem Rules.compute_congr {rules others : Rules} {d : Dependencies} {s t : Store} {l : Location}
    (hd : d.Mirrors rules.sheets s) (hexpr : t.expr? l = s.expr? l)
    (halike : ∀ expr, s.expr? l = some expr → rules.Alike others l expr)
    (hvalue : ∀ m, d.Reads l m → t.value m = s.value m) : others.compute t l = rules.compute s l := by
  rw [compute, compute, hexpr]
  cases hs : s.expr? l with
  | none => rfl
  | some expr =>
    have ha := halike expr hs
    refine congrArg some (Expr.evaluate_congr ?_).symm
    constructor
    case limits => exact ha.limits
    case anchor => rfl
    case read =>
      intro r hr
      rw [← Expr.mem_references] at hr
      refine Setting.read_congr ha.limits (ha.sheets r hr).resolve fun p hp m hm => ?_
      exact (hvalue m (hd.reads hs hr hp hm)).symm
    case find =>
      intro name args hcall
      exact ha.library name (Expr.calls_iff.mpr ⟨name, args, hcall, rfl⟩)

/-- A formula has the value that it should have: `#CIRCULAR` on a cycle, else what it evaluates to. -/
structure Current (rules : Rules) (d : Dependencies) (s : Store) (l : Location) : Prop where
  circular : d.OnCycle l → s.value l = .error .circular
  evaluated : ¬d.OnCycle l → ∀ r, rules.compute s l = some r → s.value l = committed r

theorem Current.congr {rules others : Rules} {d f : Dependencies} {s t : Store} {l : Location}
    (h : Current rules d s l) (hcycle : f.OnCycle l ↔ d.OnCycle l) (hvalue : t.value l = s.value l)
    (hcompute : others.compute t l = rules.compute s l) : Current others f t l where
  circular hc := hvalue.trans (h.circular (hcycle.mp hc))
  evaluated hc r hr := hvalue.trans (h.evaluated (fun hd => hc (hcycle.mpr hd)) r (hcompute ▸ hr))

/-! ### Steps -/

namespace Pass
variable {rules : Rules} {b : Before} {d : Dependencies} {p : Pass} {step : Step} {steps : List Step}

theorem store_visit {act : Pass → Location → Pass} {l : Location} : (p.visit b act l).store = (act p l).store := rfl

theorem store_evaluate {l : Location} : (p.evaluate rules l).store =
    match rules.compute p.store l with
    | none => p.store
    | some r => p.store.setValue l (committed r) := by
  unfold evaluate
  split <;> simp only [*]
  rfl

theorem value_foldl_mark {cells : List Location} {l : Location} : ∀ {p : Pass},
    (cells.foldl (visit b mark) p).store.value l = if l ∈ cells then .error .circular else p.store.value l := by
  induction cells with
  | nil => simp
  | cons x cells ih =>
    intro p
    rw [List.foldl_cons, ih, store_visit, mark, Store.value_setValue]
    by_cases hl : l ∈ cells
    · simp [hl]
    · simp [hl]

theorem revalued_foldl_mark {cells : List Location} : ∀ {p : Pass}, (∀ l ∈ cells, (p.store.expr? l).isSome) →
    p.store.Revalued (cells.foldl (visit b mark) p).store (· ∈ cells) := by
  induction cells with
  | nil => exact fun _ => .refl
  | cons x cells ih =>
    intro p h
    have hx : p.store.Revalued (p.visit b mark x).store (· = x) := .setValue (h x List.mem_cons_self)
    have hcells := ih (p := p.visit b mark x) fun l hl => hx.expr? l ▸ h l (List.mem_cons_of_mem x hl)
    refine (hx.trans hcells).mono fun l hl => ?_
    exact List.mem_cons.mpr hl

theorem revalued_take (hd : d.Mirrors rules.sheets p.store) (hs : d.Sequence (step :: steps)) :
    p.store.Revalued (p.take rules b step).store (· ∈ step.cells) := by
  cases step with
  | cell l =>
    rw [take, store_visit, store_evaluate]
    split
    · exact .refl
    · rename_i r hr
      obtain ⟨expr, hexpr, -⟩ := Option.map_eq_some_iff.mp hr
      refine (Store.Revalued.setValue ?_).mono fun m hm => List.mem_singleton.mpr hm
      rw [hexpr]
      rfl
  | cycle cells =>
    exact revalued_foldl_mark fun l hl => hd.isSome_of_onCycle (hs.cyclic cells List.mem_cons_self l hl)

/-- A step gives the formulas of its cells the values that they should have. -/
theorem current_take (hd : d.Mirrors rules.sheets p.store) (hs : d.Sequence (step :: steps)) {l : Location}
    (hl : l ∈ step.cells) : Current rules d (p.take rules b step).store l := by
  have hrev := revalued_take (b := b) hd hs
  cases step with
  | cell m =>
    obtain rfl := List.mem_singleton.mp hl
    have hno := hs.acyclic l List.mem_cons_self
    refine ⟨fun hc => absurd hc hno, fun _ r hr => ?_⟩
    have hcompute : rules.compute (p.take rules b (.cell l)).store l = rules.compute p.store l := by
      refine Rules.compute_congr hd (hrev.expr? l) (fun _ _ => .refl) fun m hm => hrev.value m fun hmem => hno ?_
      obtain rfl := List.mem_singleton.mp hmem.2
      exact .single hm
    rw [hcompute] at hr
    simp only [take, store_visit, store_evaluate, hr, Store.value_setValue, if_pos]
  | cycle cells =>
    refine ⟨fun _ => ?_, fun hno => absurd (hs.cyclic cells List.mem_cons_self l hl) hno⟩
    exact value_foldl_mark.trans (if_pos hl)

/-- The steps revalue their cells and no others, and in the end the formulas of these cells have the values
    that they should have. -/
theorem current_steps : ∀ {p : Pass}, d.Mirrors rules.sheets p.store → d.Sequence steps →
    p.store.Revalued (steps.foldl (take rules b) p).store (fun l => ∃ s ∈ steps, l ∈ s.cells) ∧
      ∀ s ∈ steps, ∀ l ∈ s.cells, Current rules d (steps.foldl (take rules b) p).store l := by
  induction steps with
  | nil => exact fun _ _ => ⟨.refl, fun _ hs => absurd hs List.not_mem_nil⟩
  | cons step steps ih =>
    intro p hd hs
    have hstep := revalued_take (b := b) hd hs
    have hmirrors := hd.revalued hstep
    obtain ⟨hrest, hcurrent⟩ := ih hmirrors hs.tail
    refine ⟨(hstep.trans hrest).mono fun l hl => ?_, fun s hmem l hl => ?_⟩
    · rcases hl with hl | ⟨s, hmem, hl⟩
      · exact ⟨step, List.mem_cons_self, hl⟩
      · exact ⟨s, List.mem_cons_of_mem step hmem, hl⟩
    · rcases List.mem_cons.mp hmem with rfl | hmem
      · -- Later steps change neither the cell nor what it reads.
        refine (current_take hd hs hl).congr Iff.rfl (hrest.value l ?_) ?_
        · rintro ⟨-, t, ht, hlt⟩
          exact List.rel_of_pairwise_cons hs.disjoint ht hl hlt
        · refine Rules.compute_congr hmirrors (hrest.expr? l) (fun _ _ => .refl) fun m hm => hrest.value m ?_
          rintro ⟨-, t, ht, hmt⟩
          exact List.rel_of_pairwise_cons hs.ordered ht l hl m hmt hm
      · exact hcurrent s hmem l hl

/-- A pass over the plan for changed cells revalues the affected formulas and no other cells. -/
theorem current_run (rules : Rules) (b : Before) (hd : d.Coherent) {store : Store} (hm : d.Mirrors rules.sheets store)
    (changed : List Location) :
    store.Revalued (run rules b store (d.plan changed)).store (d.Affected changed) ∧
      ∀ l, d.Affected changed l → Current rules d (run rules b store (d.plan changed)).store l := by
  have hs := hd.schedule changed
  obtain ⟨hrev, hcurrent⟩ := current_steps (b := b) (p := start store) hm hs.toSequence
  refine ⟨hrev.mono fun l hl => (hs.mem l).mp hl, fun l hl => ?_⟩
  obtain ⟨s, hmem, hls⟩ := (hs.mem l).mpr hl
  exact hcurrent s hmem l hls

end Pass

/-! ### Values that equal themselves -/

/-- No value differs from itself. -/
def Store.Comparable (s : Store) : Prop :=
  ∀ l, (s.value l).isNaN = false

theorem Store.Comparable.setValue {s : Store} (h : s.Comparable) {l : Location} {v : Value} (hv : v.isNaN = false) :
    (s.setValue l v).Comparable := by
  intro m
  rw [value_setValue]
  split
  · exact hv
  · exact h m

theorem Rules.isNaN_compute {rules : Rules} {s : Store} (h : s.Comparable) {l : Location} {r : Except Fault Value}
    (hr : rules.compute s l = some r) : (committed r).isNaN = false := by
  obtain ⟨expr, -, hexpr⟩ := Option.map_eq_some_iff.mp hr
  cases r with
  | error fault => rfl
  | ok v => exact Expr.isNaN_evaluate (s := rules.setting s l) h hexpr

theorem Pass.comparable_run {rules : Rules} {b : Before} {store : Store} (h : store.Comparable) (plan : Plan) :
    (run rules b store plan).store.Comparable := by
  refine List.foldlRecOn (motive := fun p : Pass => p.store.Comparable) plan.steps (take rules b) h ?_
  intro p hp step _
  cases step with
  | cell l =>
    rw [take, store_visit, store_evaluate]
    split
    · exact hp
    · exact hp.setValue (Rules.isNaN_compute hp ‹_›)
  | cycle cells =>
    intro l
    rw [take, value_foldl_mark]
    split
    · rfl
    · exact hp l

end Spreadsheet
