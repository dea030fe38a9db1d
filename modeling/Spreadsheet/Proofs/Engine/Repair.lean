import Spreadsheet.Function.Builtin
import Spreadsheet.Proofs.Engine.Pass

/-! # A pass repairs stale values

Whatever values the formulas of a plan have before a pass, it leaves each with the value that it should have
(`Pass.current_run`). What is outside the plan reads nothing in it, and stays what it was. As formulas have one
valuation only, nothing is left of the stale values. -/

namespace Spreadsheet
variable {rules : Rules} {d : Dependencies} {s t : Store} {p : Location → Prop}

/-- Precedents that are kept in order are known by their members. -/
theorem Dependencies.Coherent.mirrors (h : d.Coherent) {sheets : Sheets}
    (hmem : ∀ l q, q ∈ d.precedents l ↔ ∃ expr, s.expr? l = some expr ∧ q ∈ (Resolver.atCell sheets l).precedents expr) :
    d.Mirrors sheets s := by
  intro l
  rw [← h.distinct l, Store.precedents]
  split
  · rename_i expr hexpr
    refine distinct_congr fun q => (hmem l q).trans ?_
    simp only [hexpr, Option.some.injEq, exists_eq_left']
  · rename_i hexpr
    have hnone : d.precedents l = [] := List.eq_nil_iff_forall_not_mem.mpr fun q hq => by
      obtain ⟨expr, hsome, -⟩ := (hmem l q).mp hq
      cases hexpr.symm.trans hsome
    rw [h.distinct, hnone]

/-- Formulas have one valuation only: stores that differ in none but formulas that are current in both are the same. -/
theorem Store.Revalued.eq_of_current (hd : d.Mirrors rules.sheets s) (h : s.Revalued t p)
    (hs : ∀ l, p l → Current rules d s l) (ht : ∀ l, p l → Current rules d t l) : t = s := by
  have hcircular : ∀ l, d.OnCycle l → t.value l = s.value l := fun l hl => by
    by_cases hp : p l
    · rw [(ht l hp).circular hl, (hs l hp).circular hl]
    · exact h.value l fun hboth => hp hboth.2
  -- A formula that is on no cycle has its value from those that it reads.
  have hacyclic : ∀ l, ¬d.OnCycle l → t.value l = s.value l := by
    intro l hl
    refine Dependencies.acyclic_induction (motive := fun l => t.value l = s.value l) (fun l hl ih => ?_) hl
    by_cases hp : (s.expr? l).isSome ∧ p l
    · have hcompute : rules.compute t l = rules.compute s l := by
        refine Rules.compute_congr hd (h.expr? l) (fun _ _ => .refl) fun m hm => ?_
        by_cases hc : d.OnCycle m
        · exact hcircular m hc
        · exact ih m hm hc
      obtain ⟨expr, hexpr⟩ := Option.isSome_iff_exists.mp hp.1
      have hr : rules.compute s l = some (expr.evaluate (rules.setting s l)) := by
        rw [Rules.compute, hexpr, Option.map_some]
      rw [(hs l hp.2).evaluated hl _ hr, (ht l hp.2).evaluated hl _ (hcompute.trans hr)]
    · exact h.value l hp
  have hvalue : s.Revalued t fun _ => False := by
    refine ⟨h.source, fun l _ => ?_⟩
    by_cases hl : d.OnCycle l
    · exact hcircular l hl
    · exact hacyclic l hl
  exact Store.eq_of_get? fun l => hvalue.get?_eq fun hl => hl.2

namespace Dependencies
open Relation
variable {seeds : List Location} {l m : Location}

theorem not_onCycle_of_precedents (h : d.precedents l = []) : ¬d.OnCycle l := by
  intro hc
  obtain ⟨m, ⟨q, hq, -⟩, -⟩ := TransGen.head'_iff.mp hc
  rw [h] at hq
  cases hq

theorem Coherent.mem_order_of_mem (h : d.Coherent) (hl : l ∈ seeds) : l ∈ (d.plan seeds).order :=
  (h.schedule seeds).mem_order.mpr (.changed hl)

/-- With a cell, a plan holds all that read it. -/
theorem Coherent.mem_order_of_reads (h : d.Coherent) (hm : m ∈ (d.plan seeds).order) (hread : d.Reads l m) :
    l ∈ (d.plan seeds).order :=
  (h.schedule seeds).mem_order.mpr (.dependent ((h.schedule seeds).mem_order.mp hm) (h.mem_dependents.mpr hread))

end Dependencies

namespace Pass
open Dependencies
variable {before : Before} {seeds : List Location}

theorem revalued_run (before : Before) (seeds : List Location) (hd : d.Coherent) (hm : d.Mirrors rules.sheets s) :
    s.Revalued (run rules before s (d.plan seeds)).store (· ∈ (d.plan seeds).order) :=
  (current_run rules before hd hm seeds).1.mono fun _ hl => (hd.schedule seeds).mem_order.mpr hl

theorem current_run_of_mem (before : Before) (hd : d.Coherent) (hm : d.Mirrors rules.sheets s) {l : Location}
    (hl : l ∈ (d.plan seeds).order) : Current rules d (run rules before s (d.plan seeds)).store l :=
  (current_run rules before hd hm seeds).2 l ((hd.schedule seeds).mem_order.mp hl)

/-- A pass keeps what is current outside its plan. -/
theorem current_run_of_not_mem (hd : d.Coherent) (hm : d.Mirrors rules.sheets s) {l : Location}
    (hl : l ∉ (d.plan seeds).order) (h : Current rules d s l) : Current rules d (run rules before s (d.plan seeds)).store l := by
  have hrevalued := revalued_run before seeds hd hm
  refine h.congr Iff.rfl (hrevalued.value l fun hp => hl hp.2) ?_
  refine Rules.compute_congr hm (hrevalued.expr? l) (fun _ _ => .refl) fun m hread => hrevalued.value m fun hp => hl ?_
  exact hd.mem_order_of_reads hp.2 hread

/-- Where nothing but formulas in a plan may be stale, all are current after the pass. -/
theorem current_run_of_outside (hd : d.Coherent) (hm : d.Mirrors rules.sheets s)
    (houtside : ∀ l, l ∉ (d.plan seeds).order → Current rules d s l) (l : Location) :
    Current rules d (run rules before s (d.plan seeds)).store l := by
  by_cases hl : l ∈ (d.plan seeds).order
  · exact current_run_of_mem before hd hm hl
  · exact current_run_of_not_mem hd hm hl (houtside l hl)

/-- Where a pass ends does not depend on the values that the formulas in its plan had before. -/
theorem store_run_congr (hd : d.Coherent) (hm : d.Mirrors rules.sheets s)
    (hstale : s.Revalued t (· ∈ (d.plan seeds).order)) (others : Before) :
    (run rules before t (d.plan seeds)).store = (run rules others s (d.plan seeds)).store := by
  have hmt := hm.revalued hstale
  have hs := revalued_run others seeds hd hm
  have ht := revalued_run before seeds hd hmt
  have hboth : (run rules others s (d.plan seeds)).store.Revalued (run rules before t (d.plan seeds)).store
      (· ∈ (d.plan seeds).order) :=
    ((hs.symm.trans hstale).trans ht).mono fun l hl => by simpa only [or_self] using hl
  exact hboth.eq_of_current (hm.revalued hs) (fun l hl => current_run_of_mem others hd hm hl) fun l hl =>
    current_run_of_mem before hd hmt hl

/-- Let the dependencies be those of the formulas in a store, and every formula outside a plan current. Then the pass
    over the plan leaves every formula current, whatever values those in the plan have before it, and ends in the same
    store for all of these values. -/
theorem run_of_stale (rules : Rules) {changes : List Change} {store : Store}
    (hprecedents : ∀ l q, q ∈ (ofChanges changes).precedents l ↔
      ∃ expr, store.expr? l = some expr ∧ q ∈ (Resolver.atCell rules.sheets l).precedents expr) (seeds : List Location)
    (houtside : ∀ l, l ∉ ((ofChanges changes).plan seeds).order → Current rules (ofChanges changes) store l)
    (before : Before) :
    (∀ l, Current rules (ofChanges changes) (run rules before store ((ofChanges changes).plan seeds)).store l) ∧
      ∀ stale : Store, store.Revalued stale (· ∈ ((ofChanges changes).plan seeds).order) → ∀ others : Before,
        (run rules others stale ((ofChanges changes).plan seeds)).store =
          (run rules before store ((ofChanges changes).plan seeds)).store := by
  have hd := coherent_ofChanges changes
  have hm := hd.mirrors hprecedents
  exact ⟨current_run_of_outside hd hm houtside, fun stale hstale others => store_run_congr hd hm hstale before⟩

/-- A cell reads itself, and a second one reads it; a third, outside the plan, reads nothing. -/
theorem run_of_stale_circular :
    let rules : Rules := ⟨.builtin, .initial, .standard⟩
    let expr : Expr := .reference (.cell none (.relative 0 0))
    let d := ofChanges [.set ⟨0, 0, 0⟩ [.cell ⟨0, 0, 0⟩], .set ⟨0, 0, 1⟩ [.cell ⟨0, 0, 0⟩]]
    let formulas := ((Store.empty.setFormula ⟨0, 0, 0⟩ "=A1" expr []).setFormula ⟨0, 0, 1⟩ "=A1" expr []).setFormula
      ⟨0, 0, 2⟩ "=TRUE" (.boolean true) []
    let store := formulas.setValue ⟨0, 0, 2⟩ (.boolean true)
    let stale := (store.setValue ⟨0, 0, 1⟩ (.text "old")).setValue ⟨0, 0, 0⟩ (.boolean false)
    (∀ l, Current rules d (run rules .none store (d.plan [⟨0, 0, 0⟩])).store l) ∧
      (run rules .none stale (d.plan [⟨0, 0, 0⟩])).store = (run rules .none store (d.plan [⟨0, 0, 0⟩])).store := by
  intro rules expr d formulas store stale
  have hd : d.Coherent := coherent_ofChanges _
  have hexpr (l : Location) : store.expr? l =
      if l = ⟨0, 0, 2⟩ then some (.boolean true) else if l = ⟨0, 0, 1⟩ ∨ l = ⟨0, 0, 0⟩ then some expr else none := by
    have hempty : Store.empty.get? l = none := Std.ExtTreeMap.getElem?_empty
    simp only [store, formulas, Store.expr?, Store.get?_setValue, Store.get?_setFormula, hempty]
    split
    · rfl
    · split
      · simp [*, Cell.expr?]
      · split <;> simp [*, Cell.expr?]
  have hprecedents (l : Location) : d.precedents l =
      if l = ⟨0, 0, 1⟩ ∨ l = ⟨0, 0, 0⟩ then [.cell ⟨0, 0, 0⟩] else [] := by
    have hempty : empty.precedents l = [] := Std.ExtTreeMap.getD_empty
    have hdistinct : distinct [.cell ⟨0, 0, 0⟩] = [.cell ⟨0, 0, 0⟩] := rfl
    simp only [d, ofChanges, after, List.foldl_cons, List.foldl_nil, precedents_set, hempty, hdistinct]
    split
    · simp [*]
    · split <;> simp [*]
  have hself : (⟨0, 0, 0⟩ : Location) ∈ (d.plan [⟨0, 0, 0⟩]).order := hd.mem_order_of_mem (List.mem_singleton_self _)
  have hreader : (⟨0, 0, 1⟩ : Location) ∈ (d.plan [⟨0, 0, 0⟩]).order :=
    hd.mem_order_of_reads hself ⟨.cell ⟨0, 0, 0⟩, by simp [hprecedents], rfl⟩
  have hstale : store.Revalued stale (· ∈ (d.plan [⟨0, 0, 0⟩]).order) := by
    have hfirst : store.Revalued (store.setValue ⟨0, 0, 1⟩ (.text "old")) (· = ⟨0, 0, 1⟩) :=
      .setValue (by simp [hexpr])
    have hsecond : (store.setValue ⟨0, 0, 1⟩ (.text "old")).Revalued stale (· = ⟨0, 0, 0⟩) :=
      .setValue (by simp [hfirst.expr?, hexpr])
    refine (hfirst.trans hsecond).mono fun l hl => ?_
    rcases hl with rfl | rfl
    · exact hreader
    · exact hself
  have hfits (l : Location) (q : Precedent) : q ∈ d.precedents l ↔
      ∃ x, store.expr? l = some x ∧ q ∈ (Resolver.atCell rules.sheets l).precedents x := by
    simp only [hprecedents, hexpr, Resolver.mem_precedents, Expr.mem_references]
    split
    · rename_i hl
      have hresolve : (Resolver.atCell rules.sheets l).resolve (.cell none (.relative 0 0)) = .ok (.cell ⟨0, 0, 0⟩) := by
        rcases hl with rfl | rfl <;> decide +kernel
      have hne : l ≠ ⟨0, 0, 2⟩ := by rcases hl with rfl | rfl <;> decide
      simp [hne, expr, Expr.preorder, hresolve, eq_comm (a := q)]
    · split <;> simp [Expr.preorder]
  have houtside (l : Location) (hl : l ∉ (d.plan [⟨0, 0, 0⟩]).order) : Current rules d store l := by
    have hnot : ¬(l = ⟨0, 0, 1⟩ ∨ l = ⟨0, 0, 0⟩) := by
      rintro (rfl | rfl)
      · exact hl hreader
      · exact hl hself
    have hidle : d.precedents l = [] := (hprecedents l).trans (if_neg hnot)
    refine ⟨fun hc => absurd hc (not_onCycle_of_precedents hidle), fun _ r hr => ?_⟩
    rw [Rules.compute, hexpr, if_neg hnot] at hr
    split at hr
    · rename_i h
      subst h
      cases hr
      rw [Store.value_setValue, if_pos rfl]
      rfl
    · cases hr
  obtain ⟨hcurrent, hsame⟩ := run_of_stale rules hfits [⟨0, 0, 0⟩] houtside .none
  exact ⟨hcurrent, hsame stale hstale .none⟩

end Pass

end Spreadsheet
