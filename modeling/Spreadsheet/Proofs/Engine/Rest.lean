import Spreadsheet.Proofs.Engine.Changes

/-! # Recalculation at rest

Between commands every formula has the value that it should have, and there is only one such valuation. So
to recalculate any cells gives each the value that it has, and no cell, no listener and nothing else but
the report on the pass tells that there was one. -/

namespace Spreadsheet.Engine
variable {e f : Engine}

/-- A pass without inputs before it gives every formula the value that it has. -/
theorem Consistent.value_of_recalculated (he : e.Consistent) {seeds : List Location} (hpass : e.Recalculated seeds f)
    (l : Location) : f.store.value l = e.store.value l := by
  have hf := he.recalculated he.toLinked .refl hpass
  have hinputs : e.SameInputs f := .of_rules hpass.rules.symm fun l => (hpass.revalued.content l).symm
  exact ((he.agree hf hinputs).value l).symm

theorem Consistent.store_of_recalculated (he : e.Consistent) {seeds : List Location} (hpass : e.Recalculated seeds f) :
    f.store = e.store := by
  have hrevalued : e.store.Revalued f.store fun _ => False :=
    ⟨hpass.revalued.source, fun l _ => he.value_of_recalculated hpass l⟩
  exact Store.eq_of_get? fun l => hrevalued.get?_eq fun h => h.2

/-- Where no value differs from itself, such a pass changes nothing but the report on the latest pass. -/
theorem Consistent.recalculateFrom_eq_self (he : e.Consistent) (hc : e.store.Comparable) (seeds : List Location) :
    ∃ lastPass, e.recalculateFrom .none seeds = ({ e with lastPass }, .none) := by
  have hstore := he.store_of_recalculated (he.toLinked.recalculateFrom .none seeds)
  have hreports : e.Reports (e.recalculateFrom .none seeds).1 (e.recalculateFrom .none seeds).2 :=
    he.toLinked.reports_recalculateFrom hc (fun _ => Before.value_none) fun _ _ => rfl
  have hchanges : (Pass.run e.rules .none e.store (e.dependencies.plan seeds)).changes = .none :=
    Changes.eq_none_of_value? fun l => by
      refine (hreports.value? l).trans (if_pos ?_)
      rw [value, value, hstore, Value.same_self, hc l]
      rfl
  obtain ⟨listeners, lastPass, heq⟩ := e.recalculateFrom_eq .none seeds
  rw [heq] at hstore
  have hrun : (Pass.run e.rules .none e.store (e.dependencies.plan seeds)).store = e.store := hstore
  refine ⟨.of seeds.length (e.dependencies.plan seeds) (Pass.run e.rules .none e.store (e.dependencies.plan seeds)), ?_⟩
  unfold recalculateFrom announce
  simp only [hrun, hchanges]
  rfl

/-- After any commands, to recalculate any cells or all of them reports no change, and leaves the engine as it is
    but for the report on the pass. -/
theorem recalculate_afterAll (h : e.Started) {commands : List Command}
    (hvalues : ∀ c ∈ commands, ∀ r ∈ c.requests, ∀ v, r.edit = .value v → v.isNaN = false) :
    (∀ cells, ∃ lastPass, (e.afterAll commands).recalculate cells = ({ e.afterAll commands with lastPass }, .none)) ∧
      ∃ lastPass, (e.afterAll commands).recalculateAll = ({ e.afterAll commands with lastPass }, .none) := by
  have hconsistent := h.consistent_afterAll commands
  have hcomparable := h.comparable_afterAll hvalues
  exact ⟨fun cells => hconsistent.recalculateFrom_eq_self hcomparable (Dependencies.sorted cells),
    hconsistent.recalculateFrom_eq_self hcomparable _⟩

/-- Two formulas that read each other and a third that reads one of them, recalculated twice over from one of the
    cycle, a cell that was never written, one off the grid and one of a sheet that does not exist. -/
theorem recalculate_afterAll_initial : ∃ lastPass,
    (initial.afterAll [.listen, .batch [⟨.address "A1", .text "=B1"⟩, ⟨.address "B1", .text "=A1"⟩],
        .input ⟨.address "C1", .text "=SUM(A1:B1)"⟩, .input ⟨.address "D1", .value (.text "x")⟩]).recalculate
          [⟨0, 0, 1⟩, ⟨0, 7, 7⟩, ⟨0, 2000000, 0⟩, ⟨5, 0, 0⟩, ⟨0, 0, 1⟩] =
      ({ initial.afterAll [.listen, .batch [⟨.address "A1", .text "=B1"⟩, ⟨.address "B1", .text "=A1"⟩],
          .input ⟨.address "C1", .text "=SUM(A1:B1)"⟩, .input ⟨.address "D1", .value (.text "x")⟩] with lastPass },
        .none) :=
  (recalculate_afterAll (Or.inl rfl) (by simp [Command.requests, Value.isNaN])).1 _

end Spreadsheet.Engine
