import Spreadsheet.Proofs.Engine.Commands

/-! # Every formula is current

Each command leaves every formula with the value that it should have: the pass sees to the formulas that
depend on what was replaced, and for all others neither their cycles nor what they read has changed. So an
audit finds nothing, as long as no value is put in that differs from itself. -/

namespace Spreadsheet.Engine
variable {e f g : Engine} {l : Location}

/-! ### Values of formulas -/

structure Consistent (e : Engine) : Prop extends Linked e where
  current : ∀ l, Current e.rules e.dependencies e.store l

theorem Started.consistent (h : e.Started) : e.Consistent where
  toLinked := h.linked
  current l := by
    have hexpr : e.store.expr? l = none := by rw [Store.expr?, h.get?_eq_none, Option.bind_none]
    constructor
    case circular =>
      intro hc
      have hsome := h.linked.mirrors.isSome_of_onCycle hc
      rw [hexpr] at hsome
      cases hsome
    case evaluated =>
      intro _ r hr
      rw [Rules.compute, hexpr] at hr
      cases hr

/-- A cell that does not depend on what was replaced keeps its value, and its formula evaluates to what it did. -/
theorem Linked.unaffected (he : e.Linked) (hf : f.Linked) {edits : List (Location × Edit)} {seeds : List Location}
    (hprepares : e.Prepares edits f seeds) (hpass : f.Recalculated seeds g) (hl : ¬f.dependencies.Affected seeds l) :
    g.store.value l = e.store.value l ∧ f.rules.compute g.store l = e.rules.compute e.store l := by
  have hvalue : ∀ m, ¬f.dependencies.Affected seeds m → g.store.value m = e.store.value m := by
    intro m hm
    rw [hpass.revalued.value m fun h => hm h.2, Store.value, Store.value,
      hprepares.cell m fun hmem => hm (.changed hmem)]
  have hseeds : l ∉ seeds := fun hmem => hl (.changed hmem)
  -- What the cell reads is not affected either.
  refine ⟨hvalue l hl, Rules.compute_congr he.mirrors ?_ (hprepares.alike l hseeds) fun m hm =>
    hvalue m fun haffected => hl ?_⟩
  · rw [hpass.revalued.expr?, hprepares.expr? hseeds]
  · refine .dependent haffected (hf.coherent.mem_dependents.mpr ?_)
    rwa [Dependencies.Reads, hprepares.precedents l hseeds]

/-- What was current before the preparation is so after the pass. -/
theorem Consistent.recalculated (he : e.Consistent) (hf : f.Linked) {edits : List (Location × Edit)}
    {seeds : List Location} (hprepares : e.Prepares edits f seeds) (hpass : f.Recalculated seeds g) :
    g.Consistent where
  toLinked := hf.recalculated hpass
  current l := by
    rw [hpass.rules, hpass.dependencies]
    by_cases hl : f.dependencies.Affected seeds l
    · exact hpass.current l hl
    obtain ⟨hvalue, hcompute⟩ := he.toLinked.unaffected hf hprepares hpass hl
    exact (he.current l).congr (hf.coherent.onCycle_congr hprepares.precedents hl) hvalue hcompute

theorem Consistent.after (he : e.Consistent) (c : Command) : (e.after c).Consistent := by
  obtain ⟨f, seeds, hf, hprepares, hpass⟩ := he.toLinked.after c
  exact he.recalculated hf hprepares hpass

theorem Started.consistent_afterAll (h : e.Started) (commands : List Command) : (e.afterAll commands).Consistent :=
  afterAll_induction commands h.consistent fun _ he c _ => he.after c

/-! ### Audits -/

theorem Consistent.comparable_after (he : e.Consistent) {c : Command}
    (hvalues : ∀ r ∈ c.requests, ∀ v, r.edit = .value v → v.isNaN = false) (hc : e.store.Comparable) :
    (e.after c).store.Comparable := by
  obtain ⟨f, seeds, -, hprepares, hpass⟩ := he.toLinked.after c
  refine hpass.comparable (hprepares.comparable (fun edit hmem => ?_) hc)
  obtain ⟨r, hr, haccept⟩ := exists_request hmem
  obtain ⟨l, -, rfl⟩ := Except.map_eq_ok.mp haccept
  dsimp only
  cases h : r.edit with
  | text s => exact Content.isNaN_ofText s
  | value v =>
    rw [Edit.content, Content.constantValue_ofValue]
    exact hvalues r hr v h

theorem Consistent.audit_eq_nil (he : e.Consistent) (hc : e.store.Comparable) : e.audit = [] := by
  have hself : ∀ l, (e.store.value l).same (e.store.value l) = true := fun l => by
    rw [Value.same_self, hc l]
    rfl
  rw [audit, List.filter_eq_nil_iff]
  intro l _
  rw [expected?]
  split
  · rename_i hcycle
    rw [Option.any_some, ← (he.current l).circular (he.coherent.hasCycle_iff.mp hcycle)]
    simp [value, hself]
  · rename_i hcycle
    cases hr : e.rules.compute e.store l with
    | none => simp
    | some r =>
      rw [Option.map_some, Option.any_some,
        ← (he.current l).evaluated (fun hon => hcycle (he.coherent.hasCycle_iff.mpr hon)) r hr]
      simp [value, hself]

theorem Started.comparable_afterAll (h : e.Started) {commands : List Command}
    (hvalues : ∀ c ∈ commands, ∀ r ∈ c.requests, ∀ v, r.edit = .value v → v.isNaN = false) :
    (e.afterAll commands).store.Comparable := by
  have hstart : e.store.Comparable := fun l => by
    rw [Store.value, h.get?_eq_none]
    rfl
  have hboth := afterAll_induction (motive := fun e => e.Consistent ∧ e.store.Comparable) commands
    ⟨h.consistent, hstart⟩ fun e he c hmem => ⟨he.1.after c, he.1.comparable_after (hvalues c hmem) he.2⟩
  exact hboth.2

/-- After any commands an audit finds nothing: a formula on a cycle is `#CIRCULAR`, and every other one has the
    value that it evaluates to. -/
theorem audit_afterAll (h : e.Started) {commands : List Command}
    (hvalues : ∀ c ∈ commands, ∀ r ∈ c.requests, ∀ v, r.edit = .value v → v.isNaN = false) :
    (e.afterAll commands).audit = [] ∧ ∀ l expr, (e.afterAll commands).store.expr? l = some expr →
      ((e.afterAll commands).dependencies.OnCycle l → (e.afterAll commands).value l = .error .circular) ∧
        (¬(e.afterAll commands).dependencies.OnCycle l → (e.afterAll commands).value l =
          committed (expr.evaluate ((e.afterAll commands).rules.setting (e.afterAll commands).store l))) := by
  have hconsistent := h.consistent_afterAll commands
  refine ⟨hconsistent.audit_eq_nil (h.comparable_afterAll hvalues), fun l expr hexpr => ?_⟩
  have hcurrent := hconsistent.current l
  refine ⟨hcurrent.circular, fun hno => hcurrent.evaluated hno _ ?_⟩
  rw [Rules.compute, hexpr, Option.map_some]

/-- Two formulas that read each other, one that is entered before its sheet exists, and a value from elsewhere. -/
theorem audit_afterAll_initial :
    (initial.afterAll
      [.batch [⟨.address "A1", .text "=B1"⟩, ⟨.address "B1", .text "=A1+C1"⟩],
        .input ⟨.address "C1", .text "=Data!A1"⟩, .addSheet "Data",
        .input ⟨.location ⟨1, 0, 0⟩, .value (.text "x")⟩]).audit = [] := by
  refine (audit_afterAll (Or.inl rfl) ?_).1
  simp [Command.requests, Value.isNaN]

end Spreadsheet.Engine
