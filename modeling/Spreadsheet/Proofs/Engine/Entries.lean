import Spreadsheet.Proofs.Engine.Commands

/-! # Cells show what was entered

After any commands, a cell shows its content: for a formula what the text parses to, with links to what
its references mean on the sheets there are; for anything else a value and no links. Cells stay, and those
without a formula stay what they are until something is entered into them. -/

namespace Spreadsheet.Engine
variable {e f : Engine} {l m : Location} {c : Cell}

/-- The cell holds the formula, reads what the references in it mean, and misses the sheets that they name in
    vain. -/
structure ShowsFormula (e : Engine) (l : Location) (c : Cell) (expr : Expr) : Prop where
  parsed : c.expr? = some expr
  parseError : c.parseError? = none
  precedents : ∀ p, p ∈ e.precedents l ↔
    ∃ reference ∈ expr.references, (Resolver.atCell e.sheets l).resolve reference = .ok p
  missing : ∀ name, (∃ n ∈ c.missingSheets, Text.SameName n name) ↔ ∃ reference ∈ expr.references, ∃ n,
    reference.sheet? = some n ∧ e.sheets.indexOf? n = none ∧ Text.SameName n name

/-- The cell holds no formula, has the value and reads nothing. -/
structure ShowsValue (e : Engine) (l : Location) (c : Cell) (error? : Option ParseError) (v : Value) : Prop where
  parsed : c.expr? = none
  parseError : c.parseError? = error?
  value : c.value = v
  precedents : e.precedents l = []

structure Shows (e : Engine) (l : Location) (c : Cell) : Prop where
  placed : e.sheets.check l = .ok l
  sorted : (e.precedents l).Pairwise fun p q => compare p q = .lt
  formula : ∀ text expr, c.content = .formula text → Expr.parse text = .ok expr → e.ShowsFormula l c expr
  invalid : ∀ text error, c.content = .formula text → Expr.parse text = .error error →
    e.ShowsValue l c (some error) (.error error.errorValue)
  constant : c.content.isFormula = false → e.ShowsValue l c none c.content.constantValue

/-- All cells show their content, and nothing but formulas reads a cell. -/
structure ShowsAll (e : Engine) : Prop where
  cells : ∀ l c, e.store.get? l = some c → e.Shows l c
  blank : ∀ l, e.store.get? l = none → e.precedents l = []
  dependents : ∀ l m, m ∈ e.dependents l ↔ ∃ p ∈ e.precedents m, p.Covers l

theorem Linked.precedents_eq_nil (h : e.Linked) (hexpr : e.store.expr? l = none) : e.precedents l = [] := by
  rw [precedents, h.mirrors l, Store.precedents, hexpr]

theorem Linked.shows (h : e.Linked) (hc : e.store.get? l = some c) : e.Shows l c := by
  have hsound := h.sound l c hc
  have hnone : c.expr? = none → e.precedents l = [] := fun hexpr =>
    h.precedents_eq_nil (by rw [Store.expr?, hc, Option.bind_some, hexpr])
  constructor
  case placed => exact h.placed l c hc
  case sorted =>
    rw [precedents, ← h.coherent.distinct l]
    exact Dependencies.pairwise_distinct _
  case formula =>
    intro text expr hcontent hparse
    obtain ⟨missing, v, rfl⟩ := hsound.eq_formula hcontent hparse
    refine ⟨rfl, rfl, fun p => ?_, fun name => ?_⟩
    · rw [precedents, h.mirrors l, Store.precedents, Store.expr?_eq_some.mpr ⟨_, _, _, hc⟩, Dependencies.mem_distinct,
        Resolver.mem_precedents]
    · rw [Cell.missingSheets, (h.linkedAt l).missing text expr missing v hc, Resolver.exists_mem_missingSheets]
      rfl
  case invalid =>
    intro text error hcontent hparse
    obtain rfl := hsound.eq_invalid hcontent hparse
    exact ⟨rfl, rfl, rfl, hnone rfl⟩
  case constant =>
    intro hno
    rw [hsound.eq_constant hno] at hnone ⊢
    exact ⟨rfl, rfl, rfl, hnone rfl⟩

theorem Linked.showsAll (h : e.Linked) : e.ShowsAll where
  cells _ _ hc := h.shows hc
  blank l hl := h.precedents_eq_nil (by rw [Store.expr?, hl]; rfl)
  dependents _ _ := h.coherent.mem_dependents

/-! ### What stays -/

theorem Linked.isSome_after (h : e.Linked) (command : Command) (hl : (e.store.get? l).isSome) :
    ((e.after command).store.get? l).isSome := by
  obtain ⟨f, seeds, -, hprepares, hafter⟩ := h.after command
  rw [hafter.revalued.isSome_get?]
  exact hprepares.stored l hl

/-- A cell without a formula is what it was, unless the command enters something into it. -/
theorem Linked.get?_after (h : e.Linked) (command : Command) (hexpr : e.store.expr? l = none)
    (hl : l ∉ (e.edits command).map Prod.fst) : (e.after command).store.get? l = e.store.get? l := by
  obtain ⟨f, seeds, -, hprepares, hafter⟩ := h.after command
  have hget := hprepares.unedited l hl hexpr
  refine (hafter.revalued.get?_eq fun hsome => ?_).trans hget
  have hf : f.store.expr? l = none := by rwa [Store.expr?, hget]
  rw [hf] at hsome
  cases hsome.1

/-- After any commands all cells show their content. The next command takes no cell away, and a cell without a
    formula changes only if the command enters something into it. -/
theorem showsAll_afterAll (h : e.Started) (commands : List Command) :
    (e.afterAll commands).ShowsAll ∧ ∀ command l,
      (((e.afterAll commands).store.get? l).isSome → (((e.afterAll commands).after command).store.get? l).isSome) ∧
        ((e.afterAll commands).store.expr? l = none → l ∉ ((e.afterAll commands).edits command).map Prod.fst →
          ((e.afterAll commands).after command).store.get? l = (e.afterAll commands).store.get? l) := by
  have hlinked := h.linked_afterAll commands
  exact ⟨hlinked.showsAll, fun command l => ⟨hlinked.isSome_after command, hlinked.get?_after command⟩⟩

/-- A formula that is entered before its sheet exists, and a text that is no formula. -/
theorem showsAll_afterAll_initial :
    (initial.afterAll
      [.input ⟨.address "A1", .text "=A2+Data!B1"⟩, .addSheet "Data", .input ⟨.address "A2", .text "=("⟩]).ShowsAll :=
  (showsAll_afterAll (Or.inl rfl) _).1

end Spreadsheet.Engine
