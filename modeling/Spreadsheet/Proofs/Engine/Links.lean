import Spreadsheet.Engine.Basic
import Spreadsheet.Proofs.Engine.Pass
import Spreadsheet.Proofs.Grid.Address

/-! # Cells and links in step

Each cell holds what its text parses to, and its links are those of its formula on the sheets as they
are (`Engine.Linked`). A write replaces one cell with its links, and so does linking a formula anew
(`Engine.Replaces`); a pass replaces neither. -/

namespace Spreadsheet

/-! ### Cells -/

/-- The formula is what parsing the text gives; a constant is no text of a formula. -/
def Source.Parsed : Source → Prop
  | .constant content => content.isFormula = false
  | .formula text expr _ => Expr.parse text = .ok expr
  | .invalid text error => Expr.parse text = .error error

/-- The value that a cell has by what was entered, without an evaluation. -/
def Source.ownValue? : Source → Option Value
  | .constant content => some content.constantValue
  | .formula _ _ _ => none
  | .invalid _ error => some (.error error.errorValue)

structure Cell.Sound (c : Cell) : Prop where
  parsed : c.source.Parsed
  value : ∀ v, c.source.ownValue? = some v → c.value = v

namespace Cell.Sound
variable {c : Cell} {text : String}

theorem eq_formula (h : c.Sound) {expr : Expr} (hcontent : c.content = .formula text)
    (hparse : Expr.parse text = .ok expr) : ∃ missing v, c = ⟨.formula text expr missing, v⟩ := by
  have hparsed := h.parsed
  rcases c with ⟨_ | ⟨text', expr', missing⟩ | ⟨text', error'⟩, v⟩
  · cases hcontent
    cases hparsed
  · cases hcontent
    cases hparse.symm.trans hparsed
    exact ⟨missing, v, rfl⟩
  · cases hcontent
    cases hparse.symm.trans hparsed

theorem eq_invalid (h : c.Sound) {error : ParseError} (hcontent : c.content = .formula text)
    (hparse : Expr.parse text = .error error) : c = ⟨.invalid text error, .error error.errorValue⟩ := by
  have hparsed := h.parsed
  rcases c with ⟨_ | ⟨text', expr', missing⟩ | ⟨text', error'⟩, v⟩
  · cases hcontent
    cases hparsed
  · cases hcontent
    cases hparse.symm.trans hparsed
  · cases hcontent
    cases hparse.symm.trans hparsed
    rw [show v = _ from h.value _ rfl]

theorem eq_constant (h : c.Sound) (hno : c.content.isFormula = false) :
    c = ⟨.constant c.content, c.content.constantValue⟩ := by
  rcases c with ⟨content | _ | _, v⟩
  · rw [show v = _ from h.value _ rfl]
    rfl
  · cases hno
  · cases hno

end Cell.Sound

/-- The content entered at a location; cells that were never written are empty. -/
def Store.content (s : Store) (l : Location) : Content :=
  ((s.get? l).map Cell.content).getD .empty

theorem Store.Revalued.content {s t : Store} {p : Location → Prop} (h : s.Revalued t p) (l : Location) :
    t.content l = s.content l := by
  rcases h.cases l with ⟨ht, hs⟩ | ⟨source, v, w, ht, hs⟩
  · rw [Store.content, Store.content, ht, hs]
  · rw [Store.content, Store.content, ht, hs]
    rfl

namespace Engine
variable {e f : Engine} {l m : Location} {c : Cell}

/-! ### The invariant -/

/-- What a cell reads and the sheets that it misses are those of its formula, on the sheets as they are. -/
structure LinkedAt (e : Engine) (l : Location) : Prop where
  precedents : e.dependencies.precedents l = e.store.precedents e.sheets l
  missing : ∀ text expr missing v, e.store.get? l = some ⟨.formula text expr missing, v⟩ →
    missing = (Resolver.atCell e.sheets l).missingSheets expr

/-- Cells are sound and at places, and the readers of cells are those that read them. -/
structure Stored (e : Engine) : Prop where
  inhabited : 0 < e.sheets.size
  coherent : e.dependencies.Coherent
  placed : ∀ l c, e.store.get? l = some c → e.sheets.check l = .ok l
  sound : ∀ l c, e.store.get? l = some c → c.Sound

structure Linked (e : Engine) : Prop extends Stored e where
  linkedAt : ∀ l, e.LinkedAt l

theorem Linked.mirrors (h : e.Linked) : e.dependencies.Mirrors e.sheets e.store := fun l => (h.linkedAt l).precedents

/-- A cell holds the formula that its content parses to. -/
theorem Stored.expr?_eq_some (h : e.Stored) {text : String} {expr : Expr} (hcontent : e.store.content l = .formula text)
    (hparse : Expr.parse text = .ok expr) : e.store.expr? l = some expr := by
  cases hget : e.store.get? l with
  | none =>
    rw [Store.content, hget] at hcontent
    cases hcontent
  | some c =>
    rw [Store.content, hget] at hcontent
    obtain ⟨missing, v, rfl⟩ := (h.sound l c hget).eq_formula hcontent hparse
    exact Store.expr?_eq_some.mpr ⟨_, _, _, hget⟩

/-! ### One cell at a time -/

/-- The engines differ in one cell and its links, and these are in step. -/
structure Replaces (e f : Engine) (l : Location) (c : Cell) : Prop where
  rules : f.rules = e.rules
  coherent : e.dependencies.Coherent → f.dependencies.Coherent
  cell : ∀ m, f.store.get? m = if m = l then some c else e.store.get? m
  precedents : ∀ m, m ≠ l → f.dependencies.precedents m = e.dependencies.precedents m
  sound : c.Sound
  linkedAt : f.LinkedAt l

theorem Replaces.sheets (h : e.Replaces f l c) : f.sheets = e.sheets := congrArg Rules.sheets h.rules

theorem Replaces.stored (h : e.Replaces f l c) (he : e.Stored) (hl : e.sheets.check l = .ok l) : f.Stored where
  inhabited := h.sheets ▸ he.inhabited
  coherent := h.coherent he.coherent
  placed m c' hc := by
    rw [h.cell] at hc
    rw [h.sheets]
    split at hc
    · rename_i hm
      exact hm ▸ hl
    · exact he.placed m c' hc
  sound m c' hc := by
    rw [h.cell] at hc
    split at hc
    · cases hc
      exact h.sound
    · exact he.sound m c' hc

/-- The cell itself is linked, and other cells are as before. -/
theorem Replaces.linkedAt_of (h : e.Replaces f l c) (hm : m = l ∨ e.LinkedAt m) : f.LinkedAt m := by
  by_cases heq : m = l
  · exact heq ▸ h.linkedAt
  · have hat := hm.resolve_left heq
    have hget : f.store.get? m = e.store.get? m := (h.cell m).trans (if_neg heq)
    constructor
    case precedents =>
      rw [h.precedents m heq, hat.precedents, h.sheets, Store.precedents, Store.precedents, Store.expr?, Store.expr?, hget]
    case missing =>
      intro text expr missing v hf
      rw [h.sheets]
      exact hat.missing text expr missing v (hget ▸ hf)

theorem Replaces.linked (h : e.Replaces f l c) (he : e.Linked) (hl : e.sheets.check l = .ok l) : f.Linked where
  toStored := h.stored he.toStored hl
  linkedAt m := h.linkedAt_of (Or.inr (he.linkedAt m))

theorem linkedAt_formula {text : String} {expr : Expr} {missing : List String} {v : Value}
    (hget : e.store.get? l = some ⟨.formula text expr missing, v⟩)
    (hprecedents : e.dependencies.precedents l = Dependencies.distinct ((Resolver.atCell e.sheets l).precedents expr))
    (hmissing : missing = (Resolver.atCell e.sheets l).missingSheets expr) : e.LinkedAt l where
  precedents := by
    rw [hprecedents, Store.precedents, Store.expr?_eq_some.mpr ⟨_, _, _, hget⟩]
  missing text' expr' missing' v' hget' := by
    cases hget.symm.trans hget'
    exact hmissing

theorem linkedAt_constant (hget : e.store.get? l = some c) (hexpr : c.expr? = none)
    (hprecedents : e.dependencies.precedents l = []) : e.LinkedAt l where
  precedents := by
    rw [hprecedents, Store.precedents, Store.expr?, hget, Option.bind_some, hexpr]
  missing text expr missing v hget' := by
    cases hget.symm.trans hget'
    cases hexpr

/-- A formula that is entered reads what its references mean, and keeps the value that was there. -/
theorem replaces_writeFormula {text : String} {expr : Expr} (hparse : Expr.parse text = .ok expr) :
    e.Replaces (e.writeFormula l text expr) l
      ⟨.formula text expr ((Resolver.atCell e.sheets l).missingSheets expr), e.store.value l⟩ where
  rules := rfl
  coherent h := h.set l _
  cell _ := Store.get?_setFormula
  precedents _ hm := Dependencies.precedents_set.trans (if_neg hm)
  sound := ⟨hparse, fun _ hv => by cases hv⟩
  linkedAt := linkedAt_formula (Store.get?_setFormula.trans (if_pos rfl))
    (Dependencies.precedents_set.trans (if_pos rfl)) rfl

theorem replaces_clear {store : Store} (hc : c.Sound) (hexpr : c.expr? = none)
    (hget : ∀ m, store.get? m = if m = l then some c else e.store.get? m) :
    e.Replaces { e with dependencies := e.dependencies.clear l, store } l c where
  rules := rfl
  coherent h := h.clear l
  cell := hget
  precedents _ hm := Dependencies.precedents_clear.trans (if_neg hm)
  sound := hc
  linkedAt := linkedAt_constant ((hget l).trans (if_pos rfl)) hexpr
    (Dependencies.precedents_clear.trans (if_pos rfl))

/-- A write replaces one cell. The value is the content's own, or for a formula the one that was there. -/
theorem exists_replaces_write (edit : Edit) : ∃ c, e.Replaces (e.write l edit) l c ∧ c.content = edit.content ∧
    c.value = (c.source.ownValue?).getD (e.store.value l) := by
  -- The constants are treated alike, whatever they are.
  have hconstant : ∀ content : Content, content.isFormula = false →
      e.Replaces { e with dependencies := e.dependencies.clear l, store := e.store.setConstant l content } l
        ⟨.constant content, content.constantValue⟩ := fun content hno =>
    replaces_clear ⟨hno, fun v hv => Option.some.inj hv⟩ rfl fun m => Store.get?_setConstant
  unfold write
  cases hcontent : edit.content with
  | empty => exact ⟨_, hconstant .empty rfl, rfl, rfl⟩
  | literal v => exact ⟨_, hconstant (.literal v) rfl, rfl, rfl⟩
  | formula text =>
    cases hparse : Expr.parse text with
    | ok expr => exact ⟨_, by simpa only [hparse] using replaces_writeFormula hparse, rfl, rfl⟩
    | error error =>
      refine ⟨⟨.invalid text error, .error error.errorValue⟩, ?_, rfl, rfl⟩
      simp only [hparse]
      exact replaces_clear ⟨hparse, fun v hv => Option.some.inj hv⟩ rfl fun m => Store.get?_setInvalid

/-- A formula that is linked anew stays what it is. -/
theorem replaces_relink {text : String} {expr : Expr} {missing : List String} {v : Value}
    (hget : e.store.get? l = some ⟨.formula text expr missing, v⟩) (hparse : Expr.parse text = .ok expr) :
    e.Replaces (e.relink l) l ⟨.formula text expr ((Resolver.atCell e.sheets l).missingSheets expr), v⟩ := by
  have hrelink : e.relink l =
      { e with
        dependencies := e.dependencies.set l ((Resolver.atCell e.sheets l).precedents expr)
        store := e.store.setMissing l ((Resolver.atCell e.sheets l).missingSheets expr) } := by
    rw [relink, Store.expr?_eq_some.mpr ⟨_, _, _, hget⟩]
  rw [hrelink]
  constructor
  case rules => rfl
  case coherent => exact fun h => h.set l _
  case cell => exact fun m => Store.get?_setMissing hget
  case precedents => exact fun m hm => Dependencies.precedents_set.trans (if_neg hm)
  case sound => exact ⟨hparse, fun v hv => by cases hv⟩
  case linkedAt =>
    exact linkedAt_formula ((Store.get?_setMissing hget).trans (if_pos rfl))
      (Dependencies.precedents_set.trans (if_pos rfl)) rfl

end Engine

end Spreadsheet
