import Spreadsheet.Engine.Command
import Spreadsheet.Proofs.Engine.Links

/-! # What a command does

Every command first replaces cells, sheets or functions and then, if anything calls for it, makes a pass
from the cells that are concerned (`Engine.Course`). What it replaces goes unnoticed by all other formulas
(`Engine.Prepares`), and the pass gives new values to the formulas that depend on these cells
(`Engine.Recalculated`). -/

namespace Spreadsheet

/-- The requests of a command. -/
def Command.requests : Command → List Request
  | .input r => [r]
  | .batch requests => requests
  | _ => []

namespace Engine
variable {e f g : Engine} {l m : Location}

/-! ### Inputs -/

/-- The inputs that a command makes; none if it is refused. -/
def edits (e : Engine) : Command → List (Location × Edit)
  | .input r => (e.accept r).toOption.toList
  | .batch requests => (requests.mapM e.accept).toOption.getD []
  | _ => []

/-- The content of a cell after inputs in turn. -/
def lastContent (l : Location) (edits : List (Location × Edit)) (content : Content) : Content :=
  edits.foldl (fun content (m, edit) => if m = l then edit.content else content) content

theorem lastContent_append {edits others : List (Location × Edit)} {content : Content} :
    lastContent l (edits ++ others) content = lastContent l others (lastContent l edits content) :=
  List.foldl_append

theorem exists_request {c : Command} {edit : Location × Edit} (h : edit ∈ e.edits c) :
    ∃ r ∈ c.requests, e.accept r = .ok edit := by
  cases c with
  | input r =>
    cases hr : e.accept r with
    | error refusal =>
      rw [edits, hr] at h
      cases h
    | ok edit' =>
      rw [edits, hr] at h
      obtain rfl := List.mem_singleton.mp h
      exact ⟨r, List.mem_cons_self, hr⟩
  | batch requests =>
    cases hr : requests.mapM e.accept with
    | error refusal =>
      rw [edits, hr] at h
      cases h
    | ok edits' =>
      rw [edits, hr] at h
      exact Except.exists_of_mem_mapM hr h
  | _ => cases h

/-- An input is made to a place only. -/
theorem check_of_mem_edits (he : 0 < e.sheets.size) {c : Command} {edit : Location × Edit} (h : edit ∈ e.edits c) :
    e.sheets.check edit.1 = .ok edit.1 := by
  obtain ⟨r, -, hr⟩ := exists_request h
  obtain ⟨l, hl, rfl⟩ := Except.map_eq_ok.mp hr
  unfold target at hl
  split at hl
  · exact Sheets.check_locate he hl
  · obtain ⟨rfl, -⟩ := Sheets.check_eq_ok hl
    exact hl

/-! ### Outcomes -/

/-- The formulas that wait for a sheet of this name. -/
def waiting (e : Engine) (name : String) : List Location :=
  e.store.locationsWhere (·.awaits name)

/-- The formulas that call a function of this name. -/
def callers (e : Engine) (name : String) : List Location :=
  e.store.locationsWhere (·.calls name)

theorem mem_callers {name : String} :
    l ∈ e.callers name ↔ ∃ expr, e.store.expr? l = some expr ∧ expr.calls name = true := by
  simp only [callers, Store.mem_locationsWhere, Cell.calls, Option.any_eq_true, Store.expr?, Option.bind_eq_some_iff]
  constructor
  · rintro ⟨c, hget, expr, hexpr, hcalls⟩
    exact ⟨expr, ⟨c, hget, hexpr⟩, hcalls⟩
  · rintro ⟨expr, ⟨c, hget, hexpr⟩, hcalls⟩
    exact ⟨c, hget, expr, hexpr, hcalls⟩

/-- The engine on other sheets, with the given cells linked anew. -/
def relinked (e : Engine) (sheets : Sheets) (cells : List Location) : Engine :=
  cells.foldl relink { e with sheets }

/-- A pass from the given cells, if there are any. -/
def recalculateIfAny (e : Engine) (seeds : List Location) : Engine × Changes :=
  if seeds.isEmpty then (e, .none) else e.recalculateFrom .none seeds

/-- What a command that is not refused comes to. -/
inductive Outcome (e : Engine) : Command → Engine × Changes → Prop where
  | input (r : Request) : Outcome e (.input r) (e.apply (e.edits (.input r)))
  | batch (requests : List Request) : Outcome e (.batch requests) (e.apply (e.edits (.batch requests)))
  | addSheet {name : String} {sheets : Sheets} (h : e.sheets.add name = .ok sheets) :
      Outcome e (.addSheet name) ((e.relinked sheets (e.waiting name)).recalculateIfAny (e.waiting name))
  | register (f : Callable) : Outcome e (.register f)
      ({ e with library := e.library.register f }.recalculateIfAny (e.callers f.name))
  | recalculate (cells : List Location) :
      Outcome e (.recalculate cells) (e.recalculateFrom .none (Dependencies.sorted cells))
  | recalculateAll : Outcome e .recalculateAll (e.recalculateFrom .none e.store.formulas)
  | listen : Outcome e .listen (e.listen, .none)

theorem outcome {c : Command} {result : Engine × Changes} (h : e.perform c = .ok result) : e.Outcome c result := by
  cases c with
  | input r =>
    obtain ⟨edit, hr, rfl⟩ := Except.map_eq_ok.mp h
    have hedits : e.edits (.input r) = [edit] := by
      rw [edits, hr]
      rfl
    exact hedits ▸ .input r
  | batch requests =>
    obtain ⟨edits', hr, rfl⟩ := Except.map_eq_ok.mp h
    have hedits : e.edits (.batch requests) = edits' := by
      rw [edits, hr]
      rfl
    exact hedits ▸ .batch requests
  | addSheet name =>
    obtain ⟨sheets, hadd, rfl⟩ := Except.map_eq_ok.mp h
    exact .addSheet hadd
  | register f =>
    cases h
    exact .register f
  | recalculate cells =>
    cases h
    exact .recalculate cells
  | recalculateAll =>
    cases h
    exact .recalculateAll
  | listen =>
    cases h
    exact .listen

theorem after_ok {c : Command} {result : Engine × Changes} (h : e.perform c = .ok result) : e.after c = result.1 := by
  rw [after, h]

theorem after_refused {c : Command} {refusal : Refusal} (h : e.perform c = .error refusal) : e.after c = e := by
  rw [after, h]

theorem edits_of_refused {c : Command} {refusal : Refusal} (h : e.perform c = .error refusal) : e.edits c = [] := by
  cases c with
  | input r =>
    cases hr : e.accept r with
    | error _ =>
      rw [edits, hr]
      rfl
    | ok edit =>
      rw [perform, input, hr] at h
      cases h
  | batch requests =>
    cases hr : requests.mapM e.accept with
    | error _ =>
      rw [edits, hr]
      rfl
    | ok edits' =>
      rw [perform, batch, hr] at h
      cases h
  | _ => rfl

/-! ### Before the pass -/

/-- The inputs are made, and nothing but them changes what is entered. Outside of `seeds`, the cells and links
    are the same, and no formula mentions anything that is not. -/
structure Prepares (e : Engine) (edits : List (Location × Edit)) (f : Engine) (seeds : List Location) : Prop where
  limits : f.limits = e.limits
  cell : ∀ l, l ∉ seeds → f.store.get? l = e.store.get? l
  precedents : ∀ l, l ∉ seeds → f.dependencies.precedents l = e.dependencies.precedents l
  alike : ∀ l, l ∉ seeds → ∀ expr, e.store.expr? l = some expr → e.rules.Alike f.rules l expr
  content : ∀ l, f.store.content l = lastContent l edits (e.store.content l)
  unedited : ∀ l, l ∉ edits.map Prod.fst → e.store.expr? l = none → f.store.get? l = e.store.get? l
  stored : ∀ l, (e.store.get? l).isSome → (f.store.get? l).isSome
  comparable : (∀ edit ∈ edits, edit.2.content.constantValue.isNaN = false) → e.store.Comparable → f.store.Comparable

namespace Prepares
variable {edits others : List (Location × Edit)} {seeds more : List Location}

/-- Where cells and links stay, only other sheets and functions can be noticed. -/
theorem of_alike (hlimits : f.limits = e.limits) (hstore : f.store = e.store)
    (hdependencies : f.dependencies = e.dependencies)
    (halike : ∀ l, l ∉ seeds → ∀ expr, e.store.expr? l = some expr → e.rules.Alike f.rules l expr) :
    e.Prepares [] f seeds where
  limits := hlimits
  cell _ _ := by rw [hstore]
  precedents _ _ := by rw [hdependencies]
  alike := halike
  content _ := by
    rw [hstore]
    rfl
  unedited _ _ _ := by rw [hstore]
  stored _ h := by rwa [hstore]
  comparable _ h := by rwa [hstore]

theorem refl : e.Prepares [] e seeds := of_alike rfl rfl rfl fun _ _ _ _ => .refl

theorem mono (h : e.Prepares edits f seeds) (hsub : ∀ l, l ∈ seeds → l ∈ more) : e.Prepares edits f more where
  limits := h.limits
  cell l hl := h.cell l fun hmem => hl (hsub l hmem)
  precedents l hl := h.precedents l fun hmem => hl (hsub l hmem)
  alike l hl := h.alike l fun hmem => hl (hsub l hmem)
  content := h.content
  unedited := h.unedited
  stored := h.stored
  comparable := h.comparable

theorem expr? (h : e.Prepares edits f seeds) (hl : l ∉ seeds) : f.store.expr? l = e.store.expr? l := by
  rw [Store.expr?, Store.expr?, h.cell l hl]

theorem trans (h : e.Prepares edits f seeds) (h' : f.Prepares others g more) :
    e.Prepares (edits ++ others) g (seeds ++ more) where
  limits := h'.limits.trans h.limits
  cell l hl := by
    rw [List.mem_append, not_or] at hl
    exact (h'.cell l hl.2).trans (h.cell l hl.1)
  precedents l hl := by
    rw [List.mem_append, not_or] at hl
    exact (h'.precedents l hl.2).trans (h.precedents l hl.1)
  alike l hl expr hexpr := by
    rw [List.mem_append, not_or] at hl
    exact (h.alike l hl.1 expr hexpr).trans (h'.alike l hl.2 expr ((h.expr? hl.1).trans hexpr))
  content l := by rw [h'.content, h.content, lastContent_append]
  unedited l hl hexpr := by
    rw [List.map_append, List.mem_append, not_or] at hl
    have hget := h.unedited l hl.1 hexpr
    exact (h'.unedited l hl.2 (by rwa [Store.expr?, hget])).trans hget
  stored l hl := h'.stored l (h.stored l hl)
  comparable hedits he :=
    h'.comparable (fun edit hmem => hedits edit (List.mem_append_right _ hmem))
      (h.comparable (fun edit hmem => hedits edit (List.mem_append_left _ hmem)) he)

end Prepares

/-- What replaces one cell prepares its recalculation. -/
theorem Replaces.prepares {c : Cell} {edits : List (Location × Edit)} (h : e.Replaces f l c)
    (hcontent : ∀ m, lastContent m edits (e.store.content m) = if m = l then c.content else e.store.content m)
    (hunedited : l ∈ edits.map Prod.fst ∨ (e.store.expr? l).isSome)
    (hvalue : (∀ edit ∈ edits, edit.2.content.constantValue.isNaN = false) → (e.store.value l).isNaN = false →
      c.value.isNaN = false) : e.Prepares edits f [l] where
  limits := congrArg Rules.limits h.rules
  cell m hm := (h.cell m).trans (if_neg fun heq => hm (List.mem_singleton.mpr heq))
  precedents m hm := h.precedents m fun heq => hm (List.mem_singleton.mpr heq)
  alike m _ expr _ := h.rules ▸ .refl
  content m := by
    rw [hcontent, Store.content, h.cell]
    split <;> rfl
  unedited m hm hexpr := by
    refine (h.cell m).trans (if_neg fun heq => ?_)
    subst heq
    rcases hunedited with hmem | hsome
    · exact hm hmem
    · rw [hexpr] at hsome
      cases hsome
  stored m hm := by
    rw [h.cell]
    split
    · rfl
    · exact hm
  comparable hedits he m := by
    rw [Store.value, h.cell]
    split
    · exact hvalue hedits (he l)
    · exact he m

theorem lastContent_singleton {edit : Edit} {content : Content} :
    lastContent m [(l, edit)] content = if m = l then edit.content else content := by
  simp only [lastContent, List.foldl_cons, List.foldl_nil, eq_comm (a := m)]

theorem prepares_write (he : e.Linked) (edit : Edit) (hl : e.sheets.check l = .ok l) :
    (e.write l edit).Linked ∧ (e.write l edit).sheets = e.sheets ∧ e.Prepares [(l, edit)] (e.write l edit) [l] := by
  obtain ⟨c, h, hcontent, hvalue⟩ := e.exists_replaces_write (l := l) edit
  refine ⟨h.linked he hl, h.sheets, h.prepares (fun m => ?_) (Or.inl List.mem_cons_self) fun hedits hold => ?_⟩
  · rw [lastContent_singleton, hcontent]
  · rw [hvalue]
    have hnan := hedits (l, edit) List.mem_cons_self
    rw [← hcontent] at hnan
    rcases c with ⟨_ | _ | _, v⟩
    · exact hnan
    · exact hold
    · rfl

theorem prepares_writes : ∀ {edits : List (Location × Edit)} {e : Engine}, e.Linked →
    (∀ edit ∈ edits, e.sheets.check edit.1 = .ok edit.1) →
      (edits.foldl (fun e (l, edit) => e.write l edit) e).Linked ∧
        e.Prepares edits (edits.foldl (fun e (l, edit) => e.write l edit) e) (edits.map Prod.fst) := by
  intro edits
  induction edits with
  | nil => exact fun he _ => ⟨he, .refl⟩
  | cons edit edits ih =>
    intro e he hplaces
    obtain ⟨hlinked, hsheets, hprepares⟩ := prepares_write he edit.2 (hplaces edit List.mem_cons_self)
    obtain ⟨hrest, hall⟩ := ih hlinked fun x hx => hsheets.symm ▸ hplaces x (List.mem_cons_of_mem edit hx)
    exact ⟨hrest, hprepares.trans hall⟩

theorem writeAll_fst {edits : List (Location × Edit)} :
    (e.writeAll edits).1 = edits.foldl (fun e edit => e.write edit.1 edit.2) e := by
  have h : ∀ (before : Before) (e : Engine),
      (edits.foldl (fun p edit => (p.1.write edit.1 edit.2, p.2.keep p.1.store edit.1)) (e, before)).1 =
        edits.foldl (fun e edit => e.write edit.1 edit.2) e := by
    induction edits with
    | nil => exact fun _ _ => rfl
    | cons edit edits ih => exact fun before e => ih (before.keep e.store edit.1) (e.write edit.1 edit.2)
  exact h .none e

theorem prepares_writeAll {edits : List (Location × Edit)} (he : e.Linked)
    (hplaces : ∀ edit ∈ edits, e.sheets.check edit.1 = .ok edit.1) :
    (e.writeAll edits).1.Linked ∧ e.Prepares edits (e.writeAll edits).1 (edits.map Prod.fst) := by
  rw [writeAll_fst]
  exact prepares_writes he hplaces

/-! ### New sheets and functions -/

/-- A formula that is linked already needs no second link, and the others are those that are linked now. -/
theorem prepares_relinks : ∀ (cells : List Location) {e : Engine}, e.Stored →
    (∀ l ∈ cells, (e.store.expr? l).isSome) → (∀ l, l ∈ cells ∨ e.LinkedAt l) →
      (cells.foldl relink e).Linked ∧ e.Prepares [] (cells.foldl relink e) cells := by
  intro cells
  induction cells with
  | nil => exact fun he _ hlinked => ⟨⟨he, fun l => (hlinked l).resolve_left List.not_mem_nil⟩, .refl⟩
  | cons x cells ih =>
    intro e he hformulas hlinked
    obtain ⟨expr, hexpr⟩ := Option.isSome_iff_exists.mp (hformulas x List.mem_cons_self)
    obtain ⟨text, missing, v, hget⟩ := Store.expr?_eq_some.mp hexpr
    have hreplaces := replaces_relink hget (he.sound x _ hget).parsed
    have hprepares : e.Prepares [] (e.relink x) [x] := by
      refine hreplaces.prepares (fun m => ?_) (Or.inr ?_) fun _ hold => ?_
      · show e.store.content m = _
        split
        · rename_i hm
          rw [hm, Store.content, hget]
          rfl
        · rfl
      · rw [hexpr]
        rfl
      · rw [Store.value, hget] at hold
        exact hold
    have hsome : ∀ l ∈ cells, ((e.relink x).store.expr? l).isSome := by
      intro l hl
      rw [Store.expr?, hreplaces.cell]
      split
      · rfl
      · exact hformulas l (List.mem_cons_of_mem x hl)
    obtain ⟨hrest, hall⟩ := ih (hreplaces.stored he (he.placed x _ hget)) hsome fun l => by
      rcases hlinked l with hl | hl
      · rcases List.mem_cons.mp hl with heq | hl
        · exact Or.inr (hreplaces.linkedAt_of (Or.inl heq))
        · exact Or.inl hl
      · exact Or.inr (hreplaces.linkedAt_of (Or.inr hl))
    exact ⟨hrest, hprepares.trans hall⟩

/-- The formulas that wait for a sheet are those that miss one of its name. -/
theorem Linked.mem_waiting_iff (he : e.Linked) {name : String} {expr : Expr} (hexpr : e.store.expr? l = some expr) :
    l ∈ e.waiting name ↔ ∃ n ∈ (Resolver.atCell e.sheets l).missingSheets expr, Text.SameName n name := by
  obtain ⟨text, missing, v, hget⟩ := Store.expr?_eq_some.mp hexpr
  rw [waiting, Store.mem_locationsWhere, ← (he.linkedAt l).missing text expr missing v hget]
  simp [hget, Cell.awaits, Cell.missingSheets]

/-- A formula that does not wait for the new sheet means the same with it. -/
theorem Linked.alike_of_notMem_waiting (he : e.Linked) {name : String} {sheets : Sheets}
    (h : e.sheets.add name = .ok sheets) (hl : l ∉ e.waiting name) {expr : Expr} (hexpr : e.store.expr? l = some expr) :
    ∀ reference ∈ expr.references, (Resolver.atCell sheets l).Alike (Resolver.atCell e.sheets l) reference :=
  Resolver.alike_of_add h fun hmiss => hl ((he.mem_waiting_iff hexpr).mpr hmiss)

theorem Linked.linkedAt_of_notMem_waiting (he : e.Linked) {name : String} {sheets : Sheets}
    (h : e.sheets.add name = .ok sheets) (hl : l ∉ e.waiting name) : LinkedAt { e with sheets } l where
  precedents := by
    refine (he.linkedAt l).precedents.trans ?_
    show e.store.precedents e.sheets l = e.store.precedents sheets l
    rw [Store.precedents, Store.precedents]
    cases hexpr : e.store.expr? l with
    | none => rfl
    | some expr => simp only [Resolver.precedents_congr (he.alike_of_notMem_waiting h hl hexpr)]
  missing text expr missing v hget := by
    have hexpr : e.store.expr? l = some expr := Store.expr?_eq_some.mpr ⟨_, _, _, hget⟩
    rw [(he.linkedAt l).missing text expr missing v hget]
    exact (Resolver.missingSheets_congr (he.alike_of_notMem_waiting h hl hexpr)).symm

theorem isSome_of_mem_waiting {name : String} (h : l ∈ e.waiting name) : (e.store.expr? l).isSome := by
  obtain ⟨⟨source, v⟩, hget, hawaits⟩ := Store.mem_locationsWhere.mp h
  cases source with
  | formula text expr missing =>
    rw [Store.expr?_eq_some.mpr ⟨text, missing, v, hget⟩]
    rfl
  | constant content => cases hawaits
  | invalid text error => cases hawaits

/-- The formulas that do not wait for the new sheet do not notice it, and the others are linked anew. -/
theorem prepares_addSheet (he : e.Linked) {name : String} {sheets : Sheets} (h : e.sheets.add name = .ok sheets) :
    (e.relinked sheets (e.waiting name)).Linked ∧
      e.Prepares [] (e.relinked sheets (e.waiting name)) (e.waiting name) := by
  have hsheets : e.Prepares [] { e with sheets } (e.waiting name) := by
    refine .of_alike rfl rfl rfl fun l hl expr hexpr => ⟨rfl, fun reference hmem => ?_, fun _ _ => rfl⟩
    have ha := he.alike_of_notMem_waiting h hl hexpr reference hmem
    exact ⟨ha.origin.symm, ha.anchor.symm, fun n hn => (ha.sheets n hn).symm⟩
  have hstored : Stored { e with sheets } := by
    constructor
    case inhabited =>
      show 0 < sheets.size
      rw [Sheets.size_add h]
      omega
    case coherent => exact he.coherent
    case placed => exact fun l c hget => Sheets.check_add h (he.placed l c hget)
    case sound => exact he.sound
  have hlinked : ∀ l, l ∈ e.waiting name ∨ LinkedAt { e with sheets } l := fun l =>
    or_iff_not_imp_left.mpr fun hl => he.linkedAt_of_notMem_waiting h hl
  obtain ⟨hrelinked, hprepares⟩ := prepares_relinks (e.waiting name) hstored (fun l hl => isSome_of_mem_waiting hl) hlinked
  exact ⟨hrelinked, (hsheets.trans hprepares).mono fun l hl => (List.mem_append.mp hl).elim id id⟩

/-- The formulas that do not call the new function do not notice it. -/
theorem prepares_register (he : e.Linked) (f : Callable) :
    Linked { e with library := e.library.register f } ∧
      e.Prepares [] { e with library := e.library.register f } (e.callers f.name) := by
  refine ⟨⟨⟨he.inhabited, he.coherent, he.placed, he.sound⟩, fun l => ⟨?_, ?_⟩⟩, ?_⟩
  · exact (he.linkedAt l).precedents
  · exact (he.linkedAt l).missing
  · refine .of_alike rfl rfl rfl fun l hl expr hexpr => ⟨rfl, fun _ _ => ⟨rfl, rfl, fun _ _ => rfl⟩, fun name hcall => ?_⟩
    refine ((e.library.find?_register f name).trans (if_neg fun hsame => hl ?_)).symm
    obtain ⟨called, args, hnode, hname⟩ := Expr.calls_iff.mp hcall
    exact mem_callers.mpr ⟨expr, hexpr, Expr.calls_iff.mpr ⟨called, args, hnode, hname.trans hsame.symm⟩⟩

/-! ### The pass -/

/-- A pass from the given cells leads from `e` to `f`: the formulas that depend on them are current, and
    nothing else has changed. -/
structure Recalculated (e : Engine) (seeds : List Location) (f : Engine) : Prop where
  rules : f.rules = e.rules
  dependencies : f.dependencies = e.dependencies
  revalued : e.store.Revalued f.store (e.dependencies.Affected seeds)
  current : ∀ l, e.dependencies.Affected seeds l → Current e.rules e.dependencies f.store l
  comparable : e.store.Comparable → f.store.Comparable

theorem Recalculated.refl : e.Recalculated [] e where
  rules := rfl
  dependencies := rfl
  revalued := .refl
  current l hl := by
    obtain ⟨s, hs, -⟩ := Dependencies.affected_iff.mp hl
    exact absurd hs List.not_mem_nil
  comparable h := h

theorem recalculateFrom_eq (before : Before) (seeds : List Location) : ∃ listeners lastPass,
    (e.recalculateFrom before seeds).1 =
      { e with store := (Pass.run e.rules before e.store (e.dependencies.plan seeds)).store, listeners, lastPass } := by
  unfold recalculateFrom announce
  dsimp only
  split
  · exact ⟨e.listeners, _, rfl⟩
  · exact ⟨_, _, rfl⟩

theorem Linked.recalculateFrom (he : e.Linked) (before : Before) (seeds : List Location) :
    e.Recalculated seeds (e.recalculateFrom before seeds).1 := by
  obtain ⟨listeners, lastPass, heq⟩ := e.recalculateFrom_eq before seeds
  obtain ⟨hrevalued, hcurrent⟩ := Pass.current_run e.rules before he.coherent he.mirrors seeds
  rw [heq]
  exact ⟨rfl, rfl, hrevalued, hcurrent, fun h => Pass.comparable_run h _⟩

theorem Linked.recalculateIfAny (he : e.Linked) (seeds : List Location) :
    e.Recalculated seeds (e.recalculateIfAny seeds).1 := by
  unfold Engine.recalculateIfAny
  split
  · rename_i hempty
    rw [List.isEmpty_iff.mp hempty]
    exact .refl
  · exact he.recalculateFrom .none seeds

/-- New values of formulas leave cells linked. -/
theorem Linked.recalculated {seeds : List Location} (he : e.Linked) (h : e.Recalculated seeds f) : f.Linked := by
  have hsheets : f.sheets = e.sheets := congrArg Rules.sheets h.rules
  constructor
  case toStored =>
    constructor
    case inhabited => exact hsheets ▸ he.inhabited
    case coherent => exact h.dependencies ▸ he.coherent
    case placed =>
      intro l c hc
      obtain ⟨w, hget, -⟩ := h.revalued.exists_get? hc
      exact hsheets ▸ he.placed l _ hget
    case sound =>
      intro l c hc
      obtain ⟨w, hget, hw⟩ := h.revalued.exists_get? hc
      have hsound := he.sound l _ hget
      refine ⟨hsound.parsed, fun v hv => (hw ?_).symm.trans (hsound.value v hv)⟩
      rcases c with ⟨_ | _ | _, _⟩
      · rfl
      · cases hv
      · rfl
  case linkedAt =>
    intro l
    constructor
    case precedents =>
      rw [h.dependencies, hsheets]
      exact he.mirrors.revalued h.revalued l
    case missing =>
      intro text expr missing v hc
      obtain ⟨w, hget, -⟩ := h.revalued.exists_get? hc
      rw [hsheets]
      exact (he.linkedAt l).missing text expr missing w hget

/-! ### What a command comes to -/

/-- The cells that the pass of a command starts from; nothing for a command that makes no pass. -/
def seeds? (e : Engine) : Command → Option (List Location)
  | .input r => some ((e.edits (.input r)).map Prod.fst)
  | .batch requests => some ((e.edits (.batch requests)).map Prod.fst)
  | .addSheet name => if e.waiting name = [] then none else some (e.waiting name)
  | .register f => if e.callers f.name = [] then none else some (e.callers f.name)
  | .recalculate cells => some cells
  | .recalculateAll => some e.store.formulas
  | .listen => none

/-- A command makes its inputs, or adds what it adds, and then makes a pass from all that is concerned, if there
    is anything. -/
inductive Course (e : Engine) (c : Command) : Engine × Changes → Prop where
  | pass {g : Engine} {before : Before} {cells seeds : List Location} (hlinked : g.Linked)
      (hprepares : e.Prepares (e.edits c) g cells) (hseeds : e.seeds? c = some seeds)
      (hcells : ∀ l, l ∈ cells ↔ l ∈ seeds) : Course e c (g.recalculateFrom before cells)
  | still {g : Engine} (hlinked : g.Linked) (hprepares : e.Prepares (e.edits c) g []) (hseeds : e.seeds? c = none) :
      Course e c (g, .none)

theorem Course.recalculateIfAny {c : Command} {seeds : List Location} (hlinked : g.Linked)
    (hprepares : e.Prepares (e.edits c) g seeds) (hseeds : e.seeds? c = if seeds = [] then none else some seeds) :
    e.Course c (g.recalculateIfAny seeds) := by
  unfold Engine.recalculateIfAny
  by_cases hnil : seeds = []
  · subst hnil
    exact .still hlinked hprepares hseeds
  · rw [if_neg hnil] at hseeds
    rw [if_neg fun hempty => hnil (List.isEmpty_iff.mp hempty)]
    exact .pass hlinked hprepares hseeds fun _ => Iff.rfl

theorem Linked.course (he : e.Linked) {c : Command} {result : Engine × Changes} (h : e.perform c = .ok result) :
    e.Course c result := by
  have hwrites : ∀ c, e.seeds? c = some ((e.edits c).map Prod.fst) → e.Course c (e.apply (e.edits c)) := by
    intro c hseeds
    obtain ⟨hlinked, hprepares⟩ := prepares_writeAll he fun edit hmem => check_of_mem_edits he.inhabited hmem
    exact .pass hlinked (hprepares.mono fun l hl => Dependencies.mem_sorted.mpr hl) hseeds fun _ => Dependencies.mem_sorted
  cases outcome h with
  | input r => exact hwrites _ rfl
  | batch requests => exact hwrites _ rfl
  | addSheet hadd =>
    obtain ⟨hlinked, hprepares⟩ := prepares_addSheet he hadd
    exact .recalculateIfAny hlinked hprepares rfl
  | register f =>
    obtain ⟨hlinked, hprepares⟩ := prepares_register he f
    exact .recalculateIfAny hlinked hprepares rfl
  | recalculate cells => exact .pass he .refl rfl fun _ => Dependencies.mem_sorted
  | recalculateAll => exact .pass he .refl rfl fun _ => Iff.rfl
  | listen =>
    refine .still ⟨⟨he.inhabited, he.coherent, he.placed, he.sound⟩, fun l => ⟨?_, ?_⟩⟩ ?_ rfl
    · exact (he.linkedAt l).precedents
    · exact (he.linkedAt l).missing
    · exact .of_alike rfl rfl rfl fun _ _ _ _ => .refl

/-- After a command, refused or not, there has been a pass from all that it concerned. -/
theorem Linked.after (he : e.Linked) (c : Command) : ∃ f seeds,
    f.Linked ∧ e.Prepares (e.edits c) f seeds ∧ f.Recalculated seeds (e.after c) := by
  cases hperform : e.perform c with
  | error refusal =>
    rw [after_refused hperform, edits_of_refused hperform]
    exact ⟨e, [], he, .refl, .refl⟩
  | ok result =>
    rw [after_ok hperform]
    cases he.course hperform with
    | pass hlinked hprepares => exact ⟨_, _, hlinked, hprepares, hlinked.recalculateFrom _ _⟩
    | still hlinked hprepares => exact ⟨_, _, hlinked, hprepares, .refl⟩

/-! ### Runs -/

/-- An engine before any command, made without options or with some. -/
def Started (e : Engine) : Prop :=
  e = initial ∨ ∃ options, create options = .ok e

theorem Started.exists_onSheets (h : e.Started) : ∃ limits sheets, 0 < sheets.size ∧ e = onSheets limits sheets := by
  rcases h with rfl | ⟨options, h⟩
  · exact ⟨.standard, .initial, by decide, rfl⟩
  · obtain ⟨sheets, hsheets, rfl⟩ := Except.map_eq_ok.mp h
    exact ⟨_, sheets, by rw [Sheets.size_add hsheets]; omega, rfl⟩

theorem Started.get?_eq_none (h : e.Started) : e.store.get? l = none := by
  obtain ⟨limits, sheets, -, rfl⟩ := h.exists_onSheets
  simp [onSheets, Store.get?, Store.empty]

theorem Started.linked (h : e.Started) : e.Linked := by
  have hnone : ∀ l, e.store.get? l = none := fun _ => h.get?_eq_none
  obtain ⟨limits, sheets, hsize, rfl⟩ := h.exists_onSheets
  constructor
  case toStored =>
    refine ⟨hsize, Dependencies.coherent_empty, fun l c hc => ?_, fun l c hc => ?_⟩
    · cases (hnone l).symm.trans hc
    · cases (hnone l).symm.trans hc
  case linkedAt =>
    refine fun l => ⟨?_, fun _ _ _ _ hc => ?_⟩
    · rw [Store.precedents, Store.expr?, hnone l]
      simp [onSheets, Dependencies.empty, Dependencies.precedents]
    · cases (hnone l).symm.trans hc

/-- Commands in turn preserve what each of them preserves. -/
theorem afterAll_induction {motive : Engine → Prop} (commands : List Command) (h : motive e)
    (hstep : ∀ e, motive e → ∀ c ∈ commands, motive (e.after c)) : motive (e.afterAll commands) :=
  List.foldlRecOn commands Engine.after h hstep

theorem Linked.step (he : e.Linked) (c : Command) : (e.after c).Linked := by
  obtain ⟨f, seeds, hf, -, hafter⟩ := he.after c
  exact hf.recalculated hafter

theorem Started.linked_afterAll (h : e.Started) (commands : List Command) : (e.afterAll commands).Linked :=
  afterAll_induction commands h.linked fun _ he c _ => he.step c

end Engine

end Spreadsheet
