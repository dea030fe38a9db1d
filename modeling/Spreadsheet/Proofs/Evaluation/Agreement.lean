import Spreadsheet.Evaluation
import Spreadsheet.Proofs.Formula.Resolution
import Spreadsheet.Proofs.Formula.Traversal

/-! # What an evaluation depends on

Two settings with the same limits and the same cell give an expression the same value if they read its
references alike and find the same functions under the names that it calls (`Setting.Agree`). Of an eager
function no more matters than what it makes of the arguments that it is called with
(`Setting.Interchangeable`). A reference reads no more than the cells that it resolves to. -/

namespace Spreadsheet

/-- Two settings cannot be told apart by evaluating the given nodes. -/
structure Setting.Agree (s t : Setting) (nodes : List Expr) : Prop where
  limits : s.limits = t.limits
  anchor : s.resolver.anchor = t.resolver.anchor
  read : ∀ r, .reference r ∈ nodes → s.read r = t.read r
  find : ∀ name args, .call name args ∈ nodes → s.library.find? name = t.library.find? name

/-- Calls by a name cannot be told apart: the name means the same function, or an eager one that does the same with
    all that the arguments evaluate to. -/
inductive Setting.CallsAlike (s t : Setting) (name : String) (args : List Expr) : Prop
  | same (hfind : s.library.find? name = t.library.find? name)
  | reimplemented {f : Callable} {run other : List Argument → CallSite → Except Fault Value}
      (hfind : s.library.find? name = some f) (hbody : f.body = .eager run)
      (hother : t.library.find? name = some { f with body := .eager other })
      (hrun : ∀ depth values, ¬s.limits.maxDepth < depth → f.AcceptsCount args.length →
        Expr.evaluateArguments s f (depth + 1) 0 args = .ok (.ok values) →
          run values ⟨f.name, s.resolver.anchor⟩ = other values ⟨f.name, s.resolver.anchor⟩)

/-- Two settings cannot be told apart by evaluating the given nodes, though functions may be implemented otherwise. -/
structure Setting.Interchangeable (s t : Setting) (nodes : List Expr) : Prop where
  limits : s.limits = t.limits
  anchor : s.resolver.anchor = t.resolver.anchor
  read : ∀ r, .reference r ∈ nodes → s.read r = t.read r
  calls : ∀ name args, .call name args ∈ nodes → s.CallsAlike t name args

theorem Setting.Agree.interchangeable {s t : Setting} {nodes : List Expr} (h : s.Agree t nodes) :
    s.Interchangeable t nodes :=
  ⟨h.limits, h.anchor, h.read, fun name args hc => .same (h.find name args hc)⟩

theorem Setting.Interchangeable.mono {s t : Setting} {nodes fewer : List Expr} (h : s.Interchangeable t nodes)
    (hsub : ∀ e ∈ fewer, e ∈ nodes) : s.Interchangeable t fewer where
  limits := h.limits
  anchor := h.anchor
  read r hr := h.read r (hsub _ hr)
  calls name args hc := h.calls name args (hsub _ hc)

namespace Expr
variable {s t : Setting}

/-- How arguments are evaluated does not depend on what the function does with them. -/
theorem evaluateArguments_body {f : Callable} {body : Body} {depth : Nat} {es : List Expr} : ∀ {index : Nat},
    evaluateArguments s { f with body } depth index es = evaluateArguments s f depth index es := by
  have hparameter (index : Nat) : ({ f with body } : Callable).parameterAt index = f.parameterAt index := rfl
  induction es with
  | nil => simp only [evaluateArguments, implies_true]
  | cons e es ih => simp only [evaluateArguments, hparameter, ih, implies_true]

mutual

theorem evaluateAt_congr (depth : Nat) (e : Expr) (h : s.Interchangeable t (preorder e)) :
    evaluateAt s depth e = evaluateAt t depth e := by
  cases e with
  | number n => simp only [evaluateAt, h.limits]
  | text x => simp only [evaluateAt, h.limits]
  | boolean b => simp only [evaluateAt, h.limits]
  | error e => simp only [evaluateAt, h.limits]
  | reference r => simp only [evaluateAt, h.limits, h.read r (mem_preorder_self _)]
  | unary op x =>
    have hx := evaluateAt_congr (depth + 1) x (h.mono fun e he => List.mem_cons_of_mem _ he)
    simp only [evaluateAt, h.limits, hx]
  | binary op l r =>
    have hl := evaluateAt_congr (depth + 1) l
      (h.mono fun e he => List.mem_cons_of_mem _ (List.mem_append_left _ he))
    have hr := evaluateAt_congr (depth + 1) r
      (h.mono fun e he => List.mem_cons_of_mem _ (List.mem_append_right _ he))
    simp only [evaluateAt, h.limits, hl, hr]
  | call name args =>
    have hargs : s.Interchangeable t (preorderAll args) := h.mono fun e he => List.mem_cons_of_mem _ he
    have hlist := fun f => evaluateArguments_congr f (depth + 1) 0 args hargs
    have hnth := evaluateNth_congr (depth + 1) args hargs
    cases h.calls name args (mem_preorder_self _) with
    | same hfind => simp only [evaluateAt, h.limits, h.anchor, hfind, hlist, hnth]
    | @reimplemented f run other hfind hbody hother hrun =>
      have haccepts : ({ f with body := .eager other } : Callable).AcceptsCount args.length ↔
        f.AcceptsCount args.length := Iff.rfl
      simp only [evaluateAt, ← h.limits, ← h.anchor, hfind, hbody, hother, evaluateArguments_body, ← hlist, haccepts]
      split
      · rfl
      · rename_i hdepth
        split
        · rfl
        · rename_i hcount
          cases hvalues : evaluateArguments s f (depth + 1) 0 args with
          | error fault => rfl
          | ok result =>
            cases result with
            | error x => rfl
            | ok values =>
              simp only [hrun depth values hdepth (Decidable.not_not.mp hcount) hvalues]

theorem evaluateArguments_congr (f : Callable) (depth index : Nat) (es : List Expr)
    (h : s.Interchangeable t (preorderAll es)) :
    evaluateArguments s f depth index es = evaluateArguments t f depth index es := by
  cases es with
  | nil => simp only [evaluateArguments]
  | cons e es =>
    have he := evaluateAt_congr depth e (h.mono fun x hx => List.mem_append_left _ hx)
    have hes := evaluateArguments_congr f depth (index + 1) es (h.mono fun x hx => List.mem_append_right _ hx)
    simp only [evaluateArguments, he, hes]

theorem evaluateNth_congr (depth : Nat) (es : List Expr) (h : s.Interchangeable t (preorderAll es)) (index : Nat) :
    evaluateNth s depth es index = evaluateNth t depth es index := by
  cases es with
  | nil => simp only [evaluateNth]
  | cons e es =>
    have he := evaluateAt_congr depth e (h.mono fun x hx => List.mem_append_left _ hx)
    have hes := evaluateNth_congr depth es (h.mono fun x hx => List.mem_append_right _ hx)
    cases index with
    | zero => simp only [evaluateNth, he]
    | succ index => simp only [evaluateNth, hes]

end

theorem evaluate_of_interchangeable {e : Expr} (h : s.Interchangeable t (preorder e)) : evaluate s e = evaluate t e := by
  rw [evaluate, evaluate, evaluateAt_congr 0 e h]

theorem evaluate_congr {e : Expr} (h : s.Agree t (preorder e)) : evaluate s e = evaluate t e :=
  evaluate_of_interchangeable h.interchangeable

end Expr

/-- A reference reads the values of the cells that its precedent covers. -/
theorem Setting.read_congr {s t : Setting} {r : Reference} (hlimits : s.limits = t.limits)
    (hresolve : s.resolver.resolve r = t.resolver.resolve r)
    (hsource : ∀ p, s.resolver.resolve r = .ok p → ∀ l, p.Covers l → s.source l = t.source l) : s.read r = t.read r := by
  unfold read
  rw [← hresolve, ← hlimits]
  cases hr : s.resolver.resolve r with
  | error e => rfl
  | ok p =>
    cases p with
    | cell l => simp only [hsource _ hr l rfl]
    | block b =>
      have hcells : b.cells.map s.source = b.cells.map t.source :=
        List.map_congr_left fun l hl => hsource _ hr l ((s.resolver.mem_cells_of_resolve hr).mp hl)
      simp only [BlockValues.read, hcells]

/-- An evaluation reads the cells that the references of the expression mean, and no others. -/
theorem Expr.evaluate_eq_of_source {e : Expr} {library : Library} {resolver : Resolver} {limits : Limits}
    {source other : Location → Value} (h : ∀ p ∈ resolver.precedents e, ∀ l, p.Covers l → source l = other l) :
    e.evaluate ⟨library, source, resolver, limits⟩ = e.evaluate ⟨library, other, resolver, limits⟩ := by
  refine evaluate_congr ⟨rfl, rfl, fun r hr => ?_, fun _ _ _ => rfl⟩
  have hmem : ∀ p, resolver.resolve r = .ok p → p ∈ resolver.precedents e := fun p hp =>
    Resolver.mem_precedents.mpr ⟨r, mem_references.mpr hr, hp⟩
  exact Setting.read_congr rfl rfl fun p hp l hl => h p (hmem p hp) l hl

end Spreadsheet
