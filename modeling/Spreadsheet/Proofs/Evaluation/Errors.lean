import Mathlib
import Spreadsheet.Evaluation
import Spreadsheet.Function.Builtin
import Spreadsheet.Proofs.Formula.Resolution
import Spreadsheet.Proofs.Formula.Traversal

/-! # How errors travel

An expression that calls only functions which want their arguments evaluated and free of errors
(`Setting.Strict`) lets no error get lost: if a node of it is an error (`Setting.ErrorAt`), then so is
its value, unless a plugin that it calls faults. -/

namespace Spreadsheet

/-! ### Errors at the nodes of an expression -/

/-- A reference means nothing, or a cell that it means holds an error, or it means too many cells. -/
inductive Setting.ReadsError (s : Setting) (r : Reference) : Prop
  | unresolved (x : ErrorValue) (hresolve : s.resolver.resolve r = .error x)
  | covered (p : Precedent) (l : Location) (x : ErrorValue) (hresolve : s.resolver.resolve r = .ok p)
      (hcover : p.Covers l) (hvalue : s.source l = .error x)
  | oversized (b : Block) (hresolve : s.resolver.resolve r = .ok (.block b))
      (hsize : s.limits.maxBlockCells < b.size)

/-- The node is an error literal or a reference that reads an error. -/
def Setting.ErrorAt (s : Setting) : Expr → Prop
  | .error _ => True
  | .reference r => s.ReadsError r
  | _ => False

/-- If the node calls a function, then one that receives its arguments evaluated and never an error. -/
def Setting.Strict (s : Setting) : Expr → Prop
  | .call name _ => ∀ f, s.library.find? name = some f → f.absorbsErrors = false ∧ f.body.isLazy = false
  | _ => True

/-- The node calls a function that is no built-in one and that faults for some arguments. -/
def Setting.Raises (s : Setting) (fault : Fault) : Expr → Prop
  | .call name _ => ∃ f run args, s.library.find? name = some f ∧ f ∉ Builtin.all ∧ f.body = .eager run ∧
      s.limits.contain f.name (run args ⟨f.name, s.resolver.anchor⟩) = .error fault
  | _ => False

/-! ### Errors in arguments -/

/-- One of the values of an argument is an error. -/
def Argument.HasError (a : Argument) : Prop :=
  ∃ x, .error x ∈ a.values

theorem Value.firstError_eq_none {vs : List Value} : firstError vs = none ↔ ∀ x, .error x ∉ vs := by
  rw [firstError, List.findSome?_eq_none_iff]
  constructor
  · intro h x hx
    cases h _ hx
  · intro h v hv
    cases v with
    | error x => exact absurd hv (h x)
    | _ => rfl

namespace Argument
variable {a : Argument}

theorem hasError_value {x : ErrorValue} : (value (.error x)).HasError :=
  ⟨x, List.mem_singleton_self _⟩

/-- As one value, an argument with an error is an error; of a block it need not be one of its own. -/
theorem HasError.toValue (h : a.HasError) : ∃ x, a.toValue = .error x := by
  cases a with
  | value v =>
    obtain ⟨x, hx⟩ := h
    exact ⟨x, (List.mem_singleton.mp hx).symm⟩
  | block b => exact ⟨.value, rfl⟩

theorem HasError.coerce (h : a.HasError) (k : ParameterKind) : (k.coerce a).HasError := by
  cases a with
  | value v =>
    obtain ⟨x, rfl⟩ := h.toValue
    exact h
  | block b =>
    rw [ParameterKind.coerce]
    split
    · exact h
    · exact hasError_value

theorem HasError.firstError (h : a.HasError) : ∃ x, Value.firstError a.values = some x := by
  obtain ⟨x, hx⟩ := h
  rw [← Option.isSome_iff_exists, Option.isSome_iff_ne_none]
  exact fun hnone => Value.firstError_eq_none.mp hnone x hx

end Argument

theorem UnaryOp.apply_error (op : UnaryOp) (x : ErrorValue) : op.apply (.error x) = .error x := rfl

theorem BinaryOp.apply_error_left (op : BinaryOp) (x : ErrorValue) (b : Value) : op.apply (.error x) b = .error x := rfl

theorem BinaryOp.apply_error_right (op : BinaryOp) (a : Value) (x : ErrorValue) : ∃ y, op.apply a (.error x) = .error y := by
  cases a <;> exact ⟨_, rfl⟩

/-- The argument that a reference is has an error exactly if the reference reads one. -/
theorem Setting.hasError_read {s : Setting} {r : Reference} : (s.read r).HasError ↔ s.ReadsError r := by
  unfold read
  split
  · rename_i x hresolve
    exact iff_of_true Argument.hasError_value (.unresolved x hresolve)
  · rename_i l hresolve
    constructor
    · intro h
      obtain ⟨x, hx⟩ := h.toValue
      exact .covered _ l x hresolve rfl hx
    · rintro (⟨x, h⟩ | ⟨p, m, x, h, hcover, hvalue⟩ | ⟨b, h, -⟩) <;> rw [hresolve] at h <;> cases h
      cases hcover
      rw [hvalue]
      exact Argument.hasError_value
  · rename_i b hresolve
    split
    · rename_i hsize
      exact iff_of_true Argument.hasError_value (.oversized b hresolve hsize)
    · rename_i hsize
      constructor
      · rintro ⟨x, hx⟩
        obtain ⟨l, hl, hvalue⟩ := List.mem_map.mp hx
        exact .covered _ l x hresolve ((s.resolver.mem_cells_of_resolve hresolve).mp hl) hvalue
      · rintro (⟨x, h⟩ | ⟨p, l, x, h, hcover, hvalue⟩ | ⟨b', h, hlarge⟩) <;> rw [hresolve] at h <;> cases h
        · exact ⟨x, List.mem_map.mpr ⟨l, (s.resolver.mem_cells_of_resolve hresolve).mpr hcover, hvalue⟩⟩
        · exact absurd hlarge hsize

/-! ### Faults -/

/-- A built-in function that receives its arguments evaluated answers with a value. -/
theorem Builtin.exists_run_eq_ok {f : Callable} (hf : f ∈ all) {run : List Argument → CallSite → Except Fault Value}
    (hbody : f.body = .eager run) (args : List Argument) (site : CallSite) : ∃ v, run args site = .ok v := by
  simp only [all, arithmetic, logical, inspection, textual, List.map_cons, List.map_nil, List.cons_append,
    List.nil_append, List.mem_cons, List.not_mem_nil, or_false] at hf
  repeat' rcases hf with rfl | hf
  all_goals cases hbody <;> exact ⟨_, rfl⟩

theorem Limits.contain_ok (limits : Limits) (name : String) (v : Value) : limits.contain name (.ok v) = .ok v := rfl

/-! ### Evaluations -/

/-- What the evaluation of some nodes comes to: a fault that one of them raises, or a result, which has
    the property `Erroneous` if one of them is an error. -/
def Setting.Delivers {α : Type} (s : Setting) (Erroneous : α → Prop) (nodes : List Expr) : Except Fault α → Prop
  | .error fault => ∃ node ∈ nodes, s.Raises fault node
  | .ok a => (∃ node ∈ nodes, s.ErrorAt node) → Erroneous a

/-- A fault ends the evaluation of all that the nodes are part of. -/
theorem Setting.Delivers.fault {α β : Type} {s : Setting} {P : α → Prop} {Q : β → Prop} {nodes more : List Expr}
    {fault : Fault} (h : s.Delivers P nodes (.error fault)) (hsub : nodes ⊆ more) : s.Delivers Q more (.error fault) := by
  obtain ⟨node, hnode, hraises⟩ := h
  exact ⟨node, hsub hnode, hraises⟩

namespace Expr
variable {s : Setting}

/-- A call whose arguments were evaluated, so that no node below it is an error if they all are proper. -/
theorem call_delivers {name : String} {args : List Expr} {depth : Nat} (hdepth : ¬s.limits.maxDepth < depth)
    {f : Callable} (hfind : s.library.find? name = some f) (hlazy : f.body.isLazy = false)
    (hargs : s.Delivers (fun result => ∃ x, result = .error x) (preorderAll args)
      (evaluateArguments s f (depth + 1) 0 args)) :
    s.Delivers Argument.HasError (preorder (call name args)) (evaluateAt s depth (call name args)) := by
  simp only [evaluateAt, if_neg hdepth, hfind]
  by_cases hcount : f.AcceptsCount args.length
  · cases hbody : f.body with
    | lazy run =>
      rw [hbody] at hlazy
      cases hlazy
    | eager run =>
      simp only [hcount, not_true_eq_false, if_false]
      cases hvalues : evaluateArguments s f (depth + 1) 0 args with
      | error fault =>
        rw [hvalues] at hargs
        exact hargs.fault (List.subset_cons_self _ _)
      | ok result =>
        rw [hvalues] at hargs
        cases result with
        | error x => exact fun _ => Argument.hasError_value
        | ok values =>
          dsimp only
          cases hresult : s.limits.contain f.name (run values ⟨f.name, s.resolver.anchor⟩) with
          | ok v =>
            rintro ⟨node, hnode, herror⟩
            rcases List.mem_cons.mp hnode with rfl | hnode
            · cases herror
            · obtain ⟨x, hx⟩ := hargs ⟨node, hnode, herror⟩
              cases hx
          | error fault =>
            refine ⟨_, mem_preorder_self _, f, run, values, hfind, fun hf => ?_, hbody, hresult⟩
            obtain ⟨v, hv⟩ := Builtin.exists_run_eq_ok hf hbody values ⟨f.name, s.resolver.anchor⟩
            rw [hv, Limits.contain_ok] at hresult
            cases hresult
  · simp only [hcount, not_false_eq_true, if_true]
    exact fun _ => Argument.hasError_value

mutual

theorem evaluateAt_delivers (depth : Nat) (e : Expr) (hstrict : ∀ node ∈ preorder e, s.Strict node) :
    s.Delivers Argument.HasError (preorder e) (evaluateAt s depth e) := by
  by_cases hdepth : s.limits.maxDepth < depth
  · have hdeep : evaluateAt s depth e = .ok (.value (.error .error)) := by
      cases e <;> simp only [evaluateAt, if_pos hdepth]
    rw [hdeep]
    exact fun _ => Argument.hasError_value
  cases e with
  | number n => simp [evaluateAt, hdepth, Setting.Delivers, preorder, Setting.ErrorAt]
  | text x => simp [evaluateAt, hdepth, Setting.Delivers, preorder, Setting.ErrorAt]
  | boolean b => simp [evaluateAt, hdepth, Setting.Delivers, preorder, Setting.ErrorAt]
  | error x =>
    simp only [evaluateAt, if_neg hdepth]
    exact fun _ => Argument.hasError_value
  | reference r =>
    simp only [evaluateAt, if_neg hdepth]
    rintro ⟨node, hnode, herror⟩
    obtain rfl := List.mem_singleton.mp hnode
    exact Setting.hasError_read.mpr herror
  | unary op x =>
    have hx := evaluateAt_delivers (depth + 1) x fun node hnode => hstrict node (List.mem_cons_of_mem _ hnode)
    simp only [evaluateAt, if_neg hdepth]
    cases hrun : evaluateAt s (depth + 1) x with
    | error fault =>
      rw [hrun] at hx
      exact hx.fault (List.subset_cons_self _ _)
    | ok a =>
      rw [hrun] at hx
      rintro ⟨node, hnode, herror⟩
      rcases List.mem_cons.mp hnode with rfl | hnode
      · cases herror
      · obtain ⟨y, hy⟩ := (hx ⟨node, hnode, herror⟩).toValue
        rw [hy, UnaryOp.apply_error]
        exact Argument.hasError_value
  | binary op l r =>
    have hleft : preorder l ⊆ preorder (binary op l r) := fun _ h => List.mem_cons_of_mem _ (List.mem_append_left _ h)
    have hright : preorder r ⊆ preorder (binary op l r) := fun _ h => List.mem_cons_of_mem _ (List.mem_append_right _ h)
    have hl := evaluateAt_delivers (depth + 1) l fun node hnode => hstrict node (hleft hnode)
    have hr := evaluateAt_delivers (depth + 1) r fun node hnode => hstrict node (hright hnode)
    simp only [evaluateAt, if_neg hdepth]
    cases hrunl : evaluateAt s (depth + 1) l with
    | error fault =>
      rw [hrunl] at hl
      exact hl.fault hleft
    | ok a =>
      rw [hrunl] at hl
      cases hrunr : evaluateAt s (depth + 1) r with
      | error fault =>
        rw [hrunr] at hr
        exact hr.fault hright
      | ok b =>
        rw [hrunr] at hr
        rintro ⟨node, hnode, herror⟩
        rcases List.mem_cons.mp hnode with rfl | hnode
        · cases herror
        rcases List.mem_append.mp hnode with hnode | hnode
        · obtain ⟨x, hx⟩ := (hl ⟨node, hnode, herror⟩).toValue
          rw [hx, BinaryOp.apply_error_left]
          exact Argument.hasError_value
        · obtain ⟨x, hx⟩ := (hr ⟨node, hnode, herror⟩).toValue
          obtain ⟨y, hy⟩ := op.apply_error_right a.toValue x
          rw [hx, hy]
          exact Argument.hasError_value
  | call name args =>
    cases hfind : s.library.find? name with
    | none =>
      simp only [evaluateAt, if_neg hdepth, hfind]
      exact fun _ => Argument.hasError_value
    | some f =>
      obtain ⟨habsorbs, hlazy⟩ := hstrict _ (mem_preorder_self _) f hfind
      have hargs := evaluateArguments_delivers f habsorbs (depth + 1) 0 args fun node hnode =>
        hstrict node (List.mem_cons_of_mem _ hnode)
      exact call_delivers hdepth hfind hlazy hargs

/-- Evaluated arguments of which one has an error are cut short by an error. -/
theorem evaluateArguments_delivers (f : Callable) (habsorbs : f.absorbsErrors = false) (depth index : Nat)
    (es : List Expr) (hstrict : ∀ node ∈ preorderAll es, s.Strict node) :
    s.Delivers (fun result => ∃ x, result = .error x) (preorderAll es) (evaluateArguments s f depth index es) := by
  cases es with
  | nil => simp [evaluateArguments, Setting.Delivers, preorderAll]
  | cons e es =>
    have he := evaluateAt_delivers depth e fun node hnode => hstrict node (List.mem_append_left _ hnode)
    have hes := evaluateArguments_delivers f habsorbs depth (index + 1) es fun node hnode =>
      hstrict node (List.mem_append_right _ hnode)
    simp only [evaluateArguments, habsorbs, Bool.false_eq_true, if_false]
    cases hrun : evaluateAt s depth e with
    | error fault =>
      rw [hrun] at he
      exact he.fault (List.subset_append_left _ _)
    | ok a =>
      rw [hrun] at he
      dsimp only
      cases hfirst : Value.firstError ((f.parameterAt index).coerce a).values with
      | some x => exact fun _ => ⟨x, rfl⟩
      | none =>
        dsimp only
        cases hothers : evaluateArguments s f depth (index + 1) es with
        | error fault =>
          rw [hothers] at hes
          exact hes.fault (List.subset_append_right _ _)
        | ok result =>
          rw [hothers] at hes
          cases result with
          | error x => exact fun _ => ⟨x, rfl⟩
          | ok others =>
            rintro ⟨node, hnode, herror⟩
            rcases List.mem_append.mp hnode with hnode | hnode
            · obtain ⟨x, hx⟩ := ((he ⟨node, hnode, herror⟩).coerce (f.parameterAt index)).firstError
              rw [hfirst] at hx
              cases hx
            · obtain ⟨x, hx⟩ := hes ⟨node, hnode, herror⟩
              cases hx

end

/-- If a node of an expression is an error and every function that it calls is strict in errors, then the
    value is an error, or a plugin that it calls faults. -/
theorem evaluate_of_errorAt {e : Expr} (hstrict : ∀ node ∈ preorder e, s.Strict node)
    (h : ∃ node ∈ preorder e, s.ErrorAt node) :
    (∃ x, e.evaluate s = .ok (.error x)) ∨
      ∃ fault, e.evaluate s = .error fault ∧ ∃ node ∈ preorder e, s.Raises fault node := by
  have hdelivers := evaluateAt_delivers 0 e hstrict
  rw [evaluate]
  cases hrun : evaluateAt s 0 e with
  | error fault =>
    rw [hrun] at hdelivers
    exact Or.inr ⟨fault, rfl, hdelivers⟩
  | ok a =>
    rw [hrun] at hdelivers
    obtain ⟨x, hx⟩ := (hdelivers h).toValue
    exact Or.inl ⟨x, congrArg Except.ok hx⟩

/-- `=1+SUM(A1:B2)` with a division by zero in `B2`. -/
theorem evaluate_of_errorAt_sum :
    let s : Setting := ⟨.builtin, fun l => if l = ⟨0, 1, 1⟩ then .error .div0 else .empty,
      .atCell ⟨["Sheet1"]⟩ ⟨0, 5, 5⟩, .standard⟩
    let e : Expr := .binary .add (.number 1)
      (.call "SUM" [.reference (.range none ⟨.relative 0 0, .relative 1 1⟩)])
    (∃ x, e.evaluate s = .ok (.error x)) ∨
      ∃ fault, e.evaluate s = .error fault ∧ ∃ node ∈ preorder e, s.Raises fault node := by
  intro s e
  have hfind : (s.library.find? "SUM").map (fun f => (f.absorbsErrors, f.body.isLazy)) = some (false, false) := by cbv
  refine evaluate_of_errorAt ?_ ⟨.reference (.range none ⟨.relative 0 0, .relative 1 1⟩), by decide, ?_⟩
  · intro node hnode
    simp only [e, preorder, preorderAll, List.singleton_append, List.mem_cons, List.append_nil, List.not_mem_nil,
      or_false] at hnode
    rcases hnode with rfl | rfl | rfl | rfl
    · trivial
    · trivial
    · intro f hf
      rw [hf, Option.map_some, Option.some.injEq, Prod.mk.injEq] at hfind
      exact hfind
    · trivial
  · exact .covered (.block ⟨0, 0, 0, 1, 1⟩) ⟨0, 1, 1⟩ .div0 (by cbv) (by decide) rfl

end Expr

end Spreadsheet
