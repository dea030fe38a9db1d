import Mathlib
import Spreadsheet.Proofs.Evaluation.Agreement
import Spreadsheet.Proofs.Evaluation.Errors

/-! # What eager functions are called with

An eager function is called with arguments that conform to what it declares and to what the call writes
(`Setting.Conforms`): as many of them, of the kinds that it asks for, and without errors unless it absorbs
them. Nothing else can be seen of an implementation, so one that does the same with all such arguments may
take its place. -/

namespace Spreadsheet

/-- Whether a value that is no error may stand where a function declares the kind. -/
def ParameterKind.Admits : ParameterKind → Value → Prop
  | number, v => v.isNumber = true
  | numberOrBlock, v => v.isNumber = true
  | text, v => v.isText = true
  | logical, v => v.isBoolean = true
  | any, _ => True
  | anyOrBlock, _ => True

/-- The values are those of the cells of the block, row by row. -/
structure BlockValues.RowMajor (b : BlockValues) (source : Location → Value) : Prop where
  size : b.values.length = b.block.size
  value : ∀ row < b.block.rows, ∀ column < b.block.columns, b.values[row * b.block.columns + column]? =
    some (source ⟨b.block.sheet, b.block.top + row, b.block.left + column⟩)

/-- What an eager function may rely on when it is called with `values` for the written arguments. -/
structure Setting.Conforms (s : Setting) (f : Callable) (args : List Expr) (values : List Argument) : Prop where
  length : values.length = args.length
  count : f.AcceptsCount values.length
  block : ∀ (i : Nat) (b : BlockValues), values[i]? = some (.block b) → (f.parameterAt i).acceptsBlock = true ∧
    (∃ r, args[i]? = some (.reference r) ∧ s.resolver.resolve r = .ok (.block b.block)) ∧ b.RowMajor s.source
  value : ∀ (i : Nat) (v : Value), values[i]? = some (.value v) →
    (f.parameterAt i).Admits v ∨ f.absorbsErrors = true ∧ v.isError = true
  proper : f.absorbsErrors = false → ∀ a ∈ values, ¬a.HasError

/-- The evaluation of a call at a depth calls the eager function `f` with `values`. -/
structure Setting.Hands (s : Setting) (depth : Nat) (name : String) (args : List Expr) (f : Callable)
    (values : List Argument) : Prop where
  shallow : ¬s.limits.maxDepth < depth
  find : s.library.find? name = some f
  eager : f.body.isLazy = false
  count : f.AcceptsCount args.length
  values : Expr.evaluateArguments s f (depth + 1) 0 args = .ok (.ok values)

/-! ### Coercion -/

namespace ParameterKind
variable {k : ParameterKind} {a : Argument}

theorem coerce_eq_block {b : BlockValues} (h : k.coerce a = .block b) : k.acceptsBlock = true ∧ a = .block b := by
  cases a with
  | value v =>
    rw [coerce] at h
    split at h <;> cases h
  | block b' =>
    rw [coerce] at h
    split at h
    · rename_i haccepts
      cases h
      exact ⟨haccepts, rfl⟩
    · cases h

theorem admits_coerceValue (k : ParameterKind) (v : Value) :
    k.Admits (k.coerceValue v) ∨ (k.coerceValue v).isError = true := by
  cases k with
  | number | numberOrBlock =>
    rw [coerceValue]
    cases v.toNumber with
    | ok n => exact Or.inl rfl
    | error x => exact Or.inr rfl
  | logical =>
    rw [coerceValue]
    cases v.toLogical with
    | ok b => exact Or.inl rfl
    | error x => exact Or.inr rfl
  | text => exact Or.inl rfl
  | any | anyOrBlock => exact Or.inl trivial

theorem admits_of_coerce {v : Value} (h : k.coerce a = .value v) : k.Admits v ∨ v.isError = true := by
  cases a with
  | value w =>
    rw [coerce] at h
    split at h
    · rename_i herror
      cases h
      exact Or.inr herror
    · cases h
      exact admits_coerceValue k w
  | block b =>
    rw [coerce] at h
    split at h <;> cases h
    exact Or.inr rfl

end ParameterKind

theorem BlockValues.rowMajor_read (block : Block) (source : Location → Value) : (read block source).RowMajor source where
  size := by rw [read, List.length_map, Block.length_cells]
  value row hrow column hcolumn := by
    have hcell := Block.getElem?_cells (b := block) hrow hcolumn
    show (block.cells.map source)[row * block.columns + column]? = _
    rw [List.getElem?_map, hcell]
    rfl

theorem Setting.read_eq_block {s : Setting} {r : Reference} {b : BlockValues} (h : s.read r = .block b) :
    s.resolver.resolve r = .ok (.block b.block) ∧ b.RowMajor s.source := by
  unfold read at h
  split at h
  · cases h
  · cases h
  · rename_i block hresolve
    split at h <;> cases h
    exact ⟨hresolve, BlockValues.rowMajor_read block s.source⟩

/-! ### Arguments -/

namespace Expr
variable {s : Setting}

/-- Nothing but a reference is a block. -/
theorem exists_reference_of_evaluateAt {depth : Nat} {e : Expr} {b : BlockValues}
    (h : evaluateAt s depth e = .ok (.block b)) : ∃ r, e = .reference r ∧ s.read r = .block b := by
  have hcall {result : Except Fault Value} : result.map (fun v => Argument.value v.normalized) ≠ .ok (.block b) := by
    cases result <;> nofun
  unfold evaluateAt at h
  split at h
  · cases h
  cases e with
  | reference r => exact ⟨r, rfl, Except.ok.inj h⟩
  | unary op x =>
    dsimp only at h
    split at h <;> cases h
  | binary op l r =>
    dsimp only at h
    repeat' split at h
    all_goals cases h
  | call name args =>
    dsimp only at h
    repeat' split at h
    all_goals first | cases h | exact absurd h hcall
  | _ => cases h

/-- An argument that is handed to a function: what an expression evaluates to, coerced, and without an error unless
    the function absorbs them. -/
structure Delivered (s : Setting) (f : Callable) (depth index : Nat) (e : Expr) (a : Argument) : Prop where
  evaluated : ∃ result, evaluateAt s depth e = .ok result ∧ (f.parameterAt index).coerce result = a
  proper : f.absorbsErrors = false → ¬a.HasError

/-- As many arguments are evaluated as are written, each to what is delivered in its place. -/
theorem delivered_of_evaluateArguments {f : Callable} {depth : Nat} {es : List Expr} : ∀ {index : Nat}
    {values : List Argument}, evaluateArguments s f depth index es = .ok (.ok values) →
      values.length = es.length ∧ ∀ i a, values[i]? = some a → ∃ e, es[i]? = some e ∧ Delivered s f depth (index + i) e a := by
  induction es with
  | nil =>
    intro index values h
    simp only [evaluateArguments, Except.ok.injEq] at h
    subst h
    exact ⟨rfl, fun i a ha => by cases ha⟩
  | cons e es ih =>
    intro index values h
    simp only [evaluateArguments] at h
    split at h
    · cases h
    rename_i result hresult
    split at h
    · cases h
    rename_i hproper
    split at h
    · cases h
    · cases h
    rename_i others hothers
    cases h
    obtain ⟨hlength, hrest⟩ := ih hothers
    refine ⟨congrArg Nat.succ hlength, fun i a ha => ?_⟩
    cases i with
    | zero =>
      obtain rfl : _ = a := Option.some.inj ha
      refine ⟨e, rfl, ⟨result, hresult, rfl⟩, fun habsorbs => ?_⟩
      rw [habsorbs] at hproper
      intro herror
      obtain ⟨x, hx⟩ := herror.firstError
      cases hx.symm.trans hproper
    | succ i =>
      obtain ⟨e', he', hdelivered⟩ := hrest i a ha
      refine ⟨e', he', ?_⟩
      rwa [Nat.add_right_comm, Nat.add_assoc] at hdelivered

/-- What a function is called with conforms. -/
theorem conforms_of_hands {depth : Nat} {name : String} {args : List Expr} {f : Callable} {values : List Argument}
    (h : s.Hands depth name args f values) : s.Conforms f args values := by
  obtain ⟨hlength, hdelivered⟩ := delivered_of_evaluateArguments h.values
  simp only [Nat.zero_add] at hdelivered
  constructor
  case length => exact hlength
  case count => exact hlength ▸ h.count
  case block =>
    intro i b hb
    obtain ⟨e, he, ⟨result, hresult, hcoerce⟩, -⟩ := hdelivered i _ hb
    obtain ⟨haccepts, rfl⟩ := ParameterKind.coerce_eq_block hcoerce
    obtain ⟨r, rfl, hread⟩ := exists_reference_of_evaluateAt hresult
    obtain ⟨hresolve, hmajor⟩ := Setting.read_eq_block hread
    exact ⟨haccepts, ⟨r, he, hresolve⟩, hmajor⟩
  case value =>
    intro i v hv
    obtain ⟨e, -, ⟨result, -, hcoerce⟩, hproper⟩ := hdelivered i _ hv
    refine (ParameterKind.admits_of_coerce hcoerce).imp_right fun herror => ⟨?_, herror⟩
    cases habsorbs : f.absorbsErrors with
    | true => rfl
    | false =>
      cases v with
      | error x => exact absurd Argument.hasError_value (hproper habsorbs)
      | _ => cases herror
  case proper =>
    intro habsorbs a ha
    obtain ⟨i, hi⟩ := List.mem_iff_getElem?.mp ha
    obtain ⟨e, -, hdelivered⟩ := hdelivered i a hi
    exact hdelivered.proper habsorbs

theorem evaluateAt_of_hands {depth : Nat} {name : String} {args : List Expr} {f : Callable} {values : List Argument}
    (h : s.Hands depth name args f values) {run : List Argument → CallSite → Except Fault Value}
    (hbody : f.body = .eager run) : evaluateAt s depth (.call name args) =
      (s.limits.contain f.name (run values ⟨f.name, s.resolver.anchor⟩)).map fun v => .value v.normalized := by
  simp only [evaluateAt, if_neg h.shallow, h.find, h.count, not_true_eq_false, if_false, hbody, h.values]

end Expr

/-! ### Implementations -/

/-- Another library has the same functions for the calls of an expression, except that eager ones may be implemented
    otherwise, as long as they do the same with arguments that conform. -/
def Setting.Reimplements (s : Setting) (library : Library) (e : Expr) : Prop :=
  ∀ name args, .call name args ∈ e.preorder → library.find? name = s.library.find? name ∨
    ∃ f run other, s.library.find? name = some f ∧ f.body = .eager run ∧
      library.find? name = some { f with body := .eager other } ∧
        ∀ values, s.Conforms f args values →
          other values ⟨f.name, s.resolver.anchor⟩ = run values ⟨f.name, s.resolver.anchor⟩

/-- An eager function is called with arguments that conform, and what it makes of them is the value of the call.
    Implementations that do the same with arguments that conform give every expression the same value. -/
theorem Expr.evaluate_conforming (s : Setting) :
    (∀ depth name args f values, s.Hands depth name args f values → s.Conforms f args values ∧
      ∀ run, f.body = .eager run → evaluateAt s depth (.call name args) =
        (s.limits.contain f.name (run values ⟨f.name, s.resolver.anchor⟩)).map fun v => .value v.normalized) ∧
      ∀ library e, s.Reimplements library e → e.evaluate { s with library } = e.evaluate s := by
  refine ⟨fun depth name args f values h => ⟨conforms_of_hands h, fun run hbody => evaluateAt_of_hands h hbody⟩,
    fun library e h => ?_⟩
  have halike : s.Interchangeable { s with library } e.preorder := by
    refine ⟨rfl, rfl, fun _ _ => rfl, fun name args hc => ?_⟩
    rcases h name args hc with hsame | ⟨f, run, other, hfind, hbody, hother, hrun⟩
    · exact .same hsame.symm
    · refine .reimplemented hfind hbody hother fun depth values hdepth hcount hvalues => (hrun values ?_).symm
      exact conforms_of_hands ⟨hdepth, hfind, by rw [hbody]; rfl, hcount, hvalues⟩
  exact (evaluate_of_interchangeable halike).symm

/-- `=PICK(A1:B2,TRUE)`, where the function shows its second argument and breaks off if that is no text, or else shows
    whatever it is. -/
theorem Expr.evaluate_conforming_pick :
    let run (args : List Argument) (_ : CallSite) : Except Fault Value :=
      match args with
      | [_, .value (.text t)] => .ok (.text t)
      | _ => .error .panic
    let other (args : List Argument) (_ : CallSite) : Except Fault Value :=
      .ok (Argument.valueAt args 1)
    let pick := (Callable.eager "PICK" 1 (some 2) run).withParameters [.numberOrBlock, .text]
    let s : Setting := ⟨.register .empty pick, fun l => .boolean (l.row = l.column), .atCell ⟨["Sheet1"]⟩ ⟨0, 5, 5⟩,
      .standard⟩
    let library := Library.empty.register { pick with body := .eager other }
    let args : List Expr := [.reference (.range none ⟨.relative 0 0, .relative 1 1⟩), .boolean true]
    let values : List Argument := [.block ⟨⟨0, 0, 0, 1, 1⟩, [.boolean true, .boolean false, .boolean false,
      .boolean true]⟩, .value (.text "TRUE")]
    (s.Hands 0 "pick" args pick values ∧ pick.body = .eager run ∧ s.Conforms pick args values ∧
      evaluateAt s 0 (.call "pick" args) =
        (s.limits.contain "PICK" (run values ⟨"PICK", s.resolver.anchor⟩)).map fun v => .value v.normalized) ∧
      s.Reimplements library (.call "pick" args) ∧
        evaluate { s with library } (.call "pick" args) = evaluate s (.call "pick" args) := by
  intro run other pick s library args values
  have hfind : s.library.find? "pick" = some pick := (Library.find?_register _ _ _).trans (if_pos (by decide))
  have hhands : s.Hands 0 "pick" args pick values := ⟨by decide, hfind, rfl, by decide, by cbv⟩
  have hreimplements : s.Reimplements library (.call "pick" args) := by
    intro name args' hcall
    simp only [args, preorder, preorderAll, List.singleton_append, List.append_nil, List.mem_cons, call.injEq,
      reduceCtorEq, List.not_mem_nil, or_false] at hcall
    obtain ⟨rfl, rfl⟩ := hcall
    refine .inr ⟨pick, run, other, hfind, rfl,
      (Library.find?_register _ _ _).trans (if_pos (by decide)), fun values hconforms => ?_⟩
    obtain ⟨first, second, rfl⟩ := List.length_eq_two.mp hconforms.length
    cases second with
    | block b => exact absurd (hconforms.block 1 b rfl).1 (by decide)
    | value v =>
      rcases hconforms.value 1 v rfl with htext | ⟨habsorbs, -⟩
      · cases v with
        | text t => rfl
        | _ => cases htext
      · cases habsorbs
  obtain ⟨hconforms, hvalue⟩ := (evaluate_conforming s).1 0 "pick" args pick values hhands
  exact ⟨⟨hhands, rfl, hconforms, hvalue run rfl⟩, hreimplements, (evaluate_conforming s).2 library _ hreimplements⟩

end Spreadsheet
