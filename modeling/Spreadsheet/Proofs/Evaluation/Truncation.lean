import Spreadsheet.Function.Builtin
import Spreadsheet.Proofs.Evaluation.Agreement
import Spreadsheet.Proofs.Formula.Height

/-! # Limits cut expressions short

To evaluate an expression under limits is to evaluate a smaller one without them (`Setting.truncated`): in
it `#ERROR` stands for whatever lies too deep and for each block that is too large. Limits that never come
to bear on an expression (`Setting.Admits`) are as good as none. -/

namespace Spreadsheet

/-! ### What the limits cut off -/

/-- The same setting under other limits. -/
def Setting.under (s : Setting) (limits : Limits) : Setting :=
  { s with limits }

/-- The reference means more cells than may be read at once. -/
def Setting.isOversized (s : Setting) (r : Reference) : Bool :=
  match s.resolver.resolve r with
  | .ok (.block b) => s.limits.maxBlockCells < b.size
  | _ => false

/-- The topmost levels of an expression. `#ERROR` stands for each subtree below them, and for each reference
    that `dropped` tells. -/
def Expr.cut (dropped : Reference → Bool) : Nat → Expr → Expr
  | 0, _ => .error .error
  | levels + 1, e =>
    match e with
    | .number n => .number n
    | .text t => .text t
    | .boolean b => .boolean b
    | .error x => .error x
    | .reference r => if dropped r then .error .error else .reference r
    | .unary op x => .unary op (cut dropped levels x)
    | .binary op l r => .binary op (cut dropped levels l) (cut dropped levels r)
    | .call name args => .call name (args.map (cut dropped levels))

/-- What the limits leave of an expression, whose root has depth 0. -/
def Setting.truncated (s : Setting) (e : Expr) : Expr :=
  e.cut s.isOversized (s.limits.maxDepth + 1)

/-- No limit comes to bear on the expression. -/
structure Setting.Admits (s : Setting) (e : Expr) : Prop where
  height : e.height ≤ s.limits.maxDepth
  blocks : ∀ r ∈ e.references, s.isOversized r = false

/-- The limits `b` are no narrower than `a`, and treat functions that break off alike. -/
structure Limits.Within (a b : Limits) : Prop where
  maxDepth : a.maxDepth ≤ b.maxDepth
  maxBlockCells : a.maxBlockCells ≤ b.maxBlockCells
  containPanics : b.containPanics = a.containPanics

theorem Setting.isOversized_under {s : Setting} {limits : Limits} (h : s.limits.Within limits) {r : Reference}
    (hr : s.isOversized r = false) : (s.under limits).isOversized r = false := by
  unfold isOversized at hr ⊢
  simp only [under]
  split
  · rename_i b hb
    simp only [hb, decide_eq_false_iff_not, Nat.not_lt] at hr
    exact decide_eq_false (Nat.not_lt.mpr (Nat.le_trans hr h.maxBlockCells))
  · rfl

/-! ### The cut expression -/

namespace Expr
variable {dropped : Reference → Bool}

theorem heightArguments_le {es : List Expr} {n : Nat} (h : ∀ e ∈ es, e.height ≤ n) : heightArguments es ≤ n + 1 := by
  induction es with
  | nil => exact Nat.zero_le _
  | cons e es ih =>
    obtain ⟨he, hes⟩ := List.forall_mem_cons.mp h
    exact Nat.max_le.mpr ⟨Nat.succ_le_succ he, ih hes⟩

theorem height_lt_heightArguments {es : List Expr} {e : Expr} (h : e ∈ es) : e.height < heightArguments es := by
  induction es with
  | nil => cases h
  | cons x es ih =>
    rw [heightArguments]
    rcases List.mem_cons.mp h with rfl | h
    · exact Nat.le_max_left ..
    · exact Nat.lt_of_lt_of_le (ih h) (Nat.le_max_right ..)

theorem height_cut (levels : Nat) : ∀ e : Expr, (e.cut dropped levels).height ≤ levels := by
  induction levels with
  | zero => exact fun _ => Nat.le_refl 0
  | succ levels ih =>
    intro e
    cases e with
    | reference r =>
      rw [cut]
      split <;> exact Nat.zero_le _
    | unary op x => exact Nat.succ_le_succ (ih x)
    | binary op l r => exact Nat.succ_le_succ (Nat.max_le.mpr ⟨ih l, ih r⟩)
    | call name args => exact heightArguments_le (List.forall_mem_map.mpr fun e _ => ih e)
    | _ => exact Nat.zero_le _

/-- No reference is left that was to be dropped. -/
theorem dropped_of_mem_cut {r : Reference} (levels : Nat) : ∀ {e : Expr},
    .reference r ∈ preorder (e.cut dropped levels) → dropped r = false := by
  induction levels with
  | zero => exact fun h => by cases List.mem_singleton.mp h
  | succ levels ih =>
    intro e h
    cases e with
    | reference r' =>
      rw [cut] at h
      split at h
      · cases List.mem_singleton.mp h
      · cases List.mem_singleton.mp h
        exact eq_false_of_ne_true ‹_›
    | unary op x =>
      rcases List.mem_cons.mp h with h | h
      · cases h
      · exact ih h
    | binary op l r' =>
      rcases List.mem_cons.mp h with h | h
      · cases h
      · exact (List.mem_append.mp h).elim ih ih
    | call name args =>
      rcases List.mem_cons.mp h with h | h
      · cases h
      · obtain ⟨x, hx, h⟩ := mem_preorderAll.mp h
        obtain ⟨e, -, rfl⟩ := List.mem_map.mp hx
        exact ih h
    | _ => cases List.mem_singleton.mp h

/-- An expression with no more levels and nothing to be dropped stays what it is. -/
theorem cut_eq_self {levels : Nat} : ∀ {e : Expr}, e.height < levels →
    (∀ r, .reference r ∈ preorder e → dropped r = false) → e.cut dropped levels = e := by
  induction levels with
  | zero => exact fun h => absurd h (Nat.not_lt_zero _)
  | succ levels ih =>
    intro e hheight hkept
    cases e with
    | reference r => rw [cut, hkept r (mem_preorder_self _), if_neg Bool.false_ne_true]
    | unary op x =>
      rw [cut, ih (Nat.lt_of_succ_lt_succ hheight) fun r hr => hkept r (List.mem_cons_of_mem _ hr)]
    | binary op l r =>
      obtain ⟨hl, hr⟩ := Nat.max_lt.mp (Nat.lt_of_succ_lt_succ hheight)
      rw [cut, ih hl fun r hr => hkept r (List.mem_cons_of_mem _ (List.mem_append_left _ hr)),
        ih hr fun r hr => hkept r (List.mem_cons_of_mem _ (List.mem_append_right _ hr))]
    | call name args =>
      have hargs : args.map (cut dropped levels) = args.map id := List.map_congr_left fun e he =>
        ih (Nat.lt_of_lt_of_le (height_lt_heightArguments he) (Nat.le_of_lt_succ hheight)) fun r hr =>
          hkept r (List.mem_cons_of_mem _ (mem_preorderAll.mpr ⟨e, he, hr⟩))
      rw [cut, hargs, List.map_id]
    | _ => rfl

end Expr

/-! ### Evaluations -/

/-- Where the limits allow all that a reference means, they are not seen. -/
theorem Setting.read_of_isOversized {s : Setting} {r : Reference} (hr : s.isOversized r = false) : s.read r =
    match s.resolver.resolve r with
    | .error e => .value (.error e)
    | .ok (.cell l) => .value (s.source l)
    | .ok (.block b) => .block (BlockValues.read b s.source) := by
  unfold isOversized at hr
  unfold read
  cases hresolve : s.resolver.resolve r with
  | error e => rfl
  | ok p =>
    cases p with
    | cell l => rfl
    | block b =>
      rw [hresolve] at hr
      exact if_neg (of_decide_eq_false hr)

theorem Setting.read_under {s : Setting} {limits : Limits} (h : s.limits.Within limits) {r : Reference}
    (hr : s.isOversized r = false) : (s.under limits).read r = s.read r := by
  rw [read_of_isOversized hr, read_of_isOversized (isOversized_under h hr)]
  rfl

theorem Setting.read_oversized {s : Setting} {r : Reference} (hr : s.isOversized r = true) :
    s.read r = .value (.error .error) := by
  unfold isOversized at hr
  unfold read
  split at hr
  · rename_i b hb
    simp only [hb]
    exact if_pos (of_decide_eq_true hr)
  · cases hr

namespace Expr
variable {s : Setting} {limits : Limits}

/-- The literal `#ERROR` has the same value at every depth. -/
theorem evaluateAt_error (depth : Nat) : evaluateAt s depth (.error .error) = .ok (.value (.error .error)) := by
  rw [evaluateAt]
  split <;> rfl

theorem evaluateAt_tooDeep {depth : Nat} {e : Expr} (h : s.limits.maxDepth < depth) :
    evaluateAt s depth e = .ok (.value (.error .error)) := by
  rw [evaluateAt.eq_def, if_pos h]

mutual

/-- What is left of an expression has the value that the limits gave it: it has as many levels as the limits allow
    from its depth on. -/
theorem evaluateAt_cut (h : s.limits.Within limits) (depth : Nat) (e : Expr) :
    evaluateAt (s.under limits) depth (e.cut s.isOversized (s.limits.maxDepth + 1 - depth)) = evaluateAt s depth e := by
  by_cases hdeep : s.limits.maxDepth < depth
  · rw [Nat.sub_eq_zero_of_le hdeep, cut, evaluateAt_error, evaluateAt_tooDeep hdeep]
  have hwide : ¬(s.under limits).limits.maxDepth < depth := fun hlt => hdeep (Nat.lt_of_le_of_lt h.maxDepth hlt)
  rw [show s.limits.maxDepth + 1 - depth = s.limits.maxDepth + 1 - (depth + 1) + 1 by omega]
  cases e with
  | number n => simp only [cut, evaluateAt, hdeep, hwide]
  | text t => simp only [cut, evaluateAt, hdeep, hwide]
  | boolean b => simp only [cut, evaluateAt, hdeep, hwide]
  | error x => simp only [cut, evaluateAt, hdeep, hwide]
  | reference r =>
    cases hr : s.isOversized r with
    | true =>
      rw [cut, hr, if_pos rfl, evaluateAt_error, evaluateAt, if_neg hdeep, Setting.read_oversized hr]
    | false =>
      rw [cut, hr, if_neg Bool.false_ne_true, evaluateAt, evaluateAt, if_neg hdeep, if_neg hwide, Setting.read_under h hr]
  | unary op x =>
    have hx := evaluateAt_cut h (depth + 1) x
    simp only [cut, evaluateAt, hdeep, hwide, hx]
  | binary op l r =>
    have hl := evaluateAt_cut h (depth + 1) l
    have hr := evaluateAt_cut h (depth + 1) r
    simp only [cut, evaluateAt, hdeep, hwide, hl, hr]
  | call name args =>
    have hlist := fun f => evaluateArguments_cut h f (depth + 1) 0 args
    have hnth := evaluateNth_cut h (depth + 1) args
    have hcontain : (s.under limits).limits.contain = s.limits.contain := by
      funext name outcome
      unfold Limits.contain
      rw [show (s.under limits).limits.containPanics = s.limits.containPanics from h.containPanics]
    simp only [cut, evaluateAt, hdeep, hwide, hlist, hnth, hcontain, List.length_map]
    rfl

theorem evaluateArguments_cut (h : s.limits.Within limits) (f : Callable) (depth index : Nat) (es : List Expr) :
    evaluateArguments (s.under limits) f depth index (es.map (cut s.isOversized (s.limits.maxDepth + 1 - depth))) =
      evaluateArguments s f depth index es := by
  cases es with
  | nil => simp only [List.map_nil, evaluateArguments]
  | cons e es =>
    have he := evaluateAt_cut h depth e
    have hes := evaluateArguments_cut h f depth (index + 1) es
    simp only [List.map_cons, evaluateArguments, he, hes]

theorem evaluateNth_cut (h : s.limits.Within limits) (depth : Nat) (es : List Expr) (index : Nat) :
    evaluateNth (s.under limits) depth (es.map (cut s.isOversized (s.limits.maxDepth + 1 - depth))) index =
      evaluateNth s depth es index := by
  cases es with
  | nil => simp only [List.map_nil, evaluateNth]
  | cons e es =>
    have he := evaluateAt_cut h depth e
    have hes := evaluateNth_cut h depth es
    cases index with
    | zero => simp only [List.map_cons, evaluateNth, he]
    | succ index => simp only [List.map_cons, evaluateNth, hes]

end

theorem evaluate_under (h : s.limits.Within limits) (e : Expr) :
    (s.truncated e).evaluate (s.under limits) = e.evaluate s := by
  have hroot := evaluateAt_cut h 0 e
  rw [Nat.sub_zero] at hroot
  rw [evaluate, evaluate, Setting.truncated, hroot]

end Expr

/-! ### Limits that do not come to bear -/

namespace Setting
variable {s : Setting} {limits : Limits} {e : Expr}

theorem Admits.truncated_eq (h : s.Admits e) : s.truncated e = e :=
  Expr.cut_eq_self (Nat.lt_succ_of_le h.height) fun r hr => h.blocks r (Expr.mem_references.mpr hr)

/-- Limits that are a level wider than those that cut an expression do not come to bear on what is left of it. -/
theorem admits_truncated (h : s.limits.Within limits) (hdepth : s.limits.maxDepth < limits.maxDepth) (e : Expr) :
    (s.under limits).Admits (s.truncated e) where
  height := Nat.le_trans (Expr.height_cut _ e) hdepth
  blocks _ hr := isOversized_under h (Expr.dropped_of_mem_cut _ (Expr.mem_references.mp hr))

/-- Any two limits that do not come to bear on an expression give it the same value. -/
theorem Admits.evaluate_eq {others : Limits} (h : (s.under limits).Admits e) (h' : (s.under others).Admits e)
    (hpanics : limits.containPanics = others.containPanics) :
    e.evaluate (s.under limits) = e.evaluate (s.under others) := by
  let wide : Limits :=
    ⟨max limits.maxDepth others.maxDepth, max limits.maxBlockCells others.maxBlockCells, limits.containPanics⟩
  have hlimits : limits.Within wide := ⟨Nat.le_max_left .., Nat.le_max_left .., rfl⟩
  have hothers : others.Within wide := ⟨Nat.le_max_right .., Nat.le_max_right .., hpanics⟩
  have hleft := Expr.evaluate_under (s := s.under limits) hlimits e
  have hright := Expr.evaluate_under (s := s.under others) hothers e
  rw [h.truncated_eq] at hleft
  rw [h'.truncated_eq] at hright
  exact hleft.symm.trans hright

end Setting

/-- The value of an expression is that of what its limits leave of it, under any limits that do not come to bear on
    that, as all do that are a level wider. In particular, limits that do not come to bear on the expression are as
    good as any others that do not. -/
theorem Expr.evaluate_truncated (s : Setting) (e : Expr) :
    (∀ limits : Limits, limits.containPanics = s.limits.containPanics → (s.under limits).Admits (s.truncated e) →
        (s.truncated e).evaluate (s.under limits) = e.evaluate s) ∧
      (∀ limits, s.limits.Within limits → s.limits.maxDepth < limits.maxDepth →
        (s.under limits).Admits (s.truncated e)) ∧
      (s.Admits e → ∀ limits : Limits, limits.containPanics = s.limits.containPanics → (s.under limits).Admits e →
        e.evaluate (s.under limits) = e.evaluate s) := by
  refine ⟨fun limits hpanics hadmits => ?_, fun limits h hdepth => Setting.admits_truncated h hdepth e,
    fun hself limits hpanics hadmits => ?_⟩
  · have hwide : s.limits.Within { s.limits with maxDepth := s.limits.maxDepth + 1 } :=
      ⟨Nat.le_succ _, Nat.le_refl _, rfl⟩
    rw [hadmits.evaluate_eq (Setting.admits_truncated hwide (Nat.lt_succ_self _) e) hpanics]
    exact Expr.evaluate_under hwide e
  · have hown : (s.under s.limits).Admits e := hself
    exact hadmits.evaluate_eq hown hpanics

/-- Three cells are too many, and the second sign hides too deep an operand: of the two arguments the first is an
    error, and so is the second. Of a sum over two cells nothing is cut off. -/
theorem Expr.evaluate_truncated_fallback :
    let s : Setting := ⟨.builtin, fun _ => .number 1, .atCell .initial ⟨0, 9, 9⟩, ⟨2, 2, true⟩⟩
    let sum (row : Nat) : Expr := .call "SUM" [.reference (.range none (.spanning (.relative 0 0) (.relative row 0)))]
    let e : Expr := .call "IFERROR" [sum 2, .unary .negate (.unary .negate (.boolean true))]
    let wide : Limits := ⟨9, 9, true⟩
    s.truncated e = .call "IFERROR" [.call "SUM" [.error .error], .unary .negate (.unary .negate (.error .error))] ∧
      (s.truncated e).evaluate (s.under wide) = e.evaluate s ∧
      (sum 1).evaluate (s.under wide) = (sum 1).evaluate s := by
  intro s sum e wide
  have hwithin : s.limits.Within wide := ⟨by decide, by decide, rfl⟩
  have hdepth : s.limits.maxDepth < wide.maxDepth := by decide
  have hadmits : s.Admits (sum 1) := ⟨by decide, by decide +kernel⟩
  refine ⟨by decide +kernel, (evaluate_truncated s e).1 wide rfl ((evaluate_truncated s e).2.1 wide hwithin hdepth),
    (evaluate_truncated s (sum 1)).2.2 hadmits wide rfl ?_⟩
  rw [← hadmits.truncated_eq]
  exact (evaluate_truncated s (sum 1)).2.1 wide hwithin hdepth

end Spreadsheet
