import Spreadsheet.Proofs.Evaluation.Numbers

/-! # Comparisons

Values are in the order of what they are compared by: first the type, then the rank of a truth value or a number,
then a text in lower case (`Value.order_eq_keyOrder`). Where no value is a pattern that is no number, their order
is therefore total and transitive. The six comparisons all read this order (`BinaryOp.Decides`). -/

namespace Spreadsheet

namespace Value
variable {a b c : Value}

/-! ### What values are compared by -/

/-- What truth values and numbers are compared by. -/
def rank : Value → Int
  | boolean b => b.toNat
  | number n => n.rank
  | _ => 0

/-- What texts are compared by. -/
def folded : Value → String
  | text s => Text.lower s
  | _ => ""

def keyOrder : Value → Value → Ordering :=
  compareLex (compareOn typeRank) (compareLex (compareOn rank) (compareOn folded))

instance : Std.TransCmp keyOrder :=
  inferInstanceAs (Std.TransCmp (compareLex (compareOn typeRank) (compareLex (compareOn rank) (compareOn folded))))

theorem keyOrder_of_typeRank_eq (h : a.typeRank = b.typeRank) :
    a.keyOrder b = (compare a.rank b.rank).then (compare a.folded b.folded) := by
  simp only [keyOrder, compareLex, compareOn, h, Std.compare_self]
  rfl

theorem keyOrder_of_typeRank_ne (h : a.typeRank ≠ b.typeRank) : a.keyOrder b = compare a.typeRank b.typeRank := by
  simp only [keyOrder, compareLex, compareOn]
  cases horder : compare a.typeRank b.typeRank with
  | eq => exact absurd (Nat.compare_eq_eq.mp horder) h
  | lt | gt => rfl

/-- Values of different types are in the order of their types. -/
theorem order_of_typeRank_ne (h : a.typeRank ≠ b.typeRank) : a.order b = compare a.typeRank b.typeRank := by
  cases a <;> cases b <;> first | rfl | exact absurd rfl h

theorem order_eq_keyOrder (ha : a.isNaN = false) (hb : b.isNaN = false) : a.order b = a.keyOrder b := by
  by_cases htype : a.typeRank = b.typeRank
  · rw [keyOrder_of_typeRank_eq htype]
    -- Of each type there is one key that decides, and the other one is the same for both.
    cases a with
    | empty => cases b <;> cases htype; rfl
    | error x => cases b <;> cases htype; rfl
    | boolean p =>
      cases b <;> cases htype
      rename_i q
      cases p <;> cases q <;> rfl
    | number m =>
      cases b <;> cases htype
      rename_i n
      have hm : m.isNaN = false := ha
      have hn : n.isNaN = false := hb
      simp [order, Number.order, rank, folded, hm, hn]
    | text s =>
      cases b <;> cases htype
      simp [order, rank, folded]
  · rw [order_of_typeRank_ne htype, keyOrder_of_typeRank_ne htype]

/-! ### Total and transitive -/

/-- The values that comparisons are made for: no errors, and no numbers that are not finite. -/
structure Ordered (v : Value) : Prop where
  proper : v.isError = false
  finite : v.isFinite = true

/-- On the values that satisfy `p`, the order is total and transitive, and types follow one another by their ranks. -/
structure Sorts (p : Value → Prop) : Prop where
  refl : ∀ a, p a → a.order a = .eq
  swap : ∀ a b, p a → p b → b.order a = (a.order b).swap
  trans : ∀ a b c, p a → p b → p c → (a.order b).isLE = true → (b.order c).isLE = true → (a.order c).isLE = true
  types : ∀ a b, p a → p b → a.typeRank < b.typeRank → a.order b = .lt

theorem sorts_of_isNaN : Sorts fun v => v.isNaN = false where
  refl a ha := by
    rw [order_eq_keyOrder ha ha]
    exact Std.ReflCmp.compare_self
  swap a b ha hb := by
    rw [order_eq_keyOrder ha hb, order_eq_keyOrder hb ha]
    exact Std.OrientedCmp.eq_swap
  trans a b c ha hb hc hab hbc := by
    rw [order_eq_keyOrder ha hb] at hab
    rw [order_eq_keyOrder hb hc] at hbc
    rw [order_eq_keyOrder ha hc]
    exact Std.TransCmp.isLE_trans hab hbc
  types a b _ _ h := by
    rw [order_of_typeRank_ne (Nat.ne_of_lt h)]
    exact Nat.compare_eq_lt.mpr h

theorem Sorts.mono {p q : Value → Prop} (h : Sorts p) (hsub : ∀ v, q v → p v) : Sorts q where
  refl a ha := h.refl a (hsub a ha)
  swap a b ha hb := h.swap a b (hsub a ha) (hsub b hb)
  trans a b c ha hb hc := h.trans a b c (hsub a ha) (hsub b hb) (hsub c hc)
  types a b ha hb := h.types a b (hsub a ha) (hsub b hb)

theorem Ordered.isNaN {v : Value} (h : v.Ordered) : v.isNaN = false :=
  isNaN_of_isFinite h.finite

end Value

/-! ### Comparisons of operands -/

namespace BinaryOp

/-- The six comparisons. -/
def comparisons : List BinaryOp :=
  [equal, notEqual, less, lessEqual, greater, greaterEqual]

/-- What the comparisons of two operands come to, by the order of the operands: exactly one of `<`, `=` and `>` is
    true, and each of the others is the opposite of one of these. -/
structure Decides (o : Ordering) (holds : BinaryOp → Bool) : Prop where
  less : holds less = true ↔ o = .lt
  equal : holds equal = true ↔ o = .eq
  greater : holds greater = true ↔ o = .gt
  one : [holds .less, holds .equal, holds .greater].count true = 1
  greaterEqual : holds greaterEqual = !holds .less
  notEqual : holds notEqual = !holds .equal
  lessEqual : holds lessEqual = !holds .greater

theorem decides_holds? (o : Ordering) : Decides o fun op => (op.holds? o).getD false := by
  cases o <;> constructor <;> decide

theorem apply_of_proper {a b : Value} (ha : a.isError = false) (hb : b.isError = false) (op : BinaryOp) :
    op.apply a b = op.applyProper a b := by
  cases a with
  | error x => cases ha
  | _ => cases b <;> first | rfl | cases hb

theorem apply_comparison {a b : Value} (ha : a.isError = false) (hb : b.isError = false) {op : BinaryOp}
    (hop : op ∈ comparisons) : op.apply a b = .boolean ((op.holds? (a.order b)).getD false) := by
  rw [apply_of_proper ha hb]
  simp only [comparisons, List.mem_cons, List.not_mem_nil, or_false] at hop
  rcases hop with rfl | rfl | rfl | rfl | rfl | rfl <;> rfl

end BinaryOp

namespace Expr

theorem evaluateAt_binary {s : Setting} {depth : Nat} (hdepth : depth ≤ s.limits.maxDepth) {l r : Expr} {x y : Argument}
    (hl : evaluateAt s (depth + 1) l = .ok x) (hr : evaluateAt s (depth + 1) r = .ok y) (op : BinaryOp) :
    evaluateAt s depth (.binary op l r) = .ok (.value (op.apply x.toValue y.toValue)) := by
  simp only [evaluateAt, Nat.not_lt.mpr hdepth, if_false, hl, hr]

/-- The order of values is total and transitive on those that comparisons are made for: what is empty comes before truth
    values, these before numbers, and texts come last. All six comparisons of two values that are no errors read this
    one order, and none of them is an error. -/
theorem evaluate_comparisons :
    Value.Sorts Value.Ordered ∧
      (∀ p n t, [Value.empty, .boolean p, .number n, .text t].Pairwise fun a b => a.typeRank < b.typeRank) ∧
      ∀ (s : Setting) (depth : Nat) (l r : Expr) (x y : Argument), depth ≤ s.limits.maxDepth →
        evaluateAt s (depth + 1) l = .ok x → evaluateAt s (depth + 1) r = .ok y → x.toValue.isError = false →
        y.toValue.isError = false → ∃ holds, BinaryOp.Decides (x.toValue.order y.toValue) holds ∧
          ∀ op ∈ BinaryOp.comparisons, evaluateAt s depth (.binary op l r) = .ok (.value (.boolean (holds op))) := by
  refine ⟨Value.sorts_of_isNaN.mono fun v hv => hv.isNaN, fun p n t => by simp [Value.typeRank], ?_⟩
  intro s depth l r x y hdepth hl hr hx hy
  refine ⟨_, BinaryOp.decides_holds? _, fun op hop => ?_⟩
  rw [evaluateAt_binary hdepth hl hr op, BinaryOp.apply_comparison hx hy hop]

/-- `TRUE` comes before 0, and 0 before a text, so `TRUE` comes before it as well; and `"b"` is compared with `"B"`. -/
theorem evaluate_comparisons_types :
    let a : Value := .boolean true
    let b : Value := .number 0
    let c : Value := .text "b"
    let s : Setting := ⟨.empty, fun _ => .empty, .atCell ⟨["Sheet1"]⟩ ⟨0, 5, 5⟩, .standard⟩
    (a.Ordered ∧ b.Ordered ∧ c.Ordered ∧ (a.order b).isLE = true ∧ (b.order c).isLE = true ∧ (a.order c).isLE = true) ∧
      evaluateAt s 1 (.text "b") = .ok (.value c) ∧ evaluateAt s 1 (.text "B") = .ok (.value (.text "B")) ∧
        ∃ holds, BinaryOp.Decides (c.order (.text "B")) holds ∧ ∀ op ∈ BinaryOp.comparisons,
          evaluateAt s 0 (.binary op (.text "b") (.text "B")) = .ok (.value (.boolean (holds op))) := by
  intro a b c s
  have ha : a.Ordered := ⟨rfl, rfl⟩
  have hb : b.Ordered := ⟨rfl, by decide⟩
  have hc : c.Ordered := ⟨rfl, rfl⟩
  have htext (t : String) : evaluateAt s 1 (.text t) = .ok (.value (.text t)) := by rw [evaluateAt, if_neg (by decide)]
  exact ⟨⟨ha, hb, hc, rfl, rfl, evaluate_comparisons.1.trans a b c ha hb hc rfl rfl⟩, htext "b", htext "B",
    evaluate_comparisons.2.2 s 0 _ _ _ _ (Nat.zero_le _) (htext "b") (htext "B") rfl rfl⟩

end Expr

end Spreadsheet
