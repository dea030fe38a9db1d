import Spreadsheet.Formula.Expr

/-! # The nodes of a formula

The walk with a stack is the traversal by recursion. So the references of a formula and the names that
it calls are those of its nodes. -/

namespace Spreadsheet.Expr

theorem preorder_eq (e : Expr) : preorder e = e :: preorderAll e.children := by
  cases e <;> simp [preorder, preorderAll, children]

theorem preorderAll_append (xs ys : List Expr) : preorderAll (xs ++ ys) = preorderAll xs ++ preorderAll ys := by
  induction xs with
  | nil => rfl
  | cons x xs ih => simp [preorderAll, ih]

theorem walk_eq_preorderAll (stack : List Expr) : walk stack = preorderAll stack := by
  fun_induction walk stack with
  | case1 => rfl
  | case2 e stack ih => rw [ih, preorderAll_append, preorderAll, preorder_eq e, List.cons_append]

theorem walk_singleton (e : Expr) : walk [e] = preorder e := by
  rw [walk_eq_preorderAll, preorderAll, preorderAll, List.append_nil]

theorem mem_preorder_self (e : Expr) : e ∈ preorder e := by
  rw [preorder_eq]
  exact List.mem_cons_self

theorem mem_preorderAll {es : List Expr} {node : Expr} : node ∈ preorderAll es ↔ ∃ e ∈ es, node ∈ preorder e := by
  induction es with
  | nil => simp [preorderAll]
  | cons e es ih => simp [preorderAll, ih]

theorem mem_references {e : Expr} {r : Reference} : r ∈ e.references ↔ .reference r ∈ preorder e := by
  rw [references, walk_singleton, List.mem_filterMap]
  constructor
  · rintro ⟨node, hnode, heq⟩
    cases node <;> cases heq
    exact hnode
  · exact fun h => ⟨_, h, rfl⟩

theorem calls_iff {e : Expr} {name : String} :
    e.calls name = true ↔ ∃ f args, .call f args ∈ preorder e ∧ Text.SameName f name := by
  rw [calls, walk_singleton, List.any_eq_true]
  constructor
  · rintro ⟨node, hnode, hcall⟩
    cases node <;> simp only [isCallOf, decide_eq_true_eq, Bool.false_eq_true] at hcall
    exact ⟨_, _, hnode, hcall⟩
  · rintro ⟨f, args, hnode, hsame⟩
    exact ⟨_, hnode, decide_eq_true hsame⟩

end Spreadsheet.Expr
