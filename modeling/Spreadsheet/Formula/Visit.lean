import Spreadsheet.Formula.Expr

/-! # Visiting the nodes of a formula

The traversal as a loop: it takes a node from the top of a stack, shows it to a visitor and pushes its
children, the last one first, so that the first one is on top. What a visitor has noted in the end are
the references of a formula, or whether it calls a function. -/

namespace Spreadsheet.Expr

/-- The stack after the children of a node have been pushed; its end is the top. -/
def pushChildren (stack : Array Expr) : Expr → Array Expr
  | unary _ x => stack.push x
  | binary _ l r => (stack.push r).push l
  | call _ args => args.foldr (fun x stack => stack.push x) stack
  | _ => stack

theorem toList_pushChildren (stack : Array Expr) (e : Expr) :
    (pushChildren stack e).toList = stack.toList ++ e.children.reverse := by
  cases e <;> simp [pushChildren, children]

theorem toList_eq_of_back? {stack : Array Expr} {e : Expr} (h : stack.back? = some e) :
    stack.toList = stack.pop.toList ++ [e] := by
  have hlast : stack.toList.getLast? = some e := by simpa using h
  obtain ⟨below, hstack⟩ := List.getLast?_eq_some_iff.mp hlast
  rw [Array.toList_pop, hstack, List.dropLast_concat]

theorem sizeOf_reverse (xs : List Expr) : sizeOf xs.reverse = sizeOf xs := by
  induction xs with
  | nil => rfl
  | cons x xs ih =>
    have happ := sizeOf_append xs.reverse [x]
    simp only [List.reverse_cons, List.cons.sizeOf_spec, List.nil.sizeOf_spec] at happ ⊢
    omega

theorem sizeOf_pushChildren_lt {stack : Array Expr} {e : Expr} (h : stack.back? = some e) :
    sizeOf (pushChildren stack.pop e).toList < sizeOf stack.toList := by
  have hafter := sizeOf_append stack.pop.toList e.children.reverse
  have hbefore := sizeOf_append stack.pop.toList [e]
  have hchildren := sizeOf_children_append_lt e []
  rw [sizeOf_reverse] at hafter
  rw [List.append_nil] at hchildren
  rw [toList_pushChildren, toList_eq_of_back? h]
  omega

variable {α : Type}

/-- What the visitor has noted when it has seen all nodes of the trees on the stack. -/
def visitAll (visitor : α → Expr → α) (stack : Array Expr) (noted : α) : α :=
  match _h : stack.back? with
  | none => noted
  | some e => visitAll visitor (pushChildren stack.pop e) (visitor noted e)
termination_by sizeOf stack.toList
decreasing_by exact sizeOf_pushChildren_lt ‹_›

def visit (e : Expr) (visitor : α → Expr → α) (start : α) : α :=
  visitAll visitor #[e] start

/-- Notes the node if it is a reference. -/
def noteReference (noted : Array Reference) : Expr → Array Reference
  | reference r => noted.push r
  | _ => noted

/-- Notes whether the node calls the function of a name. -/
def noteCall (name : String) (noted : Bool) : Expr → Bool
  | call f _ => noted || Text.SameName f name
  | _ => noted

end Spreadsheet.Expr
