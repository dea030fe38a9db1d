import Spreadsheet.Formula.Token
import Spreadsheet.Grid.Address

/-! # Formula expressions

The tree of a formula, its references in the order in which they stand in the formula, and the
functions it calls. `walk` visits a tree with a stack of its own, so that depth costs no call stack;
`preorder` is the same traversal by recursion. -/

namespace Spreadsheet

/-- A reference as written, with the sheet it names, if it names one. -/
inductive Reference where
  | cell (sheet : Option String) (address : Address)
  | range (sheet : Option String) (range : AddressRange)
deriving DecidableEq, Inhabited

def Reference.sheet? : Reference → Option String
  | cell sheet _ => sheet
  | range sheet _ => sheet

/-- Operators between two operands. -/
inductive BinaryOp where
  | add
  | subtract
  | multiply
  | divide
  | power
  | equal
  | notEqual
  | less
  | lessEqual
  | greater
  | greaterEqual
  | concat
deriving DecidableEq, Inhabited

/-- Operators in front of an operand. -/
inductive UnaryOp where
  | negate
  | plus
deriving DecidableEq, Inhabited

/-- A formula without its leading `=`. -/
inductive Expr where
  | number (n : Number)
  | text (s : String)
  | boolean (b : Bool)
  | error (e : ErrorValue)
  | reference (r : Reference)
  | unary (op : UnaryOp) (operand : Expr)
  | binary (op : BinaryOp) (left right : Expr)
  | call (name : String) (arguments : List Expr)
deriving Inhabited

namespace Expr

/-! ### Equality -/

mutual

/-- Whether two expressions are equal. -/
def same : Expr → Expr → Bool
  | number a, number b => a = b
  | text a, text b => a = b
  | boolean a, boolean b => a = b
  | error a, error b => a = b
  | reference a, reference b => a = b
  | unary op x, unary op' x' => op = op' && same x x'
  | binary op l r, binary op' l' r' => op = op' && same l l' && same r r'
  | call f xs, call f' xs' => f = f' && sameAll xs xs'
  | _, _ => false

/-- Whether two lists of expressions are equal. -/
def sameAll : List Expr → List Expr → Bool
  | [], [] => true
  | x :: xs, y :: ys => same x y && sameAll xs ys
  | _, _ => false

end

mutual

theorem same_iff (a b : Expr) : same a b = true ↔ a = b := by
  cases a <;> cases b <;> simp only [same, decide_eq_true_eq, reduceCtorEq, Bool.false_eq_true, number.injEq,
    text.injEq, boolean.injEq, error.injEq, reference.injEq, unary.injEq, binary.injEq, call.injEq,
    Bool.and_eq_true]
  case unary.unary op x op' x' => rw [same_iff x x']
  case binary.binary op l r op' l' r' => rw [same_iff l l', same_iff r r', and_assoc]
  case call.call f xs f' xs' => rw [sameAll_iff xs xs']

theorem sameAll_iff (xs ys : List Expr) : sameAll xs ys = true ↔ xs = ys := by
  cases xs with
  | nil => cases ys <;> simp [sameAll]
  | cons x xs =>
    cases ys with
    | nil => simp [sameAll]
    | cons y ys => rw [sameAll, Bool.and_eq_true, same_iff x y, sameAll_iff xs ys, List.cons.injEq]

end

instance : DecidableEq Expr := fun a b => decidable_of_iff _ (same_iff a b)

/-! ### Traversal -/

/-- The operands and arguments of an expression, left to right. -/
def children : Expr → List Expr
  | unary _ x => [x]
  | binary _ l r => [l, r]
  | call _ args => args
  | _ => []

theorem sizeOf_append (xs ys : List Expr) : sizeOf (xs ++ ys) + 1 = sizeOf xs + sizeOf ys := by
  induction xs with
  | nil => simp only [List.nil_append, List.nil.sizeOf_spec]; omega
  | cons x xs ih => simp only [List.cons_append, List.cons.sizeOf_spec]; omega

theorem sizeOf_children_append_lt (e : Expr) (stack : List Expr) :
    sizeOf (e.children ++ stack) < sizeOf (e :: stack) := by
  have happ := sizeOf_append e.children stack
  cases e with
  | unary op x =>
    simp only [children, List.cons.sizeOf_spec, List.nil.sizeOf_spec, unary.sizeOf_spec] at happ ⊢
    omega
  | binary op l r =>
    have hop : 0 < sizeOf op := by cases op <;> simp
    simp only [children, List.cons.sizeOf_spec, List.nil.sizeOf_spec, binary.sizeOf_spec] at happ ⊢
    omega
  | call f args =>
    simp only [children, List.cons.sizeOf_spec, call.sizeOf_spec] at happ ⊢
    omega
  | _ =>
    simp only [children, List.nil.sizeOf_spec, List.cons.sizeOf_spec] at happ ⊢
    omega

/-- The nodes of the trees on a stack, each before its children, the trees from the top down. -/
def walk : List Expr → List Expr
  | [] => []
  | e :: stack => e :: walk (e.children ++ stack)
termination_by stack => sizeOf stack
decreasing_by exact sizeOf_children_append_lt e stack

mutual

/-- The nodes of a tree, each before its children, these from left to right. -/
def preorder : Expr → List Expr
  | unary op x => unary op x :: preorder x
  | binary op l r => binary op l r :: (preorder l ++ preorder r)
  | call f args => call f args :: preorderAll args
  | e => [e]

def preorderAll : List Expr → List Expr
  | [] => []
  | e :: es => preorder e ++ preorderAll es

end

def reference? : Expr → Option Reference
  | reference r => some r
  | _ => none

/-- The references of an expression, left to right. -/
def references (e : Expr) : List Reference :=
  (walk [e]).filterMap reference?

/-- Whether a node calls the function of a name. -/
def isCallOf (name : String) : Expr → Bool
  | call f _ => Text.SameName f name
  | _ => false

/-- Whether an expression calls the function of a name anywhere. -/
def calls (e : Expr) (name : String) : Bool :=
  (walk [e]).any (isCallOf name)

end Expr

end Spreadsheet
