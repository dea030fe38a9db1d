import Spreadsheet.Formula.Resolution
import Spreadsheet.Function.Library
import Spreadsheet.Value.Order

/-! # Evaluation

The value of an expression, given the values of cells. Errors are ordinary values and travel up
through operators and arguments; a fault ends the evaluation. A block is a value only where a function
takes blocks. An expression deeper than the limits allow, or a block larger, is `#ERROR`. -/

namespace Spreadsheet

/-- The bounds of one evaluation. -/
structure Limits where
  /-- Deeper expressions are `#ERROR`; the whole formula has depth 0. -/
  maxDepth : Nat
  /-- Larger blocks are `#ERROR`. -/
  maxBlockCells : Nat
  /-- Whether a function that breaks off is a fault of the evaluation. -/
  containPanics : Bool
deriving DecidableEq

/-- The bounds that hold unless others are given. -/
def Limits.standard : Limits :=
  ⟨512, 1000000, true⟩

/-- What an evaluation depends on besides the expression. -/
structure Setting where
  library : Library
  /-- The value of each cell. -/
  source : Location → Value
  resolver : Resolver
  limits : Limits

/-! ### Operators -/

/-- A sign applied to a value. A plus leaves the value as it is, whatever its type. -/
def UnaryOp.apply (op : UnaryOp) (v : Value) : Value :=
  if v.isError then v
  else
    match op with
    | .plus => v
    | .negate => Value.ofView (fun n => Value.ofNumber (-n)) v.toNumber

namespace BinaryOp

/-- The truth value of a comparison by the order of its operands; nothing for other operators. -/
def holds? : BinaryOp → Ordering → Option Bool
  | equal, o => some (o == .eq)
  | notEqual, o => some (o != .eq)
  | less, o => some (o == .lt)
  | lessEqual, o => some (o != .gt)
  | greater, o => some (o == .gt)
  | greaterEqual, o => some (o != .lt)
  | _, _ => none

def calculate (op : BinaryOp) (a b : Number) : Value :=
  match op with
  | add => Value.ofNumber (a + b)
  | subtract => Value.ofNumber (a - b)
  | multiply => Value.ofNumber (a * b)
  | divide => if b.isZero then .error .div0 else Value.ofNumber (a / b)
  | _ => Value.ofNumber (a.pow b)

/-- An operator applied to operands that are no errors. -/
def applyProper (op : BinaryOp) (a b : Value) : Value :=
  match op.holds? (a.order b) with
  | some holds => .boolean holds
  | none =>
    match op with
    | concat => .text (a.toText ++ b.toText)
    | op =>
      match a.toNumber, b.toNumber with
      | .ok x, .ok y => op.calculate x y
      | .error e, _ => .error e
      | .ok _, .error e => .error e

/-- An operator applied to its operands. The left error comes before the right one. -/
def apply (op : BinaryOp) (a b : Value) : Value :=
  match a, b with
  | .error e, _ => .error e
  | _, .error e => .error e
  | a, b => op.applyProper a b

end BinaryOp

/-! ### Expressions -/

/-- What becomes of a function that broke off. -/
def Limits.contain (limits : Limits) (name : String) : Except Fault Value → Except Fault Value
  | .error .panic => if limits.containPanics then .error (.panicked name) else .error .panic
  | result => result

def Setting.read (s : Setting) (r : Reference) : Argument :=
  match s.resolver.resolve r with
  | .error e => .value (.error e)
  | .ok (.cell l) => .value (s.source l)
  | .ok (.block b) =>
    if s.limits.maxBlockCells < b.size then .value (.error .error)
    else .block (BlockValues.read b s.source)

mutual

/-- An expression at a depth, as an argument. -/
def Expr.evaluateAt (s : Setting) (depth : Nat) (e : Expr) : Except Fault Argument :=
  if s.limits.maxDepth < depth then
    .ok (.value (.error .error))
  else
    match e with
    | .number n => .ok (.value (Value.ofNumber n))
    | .text t => .ok (.value (.text t))
    | .boolean b => .ok (.value (.boolean b))
    | .error e => .ok (.value (.error e))
    | .reference r => .ok (s.read r)
    | .unary op x =>
      match Expr.evaluateAt s (depth + 1) x with
      | .error fault => .error fault
      | .ok a => .ok (.value (op.apply a.toValue))
    | .binary op l r =>
      match Expr.evaluateAt s (depth + 1) l with
      | .error fault => .error fault
      | .ok a =>
        match Expr.evaluateAt s (depth + 1) r with
        | .error fault => .error fault
        | .ok b => .ok (.value (op.apply a.toValue b.toValue))
    | .call name args =>
      match s.library.find? name with
      | none => .ok (.value (.error .name))
      | some f =>
        if ¬f.AcceptsCount args.length then
          .ok (.value (.error .error))
        else
          match f.body with
          | .eager run =>
            match Expr.evaluateArguments s f (depth + 1) 0 args with
            | .error fault => .error fault
            | .ok (.error e) => .ok (.value (.error e))
            | .ok (.ok args) =>
              (s.limits.contain f.name (run args ⟨f.name, s.resolver.anchor⟩)).map fun v =>
                .value v.normalized
          | .lazy run =>
            let call : LazyCall :=
              { name := f.name
                cell := s.resolver.anchor
                count := args.length
                argument := fun index =>
                  match Expr.evaluateNth s (depth + 1) args index with
                  | none => .error (.failed f.name s!"no argument {index + 1}")
                  | some (.error fault) => .error fault
                  | some (.ok a) => .ok ((f.parameterAt index).coerce a) }
            (s.limits.contain f.name (run call)).map fun v => .value v.normalized

/-- The arguments of an eager function, coerced from position `index` on. Unless the function absorbs
    errors, the first one in any argument is the result, and what follows is not evaluated. -/
def Expr.evaluateArguments (s : Setting) (f : Callable) (depth index : Nat) :
    List Expr → Except Fault (Except ErrorValue (List Argument))
  | [] => .ok (.ok [])
  | e :: es =>
    match Expr.evaluateAt s depth e with
    | .error fault => .error fault
    | .ok a =>
      let a := (f.parameterAt index).coerce a
      match if f.absorbsErrors then none else Value.firstError a.values with
      | some e => .ok (.error e)
      | none =>
        match Expr.evaluateArguments s f depth (index + 1) es with
        | .error fault => .error fault
        | .ok (.error e) => .ok (.error e)
        | .ok (.ok others) => .ok (.ok (a :: others))

/-- The expression at a position, evaluated; nothing past the last one. -/
def Expr.evaluateNth (s : Setting) (depth : Nat) : List Expr → Nat → Option (Except Fault Argument)
  | [], _ => none
  | e :: _, 0 => some (Expr.evaluateAt s depth e)
  | _ :: es, index + 1 => Expr.evaluateNth s depth es index

end

/-- The value of a formula. A formula that is a block is `#VALUE`. -/
def Expr.evaluate (s : Setting) (e : Expr) : Except Fault Value :=
  (e.evaluateAt s 0).map Argument.toValue

end Spreadsheet
