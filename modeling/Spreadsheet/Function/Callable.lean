import Spreadsheet.Formula.ParseError
import Spreadsheet.Grid.Location
import Spreadsheet.Value.Coercion

/-! # Functions that formulas call

A function declares how many arguments it takes and how each is coerced. An eager function receives
all arguments evaluated; a lazy one asks for them one by one. An implementation answers with a value,
reports a fault, or breaks off. -/

namespace Spreadsheet

/-- Why an evaluation ended without a value. -/
inductive Fault where
  /-- The text is no formula. -/
  | parse (e : ParseError)
  /-- A function reported a failure. -/
  | failed (function message : String)
  /-- A function broke off, and the break was contained. -/
  | panicked (function : String)
  /-- A function broke off, and nothing contained the break. -/
  | panic
deriving DecidableEq

namespace Fault

def message : Fault → String
  | parse e => e.message
  | failed function message => s!"{function}: {message}"
  | panicked function => s!"{function} panicked during evaluation"
  | panic => "panicked during evaluation"

/-- The value of a cell whose evaluation ended with a fault. -/
def errorValue : Fault → ErrorValue
  | parse e => e.errorValue
  | failed _ _ => .error
  | panicked _ => .error
  | panic => .error

end Fault

/-- The values of a block, row by row. -/
structure BlockValues where
  block : Block
  values : List Value
deriving DecidableEq

namespace BlockValues

/-- The values that a source gives the cells of a block. -/
def read (block : Block) (source : Location → Value) : BlockValues :=
  ⟨block, block.cells.map source⟩

/-- The value at an offset from the first corner, if that is inside. -/
def get? (b : BlockValues) (row column : Nat) : Option Value :=
  if row < b.block.rows ∧ column < b.block.columns then b.values[row * b.block.columns + column]?
  else none

end BlockValues

/-- An evaluated argument: one value, or those of a block. -/
inductive Argument where
  | value (v : Value)
  | block (b : BlockValues)
deriving DecidableEq

namespace Argument

def isBlock : Argument → Bool
  | value _ => false
  | block _ => true

def values : Argument → List Value
  | value v => [v]
  | block b => b.values

/-- The argument as one value. A block is none: `#VALUE`. -/
def toValue : Argument → Value
  | value v => v
  | block _ => .error .value

end Argument

/-- How an argument is coerced before the function sees it. -/
inductive ParameterKind where
  /-- One value, as a number. -/
  | number
  /-- One value, as a text. -/
  | text
  /-- One value, as a truth value. -/
  | logical
  /-- A block as it is, one value as a number. -/
  | numberOrBlock
  /-- One value as it is. -/
  | any
  /-- A block or a value as it is. -/
  | anyOrBlock
deriving DecidableEq, Inhabited

namespace ParameterKind

/-- Whether a block may stand here. -/
def acceptsBlock : ParameterKind → Bool
  | numberOrBlock => true
  | anyOrBlock => true
  | _ => false

/-- A value that is no error, coerced. -/
def coerceValue (k : ParameterKind) (v : Value) : Value :=
  match k with
  | number => Value.ofView .number v.toNumber
  | numberOrBlock => Value.ofView .number v.toNumber
  | text => .text v.toText
  | logical => Value.ofView .boolean v.toLogical
  | any => v
  | anyOrBlock => v

/-- An argument coerced. A block where none may stand is `#VALUE`; errors stay what they are. -/
def coerce (k : ParameterKind) : Argument → Argument
  | .block b => if k.acceptsBlock then .block b else .value (.error .value)
  | .value v => if v.isError then .value v else .value (k.coerceValue v)

end ParameterKind

/-- What an eager function knows about the call. -/
structure CallSite where
  /-- The name under which the function is registered. -/
  name : String
  /-- The cell being evaluated. -/
  cell : Location
deriving DecidableEq

/-- What a lazy function knows about the call. -/
structure LazyCall where
  /-- The name under which the function is registered. -/
  name : String
  /-- The cell being evaluated. -/
  cell : Location
  /-- The number of arguments. -/
  count : Nat
  /-- Evaluates and coerces an argument. -/
  argument : Nat → Except Fault Argument

def LazyCall.value (c : LazyCall) (index : Nat) : Except Fault Value :=
  (c.argument index).map Argument.toValue

/-- How a function computes its result. -/
inductive Body where
  | eager (run : List Argument → CallSite → Except Fault Value)
  | lazy (run : LazyCall → Except Fault Value)

/-- Whether a function asks for its arguments itself. -/
def Body.isLazy : Body → Bool
  | eager _ => false
  | lazy _ => true

/-- A function that formulas can call. -/
structure Callable where
  /-- The name as registered. -/
  name : String
  minimum : Nat
  /-- The greatest number of arguments; without one there is no limit. -/
  maximum : Option Nat
  /-- How arguments are coerced, by position; the last kind goes on for ever. -/
  parameters : List ParameterKind
  /-- Whether errors reach the function, instead of being the result at once. -/
  absorbsErrors : Bool
  body : Body

namespace Callable

/-- An eager function whose arguments are taken as they are. -/
def eager (name : String) (minimum : Nat) (maximum : Option Nat)
    (run : List Argument → CallSite → Except Fault Value) : Callable :=
  ⟨name, minimum, maximum, [.any], false, .eager run⟩

/-- A lazy function whose arguments are taken as they are. -/
def lazy (name : String) (minimum : Nat) (maximum : Option Nat)
    (run : LazyCall → Except Fault Value) : Callable :=
  ⟨name, minimum, maximum, [.any], false, .lazy run⟩

/-- The function with other parameter kinds; none given changes nothing. -/
def withParameters (f : Callable) (kinds : List ParameterKind) : Callable :=
  if kinds = [] then f else { f with parameters := kinds }

/-- The function with errors among what it receives. -/
def absorbing (f : Callable) : Callable :=
  { f with absorbsErrors := true }

def renamed (f : Callable) (name : String) : Callable :=
  { f with name }

/-- How the argument at a position is coerced. -/
def parameterAt (f : Callable) (index : Nat) : ParameterKind :=
  match f.parameters[index]?, f.parameters.getLast? with
  | some k, _ => k
  | none, some k => k
  | none, none => .any

def AcceptsCount (f : Callable) (count : Nat) : Prop :=
  f.minimum ≤ count ∧ ∀ most ∈ f.maximum, count ≤ most

instance (f : Callable) (count : Nat) : Decidable (f.AcceptsCount count) :=
  inferInstanceAs (Decidable (_ ∧ _))

end Callable

end Spreadsheet
