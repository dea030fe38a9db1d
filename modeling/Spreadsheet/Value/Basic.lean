import Spreadsheet.Number.Shortest
import Spreadsheet.Text.Basic

/-! # Cell values

What a cell holds: nothing, a boolean, a number, a text or an error. Errors are ordinary values with
a fixed token each. -/

namespace Spreadsheet

/-- Why a cell has no proper value. -/
inductive ErrorValue where
  /-- Division by zero. -/
  | div0
  /-- An operand or argument of the wrong type. -/
  | value
  /-- A reference to a sheet or cell that does not exist. -/
  | ref
  /-- An unknown function or name. -/
  | name
  /-- A numeric result that is not finite. -/
  | num
  /-- The cell takes part in a dependency cycle. -/
  | circular
  /-- A malformed formula, a wrong number of arguments, or an evaluation fault. -/
  | error
deriving DecidableEq, Inhabited

namespace ErrorValue

def all : List ErrorValue :=
  [div0, value, ref, name, num, circular, error]

def token : ErrorValue → String
  | div0 => "#DIV0"
  | value => "#VALUE"
  | ref => "#REF"
  | name => "#NAME"
  | num => "#NUM"
  | circular => "#CIRCULAR"
  | error => "#ERROR"

/-- The error with a token, in any case. -/
def ofToken? (s : String) : Option ErrorValue :=
  all.find? fun e => Text.SameName e.token s

end ErrorValue

/-- The value of a cell. -/
inductive Value where
  | empty
  | boolean (b : Bool)
  | number (n : Number)
  | text (s : String)
  | error (e : ErrorValue)
deriving DecidableEq, Inhabited

namespace Value

/-- A computed number as a value; one that is not finite is the error `#NUM`. -/
def ofNumber (n : Number) : Value :=
  if n.isFinite then number n else error .num

/-- A value with a number that is not finite replaced by `#NUM`. -/
def normalized : Value → Value
  | number n => ofNumber n
  | v => v

/-- The error that a value is, if it is one. -/
def error? : Value → Option ErrorValue
  | error e => some e
  | _ => none

def isError (v : Value) : Bool :=
  v.error?.isSome

def isEmpty : Value → Bool
  | empty => true
  | _ => false

def isNumber : Value → Bool
  | number _ => true
  | _ => false

def isText : Value → Bool
  | text _ => true
  | _ => false

def isBoolean : Value → Bool
  | boolean _ => true
  | _ => false

/-- Equality of values, with numbers compared as numbers. -/
def same : Value → Value → Bool
  | number a, number b => a.same b
  | a, b => a = b

def booleanText (b : Bool) : String :=
  if b then "TRUE" else "FALSE"

/-- The text of a value, as shown and as joined to other texts. -/
def toText : Value → String
  | empty => ""
  | boolean b => booleanText b
  | number n => n.toText
  | text s => s
  | error e => e.token

end Value

end Spreadsheet
