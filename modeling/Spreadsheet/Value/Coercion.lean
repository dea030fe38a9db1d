import Spreadsheet.Value.Basic

/-! # Coercion

How operators and functions view a value as a number, a truth value or a text. Errors pass through
every view unchanged. -/

namespace Spreadsheet

/-- The truth value that a text reads as: `TRUE` or `FALSE` in any case. -/
def Text.toLogical? (s : String) : Option Bool :=
  if Text.SameName s "TRUE" then some true
  else if Text.SameName s "FALSE" then some false
  else none

namespace Value

/-- The value as a number: empty is 0, a boolean 1 or 0, a text the numeral it holds. -/
def toNumber : Value → Except ErrorValue Number
  | empty => .ok 0
  | boolean b => .ok (if b then 1 else 0)
  | number n => .ok n
  | text s =>
    match Number.ofText? (Text.trim s) with
    | some n => .ok n
    | none => .error .value
  | error e => .error e

/-- The value as a truth value: numbers are true unless zero, empty is false. -/
def toLogical : Value → Except ErrorValue Bool
  | empty => .ok false
  | boolean b => .ok b
  | number n => .ok (!n.isZero)
  | text s =>
    match Text.toLogical? (Text.trim s) with
    | some b => .ok b
    | none => .error .value
  | error e => .error e

def toTextOrError : Value → Except ErrorValue String
  | error e => .error e
  | v => .ok v.toText

/-- The value of a view: what it shows, or the error it met. -/
def ofView {α : Type} (wrap : α → Value) : Except ErrorValue α → Value
  | .ok a => wrap a
  | .error e => error e

/-- The first error among values. -/
def firstError (values : List Value) : Option ErrorValue :=
  values.findSome? error?

end Value

end Spreadsheet
