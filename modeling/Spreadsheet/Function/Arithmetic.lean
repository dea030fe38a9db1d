import Spreadsheet.Function.Callable

/-! # Arithmetic functions

Sums, counts and extremes over arguments and blocks, and functions of one or two numbers. In a block
only the cells that hold numbers count. -/

namespace Spreadsheet

namespace Argument

/-- The argument at a position as one value; past the last argument it is empty. -/
def valueAt (args : List Argument) (index : Nat) : Value :=
  match args[index]? with
  | some a => a.toValue
  | none => .empty

/-- The argument at a position as a number. -/
def numberAt (args : List Argument) (index : Nat) : Except ErrorValue Number :=
  (valueAt args index).toNumber

/-- The argument at a position as a text. -/
def textAt (args : List Argument) (index : Nat) : Except ErrorValue String :=
  (valueAt args index).toTextOrError

/-- The argument at a position as a truth value. -/
def logicalAt (args : List Argument) (index : Nat) : Except ErrorValue Bool :=
  (valueAt args index).toLogical

/-- The numbers that an argument contributes: itself as a number, or the numbers of a block. -/
def numbers : Argument → Except ErrorValue (List Number)
  | value v => v.toNumber.map ([·])
  | block b => .ok <| b.values.filterMap fun
    | .number n => some n
    | _ => none

/-- The numbers that all arguments contribute. -/
def allNumbers (args : List Argument) : Except ErrorValue (List Number) :=
  (args.mapM numbers).map List.flatten

end Argument

namespace Builtin

/-- The value of a computation that may meet an error. -/
def settle (v : Except ErrorValue Value) : Except Fault Value :=
  .ok (Value.ofView id v)

/-- The sum of numbers, from the first to the last. -/
def total (ns : List Number) : Number :=
  ns.foldl (· + ·) 0

/-- The sum of all numbers: `SUM`. -/
def sum (args : List Argument) (_ : CallSite) : Except Fault Value :=
  settle do
    let ns ← Argument.allNumbers args
    return Value.ofNumber (total ns)

/-- The product of all numbers, 0 if there are none: `PRODUCT`. -/
def product (args : List Argument) (_ : CallSite) : Except Fault Value :=
  settle do
    match ← Argument.allNumbers args with
    | [] => return .number 0
    | ns => return Value.ofNumber (ns.foldl (· * ·) 1)

/-- The sum of all numbers by how many there are: `AVERAGE`. -/
def average (args : List Argument) (_ : CallSite) : Except Fault Value :=
  settle do
    match ← Argument.allNumbers args with
    | [] => return .error .div0
    | ns => return Value.ofNumber (total ns / Number.ofNat ns.length)

/-- The number that `choose` keeps among several, from the first to the last; 0 if there are none. -/
def extreme (choose : Number → Number → Number) : List Number → Number
  | [] => 0
  | n :: ns => ns.foldl choose n

/-- The least number, 0 if there are none: `MIN`. -/
def minimum (args : List Argument) (_ : CallSite) : Except Fault Value :=
  settle do
    let ns ← Argument.allNumbers args
    return Value.ofNumber (extreme Number.min ns)

/-- The greatest number, 0 if there are none: `MAX`. -/
def maximum (args : List Argument) (_ : CallSite) : Except Fault Value :=
  settle do
    let ns ← Argument.allNumbers args
    return Value.ofNumber (extreme Number.max ns)

/-- The number of values of all arguments that satisfy `p`. -/
def countWhere (p : Value → Bool) (args : List Argument) : Except Fault Value :=
  .ok (.number (Number.ofNat ((args.flatMap Argument.values).countP p)))

/-- How many values are numbers: `COUNT`. -/
def count (args : List Argument) (_ : CallSite) : Except Fault Value :=
  countWhere Value.isNumber args

/-- How many values are not empty, errors included: `COUNTA`. -/
def countFilled (args : List Argument) (_ : CallSite) : Except Fault Value :=
  countWhere (fun v => !v.isEmpty) args

/-- The absolute value: `ABS`. -/
def absolute (args : List Argument) (_ : CallSite) : Except Fault Value :=
  settle do
    let n ← Argument.numberAt args 0
    return Value.ofNumber n.abs

/-- A number rounded to decimal places; negative places are left of the point. Numbers with no digits
    to lose, from `2 ^ 52` units of the last place on, stay what they are. -/
def roundTo (n : Number) (places : Int) : Value :=
  let unit := Number.powInt 10 places
  let scaled := n * unit
  if !scaled.isFinite || !scaled.abs.less (Number.ofNat Number.hiddenBit) then .number n
  else Value.ofNumber (scaled.round / unit)

/-- A number rounded to places, which are cut to a whole number between -308 and 308: `ROUND`. -/
def round (args : List Argument) (_ : CallSite) : Except Fault Value :=
  settle do
    let n ← Argument.numberAt args 0
    let places ← Argument.numberAt args 1
    return roundTo n (max (-308) (min 308 places.truncate))

/-- The largest whole number not above: `INT`. -/
def integer (args : List Argument) (_ : CallSite) : Except Fault Value :=
  settle do
    let n ← Argument.numberAt args 0
    return Value.ofNumber n.floor

/-- Whether a remainder lies between zero and the divisor. -/
def isRemainder (remainder divisor : Number) : Bool :=
  if Number.less 0 divisor then Number.atMost 0 remainder && remainder.less divisor
  else remainder.atMost 0 && divisor.less remainder

/-- The remainder of a division, with the sign of the divisor. If rounding leaves it out of range, the
    result is `#NUM`. -/
def remainder (n divisor : Number) : Value :=
  if divisor.isZero then
    .error .div0
  else
    let result := n - divisor * (n / divisor).floor
    if isRemainder result divisor then Value.ofNumber result else .error .num

/-- The remainder of a division: `MOD`. -/
def modulo (args : List Argument) (_ : CallSite) : Except Fault Value :=
  settle do
    let n ← Argument.numberAt args 0
    let divisor ← Argument.numberAt args 1
    return remainder n divisor

/-- The square root; a negative number has none: `SQRT`. -/
def squareRoot (args : List Argument) (_ : CallSite) : Except Fault Value :=
  settle do
    let n ← Argument.numberAt args 0
    return if n.less 0 then .error .num else Value.ofNumber n.sqrt

/-- A power; zero to a negative power divides by zero: `POWER`. -/
def power (args : List Argument) (_ : CallSite) : Except Fault Value :=
  settle do
    let base ← Argument.numberAt args 0
    let exponent ← Argument.numberAt args 1
    return if base.isZero && exponent.less 0 then .error .div0 else Value.ofNumber (base.pow exponent)

end Builtin

end Spreadsheet
