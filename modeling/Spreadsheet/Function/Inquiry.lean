import Spreadsheet.Function.Builtin

/-! # The built-in functions, argument by argument

What each built-in function does with a call of so many arguments, with every look at an argument as a step of
its own (`Builtin.inquiry`). -/

namespace Spreadsheet

/-- The argument at a place of a call; behind the last one an empty value stands in for it. -/
def Argument.given (args : List Argument) (place : Nat) : Argument :=
  args[place]?.getD (value .empty)

/-- A function at work: it has its value, or it asks for the argument at a place and goes on with that. -/
inductive Inquiry where
  | answer (v : Value)
  | ask (place : Nat) (next : Argument → Inquiry)

namespace Inquiry

/-- The value that is found where the places have these arguments. -/
def result (argument : Nat → Argument) : Inquiry → Value
  | answer v => v
  | ask place next => (next (argument place)).result argument

/-- The places that are asked for on the way to it. -/
def places (argument : Nat → Argument) : Inquiry → List Nat
  | answer _ => []
  | ask place next => place :: (next (argument place)).places argument

/-- The value that is found where arguments are evaluated as they are asked for. -/
def run (c : LazyCall) : Inquiry → Except Fault Value
  | answer v => .ok v
  | ask place next => do (next (← c.argument place)).run c

/-! ### Ways of asking -/

/-- Asks for one value, and goes on with what it is to `read`; an error is the value found. -/
def view {α : Type} (read : Value → Except ErrorValue α) (place : Nat) (next : α → Inquiry) : Inquiry :=
  ask place fun a =>
    match read a.toValue with
    | .error e => answer (.error e)
    | .ok x => next x

/-- Asks for the `remaining` arguments from a place on, and changes a state by each until one of them settles the
    value. If none does, the state is made the value in the end. -/
def survey {σ : Type} (step : σ → Argument → Except Value σ) (finish : σ → Value) (s : σ) (place : Nat) :
    (remaining : Nat) → Inquiry
  | 0 => answer (finish s)
  | remaining + 1 =>
    ask place fun a =>
      match step s a with
      | .error v => answer v
      | .ok s => survey step finish s (place + 1) remaining

/-- What was found before, and what an argument adds to it; an error of the argument settles the value. -/
def gained {α : Type} (contribution : Argument → Except ErrorValue (List α)) (found : List α) (a : Argument) :
    Except Value (List α) :=
  match contribution a with
  | .error e => .error (.error e)
  | .ok xs => .ok (found ++ xs)

/-- Asks for all of `count` arguments, and makes a value of what they contribute. -/
def collect {α : Type} (contribution : Argument → Except ErrorValue (List α)) (finish : List α → Value) (count : Nat) :
    Inquiry :=
  survey (gained contribution) finish [] 0 count

end Inquiry

namespace Builtin
open Inquiry

/-! ### Functions of one kind -/

def askValues : (List Value → Value) → Nat → Inquiry :=
  collect fun a => .ok a.values

def askNumbers : (List Number → Value) → Nat → Inquiry :=
  collect Argument.numbers

def askNumber (f : Number → Value) : Inquiry :=
  view Value.toNumber 0 fun n => answer (f n)

def askPair (f : Number → Number → Value) : Inquiry :=
  view Value.toNumber 0 fun m => view Value.toNumber 1 fun n => answer (f m n)

def askText (f : String → Value) : Inquiry :=
  view Value.toTextOrError 0 fun s => answer (f s)

def askQuestion (p : Value → Bool) : Inquiry :=
  ask 0 fun a => answer (.boolean (p a.toValue))

/-- `LEFT` and `RIGHT`, which ask for a number of characters only where there is one to ask for. -/
def askPart (f : Nat → List Char → List Char) (count : Nat) : Inquiry :=
  view Value.toTextOrError 0 fun s =>
    if count < 2 then answer (.text (String.ofList (f 1 s.toList)))
    else
      view Value.toNumber 1 fun n =>
        answer (if n.truncate < 0 then .error .value else .text (String.ofList (f n.truncate.toNat s.toList)))

/-- `AND` and `OR`, which ask no more once a value is `decisive`. -/
def askVotes (decisive : Bool) : Nat → Inquiry :=
  survey (fun seen a => poll decisive a.isBlock seen a.values)
    (fun seen => if seen then .boolean !decisive else .error .value) false 0

/-- `IF`, which asks for its third argument only if there is one. -/
def askConditional (count : Nat) : Inquiry :=
  ask 0 fun a =>
    match a.toValue with
    | .error e => answer (.error e)
    | .boolean true => ask 1 fun b => answer b.toValue
    | _ => if 2 < count then ask 2 fun b => answer b.toValue else answer (.boolean false)

/-- `IFERROR`. -/
def askFallback : Inquiry :=
  ask 0 fun a =>
    match a.toValue with
    | .error _ => ask 1 fun b => answer b.toValue
    | v => answer v

/-! ### All of them -/

/-- What a function does with a call, by its name and the number of arguments. `ROUND` asks for two of them even
    where it is given one. Under a name that no built-in function has, this is nothing. -/
def inquiry : String → Nat → Inquiry
  | "SUM" => askNumbers fun ns => Value.ofNumber (total ns)
  | "PRODUCT" => askNumbers fun ns => if ns = [] then .number 0 else Value.ofNumber (ns.foldl (· * ·) 1)
  | "AVERAGE" => askNumbers fun ns =>
    if ns = [] then .error .div0 else Value.ofNumber (total ns / Number.ofNat ns.length)
  | "MIN" => askNumbers fun ns => Value.ofNumber (extreme Number.min ns)
  | "MAX" => askNumbers fun ns => Value.ofNumber (extreme Number.max ns)
  | "COUNT" => askValues fun vs => .number (Number.ofNat (vs.countP Value.isNumber))
  | "COUNTA" => askValues fun vs => .number (Number.ofNat (vs.countP fun v => !v.isEmpty))
  | "ABS" => fun _ => askNumber fun n => Value.ofNumber n.abs
  | "ROUND" => fun _ => askPair fun n places => roundTo n (max (-308) (min 308 places.truncate))
  | "INT" => fun _ => askNumber fun n => Value.ofNumber n.floor
  | "MOD" => fun _ => askPair remainder
  | "SQRT" => fun _ => askNumber fun n => if n.less 0 then .error .num else Value.ofNumber n.sqrt
  | "POWER" => fun _ => askPair fun base exponent =>
    if base.isZero && exponent.less 0 then .error .div0 else Value.ofNumber (base.pow exponent)
  | "IF" => askConditional
  | "AND" => askVotes false
  | "OR" => askVotes true
  | "IFERROR" => fun _ => askFallback
  | "NOT" => fun _ => view Value.toLogical 0 fun b => answer (.boolean !b)
  | "TRUE" => fun _ => answer (.boolean true)
  | "FALSE" => fun _ => answer (.boolean false)
  | "ISERROR" => fun _ => askQuestion Value.isError
  | "ISNUMBER" => fun _ => askQuestion Value.isNumber
  | "ISTEXT" => fun _ => askQuestion Value.isText
  | "ISBLANK" => fun _ => askQuestion Value.isEmpty
  | "ISLOGICAL" => fun _ => askQuestion Value.isBoolean
  | "CONCAT" => askValues fun vs => .text (String.join (vs.map Value.toText))
  | "LEN" => fun _ => askText fun s => .number (Number.ofNat s.length)
  | "UPPER" => fun _ => askText fun s => .text (Text.upper s)
  | "LOWER" => fun _ => askText fun s => .text (Text.lower s)
  | "TRIM" => fun _ => askText fun s => .text (tidied s)
  | "LEFT" => askPart fun n cs => cs.take n
  | "RIGHT" => askPart fun n cs => cs.drop (cs.length - n)
  | _ => fun _ => answer .empty

end Builtin

end Spreadsheet
