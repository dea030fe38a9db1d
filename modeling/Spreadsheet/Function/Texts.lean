import Spreadsheet.Function.Arithmetic
import Spreadsheet.Text.Case

/-! # Text and type functions

Lengths and places count characters. The functions that ask for the type of a value look at errors as
at any other value. -/

namespace Spreadsheet.Builtin

/-- The texts of all values joined: `CONCAT`. -/
def concatenation (args : List Argument) (_ : CallSite) : Except Fault Value :=
  .ok (.text (String.join ((args.flatMap Argument.values).map Value.toText)))

/-- A function of one text. -/
def ofText (f : String → Value) (args : List Argument) (_ : CallSite) : Except Fault Value :=
  settle do
    let s ← Argument.textAt args 0
    return f s

/-- The number of characters: `LEN`. -/
def length : List Argument → CallSite → Except Fault Value :=
  ofText fun s => .number (Number.ofNat s.length)

/-- A text in upper case: `UPPER`. -/
def upperCase : List Argument → CallSite → Except Fault Value :=
  ofText fun s => .text (Text.upper s)

/-- A text in lower case: `LOWER`. -/
def lowerCase : List Argument → CallSite → Except Fault Value :=
  ofText fun s => .text (Text.lower s)

/-- A text without outer white space and with one space for each run of white space inside. -/
def tidied (s : String) : String :=
  String.ofList (List.intercalate [' '] (Text.words s.toList))

/-- A text with its white space tidied: `TRIM`. -/
def trimmed : List Argument → CallSite → Except Fault Value :=
  ofText fun s => .text (tidied s)

/-- How many characters the second argument asks for; 1 without it. -/
def characterCount (args : List Argument) : Except ErrorValue Nat :=
  if args.length < 2 then
    .ok 1
  else do
    let n ← Argument.numberAt args 1
    if n.truncate < 0 then .error .value else .ok n.truncate.toNat

/-- A part of the first argument of the length that the second asks for. -/
def part (f : Nat → List Char → List Char) (args : List Argument) (_ : CallSite) : Except Fault Value :=
  settle do
    let s ← Argument.textAt args 0
    let n ← characterCount args
    return .text (String.ofList (f n s.toList))

/-- The first characters of a text: `LEFT`. -/
def leftPart : List Argument → CallSite → Except Fault Value :=
  part fun n cs => cs.take n

/-- The last characters of a text: `RIGHT`. -/
def rightPart : List Argument → CallSite → Except Fault Value :=
  part fun n cs => cs.drop (cs.length - n)

/-- A question about the first argument. -/
def question (p : Value → Bool) (args : List Argument) (_ : CallSite) : Except Fault Value :=
  .ok (.boolean (p (Argument.valueAt args 0)))

end Spreadsheet.Builtin
