import Spreadsheet.Script

/-! # The command line

`run [FILE]` carries out a script, from the file or from standard input; `parse FORMULA` explains a
formula. What follows `--` is never a flag. -/

namespace Spreadsheet

namespace CommandLine

/-- What the command line asks for. -/
inductive Command where
  /-- Carry out the script in a file, or on standard input. -/
  | run (file : Option String) (settings : Script.Settings)
  | explain (formula : String)

def usage : String :=
  "Usage: run [FILE] [--trace-changes] [--show-formulas] [--max-depth N]\n" ++
    "           [--max-range-cells N] [--no-catch-panics]\n" ++
    "       parse FORMULA\n"

/-- What a script is run with unless flags say otherwise. -/
def standardSettings : Script.Settings :=
  ⟨false, false, .standard⟩

def count? (s : String) : Option Nat :=
  let digits := s.toList
  if digits ≠ [] ∧ digits.all Char.isDigit then some (Nat.ofDigitChars 10 digits 0) else none

/-- Whether an argument asks for more log lines. There are none. -/
def isVerbosity (arg : String) : Bool :=
  match arg.toList with
  | '-' :: 'v' :: vs => vs.all (· = 'v')
  | _ => arg = "--verbose"

/-- The one operand of a command, in addition to one that was given before. -/
def addOperand (before : Option String) (arg : String) : Option String :=
  match before with
  | none => some arg
  | some _ => none

/-- The operand that stands after `--`, if there is one. -/
def lastOperand (before : Option String) : List String → Option (Option String)
  | [] => some before
  | [arg] => (addOperand before arg).map some
  | _ => none

/-- The arguments of `run`. -/
def runArguments (file : Option String) (s : Script.Settings) : List String → Option Command
  | [] => some (.run file s)
  | "--" :: args => (lastOperand file args).map fun file => .run file s
  | "--trace-changes" :: args => runArguments file { s with traceChanges := true } args
  | "--show-formulas" :: args => runArguments file { s with showFormulas := true } args
  | "--no-catch-panics" :: args =>
    runArguments file { s with limits := { s.limits with containPanics := false } } args
  | "--max-depth" :: n :: args =>
    match count? n with
    | some n => runArguments file { s with limits := { s.limits with maxDepth := n } } args
    | none => none
  | "--max-range-cells" :: n :: args =>
    match count? n with
    | some n => runArguments file { s with limits := { s.limits with maxBlockCells := n } } args
    | none => none
  | arg :: args =>
    if isVerbosity arg then runArguments file s args
    else if arg.startsWith "-" then none
    else
      match addOperand file arg with
      | some file => runArguments (some file) s args
      | none => none

/-- The arguments of `parse`. -/
def parseArguments (formula : Option String) : List String → Option Command
  | [] => formula.map .explain
  | "--" :: args =>
    match lastOperand formula args with
    | some formula => formula.map .explain
    | none => none
  | arg :: args =>
    if isVerbosity arg then parseArguments formula args
    else if arg.startsWith "-" then none
    else
      match addOperand formula arg with
      | some formula => parseArguments (some formula) args
      | none => none

/-- What a command line asks for; nothing if it is not understood. -/
def parse : List String → Option Command
  | [] => none
  | "run" :: args => runArguments none standardSettings args
  | "parse" :: args => parseArguments none args
  | arg :: args => if isVerbosity arg then parse args else none

end CommandLine

end Spreadsheet
