import Spreadsheet.CommandLine

/-! # The program

Reads the script, prints what a run or an explanation prints, and exits with 1 if it failed. A command
line that is not understood exits with 2. -/

namespace Spreadsheet.CommandLine

/-- Prints an output and answers with the exit code. -/
def print (o : Script.Output) : IO UInt32 := do
  (← IO.getStdout).putStr o.out
  (← IO.getStderr).putStr o.err
  return if o.failed then 1 else 0

/-- The text of a script, from a file or from standard input. -/
def readScript : Option String → IO String
  | some file => IO.FS.readFile file
  | none => do (← IO.getStdin).readToEnd

def execute (args : List String) : IO UInt32 := do
  match parse args with
  | none =>
    (← IO.getStderr).putStr usage
    return 2
  | some (.explain formula) => print (Script.explain formula)
  | some (.run file settings) => print (Script.run settings (← readScript file))

end Spreadsheet.CommandLine

def main (args : List String) : IO UInt32 :=
  Spreadsheet.CommandLine.execute args
