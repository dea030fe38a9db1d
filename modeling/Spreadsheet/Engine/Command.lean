import Spreadsheet.Engine.Basic

/-! # Commands

All that can be asked of an engine and may change it, as data. What an engine went through is a list of
commands; those that were refused are among them and count for nothing. -/

namespace Spreadsheet

/-- What can be asked of an engine and may change it. -/
inductive Command where
  /-- One input to a cell. -/
  | input (r : Request)
  /-- Several inputs, with one pass after all of them. -/
  | batch (requests : List Request)
  | addSheet (name : String)
  | register (f : Callable)
  | recalculate (cells : List Location)
  | recalculateAll
  | listen

namespace Engine

/-- Carries out a command: the engine after it, and what it changed. -/
def perform (e : Engine) : Command → Except Refusal (Engine × Changes)
  | .input r => e.input r
  | .batch requests => e.batch requests
  | .addSheet name => e.addSheet name
  | .register f => .ok (e.register f)
  | .recalculate cells => .ok (e.recalculate cells)
  | .recalculateAll => .ok e.recalculateAll
  | .listen => .ok (e.listen, .none)

/-- The engine after a command. A command that is refused leaves it as it is. -/
def after (e : Engine) (c : Command) : Engine :=
  match e.perform c with
  | .ok (e', _) => e'
  | .error _ => e

def afterAll (e : Engine) (commands : List Command) : Engine :=
  commands.foldl after e

end Engine

end Spreadsheet
