import Spreadsheet.Value.Coercion

/-! # Cell content

What stands in a cell: nothing, a constant, or the text of a formula. A leading `=` makes a formula;
everything else is a constant and is never read as a formula. -/

namespace Spreadsheet

/-- What was entered into a cell. -/
inductive Content where
  | empty
  | literal (v : Value)
  /-- The text of a formula with its leading `=`. -/
  | formula (text : String)
deriving DecidableEq, Inhabited

namespace Content

/-- The constant that a text stands for: a number or truth value around which white space does not
    count, else the text as typed. -/
def constantOf (s : String) : Content :=
  let trimmed := Text.trim s
  if trimmed = "" then
    .empty
  else
    match Number.ofText? trimmed, Text.toLogical? trimmed with
    | some n, _ => .literal (.number n)
    | none, some b => .literal (.boolean b)
    | none, none => .literal (.text s)

/-- The content that a typed text stands for. -/
def ofText (s : String) : Content :=
  match s.toList with
  | '=' :: _ => .formula s
  | _ => constantOf s

def isFormula : Content → Bool
  | .formula _ => true
  | _ => false

def ofValue : Value → Content
  | .empty => .empty
  | v => .literal v

/-- The value of a content that is a constant; a formula has none of its own. -/
def constantValue : Content → Value
  | .literal v => v
  | _ => .empty

end Content

end Spreadsheet
