import Spreadsheet.Content
import Spreadsheet.Formula.Expr
import Spreadsheet.Formula.ParseError
import Spreadsheet.Grid.Location

/-! # Cells and their store

A cell holds what was entered and the value it has. A cell comes into being when it is first written
and is never taken away; clearing it leaves empty content. Cells that were never written are empty. -/

namespace Spreadsheet

/-- What was entered into a cell, and what became of it. -/
inductive Source where
  /-- Nothing, or a constant. -/
  | constant (content : Content)
  /-- A formula. `missing` are the sheets that it names and that did not exist when it was linked. -/
  | formula (text : String) (expr : Expr) (missing : List String)
  /-- A text that starts like a formula and is none. -/
  | invalid (text : String) (error : ParseError)
deriving DecidableEq

/-- A cell. -/
structure Cell where
  source : Source
  value : Value
deriving DecidableEq

namespace Cell

def blank : Cell :=
  ⟨.constant .empty, .empty⟩

def content (c : Cell) : Content :=
  match c.source with
  | .constant content => content
  | .formula text _ _ => .formula text
  | .invalid text _ => .formula text

def expr? (c : Cell) : Option Expr :=
  match c.source with
  | .formula _ expr _ => some expr
  | _ => none

/-- Why the text of the cell is no formula. -/
def parseError? (c : Cell) : Option ParseError :=
  match c.source with
  | .invalid _ error => some error
  | _ => none

/-- The sheets that the formula names and that did not exist. -/
def missingSheets (c : Cell) : List String :=
  match c.source with
  | .formula _ _ missing => missing
  | _ => []

/-- Whether the formula waits for a sheet of this name. -/
def awaits (c : Cell) (sheet : String) : Bool :=
  c.missingSheets.any (Text.SameName · sheet)

/-- Whether the formula calls a function of this name. -/
def calls (c : Cell) (name : String) : Bool :=
  c.expr?.any (·.calls name)

end Cell

/-- The cells that were ever written. -/
structure Store where
  cells : Std.ExtTreeMap Location Cell

namespace Store

def empty : Store :=
  ⟨∅⟩

/-- The cell at a location, if it was ever written. -/
def get? (s : Store) (l : Location) : Option Cell :=
  s.cells[l]?

def value (s : Store) (l : Location) : Value :=
  ((s.get? l).map Cell.value).getD .empty

def expr? (s : Store) (l : Location) : Option Expr :=
  (s.get? l).bind Cell.expr?

def size (s : Store) : Nat :=
  s.cells.size

def locations (s : Store) : List Location :=
  s.cells.keys

/-- The locations of the cells that satisfy `p`, in order. -/
def locationsWhere (s : Store) (p : Cell → Bool) : List Location :=
  (s.cells.toList.filter fun (_, c) => p c).map Prod.fst

def formulas (s : Store) : List Location :=
  s.locationsWhere fun c => c.expr?.isSome

def setConstant (s : Store) (l : Location) (content : Content) : Store :=
  ⟨s.cells.insert l ⟨.constant content, content.constantValue⟩⟩

/-- The store with a formula entered. The value stays until the formula is evaluated. -/
def setFormula (s : Store) (l : Location) (text : String) (expr : Expr) (missing : List String) : Store :=
  ⟨s.cells.insert l ⟨.formula text expr missing, s.value l⟩⟩

/-- The store with a text entered that is no formula. The value tells the error. -/
def setInvalid (s : Store) (l : Location) (text : String) (error : ParseError) : Store :=
  ⟨s.cells.insert l ⟨.invalid text error, .error error.errorValue⟩⟩

/-- The store with other sheets missing from a formula; cells without a formula stay what they are. -/
def setMissing (s : Store) (l : Location) (missing : List String) : Store :=
  ⟨s.cells.modify l fun c =>
    match c.source with
    | .formula text expr _ => { c with source := .formula text expr missing }
    | _ => c⟩

/-- The store with another value at a location. -/
def setValue (s : Store) (l : Location) (v : Value) : Store :=
  ⟨s.cells.insert l { (s.get? l).getD .blank with value := v }⟩

end Store

end Spreadsheet
