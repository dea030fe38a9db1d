import Spreadsheet.Formula.Expr
import Spreadsheet.Grid.Location
import Spreadsheet.Sheets

/-! # Which cells references mean

A reference is resolved for the cell that a formula stands in, the anchor. If the formula was written
for another cell, the origin, then the axes without a marker move by the distance from the origin to
the anchor. The precedents of a formula are what its references resolve to, and nothing else. -/

namespace Spreadsheet

/-- What resolving a reference needs to know. -/
structure Resolver where
  sheets : Sheets
  /-- The cell that the formula was written for. -/
  origin : Location
  /-- The cell that the formula stands in. -/
  anchor : Location

namespace Resolver

/-- The resolver for a formula that stands where it was written. -/
def atCell (sheets : Sheets) (cell : Location) : Resolver :=
  ⟨sheets, cell, cell⟩

/-- The sheet of a reference: the anchor's own if it names none. -/
def sheet (r : Resolver) : Option String → Except ErrorValue Nat
  | none => .ok r.anchor.sheet
  | some name =>
    match r.sheets.indexOf? name with
    | some sheet => .ok sheet
    | none => .error .ref

/-- The address that is meant after the move from origin to anchor. -/
def shift (r : Resolver) (a : Address) : Except ErrorValue Address :=
  let rows : Int := if a.rowAbsolute then 0 else r.anchor.row - r.origin.row
  let columns : Int := if a.columnAbsolute then 0 else r.anchor.column - r.origin.column
  match a.shift? rows columns with
  | some a => .ok a
  | none => .error .ref

/-- The cell or block that a reference means; `#REF` for an unknown sheet or off the grid. -/
def resolve (r : Resolver) : Reference → Except ErrorValue Precedent
  | .cell name a =>
    match r.sheet name, r.shift a with
    | .ok sheet, .ok a => .ok (.cell (Location.ofAddress sheet a))
    | .error e, _ => .error e
    | .ok _, .error e => .error e
  | .range name range =>
    match r.sheet name, r.shift range.first, r.shift range.last with
    | .ok sheet, .ok a, .ok b => .ok (.block (Block.spanning sheet a.row a.column b.row b.column))
    | .error e, _, _ => .error e
    | .ok _, .error e, _ => .error e
    | .ok _, .ok _, .error e => .error e

/-- What an expression reads, in the order of its references. -/
def precedents (r : Resolver) (e : Expr) : List Precedent :=
  e.references.filterMap fun reference => (r.resolve reference).toOption

/-- Names without those that repeat an earlier one in other case. -/
def distinctNames (names : List String) : List String :=
  names.foldl (fun kept name => if kept.any (Text.SameName · name) then kept else kept ++ [name]) []

/-- The sheets that an expression names and that do not exist, each once as first written. -/
def missingSheets (r : Resolver) (e : Expr) : List String :=
  distinctNames <| e.references.filterMap fun reference =>
    reference.sheet?.filter fun name => (r.sheets.indexOf? name).isNone

end Resolver

end Spreadsheet
