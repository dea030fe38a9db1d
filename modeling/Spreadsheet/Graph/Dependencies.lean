import Std.Data.ExtTreeSet
import Spreadsheet.Grid.Location

/-! # Dependencies between cells

Which cells and blocks each formula reads, and the same the other way round. Blocks are kept as
rectangles, so that a reader of a large block costs no more than a reader of a cell, and by sheet, so
that to look for the readers of a cell costs no more than its own sheet. Both directions are changed
together, and what nobody reads any more is forgotten. -/

namespace Spreadsheet

/-- The cells that read each of several things. -/
structure Readers (κ : Type) [Ord κ] where
  readersOf : Std.ExtTreeMap κ (Std.ExtTreeSet Location)

namespace Readers

variable {κ : Type} [Ord κ] [Std.TransOrd κ]

def empty : Readers κ :=
  ⟨∅⟩

def get (r : Readers κ) (k : κ) : Std.ExtTreeSet Location :=
  r.readersOf.getD k ∅

def isEmpty (r : Readers κ) : Bool :=
  r.readersOf.isEmpty

def add (reader : Location) (r : Readers κ) (k : κ) : Readers κ :=
  ⟨r.readersOf.alter k fun readers => some ((readers.getD ∅).insert reader)⟩

/-- A cell stops reading a thing. What nobody reads any more is forgotten. -/
def remove (reader : Location) (r : Readers κ) (k : κ) : Readers κ :=
  ⟨r.readersOf.alter k fun readers =>
    let rest := (readers.getD ∅).erase reader
    if rest.isEmpty then none else some rest⟩

end Readers

/-- What each cell reads, and who reads each cell and block. -/
structure Dependencies where
  /-- The precedents of the cells that have any, in order and without repetition. -/
  precedentsOf : Std.ExtTreeMap Location (List Precedent)
  cellReaders : Readers Location
  /-- Who reads each block, by the sheet of the block. -/
  blockReaders : Std.ExtTreeMap Nat (Readers Block)

namespace Dependencies

def empty : Dependencies :=
  ⟨∅, .empty, ∅⟩

def precedents (d : Dependencies) (cell : Location) : List Precedent :=
  d.precedentsOf.getD cell []

def readers (d : Dependencies) : List Location :=
  d.precedentsOf.keys

def size (d : Dependencies) : Nat :=
  d.precedentsOf.size

/-- Who reads the blocks of a sheet. -/
def blocksOn (d : Dependencies) (sheet : Nat) : Readers Block :=
  d.blockReaders.getD sheet .empty

/-- The cells that read a cell, itself or in a block, in order. -/
def dependents (d : Dependencies) (cell : Location) : List Location :=
  let blocks := (d.blocksOn cell.sheet).readersOf.toList.filter fun (b, _) => b.Contains cell
  (blocks.foldl (fun found (_, readers) => found ∪ readers) (d.cellReaders.get cell)).toList

/-- A cell starts to read a precedent; its own list of precedents is left alone. -/
def addReader (cell : Location) (d : Dependencies) : Precedent → Dependencies
  | .cell l => { d with cellReaders := d.cellReaders.add cell l }
  | .block b =>
    { d with
      blockReaders := d.blockReaders.alter b.sheet fun blocks => some ((blocks.getD .empty).add cell b) }

/-- A cell stops reading a precedent; its own list of precedents is left alone. -/
def removeReader (cell : Location) (d : Dependencies) : Precedent → Dependencies
  | .cell l => { d with cellReaders := d.cellReaders.remove cell l }
  | .block b =>
    { d with
      blockReaders := d.blockReaders.alter b.sheet fun blocks =>
        let rest := (blocks.getD .empty).remove cell b
        if rest.isEmpty then none else some rest }

def clear (d : Dependencies) (cell : Location) : Dependencies :=
  let d' := (d.precedents cell).foldl (removeReader cell) d
  { d' with precedentsOf := d.precedentsOf.erase cell }

/-- Precedents in order and without repetition. -/
def distinct (precedents : List Precedent) : List Precedent :=
  (Std.ExtTreeSet.ofList precedents).toList

/-- A cell reads the given precedents and nothing else. -/
def set (d : Dependencies) (cell : Location) (precedents : List Precedent) : Dependencies :=
  let cleared := d.clear cell
  match distinct precedents with
  | [] => cleared
  | ps =>
    let d' := ps.foldl (addReader cell) cleared
    { d' with precedentsOf := cleared.precedentsOf.insert cell ps }

end Dependencies

end Spreadsheet
