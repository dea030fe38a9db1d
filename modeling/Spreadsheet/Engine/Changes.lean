import Spreadsheet.Engine.Store

/-! # Changes and snapshots

What is told about values after a pass: the cells whose value is another than before, and all cells
that are not empty. Both are listed in the order of locations. Of a cell that something was entered into,
the value before is kept from then on; any other cell has it until a pass reaches the cell. -/

namespace Spreadsheet

/-- New values of the cells that changed. -/
structure Changes where
  values : Std.ExtTreeMap Location Value

namespace Changes

def none : Changes :=
  ⟨∅⟩

/-- The new value of a cell, if it changed. -/
def value? (c : Changes) (l : Location) : Option Value :=
  c.values[l]?

/-- The changed cells with their new values, in order. -/
def toList (c : Changes) : List (Location × Value) :=
  c.values.toList

def cells (c : Changes) : List Location :=
  c.values.keys

def size (c : Changes) : Nat :=
  c.values.size

def isEmpty (c : Changes) : Bool :=
  c.values.isEmpty

/-- Notes the value that a cell has now, if it had another one before. -/
def note (c : Changes) (l : Location) (old new : Value) : Changes :=
  if new.same old then c else ⟨c.values.insert l new⟩

end Changes

/-- The values that cells had before anything was entered into them. -/
structure Before where
  values : Std.ExtTreeMap Location Value

namespace Before

def none : Before :=
  ⟨∅⟩

/-- Keeps the value that a cell has in the store, unless one is kept already. -/
def keep (b : Before) (s : Store) (l : Location) : Before :=
  ⟨b.values.insertIfNew l (s.value l)⟩

/-- The value that a cell had before: the one that was kept, else the one that it still has. -/
def value (b : Before) (s : Store) (l : Location) : Value :=
  b.values.getD l (s.value l)

end Before

/-- The values of all cells that are not empty. -/
structure Snapshot where
  values : Std.ExtTreeMap Location Value

namespace Snapshot

def of (s : Store) : Snapshot :=
  ⟨s.cells.filterMap fun _ c => if c.value.isEmpty then none else some c.value⟩

def value (s : Snapshot) (l : Location) : Value :=
  s.values.getD l .empty

def toList (s : Snapshot) : List (Location × Value) :=
  s.values.toList

def size (s : Snapshot) : Nat :=
  s.values.size

end Snapshot

end Spreadsheet
