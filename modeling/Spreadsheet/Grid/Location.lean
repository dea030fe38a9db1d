import Std.Data.ExtTreeMap
import Spreadsheet.Grid.Address

/-! # Locations, blocks and precedents

Where a cell is: a sheet, a row and a column, ordered in this way. A block is a rectangle of cells of
one sheet, corners included. A precedent is what a formula reads: a cell or a block. The orders are
those in which cells and precedents are listed. -/

namespace Spreadsheet

/-- The place of a cell; all three count from 0. -/
structure Location where
  sheet : Nat
  row : Nat
  column : Nat
deriving DecidableEq, Inhabited, Hashable

namespace Location

/-- Locations are ordered by sheet, then row, then column. -/
instance : Ord Location where
  compare := compareLex (compareOn sheet) (compareLex (compareOn row) (compareOn column))

theorem compare_def : (compare : Location → Location → Ordering) =
    compareLex (compareOn sheet) (compareLex (compareOn row) (compareOn column)) := rfl

instance : Std.TransOrd Location :=
  inferInstanceAs
    (Std.TransCmp (compareLex (compareOn sheet) (compareLex (compareOn row) (compareOn column))))

instance : Std.LawfulEqOrd Location where
  eq_of_compare {a b} h := by
    simp only [compare_def, compareLex, compareOn, Ordering.then_eq_eq] at h
    obtain ⟨hs, hr, hc⟩ := h
    cases a; cases b
    simp_all

/-- The location that an address names on a sheet. -/
def ofAddress (sheet : Nat) (a : Address) : Location :=
  ⟨sheet, a.row, a.column⟩

def address (l : Location) : Address :=
  Address.relative l.row l.column

def OnGrid (l : Location) : Prop :=
  l.row < rowCount ∧ l.column < columnCount

instance (l : Location) : Decidable l.OnGrid :=
  inferInstanceAs (Decidable (_ ∧ _))

/-- The text of a location, its sheet by number. -/
def toText (l : Location) : String :=
  s!"[{l.sheet}]" ++ l.address.toText

end Location

/-- A rectangle of cells on one sheet; corners belong to it. -/
structure Block where
  sheet : Nat
  top : Nat
  left : Nat
  bottom : Nat
  right : Nat
deriving DecidableEq, Inhabited, Hashable

namespace Block

/-- Blocks are ordered by sheet, then first corner, then last corner. -/
instance : Ord Block where
  compare := compareLex (compareOn sheet) (compareLex (compareOn top) (compareLex (compareOn left)
    (compareLex (compareOn bottom) (compareOn right))))

theorem compare_def : (compare : Block → Block → Ordering) =
    compareLex (compareOn sheet) (compareLex (compareOn top) (compareLex (compareOn left)
      (compareLex (compareOn bottom) (compareOn right)))) := rfl

instance : Std.TransOrd Block :=
  inferInstanceAs
    (Std.TransCmp (compareLex (compareOn sheet) (compareLex (compareOn top) (compareLex (compareOn left)
      (compareLex (compareOn bottom) (compareOn right))))))

instance : Std.LawfulEqOrd Block where
  eq_of_compare {a b} h := by
    simp only [compare_def, compareLex, compareOn, Ordering.then_eq_eq] at h
    obtain ⟨hs, ht, hl, hb, hr⟩ := h
    cases a; cases b
    simp_all

/-- The smallest block of a sheet that holds two cells given by row and column. -/
def spanning (sheet row₁ column₁ row₂ column₂ : Nat) : Block :=
  ⟨sheet, min row₁ row₂, min column₁ column₂, max row₁ row₂, max column₁ column₂⟩

def Contains (b : Block) (l : Location) : Prop :=
  l.sheet = b.sheet ∧ b.top ≤ l.row ∧ l.row ≤ b.bottom ∧ b.left ≤ l.column ∧ l.column ≤ b.right

instance (b : Block) (l : Location) : Decidable (b.Contains l) :=
  inferInstanceAs (Decidable (_ ∧ _))

def rows (b : Block) : Nat :=
  b.bottom - b.top + 1

def columns (b : Block) : Nat :=
  b.right - b.left + 1

def size (b : Block) : Nat :=
  b.rows * b.columns

/-- The cells of a block, row by row. -/
def cells (b : Block) : List Location :=
  (List.range' b.top b.rows).flatMap fun row =>
    (List.range' b.left b.columns).map fun column => ⟨b.sheet, row, column⟩

/-- The range of addresses from the first to the last corner. -/
def range (b : Block) : AddressRange :=
  ⟨Address.relative b.top b.left, Address.relative b.bottom b.right⟩

/-- The text of a block, its sheet by number. -/
def toText (b : Block) : String :=
  s!"[{b.sheet}]" ++ b.range.toText

end Block

/-- What a formula reads: one cell or all cells of a block. -/
inductive Precedent where
  | cell (l : Location)
  | block (b : Block)
deriving DecidableEq, Inhabited, Hashable

namespace Precedent

/-- Whether changing the cell can change what the precedent reads. -/
def Covers : Precedent → Location → Prop
  | cell l, k => l = k
  | block b, k => b.Contains k

instance (p : Precedent) (k : Location) : Decidable (p.Covers k) :=
  match p with
  | cell l => inferInstanceAs (Decidable (l = k))
  | block b => inferInstanceAs (Decidable (b.Contains k))

/-- Cells are listed before blocks, each kind in its own order. -/
def order : Precedent → Precedent → Ordering
  | cell a, cell b => compare a b
  | cell _, block _ => .lt
  | block _, cell _ => .gt
  | block a, block b => compare a b

instance : Ord Precedent := ⟨order⟩

instance : Std.TransOrd Precedent where
  eq_swap {a b} := by
    change order a b = (order b a).swap
    cases a <;> cases b
    case cell.cell a b => exact (Std.OrientedCmp.eq_swap : compare a b = (compare b a).swap)
    case block.block a b => exact (Std.OrientedCmp.eq_swap : compare a b = (compare b a).swap)
    all_goals rfl
  isLE_trans {a b c} hab hbc := by
    change (order a b).isLE at hab
    change (order b c).isLE at hbc
    change (order a c).isLE
    cases a <;> cases b <;> cases c
    case cell.cell.cell a b c =>
      change (compare a c).isLE
      exact Std.TransCmp.isLE_trans (show (compare a b).isLE from hab) hbc
    case block.block.block a b c =>
      change (compare a c).isLE
      exact Std.TransCmp.isLE_trans (show (compare a b).isLE from hab) hbc
    all_goals simp_all [order]

instance : Std.LawfulEqOrd Precedent where
  eq_of_compare {a b} h := by
    change order a b = .eq at h
    cases a <;> cases b <;> simp_all [order]

def toText : Precedent → String
  | cell l => l.toText
  | block b => b.toText

end Precedent

end Spreadsheet
