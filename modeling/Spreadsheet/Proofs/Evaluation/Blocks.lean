import Mathlib
import Spreadsheet.Proofs.Evaluation.Contract
import Spreadsheet.Proofs.Formula.Relocation

/-! # Blocks, their cells and their values

Membership, enumeration, counting and look-up by offset tell the same of a block that two corners span
(`BlockValues.read_spanning`). On the grid, rows are counted in 32 bits, columns in 16 and cells in 64 without an
overflow. -/

namespace Spreadsheet

/-! ### Arithmetic in words -/

/-- The number in a word of so many bits; nothing if it has more. -/
def fits? (bits n : Nat) : Option Nat :=
  if n < 2 ^ bits then some n else none

/-- How many numbers there are from the first to the last, in so many bits; nothing if their difference is negative or
    the result has more. -/
def extentInWords? (bits first last : Nat) : Option Nat :=
  if first ≤ last then fits? bits (last - first + 1) else none

theorem extentInWords?_eq {bits first last : Nat} (hle : first ≤ last) (hroom : last - first + 1 < 2 ^ bits) :
    extentInWords? bits first last = some (last - first + 1) := by
  rw [extentInWords?, if_pos hle]
  exact if_pos hroom

namespace Block
variable {b : Block}

def rowsInWords? (b : Block) : Option Nat :=
  extentInWords? 32 b.top b.bottom

def columnsInWords? (b : Block) : Option Nat :=
  extentInWords? 16 b.left b.right

/-- The number of cells in 64 bits; nothing if it or the number of rows or columns does not fit. -/
def sizeInWords? (b : Block) : Option Nat := do
  let rows ← b.rowsInWords?
  let columns ← b.columnsInWords?
  fits? 64 (rows * columns)

/-- The first corner is the upper left one, the last corner is on the grid. -/
structure Proper (b : Block) : Prop where
  rows : b.top ≤ b.bottom
  columns : b.left ≤ b.right
  bottom : b.bottom < rowCount
  right : b.right < columnCount

theorem proper_spanning (sheet : Nat) {a b : Address} (ha : a.OnGrid) (hb : b.OnGrid) :
    (spanning sheet a.row a.column b.row b.column).Proper where
  rows := Nat.le_trans (Nat.min_le_left _ _) (Nat.le_max_left _ _)
  columns := Nat.le_trans (Nat.min_le_left _ _) (Nat.le_max_left _ _)
  bottom := Nat.max_lt.mpr ⟨ha.1, hb.1⟩
  right := Nat.max_lt.mpr ⟨ha.2, hb.2⟩

namespace Proper

theorem rows_le (h : b.Proper) : b.rows ≤ rowCount :=
  Nat.le_trans (Nat.succ_le_succ (Nat.sub_le _ _)) h.bottom

theorem columns_le (h : b.Proper) : b.columns ≤ columnCount :=
  Nat.le_trans (Nat.succ_le_succ (Nat.sub_le _ _)) h.right

theorem size_le (h : b.Proper) : b.size ≤ rowCount * columnCount :=
  Nat.mul_le_mul h.rows_le h.columns_le

theorem rowsInWords?_eq (h : b.Proper) : b.rowsInWords? = some b.rows :=
  extentInWords?_eq h.rows (Nat.lt_of_le_of_lt h.rows_le (by decide))

theorem columnsInWords?_eq (h : b.Proper) : b.columnsInWords? = some b.columns :=
  extentInWords?_eq h.columns (Nat.lt_of_le_of_lt h.columns_le (by decide))

theorem sizeInWords?_eq (h : b.Proper) : b.sizeInWords? = some b.size := by
  have hroom : b.size < 2 ^ 64 := Nat.lt_of_le_of_lt h.size_le (by decide)
  rw [sizeInWords?, h.rowsInWords?_eq, h.columnsInWords?_eq]
  exact if_pos hroom

end Proper

/-! ### The order of cells -/

/-- The cells of a block are listed in increasing order: row by row, and from left to right in each row. -/
theorem pairwise_cells (b : Block) :
    b.cells.Pairwise fun k l => k.row < l.row ∨ k.row = l.row ∧ k.column < l.column := by
  have hincreasing (first count : Nat) : (List.range' first count).Pairwise (· < ·) := List.pairwise_lt_range'
  rw [cells, List.pairwise_flatMap]
  constructor
  · intro row _
    exact List.pairwise_map.mpr ((hincreasing b.left b.columns).imp fun hlt => Or.inr ⟨rfl, hlt⟩)
  · refine (hincreasing b.top b.rows).imp fun hlt k hk l hl => ?_
    obtain ⟨_, -, rfl⟩ := List.mem_map.mp hk
    obtain ⟨_, -, rfl⟩ := List.mem_map.mp hl
    exact Or.inl hlt

example : (spanning 0 1 1 0 0).cells = [⟨0, 0, 0⟩, ⟨0, 0, 1⟩, ⟨0, 1, 0⟩, ⟨0, 1, 1⟩] := by decide

end Block

namespace BlockValues

/-- The value at an offset, with the place of it in 64 bits; nothing if an intermediate result has more. -/
def getInWords? (b : BlockValues) (row column : Nat) : Option (Option Value) := do
  let rows ← b.block.rowsInWords?
  let columns ← b.block.columnsInWords?
  if rows ≤ row ∨ columns ≤ column then
    return none
  let first ← fits? 64 (row * columns)
  let place ← fits? 64 (first + column)
  return b.values[place]?

/-- Offsets within a block are places in the list of its cells. -/
theorem place_lt {b : Block} {row column : Nat} (hrow : row < b.rows) (hcolumn : column < b.columns) :
    row * b.columns + column < b.size :=
  calc row * b.columns + column < row * b.columns + b.columns := Nat.add_lt_add_left hcolumn _
    _ = (row + 1) * b.columns := (Nat.succ_mul row b.columns).symm
    _ ≤ b.size := Nat.mul_le_mul_right b.columns hrow

theorem getInWords?_eq {b : BlockValues} (h : b.block.Proper) (row column : Nat) :
    b.getInWords? row column = some (b.get? row column) := by
  rw [getInWords?, h.rowsInWords?_eq, h.columnsInWords?_eq, get?]
  -- beyond the block nothing is computed, so an offset as large as it may be does no harm
  by_cases hin : row < b.block.rows ∧ column < b.block.columns
  · have hroom : row * b.block.columns + column < 2 ^ 64 :=
      Nat.lt_trans (place_lt hin.1 hin.2) (Nat.lt_of_le_of_lt h.size_le (by decide))
    have hfirst : row * b.block.columns < 2 ^ 64 := Nat.lt_of_le_of_lt (Nat.le_add_right _ _) hroom
    have hout : ¬(b.block.rows ≤ row ∨ b.block.columns ≤ column) := by omega
    rw [if_pos hin]
    simp only [Option.bind_eq_bind, Option.bind_some, if_neg hout, fits?, if_pos hfirst, if_pos hroom]
    rfl
  · have hout : b.block.rows ≤ row ∨ b.block.columns ≤ column := by omega
    rw [if_neg hin]
    simp only [Option.bind_eq_bind, Option.bind_some, if_pos hout]
    rfl

/-- The value at an offset is that of a cell, and there is none beyond the block. -/
theorem get?_read (block : Block) (source : Location → Value) (row column : Nat) :
    (read block source).get? row column =
      if row < block.rows ∧ column < block.columns then
        some (source ⟨block.sheet, block.top + row, block.left + column⟩)
      else none := by
  show (if row < block.rows ∧ column < block.columns then _ else none) = _
  split
  · rename_i hin
    exact (rowMajor_read block source).value row hin.1 column hin.2
  · rfl

/-- Two cells on the grid, given in whichever order, span the smallest block that holds both. Its cells are exactly the
    cells that are listed, each once, row by row; they are as many as the block has rows times columns; and the value at
    an offset is that of the cell so many rows and columns from the upper left one, with nothing beyond the block.
    Counting and look-up do not overflow. -/
theorem read_spanning (sheet : Nat) {a b : Address} (ha : a.OnGrid) (hb : b.OnGrid) :
    let block := Block.spanning sheet a.row a.column b.row b.column
    (block.IsHull ⟨sheet, a.row, a.column⟩ ⟨sheet, b.row, b.column⟩ ∧
      Block.spanning sheet b.row b.column a.row a.column = block) ∧
    (∀ l, block.Contains l ↔ l ∈ block.cells) ∧
    (block.cells.Pairwise fun k l => k.row < l.row ∨ k.row = l.row ∧ k.column < l.column) ∧
    (block.cells.length = block.size ∧ block.rowsInWords? = some block.rows ∧
      block.columnsInWords? = some block.columns ∧ block.sizeInWords? = some block.size) ∧
    ∀ (source : Location → Value) (row column : Nat),
      (read block source).getInWords? row column = some ((read block source).get? row column) ∧
      (read block source).get? row column =
        if row < block.rows ∧ column < block.columns then
          some (source ⟨sheet, block.top + row, block.left + column⟩)
        else none := by
  intro block
  have hproper : block.Proper := Block.proper_spanning sheet ha hb
  refine ⟨⟨Block.isHull_spanning .., ?_⟩, fun l => (Block.mem_cells_iff hproper.rows hproper.columns).symm,
    block.pairwise_cells, ⟨block.length_cells, hproper.rowsInWords?_eq, hproper.columnsInWords?_eq,
      hproper.sizeInWords?_eq⟩, fun source row column => ⟨getInWords?_eq hproper row column, ?_⟩⟩
  · simp only [block, Block.spanning, Nat.min_comm, Nat.max_comm]
  · exact get?_read block source row column

/-- All cells of a sheet, from the last one to the first. -/
theorem read_spanning_sheet :
    let last : Address := .relative 1048575 16383
    let first : Address := .relative 0 0
    let sheet : Block := ⟨3, 0, 0, 1048575, 16383⟩
    (last.OnGrid ∧ first.OnGrid) ∧ Block.spanning 3 last.row last.column first.row first.column = sheet ∧
      (∀ l, sheet.Contains l ↔ l ∈ sheet.cells) ∧ sheet.cells.length = 17179869184 ∧
      sheet.sizeInWords? = some 17179869184 ∧
      ∀ source, (read sheet source).getInWords? 1048575 16383 = some (some (source ⟨3, 1048575, 16383⟩)) ∧
        (read sheet source).getInWords? 0 16384 = some none := by
  intro last first sheet
  have hlast : last.OnGrid := by decide
  have hfirst : first.OnGrid := by decide
  have hsheet : Block.spanning 3 last.row last.column first.row first.column = sheet := by decide
  have hcount : sheet.size = 17179869184 := by decide
  have h := read_spanning 3 hlast hfirst
  simp only [hsheet] at h
  obtain ⟨-, hcells, -, ⟨hlength, -, -, hsize⟩, hvalue⟩ := h
  refine ⟨⟨hlast, hfirst⟩, hsheet, hcells, hlength.trans hcount, hsize.trans (congrArg some hcount), fun source => ?_⟩
  obtain ⟨hwords, hinside⟩ := hvalue source 1048575 16383
  obtain ⟨hwords', houtside⟩ := hvalue source 0 16384
  have hrow : sheet.top + 1048575 = 1048575 := Nat.zero_add 1048575
  have hcolumn : sheet.left + 16383 = 16383 := Nat.zero_add 16383
  rw [if_pos (by decide), hrow, hcolumn] at hinside
  rw [if_neg (by decide)] at houtside
  exact ⟨by rw [hwords, hinside], by rw [hwords', houtside]⟩

end BlockValues

end Spreadsheet
