import Spreadsheet.Proofs.Formula.Resolution

/-! # References that move

The marker in front of a row or a column decides for it alone whether it moves. So a range means the smallest
block around the cells that its two corners mean (`Resolver.resolve_spanning`): it does not matter which corner
was written first, nor that corners change sides when one of them moves and the other stays. -/

namespace Spreadsheet

namespace Block
variable {b c : Block} {l m : Location}

/-- Of the blocks that hold two cells, the smallest. -/
structure IsHull (b : Block) (l m : Location) : Prop where
  first : b.Contains l
  last : b.Contains m
  least : ∀ c : Block, c.Contains l → c.Contains m → ∀ k, b.Contains k → c.Contains k

theorem isHull_spanning (sheet row₁ column₁ row₂ column₂ : Nat) :
    (spanning sheet row₁ column₁ row₂ column₂).IsHull ⟨sheet, row₁, column₁⟩ ⟨sheet, row₂, column₂⟩ where
  first := ⟨rfl, Nat.min_le_left _ _, Nat.le_max_left _ _, Nat.min_le_left _ _, Nat.le_max_left _ _⟩
  last := ⟨rfl, Nat.min_le_right _ _, Nat.le_max_right _ _, Nat.min_le_right _ _, Nat.le_max_right _ _⟩
  least c hl hm k hk := by
    simp only [spanning, Contains] at hl hm hk ⊢
    omega

/-- A block that holds a cell holds its own corners. -/
theorem Contains.corners (h : b.Contains l) :
    b.Contains ⟨b.sheet, b.top, b.left⟩ ∧ b.Contains ⟨b.sheet, b.bottom, b.right⟩ := by
  obtain ⟨-, htop, hbottom, hleft, hright⟩ := h
  have hrows := Nat.le_trans htop hbottom
  have hcolumns := Nat.le_trans hleft hright
  exact ⟨⟨rfl, Nat.le_refl _, hrows, Nat.le_refl _, hcolumns⟩, rfl, hrows, Nat.le_refl _, hcolumns, Nat.le_refl _⟩

theorem IsHull.eq (hb : b.IsHull l m) (hc : c.IsHull l m) : b = c := by
  obtain ⟨hfirst, hlast⟩ := hb.first.corners
  obtain ⟨hfirst', hlast'⟩ := hc.first.corners
  have h₁ := hb.least c hc.first hc.last _ hfirst
  have h₂ := hb.least c hc.first hc.last _ hlast
  have h₃ := hc.least b hb.first hb.last _ hfirst'
  have h₄ := hc.least b hb.first hb.last _ hlast'
  obtain ⟨sheet, top, left, bottom, right⟩ := b
  obtain ⟨sheet', top', left', bottom', right'⟩ := c
  simp only [Contains] at h₁ h₂ h₃ h₄
  simp only [mk.injEq]
  omega

end Block

namespace Resolver
variable {r t : Resolver} {name : Option String} {a b : Address}

/-! ### Rows and columns -/

/-- The row that an address means, on the grid or off it. -/
def row (r : Resolver) (a : Address) : Int :=
  a.row + if a.rowAbsolute then 0 else (r.anchor.row - r.origin.row : Int)

/-- The column that an address means, on the grid or off it. -/
def column (r : Resolver) (a : Address) : Int :=
  a.column + if a.columnAbsolute then 0 else (r.anchor.column - r.origin.column : Int)

/-- What an address means is on the grid. -/
def Lands (r : Resolver) (a : Address) : Prop :=
  0 ≤ r.row a ∧ r.row a < rowCount ∧ 0 ≤ r.column a ∧ r.column a < columnCount

theorem shift_of_lands (h : r.Lands a) :
    r.shift a = .ok { a with row := (r.row a).toNat, column := (r.column a).toNat } := by
  have hshift : a.shift? _ _ = some _ := if_pos h
  simp only [shift, hshift]
  rfl

theorem shift_of_not_lands (h : ¬r.Lands a) : r.shift a = .error .ref := by
  have hshift : a.shift? _ _ = none := if_neg h
  simp only [shift, hshift]

/-- The corners of a range have the rows of the two addresses, each with the marker that was in front of it. -/
theorem row_corners (r : Resolver) (a b : Address) :
    let c := AddressRange.spanning a b
    (r.row c.first = r.row a ∧ r.row c.last = r.row b) ∨ (r.row c.first = r.row b ∧ r.row c.last = r.row a) := by
  by_cases h : a.row ≤ b.row
  · exact .inl (by simp [AddressRange.spanning, row, h])
  · exact .inr (by simp [AddressRange.spanning, row, h])

theorem column_corners (r : Resolver) (a b : Address) :
    let c := AddressRange.spanning a b
    (r.column c.first = r.column a ∧ r.column c.last = r.column b) ∨
      (r.column c.first = r.column b ∧ r.column c.last = r.column a) := by
  by_cases h : a.column ≤ b.column
  · exact .inl (by simp [AddressRange.spanning, column, h])
  · exact .inr (by simp [AddressRange.spanning, column, h])

/-- The corners stay on the grid if and only if the two addresses do, though neither corner need be one of them. -/
theorem lands_corners : r.Lands (AddressRange.spanning a b).first ∧ r.Lands (AddressRange.spanning a b).last ↔
    r.Lands a ∧ r.Lands b := by
  unfold Lands
  rcases r.row_corners a b with ⟨h₁, h₂⟩ | ⟨h₁, h₂⟩ <;> rcases r.column_corners a b with ⟨h₃, h₄⟩ | ⟨h₃, h₄⟩ <;>
    rw [h₁, h₂, h₃, h₄] <;> omega

/-! ### Cells and blocks -/

/-- The cell that an address means on a sheet, if it is on the grid. -/
def cellOf (r : Resolver) (sheet : Nat) (a : Address) : Location :=
  ⟨sheet, (r.row a).toNat, (r.column a).toNat⟩

/-- The smallest block around the cells that two addresses mean on a sheet. -/
def blockOf (r : Resolver) (sheet : Nat) (a b : Address) : Block :=
  .spanning sheet (r.row a).toNat (r.column a).toNat (r.row b).toNat (r.column b).toNat

theorem blockOf_corners (r : Resolver) (sheet : Nat) (a b : Address) :
    r.blockOf sheet (AddressRange.spanning a b).first (AddressRange.spanning a b).last = r.blockOf sheet a b := by
  unfold blockOf Block.spanning
  rcases r.row_corners a b with ⟨h₁, h₂⟩ | ⟨h₁, h₂⟩ <;> rcases r.column_corners a b with ⟨h₃, h₄⟩ | ⟨h₃, h₄⟩ <;>
    simp only [h₁, h₂, h₃, h₄, Nat.min_comm, Nat.max_comm]

theorem resolve_cell_eq_ok_iff {p : Precedent} : r.resolve (.cell name a) = .ok p ↔
    ∃ sheet, r.sheet name = .ok sheet ∧ r.Lands a ∧ p = .cell (r.cellOf sheet a) := by
  rw [resolve]
  by_cases ha : r.Lands a
  · rw [shift_of_lands ha]
    cases r.sheet name <;> simp [ha, cellOf, Location.ofAddress, eq_comm]
  · rw [shift_of_not_lands ha]
    cases r.sheet name <;> simp [ha]

theorem resolve_range_eq_ok_iff {range : AddressRange} {p : Precedent} : r.resolve (.range name range) = .ok p ↔
    ∃ sheet, r.sheet name = .ok sheet ∧ (r.Lands range.first ∧ r.Lands range.last) ∧
      p = .block (r.blockOf sheet range.first range.last) := by
  rw [resolve]
  by_cases hfirst : r.Lands range.first
  · by_cases hlast : r.Lands range.last
    · rw [shift_of_lands hfirst, shift_of_lands hlast]
      cases r.sheet name <;> simp [hfirst, hlast, blockOf, eq_comm]
    · rw [shift_of_not_lands hlast]
      cases r.sheet name <;> cases r.shift range.first <;> simp [hlast]
  · rw [shift_of_not_lands hfirst]
    cases r.sheet name <;> simp [hfirst]

/-- A range that two addresses span means the smallest block around what they mean. -/
theorem resolve_range_spanning {p : Precedent} : r.resolve (.range name (.spanning a b)) = .ok p ↔
    ∃ sheet, r.sheet name = .ok sheet ∧ (r.Lands a ∧ r.Lands b) ∧ p = .block (r.blockOf sheet a b) := by
  simp only [resolve_range_eq_ok_iff, lands_corners, blockOf_corners]

theorem eq_ref_of_sheet {e : ErrorValue} (h : r.sheet name = .error e) : e = .ref := by
  cases name with
  | none => cases h
  | some name =>
    rw [sheet] at h
    split at h <;> cases h
    rfl

theorem eq_ref_of_shift {e : ErrorValue} (h : r.shift a = .error e) : e = .ref := by
  by_cases ha : r.Lands a
  · cases (shift_of_lands ha).symm.trans h
  · cases (shift_of_not_lands ha).symm.trans h
    rfl

theorem eq_ref_of_resolve {reference : Reference} {e : ErrorValue} (h : r.resolve reference = .error e) : e = .ref := by
  cases reference with
  | cell name a =>
    rw [resolve] at h
    split at h <;> cases h
    case h_2 hsheet => exact eq_ref_of_sheet hsheet
    case h_3 hshift => exact eq_ref_of_shift hshift
  | range name range =>
    rw [resolve] at h
    split at h <;> cases h
    case h_2 hsheet => exact eq_ref_of_sheet hsheet
    case h_3 hshift => exact eq_ref_of_shift hshift
    case h_4 hshift => exact eq_ref_of_shift hshift

/-- As all that is refused is refused alike, it is enough to know what references mean. -/
theorem resolve_ext {x y : Reference} (h : ∀ p, r.resolve x = .ok p ↔ t.resolve y = .ok p) :
    r.resolve x = t.resolve y := by
  cases hx : r.resolve x with
  | ok p => rw [(h p).mp hx]
  | error e =>
    cases hy : t.resolve y with
    | ok p => cases hx.symm.trans ((h p).mpr hy)
    | error e' => rw [eq_ref_of_resolve hx, eq_ref_of_resolve hy]

/-- The resolvers move references to the same sheet and equally far, from and to whatever cells. -/
structure MovesAlike (r t : Resolver) : Prop where
  sheets : t.sheets = r.sheets
  sheet : t.anchor.sheet = r.anchor.sheet
  rows : (t.anchor.row - t.origin.row : Int) = r.anchor.row - r.origin.row
  columns : (t.anchor.column - t.origin.column : Int) = r.anchor.column - r.origin.column

theorem MovesAlike.resolve (h : r.MovesAlike t) (reference : Reference) : t.resolve reference = r.resolve reference := by
  have hsheet (name : Option String) : t.sheet name = r.sheet name := by
    unfold Resolver.sheet
    rw [h.sheets, h.sheet]
  have hshift (a : Address) : t.shift a = r.shift a := by
    unfold shift
    rw [h.rows, h.columns]
  unfold Resolver.resolve
  simp only [hsheet, hshift]

/-- An address means the cell that it moves to, if its sheet exists and the cell is on the grid. A range means something
    exactly if both of its corners do, and then the smallest block around the two cells; otherwise it is refused as they
    are. The order of the corners does not matter, and of the move nothing matters but the sheet it leads to and how far
    it is. -/
theorem resolve_spanning (r : Resolver) (name : Option String) (a b : Address) :
    (∀ p, r.resolve (.cell name a) = .ok p ↔
      ∃ sheet, r.sheet name = .ok sheet ∧ r.Lands a ∧ p = .cell (r.cellOf sheet a)) ∧
    ((∃ p, r.resolve (.range name (.spanning a b)) = .ok p) ↔
      (∃ p, r.resolve (.cell name a) = .ok p) ∧ ∃ p, r.resolve (.cell name b) = .ok p) ∧
    (∀ p q, r.resolve (.cell name a) = .ok p → r.resolve (.cell name b) = .ok q →
      ∃ l m c, p = .cell l ∧ q = .cell m ∧ r.resolve (.range name (.spanning a b)) = .ok (.block c) ∧
        ∀ d : Block, d.IsHull l m ↔ d = c) ∧
    ((¬∃ p, r.resolve (.range name (.spanning a b)) = .ok p) →
      r.resolve (.range name (.spanning a b)) = .error .ref) ∧
    r.resolve (.range name (.spanning b a)) = r.resolve (.range name (.spanning a b)) ∧
    ∀ t, r.MovesAlike t →
      t.resolve (.range name (.spanning a b)) = r.resolve (.range name (.spanning a b)) := by
  refine ⟨fun p => resolve_cell_eq_ok_iff, ?_, fun p q hp hq => ?_, fun hnone => ?_, resolve_ext fun p => ?_,
    fun t ht => ht.resolve _⟩
  · simp only [resolve_range_spanning, resolve_cell_eq_ok_iff]
    constructor
    · rintro ⟨-, sheet, hsheet, ⟨ha, hb⟩, -⟩
      exact ⟨⟨_, sheet, hsheet, ha, rfl⟩, _, sheet, hsheet, hb, rfl⟩
    · rintro ⟨⟨-, sheet, hsheet, ha, -⟩, -, -, -, hb, -⟩
      exact ⟨_, sheet, hsheet, ⟨ha, hb⟩, rfl⟩
  · obtain ⟨sheet, hsheet, ha, rfl⟩ := resolve_cell_eq_ok_iff.mp hp
    obtain ⟨sheet', hsheet', hb, rfl⟩ := resolve_cell_eq_ok_iff.mp hq
    obtain rfl : sheet = sheet' := Except.ok.inj (hsheet.symm.trans hsheet')
    have hhull : (r.blockOf sheet a b).IsHull (r.cellOf sheet a) (r.cellOf sheet b) := Block.isHull_spanning ..
    refine ⟨_, _, _, rfl, rfl, resolve_range_spanning.mpr ⟨sheet, hsheet, ⟨ha, hb⟩, rfl⟩, fun d => ?_⟩
    exact ⟨fun hd => hd.eq hhull, fun hd => hd ▸ hhull⟩
  · cases h : r.resolve (.range name (.spanning a b)) with
    | ok p => exact absurd ⟨p, h⟩ hnone
    | error e => rw [eq_ref_of_resolve h]
  · have hcomm (sheet : Nat) : r.blockOf sheet b a = r.blockOf sheet a b := by
      simp only [blockOf, Block.spanning, Nat.min_comm, Nat.max_comm]
    simp only [resolve_range_spanning, hcomm, and_comm (a := r.Lands b)]

/-- The corners `C$4` and `$A5`, moved up three rows and one column to the left: they change sides. -/
theorem resolve_spanning_crossing :
    let sheets : Sheets := ⟨["Sheet1", "Data"]⟩
    let a : Address := ⟨3, 2, true, false⟩
    let b : Address := ⟨4, 0, false, true⟩
    let r : Resolver := ⟨sheets, ⟨0, 9, 5⟩, ⟨0, 6, 4⟩⟩
    let t : Resolver := ⟨sheets, ⟨1, 3, 1⟩, ⟨0, 0, 0⟩⟩
    r.resolve (.cell (some "dATA") a) = .ok (.cell ⟨1, 3, 1⟩) ∧ r.resolve (.cell (some "dATA") b) = .ok (.cell ⟨1, 1, 0⟩) ∧
      r.MovesAlike t ∧ t.resolve (.range (some "dATA") (.spanning b a)) = .ok (.block ⟨1, 1, 0, 3, 1⟩) ∧
      (Block.mk 1 1 0 3 1).IsHull ⟨1, 3, 1⟩ ⟨1, 1, 0⟩ := by
  intro sheets a b r t
  have ha : r.resolve (.cell (some "dATA") a) = .ok (.cell ⟨1, 3, 1⟩) := by decide
  have hb : r.resolve (.cell (some "dATA") b) = .ok (.cell ⟨1, 1, 0⟩) := by decide
  have hmoves : r.MovesAlike t := ⟨rfl, rfl, rfl, rfl⟩
  obtain ⟨-, -, hhull, -, -, hmove⟩ := resolve_spanning r (some "dATA") a b
  obtain ⟨l, m, c, hl, hm, hc, hleast⟩ := hhull _ _ ha hb
  cases hl
  cases hm
  have hblock : r.resolve (.range (some "dATA") (.spanning a b)) = .ok (.block ⟨1, 1, 0, 3, 1⟩) := by decide
  obtain rfl : c = ⟨1, 1, 0, 3, 1⟩ := Precedent.block.inj (Except.ok.inj (hc.symm.trans hblock))
  refine ⟨ha, hb, hmoves, ?_, (hleast _).mpr rfl⟩
  obtain ⟨-, -, -, -, hswap, -⟩ := resolve_spanning t (some "dATA") a b
  exact hswap.trans ((hmove t hmoves).trans hc)

end Resolver

end Spreadsheet
