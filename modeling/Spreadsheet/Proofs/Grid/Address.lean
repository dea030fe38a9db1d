import Spreadsheet.Engine.Addressing
import Spreadsheet.Proofs.Formula.Resolution

/-! # Places on the grid

An address that is read lies on the grid. So the location that an address means on a workbook is a place
of it (`Sheets.check_locate`), and a place stays one when sheets are added. -/

namespace Except
variable {ε α β : Type} {x : Except ε α} {b : β}

theorem map_eq_ok {f : α → β} : x.map f = .ok b ↔ ∃ a, x = .ok a ∧ f a = b := by
  cases x <;> simp [Except.map]

theorem bind_eq_ok {f : α → Except ε β} : x >>= f = .ok b ↔ ∃ a, x = .ok a ∧ f a = .ok b := by
  cases x <;> simp [Bind.bind, Except.bind]

theorem exists_of_mem_mapM {f : α → Except ε β} {xs : List α} : ∀ {ys : List β}, xs.mapM f = .ok ys → b ∈ ys →
    ∃ a ∈ xs, f a = .ok b := by
  induction xs with
  | nil =>
    intro ys h hb
    cases h
    cases hb
  | cons a xs ih =>
    intro ys h hb
    rw [List.mapM_cons] at h
    obtain ⟨first, hfirst, h⟩ := bind_eq_ok.mp h
    obtain ⟨rest, hrest, h⟩ := bind_eq_ok.mp h
    cases h
    rcases List.mem_cons.mp hb with rfl | hb
    · exact ⟨a, List.mem_cons_self, hfirst⟩
    · obtain ⟨a', ha', hf⟩ := ih hrest hb
      exact ⟨a', List.mem_cons_of_mem a ha', hf⟩

theorem mapM_mono {f g : α → Except ε β} (hfg : ∀ a b, f a = .ok b → g a = .ok b) {xs : List α} :
    ∀ {ys : List β}, xs.mapM f = .ok ys → xs.mapM g = .ok ys := by
  induction xs with
  | nil => exact fun h => h
  | cons a xs ih =>
    intro ys h
    rw [List.mapM_cons] at h ⊢
    obtain ⟨first, hfirst, h⟩ := bind_eq_ok.mp h
    obtain ⟨rest, hrest, h⟩ := bind_eq_ok.mp h
    exact bind_eq_ok.mpr ⟨first, hfg a first hfirst, bind_eq_ok.mpr ⟨rest, ih hrest, h⟩⟩

end Except

namespace Spreadsheet

namespace Address

theorem readColumn_le {cs : List Char} : ∀ {before column : Nat}, before ≤ columnCount →
    readColumn before cs = .ok column → column ≤ columnCount := by
  induction cs with
  | nil =>
    intro before column hb h
    cases h
    exact hb
  | cons c cs ih =>
    intro before column _ h
    unfold readColumn at h
    dsimp only at h
    split at h
    · cases h
    · exact ih (by omega) h

theorem readRow_lt {text digits : List Char} {row : Nat} (h : readRow text digits = .ok row) : row < rowCount := by
  unfold readRow at h
  repeat' split at h
  all_goals cases h
  assumption

/-- A text never means an address off the grid. -/
theorem onGrid_parseChars {text : List Char} {a : Address} (h : parseChars text = .ok a) : a.OnGrid := by
  unfold parseChars at h
  dsimp only at h
  split at h
  · cases h
  · obtain ⟨column, hcolumn, h⟩ := Except.bind_eq_ok.mp h
    obtain ⟨row, hrow, h⟩ := Except.bind_eq_ok.mp h
    cases h
    have hle := readColumn_le (Nat.zero_le _) hcolumn
    have hpos : 0 < columnCount := by decide
    exact ⟨readRow_lt hrow, by dsimp only; omega⟩

theorem onGrid_parse {s : String} {a : Address} (h : parse s = .ok a) : a.OnGrid :=
  onGrid_parseChars h

end Address

namespace Sheets
variable {s t : Sheets} {l : Location}

theorem check_eq_ok {m : Location} (h : s.check l = .ok m) : m = l ∧ l.sheet < s.size ∧ l.OnGrid := by
  unfold check at h
  repeat' split at h
  all_goals cases h
  exact ⟨rfl, by omega, by omega, by omega⟩

theorem check_of_lt (hs : l.sheet < s.size) (hl : l.OnGrid) : s.check l = .ok l := by
  have hrow := hl.1
  have hcolumn := hl.2
  rw [check, if_neg (by omega), if_neg (by omega), if_neg (by omega)]

theorem check_add {name : String} (h : s.add name = .ok t) (hl : s.check l = .ok l) : t.check l = .ok l := by
  obtain ⟨-, hs, hgrid⟩ := check_eq_ok hl
  exact check_of_lt (by rw [size_add h]; omega) hgrid

theorem lt_of_require {name : String} {sheet : Nat} (h : s.require name = .ok sheet) : sheet < s.size := by
  unfold require at h
  split at h
  · rename_i hindex
    cases h
    obtain ⟨hlt, -⟩ := List.findIdx?_eq_some_iff_getElem.mp hindex
    exact hlt
  · cases h

/-- What an address means is a place, as long as there is a first sheet for an address that names none. -/
theorem check_locate {address : String} (hs : 0 < s.size) (h : s.locate address = .ok l) : s.check l = .ok l := by
  unfold locate at h
  dsimp only at h
  split at h
  · obtain ⟨a, ha, rfl⟩ := Except.map_eq_ok.mp h
    exact check_of_lt hs (Address.onGrid_parse ha)
  · obtain ⟨sheet, hsheet, h⟩ := Except.bind_eq_ok.mp h
    obtain ⟨a, ha, h⟩ := Except.bind_eq_ok.mp h
    cases h
    exact check_of_lt (lt_of_require hsheet) (Address.onGrid_parse ha)

theorem require_add {name n : String} {sheet : Nat} (h : s.add name = .ok t) (hn : s.require n = .ok sheet) :
    t.require n = .ok sheet := by
  unfold require at hn
  split at hn
  · rename_i hindex
    cases hn
    rw [require, indexOf?_add h (Or.inl (by rw [hindex]; rfl)), hindex]
  · cases hn

/-- An address goes on to mean the same when a sheet is added. -/
theorem locate_add {name address : String} (h : s.add name = .ok t) (hl : s.locate address = .ok l) :
    t.locate address = .ok l := by
  unfold locate at hl ⊢
  dsimp only at hl ⊢
  split at hl
  · exact hl
  · obtain ⟨sheet, hsheet, hl⟩ := Except.bind_eq_ok.mp hl
    exact Except.bind_eq_ok.mpr ⟨sheet, require_add h hsheet, hl⟩

end Sheets

end Spreadsheet
