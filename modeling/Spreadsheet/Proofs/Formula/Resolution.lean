import Mathlib.Data.List.Basic
import Spreadsheet.Formula.Resolution

/-! # References and sheets

What a resolver makes of a formula depends on the sheets only through the names in its references. The
sheets that a formula misses are the names without a sheet (`exists_mem_missingSheets`), so a new sheet
means nothing to a formula that does not miss one of its name. -/

namespace Spreadsheet

/-! ### Blocks -/

/-- A place in pieces of one length is a place in one of them. -/
theorem getElem?_flatMap {α β : Type} {f : α → List β} {width : Nat} {xs : List α} (hf : ∀ a ∈ xs, (f a).length = width)
    {j : Nat} (hj : j < width) : ∀ {i : Nat}, (xs.flatMap f)[i * width + j]? = xs[i]?.bind fun a => (f a)[j]? := by
  induction xs with
  | nil => simp
  | cons a xs ih =>
    have ha := hf a List.mem_cons_self
    intro i
    rw [List.flatMap_cons]
    cases i with
    | zero => rw [Nat.zero_mul, Nat.zero_add, List.getElem?_append_left (by omega), List.getElem?_cons_zero, Option.bind_some]
    | succ i =>
      have hplace : (i + 1) * width + j - (f a).length = i * width + j := by
        rw [ha, Nat.succ_mul]
        omega
      have hle : (f a).length ≤ (i + 1) * width + j := by
        rw [ha, Nat.succ_mul]
        omega
      rw [List.getElem?_append_right hle, hplace, ih fun b hb => hf b (List.mem_cons_of_mem a hb), List.getElem?_cons_succ]

theorem Block.length_cells (b : Block) : b.cells.length = b.size := by
  simp [cells, size, List.length_flatMap]

/-- The cells of a block are listed row by row. -/
theorem Block.getElem?_cells {b : Block} {row column : Nat} (hrow : row < b.rows) (hcolumn : column < b.columns) :
    b.cells[row * b.columns + column]? = some ⟨b.sheet, b.top + row, b.left + column⟩ := by
  rw [cells, getElem?_flatMap (by simp) hcolumn]
  simp [hrow, hcolumn]

theorem Block.mem_cells_iff {b : Block} (hrows : b.top ≤ b.bottom) (hcolumns : b.left ≤ b.right) {l : Location} :
    l ∈ b.cells ↔ b.Contains l := by
  simp only [cells, List.mem_flatMap, List.mem_map, List.mem_range'_1, Contains, rows, columns]
  constructor
  · rintro ⟨row, hrow, column, hcolumn, rfl⟩
    dsimp only
    omega
  · rintro ⟨hsheet, htop, hbottom, hleft, hright⟩
    refine ⟨l.row, by omega, l.column, by omega, ?_⟩
    rw [← hsheet]

theorem Block.mem_cells_spanning {sheet row₁ column₁ row₂ column₂ : Nat} {l : Location} :
    l ∈ (spanning sheet row₁ column₁ row₂ column₂).cells ↔ (spanning sheet row₁ column₁ row₂ column₂).Contains l :=
  mem_cells_iff (by simp only [spanning]; omega) (by simp only [spanning]; omega)

/-! ### Sheets -/

namespace Sheets
variable {s t : Sheets} {name : String}

theorem add_eq_ok (h : s.add name = .ok t) : s.indexOf? name = none ∧ t = ⟨s.names ++ [name]⟩ := by
  unfold add at h
  split at h
  · cases h
  · split at h
    · cases h
    · rename_i hnone
      cases h
      exact ⟨by simpa using hnone, rfl⟩

theorem size_add (h : s.add name = .ok t) : t.size = s.size + 1 := by
  obtain ⟨-, rfl⟩ := add_eq_ok h
  simp [size]

theorem indexOf?_of_sameName {n m : String} (h : Text.SameName n m) : s.indexOf? n = s.indexOf? m := by
  have hiff : ∀ known, Text.SameName known n ↔ Text.SameName known m := fun known =>
    ⟨fun k => k.trans h, fun k => k.trans h.symm⟩
  simp only [indexOf?, hiff]

/-- A new sheet leaves what other names mean as it is. -/
theorem indexOf?_add (h : s.add name = .ok t) {n : String} (hn : (s.indexOf? n).isSome ∨ ¬Text.SameName n name) :
    t.indexOf? n = s.indexOf? n := by
  have hne : ¬Text.SameName name n := by
    intro hsame
    rcases hn with hsome | hne
    · rw [← indexOf?_of_sameName hsame, (add_eq_ok h).1] at hsome
      cases hsome
    · exact hne hsame.symm
  obtain ⟨-, rfl⟩ := add_eq_ok h
  simp [indexOf?, List.findIdx?_append, hne]

end Sheets

/-! ### Resolving -/

namespace Resolver
variable {r t : Resolver}

/-- The resolvers differ at most in sheets, and the given reference names none that is another one. -/
structure Alike (r t : Resolver) (reference : Reference) : Prop where
  origin : r.origin = t.origin
  anchor : r.anchor = t.anchor
  sheets : ∀ name, reference.sheet? = some name → r.sheets.indexOf? name = t.sheets.indexOf? name

theorem Alike.trans {u : Resolver} {reference : Reference} (h : r.Alike t reference) (h' : t.Alike u reference) :
    r.Alike u reference where
  origin := h.origin.trans h'.origin
  anchor := h.anchor.trans h'.anchor
  sheets name hn := (h.sheets name hn).trans (h'.sheets name hn)

theorem Alike.resolve {reference : Reference} (h : r.Alike t reference) : r.resolve reference = t.resolve reference := by
  have hsheet : r.sheet reference.sheet? = t.sheet reference.sheet? := by
    cases hs : reference.sheet? with
    | none => simp only [sheet, h.anchor]
    | some name => simp only [sheet, h.sheets name hs]
  have hshift : ∀ a, r.shift a = t.shift a := fun a => by simp only [shift, h.anchor, h.origin]
  cases reference <;> simp only [Reference.sheet?] at hsheet <;> simp only [Resolver.resolve, hsheet, hshift]

theorem mem_precedents {e : Expr} {p : Precedent} :
    p ∈ r.precedents e ↔ ∃ reference ∈ e.references, r.resolve reference = .ok p := by
  rw [precedents, List.mem_filterMap]
  refine exists_congr fun reference => and_congr_right fun _ => ?_
  cases r.resolve reference <;> simp [Except.toOption]

theorem precedents_congr {e : Expr} (h : ∀ reference ∈ e.references, r.Alike t reference) :
    r.precedents e = t.precedents e :=
  List.filterMap_congr fun reference hmem => by rw [(h reference hmem).resolve]

theorem missingSheets_congr {e : Expr} (h : ∀ reference ∈ e.references, r.Alike t reference) :
    r.missingSheets e = t.missingSheets e := by
  unfold missingSheets
  refine congrArg distinctNames (List.filterMap_congr fun reference hmem => ?_)
  cases hs : reference.sheet? with
  | none => rfl
  | some name => simp only [Option.filter, (h reference hmem).sheets name hs]

theorem exists_mem_distinctNames {names : List String} {name : String} :
    (∃ m ∈ distinctNames names, Text.SameName m name) ↔ ∃ m ∈ names, Text.SameName m name := by
  suffices h : ∀ kept : List String,
      (∃ m ∈ names.foldl (fun kept n => if kept.any (Text.SameName · n) then kept else kept ++ [n]) kept,
        Text.SameName m name) ↔ (∃ m ∈ kept, Text.SameName m name) ∨ ∃ m ∈ names, Text.SameName m name by
    rw [distinctNames, h []]
    simp
  induction names with
  | nil => simp
  | cons n names ih =>
    intro kept
    rw [List.foldl_cons, ih]
    simp only [List.mem_cons, or_and_right, exists_or, exists_eq_left]
    rw [← or_assoc]
    refine or_congr_left ?_
    split
    · rename_i hany
      obtain ⟨m, hm, hsame⟩ := List.any_eq_true.mp hany
      constructor
      · exact Or.inl
      · rintro (hkept | hname)
        · exact hkept
        · exact ⟨m, hm, (of_decide_eq_true hsame).trans hname⟩
    · simp [or_and_right, exists_or]

/-- The missing sheets are the names in references that no sheet has, up to the case of letters. -/
theorem exists_mem_missingSheets {e : Expr} {name : String} :
    (∃ m ∈ r.missingSheets e, Text.SameName m name) ↔ ∃ reference ∈ e.references, ∃ n,
      reference.sheet? = some n ∧ r.sheets.indexOf? n = none ∧ Text.SameName n name := by
  rw [missingSheets, exists_mem_distinctNames]
  simp only [List.mem_filterMap, Option.filter_eq_some_iff, Option.isNone_iff_eq_none]
  constructor
  · rintro ⟨n, ⟨reference, hmem, hn, hnone⟩, hsame⟩
    exact ⟨reference, hmem, n, hn, hnone, hsame⟩
  · rintro ⟨reference, hmem, n, hn, hnone, hsame⟩
    exact ⟨n, ⟨reference, hmem, hn, hnone⟩, hsame⟩

/-- A formula that does not miss a sheet of the new name does not see the new sheet. -/
theorem alike_of_add {s s' : Sheets} {name : String} {cell : Location} {e : Expr} (h : s.add name = .ok s')
    (hmiss : ¬∃ m ∈ (atCell s cell).missingSheets e, Text.SameName m name) :
    ∀ reference ∈ e.references, (atCell s' cell).Alike (atCell s cell) reference := by
  intro reference hmem
  refine ⟨rfl, rfl, fun n hn => Sheets.indexOf?_add h ?_⟩
  cases hindex : s.indexOf? n with
  | some i => exact Or.inl rfl
  | none => exact Or.inr fun hsame => hmiss (exists_mem_missingSheets.mpr ⟨reference, hmem, n, hn, hindex, hsame⟩)

theorem mem_cells_of_resolve {reference : Reference} {b : Block} (h : r.resolve reference = .ok (.block b))
    {l : Location} : l ∈ b.cells ↔ b.Contains l := by
  cases reference with
  | cell name a =>
    simp only [resolve] at h
    split at h <;> cases h
  | range name range =>
    simp only [resolve] at h
    split at h <;> cases h
    exact Block.mem_cells_spanning

end Resolver

end Spreadsheet
