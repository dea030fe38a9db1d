import Mathlib
import Spreadsheet.Proofs.Grid.Address
import Spreadsheet.Proofs.Grid.Text

/-! # What texts are addresses

A text is read as an address exactly if it spells one that is on the grid, with white space around it or
without (`Address.parse_spelled`): letters stand for a column in bijective base 26, digits for a row.
However long they are, reading them takes no number of more than 32 bits. -/

namespace Spreadsheet

namespace Text

theorem isSpace_of_mem_takeWhile {cs : List Char} {c : Char} (h : c ∈ cs.takeWhile isSpace) : isSpace c = true :=
  List.mem_takeWhile_imp h

/-- What trimming takes away is white space at the ends. -/
theorem exists_eq_trimChars (cs : List Char) : ∃ before after, cs = before ++ (trimChars cs ++ after) ∧
    (∀ c ∈ before, isSpace c = true) ∧ ∀ c ∈ after, isSpace c = true := by
  refine ⟨cs.takeWhile isSpace, ((trimStart cs).reverse.takeWhile isSpace).reverse, ?_, fun c hc => ?_, fun c hc => ?_⟩
  · rw [trimChars, ← List.reverse_append, List.takeWhile_append_dropWhile, List.reverse_reverse, trimStart,
      List.takeWhile_append_dropWhile]
  · exact isSpace_of_mem_takeWhile hc
  · exact isSpace_of_mem_takeWhile (List.mem_reverse.mp hc)

/-- Characters without white space at their ends are what is left of them with white space around. -/
theorem trimChars_append {before cs after : List Char} (hbefore : ∀ c ∈ before, isSpace c = true)
    (hafter : ∀ c ∈ after, isSpace c = true) (hne : cs ≠ []) (hfirst : Ends isSpace cs) (hlast : Ends isSpace cs.reverse) :
    trimChars (before ++ (cs ++ after)) = cs := by
  have hends : Ends isSpace (cs ++ after) := by
    intro c hc
    rw [List.head?_append_of_ne_nil _ hne] at hc
    exact hfirst c hc
  have hreverse : ∀ c ∈ after.reverse, isSpace c = true := fun c hc => hafter c (List.mem_reverse.mp hc)
  rw [trimChars, trimStart, dropWhile_append hbefore hends, List.reverse_append, dropWhile_append hreverse hlast,
    List.reverse_reverse]

end Text

namespace Address
open Text

/-! ### Columns and rows -/

/-- What letters stand for in bijective base 26: `A` is 1, `Z` is 26 and `AA` is 27. -/
def lettersNumber (letters : List Char) : Nat :=
  Nat.ofDigits 26 (letters.reverse.map letterValue)

theorem lettersNumber_cons (c : Char) (cs : List Char) :
    lettersNumber (c :: cs) = letterValue c * 26 ^ cs.length + lettersNumber cs := by
  simp only [lettersNumber, List.reverse_cons, List.map_append, List.map_cons, List.map_nil, Nat.ofDigits_append,
    Nat.ofDigits_singleton, List.length_map, List.length_reverse]
  ring

/-- Letters are read as the column that they stand for, and refused as soon as they lead past the last one. -/
theorem readColumn_eq_ok_iff {cs : List Char} : ∀ {before column : Nat}, before ≤ columnCount →
    (readColumn before cs = .ok column ↔ before * 26 ^ cs.length + lettersNumber cs = column ∧ column ≤ columnCount) := by
  induction cs with
  | nil =>
    intro before column hbefore
    simp only [readColumn, Except.ok.injEq, List.length_nil, pow_zero, mul_one, lettersNumber, List.reverse_nil,
      List.map_nil, Nat.ofDigits_nil, Nat.add_zero]
    exact ⟨fun h => ⟨h, h ▸ hbefore⟩, And.left⟩
  | cons c cs ih =>
    intro before column _
    have hnumber : before * 26 ^ (c :: cs).length + lettersNumber (c :: cs) =
        (before * 26 + letterValue c) * 26 ^ cs.length + lettersNumber cs := by
      rw [lettersNumber_cons, List.length_cons]
      ring
    rw [readColumn, hnumber]
    split
    · have hle : before * 26 + letterValue c ≤ (before * 26 + letterValue c) * 26 ^ cs.length :=
        Nat.le_mul_of_pos_right _ (Nat.pow_pos (by decide))
      simp only [reduceCtorEq, false_iff]
      omega
    · exact ih (by omega)

theorem letterValue_bounds {c : Char} (h : c.isAlpha = true) : 1 ≤ letterValue c ∧ letterValue c ≤ 26 := by
  have hval : 65 ≤ c.toUpper.val ∧ c.toUpper.val ≤ 90 := by
    grind [Char.toUpper, Char.isAlpha, Char.isUpper, Char.isLower]
  rw [UInt32.le_iff_toNat_le, UInt32.le_iff_toNat_le] at hval
  change 65 ≤ c.toUpper.toNat ∧ c.toUpper.toNat ≤ 90 at hval
  unfold letterValue
  omega

theorem lettersNumber_pos {letters : List Char} (hne : letters ≠ []) (h : ∀ c ∈ letters, c.isAlpha = true) :
    0 < lettersNumber letters := by
  obtain ⟨c, cs, rfl⟩ := List.exists_cons_of_ne_nil hne
  rw [lettersNumber_cons]
  have hvalue := (letterValue_bounds (h c List.mem_cons_self)).1
  have hpow : 0 < 26 ^ cs.length := Nat.pow_pos (by decide)
  exact Nat.add_pos_left (Nat.mul_pos hvalue hpow) _

theorem readRow_eq_ok_iff {text digits : List Char} {row : Nat} : readRow text digits = .ok row ↔
    (digits ≠ [] ∧ ∀ c ∈ digits, c.isDigit = true) ∧ Nat.ofDigitChars 10 digits 0 = row + 1 ∧ row < rowCount := by
  unfold readRow
  split
  · rename_i h
    simp only [reduceCtorEq, false_iff]
    rintro ⟨⟨hne, hall⟩, -⟩
    rcases h with h | h
    · exact hne h
    · exact h (List.all_eq_true.mpr hall)
  · rename_i h
    rw [not_or, Decidable.not_not, List.all_eq_true] at h
    split
    · rename_i hzero
      simp only [reduceCtorEq, hzero, false_iff]
      rintro ⟨-, hrow, -⟩
      omega
    · rename_i n hn
      rw [hn]
      split
      · rename_i hlt
        simp only [Except.ok.injEq]
        exact ⟨fun hrow => hrow ▸ ⟨h, rfl, hlt⟩, fun ⟨_, hrow, _⟩ => by omega⟩
      · simp only [reduceCtorEq, false_iff]
        rintro ⟨-, hrow, hlt⟩
        omega

/-! ### Spellings -/

theorem eq_marker_append (cs : List Char) : cs = marker (scanMarker cs).1 ++ (scanMarker cs).2 := by
  unfold scanMarker
  split <;> rfl

/-- What is read as an address is spelled as one. -/
theorem exists_eq_chars_of_parseChars {text : List Char} {a : Address} (h : parseChars text = .ok a) :
    ∃ p : Spelled, text = p.chars := by
  unfold parseChars at h
  dsimp only at h
  split at h
  · cases h
  · rename_i hletters
    obtain ⟨column, -, h⟩ := Except.bind_eq_ok.mp h
    obtain ⟨row, hrow, -⟩ := Except.bind_eq_ok.mp h
    obtain ⟨⟨hdigits, hdigit⟩, -⟩ := readRow_eq_ok_iff.mp hrow
    have halpha : ∀ c ∈ (scanMarker text).2.takeWhile Char.isAlpha, c.isAlpha = true := fun c hc =>
      List.mem_takeWhile_imp hc
    refine ⟨⟨(scanMarker text).1, _, (scanMarker ((scanMarker text).2.dropWhile Char.isAlpha)).1, _, hletters, halpha,
      hdigits, hdigit⟩, ?_⟩
    rw [Spelled.chars, ← eq_marker_append, List.takeWhile_append_dropWhile, ← eq_marker_append]

namespace Spelled
variable (p : Spelled)

/-- The column that the letters stand for, counted from 1. -/
def column : Nat :=
  lettersNumber p.letters

/-- The row that the digits stand for, counted from 1. -/
def row : Nat :=
  Nat.ofDigitChars 10 p.digits 0

/-- The row and the column are on the grid. -/
def InBounds : Prop :=
  (1 ≤ p.column ∧ p.column ≤ columnCount) ∧ 1 ≤ p.row ∧ p.row ≤ rowCount

/-- The address that is spelled. -/
def address : Address :=
  ⟨p.row - 1, p.column - 1, p.rowAbsolute, p.columnAbsolute⟩

theorem parseChars_eq_ok_iff {a : Address} : parseChars p.chars = .ok a ↔ p.InBounds ∧ a = p.address := by
  have hpos := lettersNumber_pos p.letters_ne_nil p.isAlpha
  have hcolumn {column : Nat} : readColumn 0 p.letters = .ok column ↔ p.column = column ∧ column ≤ columnCount := by
    rw [readColumn_eq_ok_iff (Nat.zero_le _), Nat.zero_mul, Nat.zero_add, Spelled.column]
  have hrow {row : Nat} : readRow p.chars p.digits = .ok row ↔ p.row = row + 1 ∧ row < rowCount :=
    readRow_eq_ok_iff.trans (and_iff_right ⟨p.digits_ne_nil, p.isDigit⟩)
  rw [p.parseChars_chars, Except.bind_eq_ok]
  constructor
  · rintro ⟨column, h, hrest⟩
    obtain ⟨row, hr, hrest⟩ := Except.bind_eq_ok.mp hrest
    obtain ⟨rfl, hle⟩ := hcolumn.mp h
    obtain ⟨hr, hlt⟩ := hrow.mp hr
    cases hrest
    refine ⟨⟨⟨hpos, hle⟩, by omega, by omega⟩, ?_⟩
    rw [address, hr, Nat.add_sub_cancel]
  · rintro ⟨⟨⟨-, hle⟩, hone, hrows⟩, rfl⟩
    exact ⟨p.column, hcolumn.mpr ⟨rfl, hle⟩, Except.bind_eq_ok.mpr ⟨p.row - 1, hrow.mpr ⟨by omega, by omega⟩, rfl⟩⟩

theorem isSpace_of_mem_chars {c : Char} (h : c ∈ p.chars) : isSpace c = false :=
  p.forall_mem_chars (P := fun c => isSpace c = false) rfl
    (fun c hc => isSpace_of_isAlphanum (by simp [Char.isAlphanum, hc]))
    (fun c hc => isSpace_of_isAlphanum (by simp [Char.isAlphanum, hc])) c h

theorem chars_ne_nil : p.chars ≠ [] := by
  simp [chars, p.letters_ne_nil]

/-- White space around an address does not count. -/
theorem trimChars_append {before after : List Char} (hbefore : ∀ c ∈ before, isSpace c = true)
    (hafter : ∀ c ∈ after, isSpace c = true) : trimChars (before ++ (p.chars ++ after)) = p.chars :=
  Text.trimChars_append hbefore hafter p.chars_ne_nil
    (fun _ hc => p.isSpace_of_mem_chars (List.mem_of_mem_head? hc))
    (fun _ hc => p.isSpace_of_mem_chars (List.mem_reverse.mp (List.mem_of_mem_head? hc)))

theorem trimChars_chars : trimChars p.chars = p.chars := by
  have h := p.trimChars_append (List.forall_mem_nil _) (List.forall_mem_nil _)
  rwa [List.nil_append, List.append_nil] at h

end Spelled

/-! ### Arithmetic in 32 bits -/

/-- The result of arithmetic in 32 bits; nothing if it has more. -/
def word? (n : Nat) : Option Nat :=
  if n < 2 ^ 32 then some n else none

/-- The column that letters name, in 32 bits; nothing if an intermediate result has more. -/
def readColumnInWords? (before : Nat) : List Char → Option (Except Refusal Nat)
  | [] => some (.ok before)
  | c :: cs => do
    let shifted ← word? (before * 26)
    let sum ← word? (shifted + (letterValue c - 1))
    let column ← word? (sum + 1)
    if columnCount < column then some (.error (.columnOutOfBounds (column - 1))) else readColumnInWords? column cs

/-- What digits stand for when those before them stand for `before`, in 32 bits; nothing if an intermediate result has
    more. -/
def readDigitsInWords? (before : Nat) : List Char → Option Nat
  | [] => some before
  | c :: cs => do
    let shifted ← word? (10 * before)
    let sum ← word? (shifted + (c.toNat - '0'.toNat))
    readDigitsInWords? sum cs

/-- The row that digits name, in 32 bits. Digits that stand for more are past the last row. -/
def readRowInWords (text digits : List Char) : Except Refusal Nat :=
  if digits = [] ∨ ¬digits.all Char.isDigit then
    .error (.invalidAddress .missingRow (String.ofList text))
  else
    match readDigitsInWords? 0 digits with
    | none => .error (.rowOutOfBounds greatestReportedRow)
    | some 0 => .error (.invalidAddress .rowZero (String.ofList text))
    | some (row + 1) => if row < rowCount then .ok row else .error (.rowOutOfBounds row)

/-- The address that characters write, in 32 bits; nothing if a column on the way has more. -/
def parseCharsInWords? (text : List Char) : Option (Except Refusal Address) :=
  let (columnAbsolute, rest) := scanMarker text
  let letters := rest.takeWhile Char.isAlpha
  if letters = [] then
    some (.error (.invalidAddress .missingColumn (String.ofList text)))
  else
    (readColumnInWords? 0 letters).map fun result => do
      let column ← result
      let (rowAbsolute, digits) := scanMarker (rest.dropWhile Char.isAlpha)
      let row ← readRowInWords text digits
      return ⟨row, column - 1, rowAbsolute, columnAbsolute⟩

theorem word?_of_lt {n : Nat} (h : n < 2 ^ 32) : word? n = some n :=
  if_pos h

/-- A column on the grid leaves room for one more letter. -/
theorem readColumnInWords?_eq {cs : List Char} : ∀ {before : Nat}, before ≤ columnCount →
    (∀ c ∈ cs, c.isAlpha = true) → readColumnInWords? before cs = some (readColumn before cs) := by
  induction cs with
  | nil => exact fun _ _ => rfl
  | cons c cs ih =>
    intro before hbefore halpha
    obtain ⟨hone, hvalue⟩ := letterValue_bounds (halpha c List.mem_cons_self)
    have hroom : before * 26 + letterValue c < 2 ^ 32 := by
      unfold columnCount at hbefore
      omega
    have hsum : before * 26 + (letterValue c - 1) + 1 = before * 26 + letterValue c := by omega
    simp only [readColumnInWords?, word?_of_lt (show before * 26 < 2 ^ 32 by omega),
      word?_of_lt (show before * 26 + (letterValue c - 1) < 2 ^ 32 by omega), hsum, word?_of_lt hroom, readColumn,
      Option.bind_eq_bind, Option.bind_some]
    split
    · rfl
    · exact ih (by omega) fun d hd => halpha d (List.mem_cons_of_mem c hd)

theorem le_ofDigitChars (cs : List Char) : ∀ before : Nat, before ≤ Nat.ofDigitChars 10 cs before := by
  induction cs with
  | nil => simp
  | cons c cs ih =>
    intro before
    rw [Nat.ofDigitChars_cons]
    exact Nat.le_trans (by omega) (ih _)

/-- Digits that stand for a number of 32 bits take no more on the way. -/
theorem readDigitsInWords?_eq {cs : List Char} : ∀ {before : Nat}, before < 2 ^ 32 →
    readDigitsInWords? before cs = word? (Nat.ofDigitChars 10 cs before) := by
  induction cs with
  | nil =>
    intro before hbefore
    simp [readDigitsInWords?, word?_of_lt hbefore]
  | cons c cs ih =>
    intro before hbefore
    have hle := le_ofDigitChars cs (10 * before + (c.toNat - '0'.toNat))
    rw [Nat.ofDigitChars_cons]
    by_cases hroom : 10 * before + (c.toNat - '0'.toNat) < 2 ^ 32
    · simp only [readDigitsInWords?, word?_of_lt (show 10 * before < 2 ^ 32 by omega), word?_of_lt hroom,
        Option.bind_eq_bind, Option.bind_some, ih hroom]
    · have hnone : word? (10 * before + (c.toNat - '0'.toNat)) = none := if_neg hroom
      have hall : word? (Nat.ofDigitChars 10 cs (10 * before + (c.toNat - '0'.toNat))) = none := if_neg (by omega)
      rw [hall, readDigitsInWords?]
      by_cases hshifted : 10 * before < 2 ^ 32
      · simp only [word?_of_lt hshifted, Option.bind_eq_bind, Option.bind_some, hnone, Option.bind_none]
      · simp only [show word? (10 * before) = none from if_neg hshifted, Option.bind_eq_bind, Option.bind_none]

theorem readRowInWords_eq (text digits : List Char) : readRowInWords text digits = readRow text digits := by
  unfold readRowInWords readRow
  split
  · rfl
  · rw [readDigitsInWords?_eq (by decide), word?]
    cases hrow : Nat.ofDigitChars 10 digits 0 with
    | zero => rfl
    | succ row =>
      by_cases hroom : row + 1 < 2 ^ 32
      · have hreported : min row greatestReportedRow = row := by
          unfold greatestReportedRow
          omega
        simp only [if_pos hroom, hreported]
      · have hrows : ¬row < rowCount := by
          unfold rowCount
          omega
        have hreported : min row greatestReportedRow = greatestReportedRow := by
          unfold greatestReportedRow
          omega
        simp only [if_neg hroom, if_neg hrows, hreported]

theorem parseCharsInWords?_eq (text : List Char) : parseCharsInWords? text = some (parseChars text) := by
  have halpha : ∀ c ∈ (scanMarker text).2.takeWhile Char.isAlpha, c.isAlpha = true := fun c hc =>
    List.mem_takeWhile_imp hc
  unfold parseCharsInWords? parseChars
  dsimp only
  split
  · rfl
  · simp only [readColumnInWords?_eq (Nat.zero_le _) halpha, Option.map_some, readRowInWords_eq]

/-! ### Texts -/

/-- A text is read as an address exactly if, white space around it aside, it spells one within the bounds of the grid,
    and then as what it spells. The text of an address on the grid is read as that address. However many letters and
    digits there are, reading them in 32 bits is the same. -/
theorem parse_spelled :
    (∀ (s : String) (a : Address), parse s = .ok a ↔
      ∃ (before after : List Char) (p : Spelled), s.toList = before ++ (p.chars ++ after) ∧
        (∀ c ∈ before, isSpace c = true) ∧ (∀ c ∈ after, isSpace c = true) ∧ p.InBounds ∧ a = p.address) ∧
      (∀ a : Address, a.OnGrid → parse a.toText = .ok a) ∧
      ∀ s : String, parseCharsInWords? (trimChars s.toList) = some (parse s) := by
  refine ⟨fun s a => ?_, fun a ha => ?_, fun s => parseCharsInWords?_eq _⟩
  · rw [parse]
    constructor
    · intro h
      obtain ⟨p, hp⟩ := exists_eq_chars_of_parseChars h
      obtain ⟨before, after, htext, hbefore, hafter⟩ := exists_eq_trimChars s.toList
      rw [hp] at h htext
      exact ⟨before, after, p, htext, hbefore, hafter, p.parseChars_eq_ok_iff.mp h⟩
    · rintro ⟨before, after, p, htext, hbefore, hafter, h⟩
      rw [htext, p.trimChars_append hbefore hafter]
      exact p.parseChars_eq_ok_iff.mpr h
  · have htrim : trimChars a.chars = a.chars := by
      have h := a.spelled.trimChars_chars
      rwa [chars_spelled] at h
    rw [parse, toText, String.toList_ofList, htrim]
    exact parseChars_chars ha

/-- The last cell of the grid, with letters of either case, zeros in front and white space around. -/
theorem parse_spelled_last :
    parse "\t$xFd$001048576 " = .ok ⟨1048575, 16383, true, true⟩ ∧
      parse (Address.toText ⟨1048575, 16383, true, true⟩) = .ok ⟨1048575, 16383, true, true⟩ := by
  let last : Spelled :=
    ⟨true, ['x', 'F', 'd'], true, ['0', '0', '1', '0', '4', '8', '5', '7', '6'], by decide, by simp, by decide, by simp⟩
  have hcolumn : last.column = 16384 := by decide
  have hrow : last.row = 1048576 := by decide
  have hbounds : last.InBounds := by
    rw [Spelled.InBounds, hcolumn, hrow]
    decide
  refine ⟨(parse_spelled.1 _ _).mpr ⟨['\t'], [' '], last, by decide, List.forall_mem_singleton.mpr rfl,
    List.forall_mem_singleton.mpr rfl, hbounds, ?_⟩, parse_spelled.2.1 _ (by decide)⟩
  rw [Spelled.address, hcolumn, hrow]

end Address

end Spreadsheet
