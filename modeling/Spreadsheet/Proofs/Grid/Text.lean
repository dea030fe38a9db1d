import Mathlib
import Spreadsheet.Grid.Address
import Spreadsheet.Proofs.Number.Text

/-! # The text of an address reads back

An address on the grid is written as letters and digits with their markers, and reading them gives the
address again (`Address.parseChars_chars`). A rectangle keeps its corners when it is spanned anew. -/

namespace Spreadsheet

namespace Text

/-! ### Characters -/

theorem toNat_of_isAlphanum {c : Char} (h : c.isAlphanum = true) : 48 ≤ c.toNat ∧ c.toNat ≤ 122 := by
  simp only [Char.isAlphanum, Char.isAlpha, Char.isUpper, Char.isLower, Char.isDigit, Bool.or_eq_true,
    Bool.and_eq_true, decide_eq_true_eq, UInt32.le_iff_toNat_le, ge_iff_le] at h
  change (((65 ≤ c.toNat ∧ c.toNat ≤ 90) ∨ (97 ≤ c.toNat ∧ c.toNat ≤ 122)) ∨ (48 ≤ c.toNat ∧ c.toNat ≤ 57)) at h
  omega

theorem isSpace_of_isAlphanum {c : Char} (h : c.isAlphanum = true) : isSpace c = false := by
  have := toNat_of_isAlphanum h
  simp only [isSpace, Bool.or_eq_false_iff, Bool.and_eq_false_iff, decide_eq_false_iff_not]
  omega

/-! ### Doubled quotes -/

theorem doubledChars_cons_self (quote : Char) (cs : List Char) :
    doubledChars quote (quote :: cs) = quote :: quote :: doubledChars quote cs := by
  simp [doubledChars]

theorem doubledChars_cons_of_ne {quote c : Char} (hc : c ≠ quote) (cs : List Char) :
    doubledChars quote (c :: cs) = c :: doubledChars quote cs := by
  simp [doubledChars, hc]

end Text

namespace Address
open Text

/-! ### Columns -/

theorem letterValue_letter : ∀ k < 26, letterValue (Char.ofNat (65 + k)) = k + 1 := by decide

theorem isAlpha_letter : ∀ k < 26, (Char.ofNat (65 + k)).isAlpha = true := by decide

theorem columnLetters_zero (after : List Char) : columnLetters 0 after = after := by
  rw [columnLetters, if_pos rfl]

theorem columnLetters_succ (n : Nat) (after : List Char) :
    columnLetters (n + 1) after = columnLetters (n / 26) (Char.ofNat (65 + n % 26) :: after) := by
  rw [columnLetters, if_neg (Nat.succ_ne_zero n), Nat.add_sub_cancel]

theorem isAlpha_of_mem_columnLetters (n : Nat) : ∀ {after : List Char} {c : Char}, c ∈ columnLetters n after →
    c.isAlpha = true ∨ c ∈ after := by
  induction n using Nat.strongRecOn with
  | ind n ih =>
    intro after c hc
    cases n with
    | zero =>
      rw [columnLetters_zero] at hc
      exact .inr hc
    | succ n =>
      rw [columnLetters_succ] at hc
      rcases ih (n / 26) (by omega) hc with h | h
      · exact .inl h
      · rcases List.mem_cons.mp h with rfl | h
        · exact .inl (isAlpha_letter _ (Nat.mod_lt _ (by decide)))
        · exact .inr h

theorem columnLetters_ne_nil (n : Nat) (after : List Char) (h : after ≠ [] ∨ n ≠ 0) : columnLetters n after ≠ [] := by
  induction n using Nat.strongRecOn generalizing after with
  | ind n ih =>
    cases n with
    | zero =>
      rw [columnLetters_zero]
      exact h.resolve_right fun h => h rfl
    | succ n =>
      rw [columnLetters_succ]
      exact ih (n / 26) (by omega) _ (.inl (List.cons_ne_nil _ _))

/-- Reading the letters of a column leads to it. -/
theorem readColumn_columnLetters (n : Nat) (after : List Char) (hn : n ≤ columnCount) :
    readColumn 0 (columnLetters n after) = readColumn n after := by
  induction n using Nat.strongRecOn generalizing after with
  | ind n ih =>
    cases n with
    | zero => rw [columnLetters_zero]
    | succ n =>
      have hvalue : n / 26 * 26 + letterValue (Char.ofNat (65 + n % 26)) = n + 1 := by
        rw [letterValue_letter _ (Nat.mod_lt _ (by decide))]
        omega
      rw [columnLetters_succ, ih (n / 26) (by omega) _ (by omega), readColumn]
      simp only [hvalue]
      rw [if_neg (by omega)]

/-! ### Addresses -/

theorem scanMarker_append (b : Bool) {cs : List Char} (h : Ends (· = '$') cs) :
    scanMarker (marker b ++ cs) = (b, cs) := by
  cases b with
  | true => rfl
  | false =>
    show scanMarker cs = (false, cs)
    unfold scanMarker
    split
    · exact absurd (h '$' rfl) (by decide)
    · rfl

theorem isAlpha_of_isDigit {c : Char} (h : c.isDigit = true) : c.isAlpha = false := by
  grind [Char.isDigit, Char.isAlpha, Char.isUpper, Char.isLower]

theorem ne_dollar_of_isAlpha {c : Char} (h : c.isAlpha = true) : c ≠ '$' := by
  rintro rfl
  cases h

theorem ne_dollar_of_isDigit {c : Char} (h : c.isDigit = true) : c ≠ '$' := by
  rintro rfl
  cases h

/-- What an address is spelled with: letters and digits, each with a marker in front or not. -/
structure Spelled where
  columnAbsolute : Bool
  letters : List Char
  rowAbsolute : Bool
  digits : List Char
  letters_ne_nil : letters ≠ []
  isAlpha : ∀ c ∈ letters, c.isAlpha = true
  digits_ne_nil : digits ≠ []
  isDigit : ∀ c ∈ digits, c.isDigit = true

namespace Spelled
variable (p : Spelled)

def chars : List Char :=
  marker p.columnAbsolute ++ (p.letters ++ (marker p.rowAbsolute ++ p.digits))

/-- What holds of `$`, of letters and of digits holds of all characters of an address. -/
theorem forall_mem_chars {P : Char → Prop} (hmarker : P '$') (halpha : ∀ c, c.isAlpha = true → P c)
    (hdigit : ∀ c, c.isDigit = true → P c) : ∀ c ∈ p.chars, P c := by
  have hmarkers (b : Bool) : ∀ c ∈ marker b, P c := by
    cases b with
    | true => exact List.forall_mem_singleton.mpr hmarker
    | false => exact List.forall_mem_nil P
  simp only [chars, List.forall_mem_append]
  exact ⟨hmarkers _, fun c hc => halpha c (p.isAlpha c hc), hmarkers _, fun c hc => hdigit c (p.isDigit c hc)⟩

/-- What follows the letters: digits, with a marker in front or not. -/
theorem isAlpha_of_mem_row {c : Char} (h : c ∈ marker p.rowAbsolute ++ p.digits) : c.isAlpha = false := by
  rcases List.mem_append.mp h with h | h
  · unfold marker at h
    split at h
    · rw [List.mem_singleton.mp h]
      rfl
    · cases h
  · exact isAlpha_of_isDigit (p.isDigit c h)

theorem ends_row : Ends Char.isAlpha (marker p.rowAbsolute ++ p.digits) := by
  intro c hc
  exact p.isAlpha_of_mem_row (List.mem_of_mem_head? hc)

theorem scanMarker_chars :
    scanMarker p.chars = (p.columnAbsolute, p.letters ++ (marker p.rowAbsolute ++ p.digits)) := by
  refine scanMarker_append _ fun c hc => ?_
  rw [List.head?_append_of_ne_nil _ p.letters_ne_nil] at hc
  simpa using ne_dollar_of_isAlpha (p.isAlpha c (List.mem_of_mem_head? hc))

theorem scanMarker_row : scanMarker (marker p.rowAbsolute ++ p.digits) = (p.rowAbsolute, p.digits) :=
  scanMarker_append _ fun c hc => by
    simpa using ne_dollar_of_isDigit (p.isDigit c (List.mem_of_mem_head? hc))

theorem takeWhile_letters :
    (p.letters ++ (marker p.rowAbsolute ++ p.digits)).takeWhile Char.isAlpha = p.letters :=
  takeWhile_append p.isAlpha p.ends_row

theorem dropWhile_letters :
    (p.letters ++ (marker p.rowAbsolute ++ p.digits)).dropWhile Char.isAlpha = marker p.rowAbsolute ++ p.digits :=
  dropWhile_append p.isAlpha p.ends_row

/-- The letters are read as the column and the digits as the row. -/
theorem parseChars_chars : parseChars p.chars = do
    let column ← readColumn 0 p.letters
    let row ← readRow p.chars p.digits
    return ⟨row, column - 1, p.rowAbsolute, p.columnAbsolute⟩ := by
  unfold parseChars
  simp only [p.scanMarker_chars, p.takeWhile_letters, p.dropWhile_letters, p.scanMarker_row, if_neg p.letters_ne_nil]

end Spelled

/-- How an address is written. -/
def spelled (a : Address) : Spelled where
  columnAbsolute := a.columnAbsolute
  letters := columnLetters (a.column + 1) []
  rowAbsolute := a.rowAbsolute
  digits := Nat.toDigits 10 (a.row + 1)
  letters_ne_nil := columnLetters_ne_nil _ _ (.inr (Nat.succ_ne_zero _))
  isAlpha c h := (isAlpha_of_mem_columnLetters _ h).resolve_right List.not_mem_nil
  digits_ne_nil := Nat.toDigits_ne_nil
  isDigit _ h := Nat.isDigit_of_mem_toDigits (by decide) (by decide) h

theorem chars_spelled (a : Address) : a.spelled.chars = a.chars := by
  simp [chars, Spelled.chars, spelled]

/-- An address on the grid is what its text reads as. -/
theorem parseChars_chars {a : Address} (h : a.OnGrid) : parseChars a.chars = .ok a := by
  have hcolumn : readColumn 0 a.spelled.letters = .ok (a.column + 1) := by
    rw [spelled, readColumn_columnLetters _ _ h.2]
    rfl
  have hrow : readRow a.spelled.chars a.spelled.digits = .ok a.row := by
    have hdigits : ¬(a.spelled.digits = [] ∨ ¬a.spelled.digits.all Char.isDigit) := by
      simp only [a.spelled.digits_ne_nil, false_or, Decidable.not_not, List.all_eq_true]
      exact a.spelled.isDigit
    rw [readRow, if_neg hdigits, spelled, Nat.ofDigitChars_ten_toDigits]
    simp only
    rw [if_pos h.1]
  rw [← chars_spelled, Spelled.parseChars_chars, hcolumn, hrow]
  rfl

end Address

namespace AddressRange

/-- A rectangle is spanned by its own corners. -/
theorem spanning_corners (a b : Address) :
    spanning (spanning a b).first (spanning a b).last = spanning a b := by
  unfold spanning
  grind

theorem onGrid_spanning {a b : Address} (ha : a.OnGrid) (hb : b.OnGrid) :
    (spanning a b).first.OnGrid ∧ (spanning a b).last.OnGrid := by
  unfold spanning Address.OnGrid at *
  grind

end AddressRange

end Spreadsheet
