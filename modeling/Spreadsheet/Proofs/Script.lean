import Mathlib
import Spreadsheet.Script
import Spreadsheet.Proofs.Engine.History
import Spreadsheet.Proofs.Grid.Names
import Spreadsheet.Proofs.Grid.Qualified

/-! # Lines of a script

A location is shown in such a way that it can be typed: at the start of a line it is taken as the address of the
line, and it is read as the location again (`Script.parseLine_locationText`). What shows a name, what finds the end
of an address and what reads it have to agree on names with blanks, quotes and `!` in them. -/

namespace Spreadsheet
open Text

/-! ### Names that are shown without quotes -/

/-- White space, and the marks that mean something in an address or at the start of a line. -/
def isReserved (c : Char) : Bool :=
  isSpace c || c = '!' || c = '\'' || c = '#' || c = '@'

theorem isReserved_eq_false_iff {c : Char} :
    isReserved c = false ↔ isSpace c = false ∧ c ≠ '!' ∧ c ≠ '\'' ∧ c ≠ '#' ∧ c ≠ '@' := by
  simp [isReserved, and_assoc]

/-- The codes of the reserved characters. -/
def reservedCodes : List Nat :=
  [9, 10, 11, 12, 13, 0x20, 0x85, 0xa0, 0x1680, 0x2000, 0x2001, 0x2002, 0x2003, 0x2004, 0x2005, 0x2006, 0x2007, 0x2008,
    0x2009, 0x200a, 0x2028, 0x2029, 0x202f, 0x205f, 0x3000, 0x21, 0x27, 0x23, 0x40]

theorem mem_reservedCodes_of_isReserved {c : Char} (h : isReserved c = true) : c.toNat ∈ reservedCodes := by
  simp only [isReserved, isSpace, Bool.or_eq_true, Bool.and_eq_true, decide_eq_true_eq] at h
  rcases h with (((hspace | rfl) | rfl) | rfl) | rfl
  · simp only [reservedCodes, List.mem_cons, List.not_mem_nil, or_false]
    omega
  all_goals decide

/-- No letter and no number of any script is reserved. -/
theorem isReserved_of_isAlphanumeric {c : Char} (h : isAlphanumeric c = true) : isReserved c = false := by
  have hcodes : ∀ code ∈ reservedCodes, inRanges alphanumericRanges code = false := by
    simp only [inRanges, ← Array.any_toList]
    decide +kernel
  refine eq_false_of_ne_true fun hreserved => ?_
  rw [isAlphanumeric, hcodes _ (mem_reservedCodes_of_isReserved hreserved)] at h
  cases h

theorem isReserved_of_isShownPlain {name : String} (h : Sheets.isShownPlain name = true) :
    ∀ c ∈ name.toList, isReserved c = false := by
  intro c hc
  have hshown := List.all_eq_true.mp (Bool.and_eq_true_iff.mp h).2 c hc
  rcases Bool.or_eq_true_iff.mp hshown with halnum | hunderscore
  · exact isReserved_of_isAlphanumeric halnum
  · rw [of_decide_eq_true hunderscore]
    rfl

theorem ne_nil_of_isShownPlain {name : String} (h : Sheets.isShownPlain name = true) : name.toList ≠ [] := by
  have hne := (Bool.and_eq_true_iff.mp h).1
  simpa using hne

/-! ### How locations are shown -/

/-- The name of a sheet as it is shown. -/
def shownSheet (name : String) : List Char :=
  if Sheets.isShownPlain name then name.toList else '\'' :: (doubledChars '\'' name.toList ++ ['\''])

theorem writesSheet_shownSheet (name : String) : WritesSheet name (shownSheet name) := by
  unfold shownSheet
  split
  · next h =>
    refine .plain fun c hc => ?_
    obtain ⟨hspace, -, hquote, -, -⟩ :=
      isReserved_eq_false_iff.mp (isReserved_of_isShownPlain h c (List.mem_of_mem_head? hc))
    simp [hspace, hquote]
  · exact .quoted

namespace Sheets
variable {s : Sheets} {l : Location} {name : String}

theorem toList_locationText (h : s.name? l.sheet = some name) :
    (s.locationText l).toList = shownSheet name ++ '!' :: l.address.chars := by
  unfold locationText shownSheet
  by_cases hplain : isShownPlain name = true <;> simp [h, hplain, doubled, Address.toText]

theorem name?_of_check (h : s.check l = .ok l) : ∃ name, s.name? l.sheet = some name := by
  obtain ⟨-, hlt, -⟩ := check_eq_ok h
  exact ⟨s.names[l.sheet], List.getElem?_eq_getElem hlt⟩

/-- A location is shown as an address that means it. -/
theorem locate_locationText (hs : s.Distinct) (h : s.check l = .ok l) : s.locate (s.locationText l) = .ok l := by
  obtain ⟨-, -, hgrid⟩ := check_eq_ok h
  obtain ⟨name, hname⟩ := name?_of_check h
  have haddress : Address.parseChars l.address.spelled.chars = .ok l.address := by
    rw [Address.chars_spelled]
    exact Address.parseChars_chars hgrid
  obtain ⟨hbounds, hspelled⟩ := l.address.spelled.parseChars_eq_ok_iff.mp haddress
  have htext : (s.locationText l).toList =
      [] ++ (shownSheet name ++ ['!'] ++ ([] ++ (l.address.spelled.chars ++ []))) := by
    rw [toList_locationText hname, Address.chars_spelled]
    simp
  rw [locate_qualified (.sheet (writesSheet_shownSheet name)) hbounds (List.forall_mem_nil _) (List.forall_mem_nil _)
    (List.forall_mem_nil _) htext, ← hspelled, sheetOf, require, hs.indexOf?_eq hname (.refl name)]
  rfl

end Sheets

/-! ### Where an address ends -/

namespace Script

theorem isAsciiSpace_of_isSpace {c : Char} (h : isSpace c = false) : isAsciiSpace c = false := by
  refine eq_false_of_ne_true fun hascii => ?_
  simp only [isAsciiSpace, Bool.or_eq_true, decide_eq_true_eq] at hascii
  rcases hascii with (((rfl | rfl) | rfl) | rfl) | rfl <;> cases h

section
variable {cell : List Char} (hcell : ∀ c ∈ cell, isSpace c = false) (content : List Char)
include hcell

theorem span_cell : (cell ++ ' ' :: content).takeWhile (fun c => !isAsciiSpace c) = cell ∧
    (cell ++ ' ' :: content).dropWhile (fun c => !isAsciiSpace c) = ' ' :: content := by
  have hall : ∀ c ∈ cell, (!isAsciiSpace c) = true := fun c hc => by rw [isAsciiSpace_of_isSpace (hcell c hc)]; rfl
  have hblank : Ends (fun c => !isAsciiSpace c) (' ' :: content) := by
    rintro _ ⟨⟩
    rfl
  exact ⟨takeWhile_append hall hblank, dropWhile_append hall hblank⟩

theorem splitAddress_plain (hquote : cell.head? ≠ some '\'') :
    splitAddress (cell ++ ' ' :: content) = .ok (cell, ' ' :: content) := by
  obtain ⟨htake, hdrop⟩ := span_cell hcell content
  unfold splitAddress
  split
  · next cs heq =>
    cases cell with
    | nil => cases heq
    | cons c w =>
      cases heq
      exact absurd rfl hquote
  · rw [htake, hdrop]

omit hcell in
theorem takeQuoted_doubledChars (name : List Char) {rest : List Char} (h : Ends (· = '\'') rest) :
    takeQuoted (doubledChars '\'' name ++ '\'' :: rest) = some (doubledChars '\'' name ++ ['\''], rest) := by
  induction name with
  | nil =>
    have hnil : doubledChars '\'' [] = [] := rfl
    rw [hnil, List.nil_append, List.nil_append, takeQuoted]
    rintro cs rfl
    exact absurd (h '\'' rfl) (by decide)
  | cons c name ih =>
    by_cases hc : c = '\''
    · subst hc
      rw [doubledChars_cons_self, List.cons_append, List.cons_append, takeQuoted, ih]
      rfl
    · rw [doubledChars_cons_of_ne hc, List.cons_append, takeQuoted, ih]
      · rfl
      · exact fun _ heq => absurd heq hc
      · exact hc

theorem splitAddress_quoted (name : List Char) :
    splitAddress ('\'' :: (doubledChars '\'' name ++ '\'' :: '!' :: (cell ++ ' ' :: content))) =
      .ok ('\'' :: (doubledChars '\'' name ++ '\'' :: '!' :: cell), ' ' :: content) := by
  have hbang : ∀ c ∈ '!' :: cell, isSpace c = false := List.forall_mem_cons.mpr ⟨rfl, hcell⟩
  obtain ⟨htake, hdrop⟩ := span_cell hbang content
  have hrest : Ends (· = '\'') ('!' :: (cell ++ ' ' :: content)) := by
    rintro _ ⟨⟩
    rfl
  rw [List.cons_append] at htake hdrop
  rw [splitAddress, takeQuoted_doubledChars name hrest]
  simp [htake, hdrop]

/-- What shows a sheet, a `!` and an address are the address of a line, and the content follows. -/
theorem splitAddress_shownSheet (name : String) :
    splitAddress (shownSheet name ++ '!' :: (cell ++ ' ' :: content)) =
      .ok (shownSheet name ++ '!' :: cell, ' ' :: content) := by
  unfold shownSheet
  split
  · next hplain =>
    have hname := fun c hc => isReserved_eq_false_iff.mp (isReserved_of_isShownPlain hplain c hc)
    have hall : ∀ c ∈ name.toList ++ '!' :: cell, isSpace c = false :=
      List.forall_mem_append.mpr ⟨fun c hc => (hname c hc).1, List.forall_mem_cons.mpr ⟨rfl, hcell⟩⟩
    have hsplit := splitAddress_plain hall content fun hquote => by
      rw [List.head?_append_of_ne_nil _ (ne_nil_of_isShownPlain hplain)] at hquote
      exact (hname _ (List.mem_of_mem_head? hquote)).2.2.1 rfl
    simpa using hsplit
  · simpa using splitAddress_quoted hcell content name.toList

end

/-- A line that starts with neither white space nor a mark of its own is split after its address. -/
theorem parseLine_eq {line : List Char} {c : Char} (hc : line.head? = some c) (hspace : isSpace c = false)
    (hhash : c ≠ '#') (hat : c ≠ '@') : parseLine line = (splitAddress line).map fun (address, rest) =>
      some (.enter (String.ofList address) (String.ofList (rest.drop 1))) := by
  obtain ⟨w, rfl⟩ := List.head?_eq_some_iff.mp hc
  have htrim : trimStart (c :: w) = c :: w := by simp [trimStart, hspace]
  have hword : sheetWord.isPrefixOf (c :: w) = false := by
    simp [sheetWord, List.isPrefixOf, hat.symm]
  rw [parseLine, htrim]
  simp [hhash, hword]

theorem exists_head?_shownSheet (name : String) (rest : List Char) :
    ∃ c, (shownSheet name ++ '!' :: rest).head? = some c ∧ isSpace c = false ∧ c ≠ '#' ∧ c ≠ '@' := by
  unfold shownSheet
  split
  · next hplain =>
    obtain ⟨c, w, hname⟩ := List.exists_cons_of_ne_nil (ne_nil_of_isShownPlain hplain)
    obtain ⟨hspace, -, -, hhash, hat⟩ :=
      isReserved_eq_false_iff.mp (isReserved_of_isShownPlain hplain c (by rw [hname]; exact List.mem_cons_self))
    exact ⟨c, by rw [hname]; rfl, hspace, hhash, hat⟩
  · exact ⟨'\'', rfl, rfl, by decide, by decide⟩

end Script

/-! ### The sheets of a workbook -/

theorem Engine.Started.reached_afterAll {e : Engine} (h : e.Started) (commands : List Command) :
    (e.afterAll commands).sheets.Reached := by
  refine afterAll_induction (motive := fun f => f.sheets.Reached) commands ?_ fun e he c _ => ?_
  · rcases h with rfl | ⟨options, h⟩
    · exact .initial
    · obtain ⟨sheets, hsheets, rfl⟩ := Except.map_eq_ok.mp h
      exact .add .empty hsheets
  · rcases e.sheets_after c with hsheets | ⟨name, hadd⟩
    · exact hsheets ▸ he
    · exact .add he hadd

namespace Script

/-- Whatever the sheets are called, a place of a workbook is shown as text that a line can start with: with a blank and
    a content behind it, the line enters this content at this address, and the address means the place. The sheets of a
    workbook are so after any commands. -/
theorem parseLine_locationText :
    (∀ s : Sheets, s.Reached → ∀ l, s.check l = .ok l → ∀ content : String,
      parseLine (s.locationText l ++ " " ++ content).toList = .ok (some (.enter (s.locationText l) content)) ∧
        s.locate (s.locationText l) = .ok l) ∧
      ∀ (e : Engine) (commands : List Command), e.Started → (e.afterAll commands).sheets.Reached := by
  refine ⟨fun s hs l hl content => ⟨?_, s.locate_locationText hs.distinct hl⟩,
    fun e commands he => he.reached_afterAll commands⟩
  obtain ⟨name, hname⟩ := Sheets.name?_of_check hl
  have hcell : ∀ c ∈ l.address.chars, isSpace c = false := fun c hc =>
    l.address.spelled.isSpace_of_mem_chars (by rwa [Address.chars_spelled])
  have hshown := Sheets.toList_locationText hname
  have hline : (s.locationText l ++ " " ++ content).toList =
      shownSheet name ++ '!' :: (l.address.chars ++ ' ' :: content.toList) := by
    simp [hshown]
  obtain ⟨c, hhead, hspace, hhash, hat⟩ := exists_head?_shownSheet name (l.address.chars ++ ' ' :: content.toList)
  rw [hline, parseLine_eq hhead hspace hhash hat, splitAddress_shownSheet hcell content.toList, ← hshown]
  simp [Except.map]

/-- A name that starts with a quote and a `@`, and has a blank, a quote and a `!` at its end. -/
theorem parseLine_locationText_quotes :
    let s : Sheets := ⟨["Sheet1", "'@a b'!"]⟩
    s.Reached ∧ s.check ⟨1, 9, 27⟩ = .ok ⟨1, 9, 27⟩ ∧ s.locationText ⟨1, 9, 27⟩ = "'''@a b''!'!AB10" ∧
      parseLine "'''@a b''!'!AB10  =A1 ".toList = .ok (some (.enter "'''@a b''!'!AB10" " =A1 ")) ∧
      s.locate "'''@a b''!'!AB10" = .ok ⟨1, 9, 27⟩ := by
  intro s
  have hs : s.Reached := .add .initial (show Sheets.initial.add "'@a b'!" = .ok s by decide)
  have hl : s.check ⟨1, 9, 27⟩ = .ok ⟨1, 9, 27⟩ := by decide
  have hname : s.name? (⟨1, 9, 27⟩ : Location).sheet = some "'@a b'!" := rfl
  have hquoted : Sheets.isShownPlain "'@a b'!" = false := eq_false_of_ne_true fun hplain =>
    absurd (isReserved_of_isShownPlain hplain '\'' (by decide)) (by decide)
  have htext : s.locationText ⟨1, 9, 27⟩ = "'''@a b''!'!AB10" := by
    rw [← String.toList_inj, Sheets.toList_locationText hname, shownSheet, hquoted]
    cbv
  have h := parseLine_locationText.1 s hs _ hl " =A1 "
  rw [htext] at h
  exact ⟨hs, hl, htext, h.1, h.2⟩

end Script

end Spreadsheet
