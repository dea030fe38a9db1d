import Spreadsheet.Engine.Addressing
import Spreadsheet.Proofs.Grid.Spelling

/-! # Addresses with sheets

In front of an address its sheet stands as it is, or in quotes, with the quotes in its name doubled, and then a `!`
(`Qualifies`). Whatever the name is made of, what is written so means the cell of that address on that sheet
(`Sheets.locate_qualified`): the last `!` is the one after the name, and quotes are undone as they were doubled. -/

namespace Spreadsheet
open Text

/-! ### Quotes -/

theorem Text.undoubled_cons_of_ne {quote c : Char} (hc : c ≠ quote) (cs : List Char) :
    undoubled quote (c :: cs) = c :: undoubled quote cs := by
  cases cs with
  | nil => rfl
  | cons d ds => rw [undoubled, if_neg fun h => hc h.1]

theorem Text.undoubled_doubledChars (quote : Char) (cs : List Char) : undoubled quote (doubledChars quote cs) = cs := by
  induction cs with
  | nil => rfl
  | cons c cs ih =>
    by_cases hc : c = quote
    · subst hc
      rw [doubledChars_cons_self, undoubled, if_pos ⟨rfl, rfl⟩, ih]
    · rw [doubledChars_cons_of_ne hc, undoubled_cons_of_ne hc, ih]

/-- How the name of a sheet is written: as it is, or in quotes with those in it doubled. A name that starts with white
    space or with a quote is written in quotes. -/
inductive WritesSheet (name : String) : List Char → Prop where
  | plain (h : Ends (fun c => isSpace c || c = '\'') name.toList) : WritesSheet name name.toList
  | quoted : WritesSheet name ('\'' :: (doubledChars '\'' name.toList ++ ['\'']))

namespace WritesSheet
variable {name : String} {cs : List Char}

theorem ends_isSpace (h : WritesSheet name cs) (ds : List Char) : Ends isSpace (cs ++ '!' :: ds) := by
  cases h with
  | plain h =>
    cases hname : name.toList with
    | nil =>
      rintro _ ⟨⟩
      rfl
    | cons c w =>
      rintro _ ⟨⟩
      have hc := h c (by rw [hname]; rfl)
      exact (Bool.or_eq_false_iff.mp hc).1
  | quoted =>
    rintro _ ⟨⟩
    rfl

theorem unquotedSheet_eq (h : WritesSheet name cs) : unquotedSheet cs = name.toList := by
  cases h with
  | plain h =>
    unfold unquotedSheet
    split
    · next heq => exact absurd (h '\'' (by rw [heq]; rfl)) (by decide)
    · rfl
  | quoted =>
    rw [unquotedSheet, List.getLast?_concat, if_pos rfl, List.dropLast_concat, undoubled_doubledChars]

end WritesSheet

/-- What is written in front of an address: nothing, or a sheet and a `!`. -/
inductive Qualifies : Option String → List Char → Prop where
  | none : Qualifies none []
  | sheet {name : String} {cs : List Char} (h : WritesSheet name cs) : Qualifies (some name) (cs ++ ['!'])

/-! ### The last `!` -/

section
variable {before after : List Char}

theorem splitAtLastBang_append (h : '!' ∉ after) :
    splitAtLastBang (before ++ '!' :: after) = some (before, after) := by
  have hall : ∀ c ∈ after.reverse, decide (c ≠ '!') = true := fun c hc =>
    decide_eq_true fun heq => h (heq ▸ List.mem_reverse.mp hc)
  have hbang : Ends (fun c => decide (c ≠ '!')) ('!' :: before.reverse) := by
    rintro _ ⟨⟩
    rfl
  rw [splitAtLastBang, List.reverse_append, List.reverse_cons, List.append_assoc, List.singleton_append]
  simp only [dropWhile_append hall hbang, takeWhile_append hall hbang, List.reverse_reverse]

theorem splitAtLastBang_of_notMem (h : '!' ∉ after) : splitAtLastBang after = none := by
  have hall : ∀ c ∈ after.reverse, decide (c ≠ '!') = true := fun c hc =>
    decide_eq_true fun heq => h (heq ▸ List.mem_reverse.mp hc)
  rw [splitAtLastBang]
  simp only [List.dropWhile_eq_nil_iff.mpr hall]

end

theorem Address.Spelled.bang_notMem_chars (p : Address.Spelled) : '!' ∉ p.chars := fun h =>
  p.forall_mem_chars (P := (· ≠ '!')) (by decide) (fun _ hc => by rintro rfl; cases hc)
    (fun _ hc => by rintro rfl; cases hc) _ h rfl

/-! ### Where it is -/

namespace Sheets
variable {s : Sheets} {sheet : Option String} {q before blank after : List Char} {p : Address.Spelled} {text : String}

/-- The number of the sheet that an address names; the first one if it names none. -/
def sheetOf (s : Sheets) : Option String → Except Refusal Nat
  | none => .ok 0
  | some name => s.require name

/-- An address with a sheet means the cell of that address on that sheet. White space may surround it, and may stand
    between the two. -/
theorem locate_qualified (hq : Qualifies sheet q) (hp : p.InBounds) (hbefore : ∀ c ∈ before, isSpace c = true)
    (hblank : ∀ c ∈ blank, isSpace c = true) (hafter : ∀ c ∈ after, isSpace c = true)
    (h : text.toList = before ++ (q ++ (blank ++ (p.chars ++ after)))) :
    s.locate text = (s.sheetOf sheet).map fun i => Location.ofAddress i p.address := by
  have hparse : Address.parseChars p.chars = .ok p.address := p.parseChars_eq_ok_iff.mpr ⟨hp, rfl⟩
  cases hq with
  | none =>
    have htrim : trimChars text.toList = p.chars := by
      rw [h, List.nil_append, ← List.append_assoc]
      exact p.trimChars_append (List.forall_mem_append.mpr ⟨hbefore, hblank⟩) hafter
    have haddress : Address.parse (String.ofList p.chars) = .ok p.address := by
      rw [Address.parse, String.toList_ofList, p.trimChars_chars, hparse]
    rw [locate, htrim]
    simp only [splitAtLastBang_of_notMem p.bang_notMem_chars, haddress, sheetOf, Except.map]
  | @sheet name cs hname =>
    have htrim : trimChars text.toList = cs ++ '!' :: (blank ++ p.chars) := by
      have hlast : Ends isSpace (cs ++ '!' :: (blank ++ p.chars)).reverse := by
        intro c hc
        rw [List.reverse_append, List.reverse_cons, List.reverse_append, List.append_assoc, List.append_assoc,
          List.head?_append_of_ne_nil _ (by simp [p.chars_ne_nil])] at hc
        exact p.isSpace_of_mem_chars (List.mem_reverse.mp (List.mem_of_mem_head? hc))
      have hcore := trimChars_append hbefore hafter (by simp) (hname.ends_isSpace (blank ++ p.chars)) hlast
      rw [h, ← hcore]
      simp
    have hsplit : splitAtLastBang (cs ++ '!' :: (blank ++ p.chars)) = some (cs, blank ++ p.chars) := by
      refine splitAtLastBang_append fun hmem => ?_
      rcases List.mem_append.mp hmem with hmem | hmem
      · exact absurd (hblank '!' hmem) (by decide)
      · exact p.bang_notMem_chars hmem
    have haddress : Address.parse (String.ofList (blank ++ p.chars)) = .ok p.address := by
      have hcell := p.trimChars_append hblank (List.forall_mem_nil _)
      rw [List.append_nil] at hcell
      rw [Address.parse, String.toList_ofList, hcell, hparse]
    rw [locate, htrim]
    simp only [hsplit, hname.unquotedSheet_eq, String.ofList_toList, haddress, sheetOf]
    cases s.require name <;> rfl

end Sheets

end Spreadsheet
