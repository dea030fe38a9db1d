import Mathlib
import Spreadsheet.Proofs.Formula.Reference
import Spreadsheet.Proofs.Grid.Qualified

/-! # References and addresses

What an address is written as is a text of one or two tokens, and the other way round: a text with the tokens of a
reference to a cell is an address of that cell (`Sheets.locate_reference`). The scanner takes a text apart from the
left and knows of quotes, an address is read from its last `!`; they find the same name because the characters that
a sheet is scanned from write it (`TokenKind.spells_scan`). -/

namespace Spreadsheet
open Text

/-! ### What the characters of a token are -/

/-- Whether characters write the address or the sheet that a token stands for, if it stands for one. -/
def TokenKind.Spells (cs : List Char) : TokenKind → Prop
  | address a => ∃ p : Address.Spelled, cs = p.chars ∧ p.InBounds ∧ a = p.address
  | sheet name => ∃ q, cs = q ++ ['!'] ∧ WritesSheet name q
  | _ => True

theorem writesSheet_of_startsWord {c : Char} {w : List Char} (hc : startsWord c = true) :
    WritesSheet (String.ofList (c :: w)) (c :: w) := by
  have hends : Ends (fun c => isSpace c || c = '\'') (String.ofList (c :: w)).toList := by
    rw [String.toList_ofList]
    rintro _ ⟨⟩
    have hquote : c ≠ '\'' := by
      rintro rfl
      cases hc
    simp [isSpace_of_isWordChar (isWordChar_of_startsWord hc), hquote]
  simpa using WritesSheet.plain hends

namespace TokenKind

theorem spells_symbol? {c : Char} {k : TokenKind} (h : symbol? c = some k) : k.Spells [c] := by
  unfold symbol? at h
  split at h <;> cases h <;> exact trivial

theorem spells_bareWord {word : List Char} {k : TokenKind} (h : bareWord word = .ok k) : k.Spells word := by
  unfold bareWord at h
  split at h
  · cases h
    exact trivial
  · split at h
    · split at h
      · next a ha =>
        cases h
        obtain ⟨p, rfl⟩ := Address.exists_eq_chars_of_parseChars ha
        exact ⟨p, rfl, p.parseChars_eq_ok_iff.mp ha⟩
      · cases h
    · cases h
      exact trivial

/-- The characters that a scan takes for an address or for a sheet write it. -/
theorem spells_scan {c : Char} {cs : List Char} {t : Scanned} (h : scan c cs = .ok t) : t.kind.Spells t.lexeme := by
  cases takes_of_scan h with
  | symbol hk => exact spells_symbol? hk
  | less => fun_cases scanLess cs <;> exact trivial
  | greater => fun_cases scanGreater cs <;> exact trivial
  | string | error | number | call => exact trivial
  | @quotedSheet inside => exact ⟨_, rfl, by simpa using @WritesSheet.quoted (String.ofList inside)⟩
  | sheet hc => exact ⟨_, rfl, writesSheet_of_startsWord hc⟩
  | bare _ _ hk => exact spells_bareWord hk

end TokenKind

namespace Divides
variable {cs : List Char} {k : TokenKind} {ks : List TokenKind}

/-- Behind the last token there is nothing but white space. -/
theorem isSpace_of_stop (h : Divides [.stop] cs) : ∀ c ∈ cs, isSpace c = true := by
  generalize hks : [TokenKind.stop] = ks at h
  induction h with
  | stop => exact List.forall_mem_nil _
  | blank hc _ ih => exact List.forall_mem_cons.mpr ⟨hc, ih hks⟩
  | token _ hscan _ _ =>
    have hlexical := lexical_scan hscan
    rw [← (List.cons.inj hks).1] at hlexical
    exact hlexical.elim

/-- A token has white space in front of it, and the rest of the text behind it. -/
theorem exists_spells (h : Divides (k :: ks) cs) (hk : k ≠ .stop) : ∃ before lexeme rest,
    cs = before ++ (lexeme ++ rest) ∧ (∀ c ∈ before, isSpace c = true) ∧ k.Spells lexeme ∧ Divides ks rest := by
  generalize hks : k :: ks = us at h
  induction h with
  | stop => exact absurd (List.cons.inj hks).1 hk
  | blank hc _ ih =>
    obtain ⟨before, lexeme, rest, rfl, hbefore, hspells, hrest⟩ := ih hks
    exact ⟨_ :: before, lexeme, rest, rfl, List.forall_mem_cons.mpr ⟨hc, hbefore⟩, hspells, hrest⟩
  | @token c cs t us _ hscan hrest _ =>
    obtain ⟨rfl, rfl⟩ := List.cons.inj hks
    exact ⟨[], t.lexeme, t.rest, (scan_of hscan).1, List.forall_mem_nil _, TokenKind.spells_scan hscan, hrest⟩

/-- A text of the tokens of a cell writes the cell, with white space around the parts. -/
theorem exists_qualifies {sheet : Option String} {a : Address} (h : Divides (sheetTokens sheet ++ [.address a, .stop]) cs) :
    ∃ (q before blank after : List Char) (p : Address.Spelled), cs = before ++ (q ++ (blank ++ (p.chars ++ after))) ∧
      Qualifies sheet q ∧ p.InBounds ∧ a = p.address ∧ (∀ c ∈ before, isSpace c = true) ∧
      (∀ c ∈ blank, isSpace c = true) ∧ ∀ c ∈ after, isSpace c = true := by
  cases sheet with
  | none =>
    obtain ⟨before, _, after, rfl, hbefore, ⟨p, rfl, hp⟩, hafter⟩ := h.exists_spells nofun
    exact ⟨[], before, [], after, p, rfl, .none, hp.1, hp.2, hbefore, List.forall_mem_nil _, hafter.isSpace_of_stop⟩
  | some name =>
    obtain ⟨before, _, rest, rfl, hbefore, ⟨q, rfl, hq⟩, hrest⟩ := h.exists_spells nofun
    obtain ⟨blank, _, after, rfl, hblank, ⟨p, rfl, hp⟩, hafter⟩ := hrest.exists_spells nofun
    exact ⟨q ++ ['!'], before, blank, after, p, rfl, .sheet hq, hp.1, hp.2, hbefore, hblank, hafter.isSpace_of_stop⟩

end Divides

/-! ### Where it is -/

namespace Sheets
variable {s : Sheets} {cell : Location}

/-- A formula in a cell of the first sheet looks for a sheet where an address does. -/
theorem sheetOf_cases (hcell : cell.sheet = 0) (sheet : Option String) :
    (∃ i, s.sheetOf sheet = .ok i ∧ (Resolver.atCell s cell).sheet sheet = .ok i) ∨
      ∃ name, sheet = some name ∧ s.indexOf? name = none ∧ s.sheetOf sheet = .error (.unknownSheet name) ∧
        (Resolver.atCell s cell).sheet sheet = .error .ref := by
  have hsheets : (Resolver.atCell s cell).sheets = s := rfl
  cases sheet with
  | none => exact .inl ⟨0, rfl, congrArg Except.ok hcell⟩
  | some name =>
    rw [sheetOf, require, Resolver.sheet, hsheets]
    cases hindex : s.indexOf? name with
    | none => exact .inr ⟨name, rfl, hindex, rfl, rfl⟩
    | some i => exact .inl ⟨i, rfl, rfl⟩

/-- A text whose tokens are those of a cell, with a sheet or without, is an address and, behind a `=`, a formula that
    consists of a reference. In a cell of the first sheet the two mean the same cell, that of the address on the sheet,
    if there is such a sheet; if there is none, both are refused. -/
theorem locate_reference {text : String} {ts : List Token} {sheet : Option String} {a : Address}
    (hts : tokens text = .ok ts) (hkinds : ts.map Token.kind = sheetTokens sheet ++ [.address a, .stop]) (s : Sheets)
    {cell : Location} (hcell : cell.sheet = 0) :
    Expr.parse ("=" ++ text) = .ok (.reference (.cell sheet a)) ∧
      ((∃ i, s.sheetOf sheet = .ok i ∧ s.locate text = .ok (.ofAddress i a) ∧
          (Resolver.atCell s cell).resolve (.cell sheet a) = .ok (.cell (.ofAddress i a))) ∨
        ∃ name, sheet = some name ∧ s.indexOf? name = none ∧ s.locate text = .error (.unknownSheet name) ∧
          (Resolver.atCell s cell).resolve (.cell sheet a) = .error .ref) := by
  have hdivides := divides_of_tokensFrom hts
  rw [hkinds] at hdivides
  obtain ⟨q, before, blank, after, p, htext, hq, hp, rfl, hbefore, hblank, hafter⟩ := hdivides.exists_qualifies
  have hgrid : (Reference.cell sheet p.address).OnGrid :=
    Address.onGrid_parseChars (p.parseChars_eq_ok_iff.mpr ⟨hp, rfl⟩)
  refine ⟨?_, ?_⟩
  · obtain ⟨us, hus, hlayout⟩ := hdivides.exists_tokensFrom 1
    have hspanned : (Expr.reference (.cell sheet p.address)).Spanned := Reference.spanned_iff.mpr trivial
    rw [Expr.parse_eq text.toList (by simp), hus]
    refine (formula_of_reading (Expr.reads_layout _ hspanned [.stop]).expression ?_).1 (show 0 + 1 ≤ maxNesting by decide)
    rw [hlayout, Expr.layout, Reference.layout, List.append_assoc]
    rfl
  · rw [locate_qualified hq hp hbefore hblank hafter htext, Resolver.resolve_atCell hgrid]
    rcases sheetOf_cases hcell sheet with ⟨i, hsheet, hresolve⟩ | ⟨name, rfl, hindex, hsheet, hresolve⟩
    · exact .inl ⟨i, hsheet, by rw [hsheet]; rfl, by rw [Reference.sheet?, hresolve]; rfl⟩
    · exact .inr ⟨name, rfl, hindex, by rw [hsheet]; rfl, by rw [Reference.sheet?, hresolve]; rfl⟩

/-- A name with a quote, a blank and a `!`, and white space around the parts, where there is such a sheet and where
    there is none. -/
theorem locate_reference_quotes :
    let r : Reference := .cell (some "it's a!b") ⟨1, 1, false, true⟩
    let s : Sheets := ⟨["Sheet1", "IT'S A!B"]⟩
    Expr.parse ("=" ++ " 'it''s a!b'! $b2\t") = .ok (.reference r) ∧
      s.locate " 'it''s a!b'! $b2\t" = .ok ⟨1, 1, 1⟩ ∧
      (Resolver.atCell s ⟨0, 5, 5⟩).resolve r = .ok (.cell ⟨1, 1, 1⟩) ∧
      initial.locate " 'it''s a!b'! $b2\t" = .error (.unknownSheet "it's a!b") ∧
      (Resolver.atCell initial ⟨0, 5, 5⟩).resolve r = .error .ref := by
  intro r s
  obtain ⟨ts, hts, hkinds⟩ : ∃ ts, tokens " 'it''s a!b'! $b2\t" = .ok ts ∧
      ts.map Token.kind = sheetTokens (some "it's a!b") ++ [.address ⟨1, 1, false, true⟩, .stop] :=
    ⟨[⟨.sheet "it's a!b", 1⟩, ⟨.address ⟨1, 1, false, true⟩, 14⟩, ⟨.stop, 18⟩], by decide +kernel, rfl⟩
  have hcell : (⟨0, 5, 5⟩ : Location).sheet = 0 := rfl
  have hfound : s.sheetOf (some "it's a!b") = .ok 1 := by decide
  have hnone : initial.sheetOf (some "it's a!b") = .error (.unknownSheet "it's a!b") := by decide
  obtain ⟨hparse, hs⟩ := locate_reference hts hkinds s hcell
  obtain ⟨-, hinitial⟩ := locate_reference hts hkinds initial hcell
  refine ⟨hparse, ?_⟩
  rcases hs with ⟨i, hi, hlocate, hresolve⟩ | ⟨name, hname, hindex, -, -⟩
  · cases hfound.symm.trans hi
    rcases hinitial with ⟨i, hi, -, -⟩ | ⟨name, hname, -, hlocate', hresolve'⟩
    · cases hnone.symm.trans hi
    · cases hname
      exact ⟨hlocate, hresolve, hlocate', hresolve'⟩
  · cases hname
    exact absurd hindex (by decide)

end Sheets

end Spreadsheet
