import Spreadsheet.Formula.Layout
import Spreadsheet.Formula.Scan
import Spreadsheet.Proofs.Grid.Address
import Spreadsheet.Proofs.Grid.Text

/-! # Written tokens are scanned again

Tokens are written without space between them. Each is scanned again where what follows does not run
into it (`TokenKind.scanned`). The other way round, what is scanned is of few shapes (`Takes`), and a text that has
tokens is divided by them, wherever it stands (`Divides`). -/

namespace Spreadsheet
open Text

/-! ### Classes of characters -/

/-- The characters that words start with. -/
def startsWord (c : Char) : Bool :=
  c.isAlpha || c = '_' || c = '$'

theorem startsWord_of_isAlpha {c : Char} (h : c.isAlpha = true) : startsWord c = true := by
  simp [startsWord, h]

theorem isWordChar_of_startsWord {c : Char} (h : startsWord c = true) : isWordChar c = true := by
  grind [startsWord, isWordChar, Char.isAlphanum]

theorem isDigit_of_startsWord {c : Char} (h : startsWord c = true) : c.isDigit = false := by
  simp only [startsWord, Bool.or_eq_true, decide_eq_true_eq] at h
  rcases h with (h | rfl) | rfl
  · grind [Char.isDigit, Char.isAlpha, Char.isUpper, Char.isLower]
  · rfl
  · rfl

theorem isSpace_of_isWordChar {c : Char} (h : isWordChar c = true) : isSpace c = false := by
  simp only [isWordChar, Bool.or_eq_true, decide_eq_true_eq] at h
  rcases h with ((h | rfl) | rfl) | rfl
  · exact isSpace_of_isAlphanum h
  · rfl
  · rfl
  · rfl

theorem symbol?_of_isWordChar {c : Char} (h : isWordChar c = true) : symbol? c = none := by
  unfold symbol?
  split <;> first | rfl | cases h

/-! ### What scans what -/

/-- A character of words opens no token of another kind. -/
theorem scan_of_isWordChar {c : Char} {cs : List Char} (h : isWordChar c = true) :
    scan c cs =
      if startsNumber (c :: cs) then scanNumber (c :: cs)
      else if startsWord c then scanWord (c :: cs) else .error ⟨.invalidCharacter c, 0⟩ := by
  have hne : c ≠ '<' ∧ c ≠ '>' ∧ c ≠ '"' ∧ c ≠ '\'' ∧ c ≠ '#' := by
    refine ⟨?_, ?_, ?_, ?_, ?_⟩ <;> rintro rfl <;> cases h
  simp only [scan, symbol?_of_isWordChar h, hne, if_false, startsWord]
  rfl

theorem scan_of_isDigit {c : Char} {cs : List Char} (h : c.isDigit = true) : scan c cs = scanNumber (c :: cs) := by
  have hstart : startsNumber (c :: cs) = true := by
    unfold startsNumber
    split
    · next heq => cases heq; cases h
    · next heq => cases heq; exact h
    · next heq => cases heq
  rw [scan_of_isWordChar (by simp [isWordChar, Char.isAlphanum, h]), if_pos hstart]

theorem scan_of_startsWord {c : Char} {cs : List Char} (h : startsWord c = true) :
    scan c cs = scanWord (c :: cs) := by
  have hstart : ¬startsNumber (c :: cs) = true := by
    unfold startsNumber
    split
    · next heq => cases heq; cases h
    · next heq => cases heq; simp [isDigit_of_startsWord h]
    · next heq => cases heq
  rw [scan_of_isWordChar (isWordChar_of_startsWord h), if_neg hstart, if_pos h]

theorem scanQuoted_doubled (quote : Char) (inside : List Char) {cs : List Char} (h : Ends (· = quote) cs) :
    scanQuoted quote (doubledChars quote inside ++ quote :: cs) = some (inside, cs) := by
  induction inside with
  | nil =>
    cases cs with
    | nil => simp [doubledChars, scanQuoted]
    | cons c cs =>
      have hc : c ≠ quote := by simpa using h c rfl
      simp [doubledChars, scanQuoted, hc]
  | cons c inside ih =>
    by_cases hc : c = quote
    · subst hc
      rw [doubledChars_cons_self, List.cons_append, List.cons_append, scanQuoted, if_pos rfl, if_pos rfl, ih]
      rfl
    · obtain ⟨d, ds, hds⟩ := List.exists_cons_of_ne_nil
        (List.append_ne_nil_of_right_ne_nil (doubledChars quote inside) (List.cons_ne_nil quote cs))
      rw [doubledChars_cons_of_ne hc, List.cons_append, hds, scanQuoted, if_neg hc, ← hds, ih]
      rfl

/-! ### Words -/

/-- Whether a character would change what the word before it means. -/
def continuesWord (c : Char) : Bool :=
  isWordChar c || c = '!' || c = '('

section Words
variable {word cs : List Char} (hword : ∀ c ∈ word, isWordChar c = true)
include hword

theorem scanWord_bare (h : Ends continuesWord cs) :
    scanWord (word ++ cs) = (bareWord word).map fun kind => ⟨kind, word, cs⟩ := by
  have hends : Ends isWordChar cs := h.mono fun c hc => by simp [continuesWord, hc]
  unfold scanWord
  simp only [takeWhile_append hword hends, dropWhile_append hword hends]
  split
  · exact absurd (h '!' rfl) (by decide)
  · exact absurd (h '(' rfl) (by decide)
  · rfl

theorem scanWord_call : scanWord (word ++ '(' :: cs) = .ok ⟨.identifier (String.ofList word), word, '(' :: cs⟩ := by
  have hends : Ends isWordChar ('(' :: cs) := by rintro c ⟨⟩; rfl
  unfold scanWord
  simp only [takeWhile_append hword hends, dropWhile_append hword hends]

theorem scanWord_sheet : scanWord (word ++ '!' :: cs) = .ok ⟨.sheet (String.ofList word), word ++ ['!'], cs⟩ := by
  have hends : Ends isWordChar ('!' :: cs) := by rintro c ⟨⟩; rfl
  unfold scanWord
  simp only [takeWhile_append hword hends, dropWhile_append hword hends]

end Words

theorem toUpper_of_isDigit {c : Char} (h : c.isDigit = true) : c.toUpper = c := by
  grind [Char.toUpper, Char.isDigit]

/-- A word with a digit in it is no truth value. -/
theorem toLogical?_of_mem_isDigit {word : List Char} {c : Char} (hc : c ∈ word) (h : c.isDigit = true) :
    toLogical? (String.ofList word) = none := by
  have hne (t : String) (ht : (t.toList.map Char.toUpper).any Char.isDigit = false) :
      ¬SameName (String.ofList word) t := by
    intro hsame
    have hmap : word.map Char.toUpper = t.toList.map Char.toUpper := by
      simpa [SameName, foldCase, ← String.toList_inj] using hsame
    have hmem : c ∈ t.toList.map Char.toUpper := by
      rw [← hmap, ← toUpper_of_isDigit h]
      exact List.mem_map_of_mem hc
    exact List.any_eq_false.mp ht c hmem h
  unfold toLogical?
  rw [if_neg (hne "TRUE" (by decide)), if_neg (hne "FALSE" (by decide))]

/-! ### Addresses -/

namespace Address

namespace Spelled
variable (p : Spelled)

theorem isWordChar_of_mem_chars {c : Char} (h : c ∈ p.chars) : isWordChar c = true :=
  p.forall_mem_chars (P := fun c => isWordChar c = true) rfl
    (fun _ hc => isWordChar_of_startsWord (startsWord_of_isAlpha hc))
    (fun c hc => by simp [isWordChar, Char.isAlphanum, hc]) c h

theorem exists_chars_eq_cons : ∃ c w, p.chars = c :: w ∧ startsWord c = true := by
  obtain ⟨c, w, hw⟩ := List.exists_cons_of_ne_nil p.letters_ne_nil
  have hc : c.isAlpha = true := p.isAlpha c (by rw [hw]; exact List.mem_cons_self)
  rw [chars, hw]
  cases p.columnAbsolute with
  | true => exact ⟨'$', _, rfl, rfl⟩
  | false => exact ⟨c, _, rfl, startsWord_of_isAlpha hc⟩

theorem isAddressShaped_chars : isAddressShaped p.chars = true := by
  have hdigits : p.digits.all Char.isDigit = true := List.all_eq_true.mpr p.isDigit
  simp [isAddressShaped, scanMarker_chars, takeWhile_letters, dropWhile_letters, scanMarker_row, p.letters_ne_nil,
    p.digits_ne_nil, hdigits]

theorem exists_mem_isDigit : ∃ d ∈ p.chars, d.isDigit = true := by
  obtain ⟨d, ds, hds⟩ := List.exists_cons_of_ne_nil p.digits_ne_nil
  have hd : d ∈ p.digits := by rw [hds]; exact List.mem_cons_self
  exact ⟨d, List.mem_append_right _ (List.mem_append_right _ (List.mem_append_right _ hd)), p.isDigit d hd⟩

end Spelled

variable {a : Address}

theorem bareWord_chars (h : a.OnGrid) : bareWord a.chars = .ok (.address a) := by
  obtain ⟨d, hmem, hd⟩ := a.spelled.exists_mem_isDigit
  have hshaped := a.spelled.isAddressShaped_chars
  rw [chars_spelled] at hmem hshaped
  rw [bareWord, toLogical?_of_mem_isDigit hmem hd]
  simp [hshaped, parseChars_chars h]

end Address

/-! ### Tokens that are written -/

namespace TokenKind

/-- Whether some text is scanned as a token. -/
def Lexical : TokenKind → Prop
  | number n => n.isFinite = true ∧ n.isNegative = false
  | identifier name => ∃ c cs, name.toList = c :: cs ∧ startsWord c = true ∧ ∀ d ∈ cs, isWordChar d = true
  | address a => a.OnGrid
  | sheet name => name ≠ ""
  | stop => False
  | _ => True

/-- Whether the characters after a written token leave it as it is. -/
def EndsBefore (cs : List Char) : TokenKind → Prop
  | number _ => Ends Numeral.continues cs
  | text _ => Ends (· = '"') cs
  | boolean _ => Ends continuesWord cs
  | address _ => Ends continuesWord cs
  | error _ => Ends isErrorChar cs
  | identifier _ => cs.head? = some '('
  | less => Ends (fun c => c = '=' || c = '>') cs
  | greater => Ends (· = '=') cs
  | _ => True

/-- At the start of what follows there is a token of this kind, written as it is. -/
def ScannedFrom (cs : List Char) (k : TokenKind) : Prop :=
  ∃ c w, k.written.toList = c :: w ∧ isSpace c = false ∧ scan c (w ++ cs) = .ok ⟨k, c :: w, cs⟩

section
variable {cs : List Char}

theorem scanned_number {n : Number} (hn : (number n).Lexical) (h : (number n).EndsBefore cs) :
    (number n).ScannedFrom cs := by
  obtain ⟨numeral, hchars, hplain, hnumber⟩ := Number.exists_numeral hn.1 hn.2
  obtain ⟨c, w, hw⟩ := List.exists_cons_of_ne_nil hplain.whole_ne
  have hc : c.isDigit = true := hplain.whole c (by rw [hw]; exact List.mem_cons_self)
  obtain ⟨v, hv⟩ : ∃ v, numeral.chars = c :: v := ⟨_, by rw [Numeral.chars, hw]; rfl⟩
  refine ⟨c, v, hchars.trans hv, ?_, ?_⟩
  · exact isSpace_of_isWordChar (by simp [isWordChar, Char.isAlphanum, hc])
  · rw [scan_of_isDigit hc, ← List.cons_append, ← hv, scanNumber]
    simp only [Numeral.scan_chars hplain h, hnumber]

theorem scanned_text {s : String} (h : (text s).EndsBefore cs) : (text s).ScannedFrom cs := by
  refine ⟨'"', doubledChars '"' s.toList ++ ['"'], ?_, rfl, ?_⟩
  · simp [written, doubled]
  · simp [scan, symbol?, scanString, scanQuoted_doubled '"' s.toList h]

theorem scanned_word {k : TokenKind} (word : List Char) (hwritten : k.written.toList = word)
    (hword : ∀ c ∈ word, isWordChar c = true) (hstart : ∃ c w, word = c :: w ∧ startsWord c = true)
    (hscan : scanWord (word ++ cs) = .ok ⟨k, word, cs⟩) : k.ScannedFrom cs := by
  obtain ⟨c, w, rfl, hc⟩ := hstart
  refine ⟨c, w, hwritten, isSpace_of_isWordChar (isWordChar_of_startsWord hc), ?_⟩
  rw [scan_of_startsWord hc]
  exact hscan

theorem scanned_boolean {b : Bool} (h : (boolean b).EndsBefore cs) : (boolean b).ScannedFrom cs := by
  cases b with
  | true =>
    have hword : ∀ c ∈ ['T', 'R', 'U', 'E'], isWordChar c = true := List.all_eq_true.mp rfl
    refine scanned_word ['T', 'R', 'U', 'E'] rfl hword ⟨_, _, rfl, rfl⟩ ?_
    rw [scanWord_bare hword h, show bareWord ['T', 'R', 'U', 'E'] = .ok (.boolean true) by decide]
    rfl
  | false =>
    have hword : ∀ c ∈ ['F', 'A', 'L', 'S', 'E'], isWordChar c = true := List.all_eq_true.mp rfl
    refine scanned_word ['F', 'A', 'L', 'S', 'E'] rfl hword ⟨_, _, rfl, rfl⟩ ?_
    rw [scanWord_bare hword h, show bareWord ['F', 'A', 'L', 'S', 'E'] = .ok (.boolean false) by decide]
    rfl

theorem scanned_address {a : Address} (ha : a.OnGrid) (h : (address a).EndsBefore cs) : (address a).ScannedFrom cs := by
  have hword : ∀ c ∈ a.spelled.chars, isWordChar c = true := fun c => a.spelled.isWordChar_of_mem_chars
  have hfirst := a.spelled.exists_chars_eq_cons
  rw [a.chars_spelled] at hword hfirst
  refine scanned_word a.chars (by simp [written, Address.toText]) hword hfirst ?_
  rw [scanWord_bare hword h, Address.bareWord_chars ha]
  rfl

theorem scanned_identifier {name : String} (hn : (identifier name).Lexical) (h : (identifier name).EndsBefore cs) :
    (identifier name).ScannedFrom cs := by
  obtain ⟨c, w, hname, hc, hw⟩ := hn
  obtain ⟨d, cs, rfl⟩ := List.exists_cons_of_ne_nil (l := cs) (by rintro rfl; cases h)
  obtain rfl : d = '(' := by simpa [EndsBefore] using h
  have hword : ∀ d ∈ name.toList, isWordChar d = true := by
    rw [hname]
    exact List.forall_mem_cons.mpr ⟨isWordChar_of_startsWord hc, hw⟩
  refine scanned_word name.toList rfl hword ⟨c, w, hname, hc⟩ ?_
  rw [scanWord_call hword, String.ofList_toList]

theorem exists_token_eq (e : ErrorValue) : ∃ w, e.token.toList = '#' :: w ∧ ∀ c ∈ w, isErrorChar c = true := by
  cases e <;> exact ⟨_, rfl, List.all_eq_true.mp rfl⟩

theorem scanned_error {e : ErrorValue} (h : (error e).EndsBefore cs) : (error e).ScannedFrom cs := by
  obtain ⟨w, hw, hchars⟩ := exists_token_eq e
  have htoken : ErrorValue.ofToken? (String.ofList ('#' :: w)) = some e := by
    rw [← hw, String.ofList_toList]
    cases e <;> decide
  refine ⟨'#', w, hw, rfl, ?_⟩
  have hscan : scan '#' (w ++ cs) = scanErrorLiteral (w ++ cs) := by simp [scan, symbol?]
  rw [hscan]
  simp only [scanErrorLiteral, takeWhile_append hchars h, dropWhile_append hchars h, htoken]

theorem ofToken?_eq_none_of_mem {s : String} (h : '/' ∈ s.toList) : ErrorValue.ofToken? s = none := by
  have hfolded : '/' ∈ (foldCase s).toList := by
    rw [foldCase, String.toList_ofList]
    exact List.mem_map.mpr ⟨'/', h, rfl⟩
  refine List.find?_eq_none.mpr fun e _ hsame => ?_
  have hsame : foldCase e.token = foldCase s := of_decide_eq_true hsame
  rw [← hsame] at hfolded
  revert hfolded
  cases e <;> decide

/-- A slash after an error token runs into it, and makes it none. -/
theorem scan_error_slash (e : ErrorValue) (cs : List Char) :
    ∃ w cause, (error e).written.toList = '#' :: w ∧ scan '#' (w ++ '/' :: cs) = .error cause := by
  obtain ⟨w, hw, hchars⟩ := exists_token_eq e
  have hscan : scan '#' (w ++ '/' :: cs) = scanErrorLiteral (w ++ '/' :: cs) := by simp [scan, symbol?]
  have hlexeme : '/' ∈ (String.ofList ('#' :: (w ++ '/' :: cs).takeWhile isErrorChar)).toList := by
    have hslash : isErrorChar '/' = true := rfl
    simp [List.takeWhile_append_of_pos hchars, hslash]
  have herror : ∃ cause, scan '#' (w ++ '/' :: cs) = .error cause := by
    rw [hscan, scanErrorLiteral]
    simp only [ofToken?_eq_none_of_mem hlexeme]
    exact ⟨_, rfl⟩
  obtain ⟨cause, hcause⟩ := herror
  exact ⟨w, cause, hw, hcause⟩

theorem scanned_sheet {name : String} (hn : name ≠ "") : (sheet name).ScannedFrom cs := by
  have hwritten : (sheet name).written = sheetPrefixText name := rfl
  unfold sheetPrefixText at hwritten
  split at hwritten
  · next hplain =>
    unfold isPlainSheetName at hplain
    split at hplain
    · cases hplain
    · next c w hname =>
      simp only [Bool.and_eq_true, Bool.or_eq_true, decide_eq_true_eq, List.all_eq_true] at hplain
      have hc : startsWord c = true := by
        rcases hplain.1 with h | rfl
        · exact startsWord_of_isAlpha h
        · rfl
      have hword : ∀ d ∈ c :: w, isWordChar d = true := by
        intro d hd
        rcases hplain.2 d hd with (h | rfl) | rfl
        · simp [isWordChar, h]
        · rfl
        · rfl
      refine ⟨c, w ++ ['!'], by simp [hwritten, hname], isSpace_of_isWordChar (isWordChar_of_startsWord hc), ?_⟩
      rw [scan_of_startsWord hc, List.append_assoc, List.singleton_append, ← List.cons_append, scanWord_sheet hword,
        show String.ofList (c :: w) = name by rw [← hname, String.ofList_toList]]
      rfl
  · refine ⟨'\'', doubledChars '\'' name.toList ++ ['\'', '!'], ?_, rfl, ?_⟩
    · simp [hwritten, doubled]
    · have hne : name.toList ≠ [] := by simpa using hn
      have hquoted : scanQuoted '\'' (doubledChars '\'' name.toList ++ '\'' :: '!' :: cs) =
          some (name.toList, '!' :: cs) := scanQuoted_doubled _ _ (by rintro c ⟨⟩; rfl)
      simp [scan, symbol?, scanQuotedSheet, hquoted, hne]

theorem scanned_symbol {k : TokenKind} (c : Char) (hwritten : k.written = String.singleton c)
    (hsymbol : symbol? c = some k) (hspace : isSpace c = false) : k.ScannedFrom cs := by
  refine ⟨c, [], by simp [hwritten], hspace, ?_⟩
  simp [scan, hsymbol]

theorem scanned_less (h : less.EndsBefore cs) : less.ScannedFrom cs := by
  refine ⟨'<', [], rfl, rfl, ?_⟩
  show Except.ok (scanLess cs) = _
  unfold scanLess
  split
  · exact absurd (h '=' rfl) (by decide)
  · exact absurd (h '>' rfl) (by decide)
  · rfl

theorem scanned_greater (h : greater.EndsBefore cs) : greater.ScannedFrom cs := by
  refine ⟨'>', [], rfl, rfl, ?_⟩
  show Except.ok (scanGreater cs) = _
  unfold scanGreater
  split
  · exact absurd (h '=' rfl) (by decide)
  · rfl

/-- A written token is scanned again. -/
theorem scanned {k : TokenKind} (hk : k.Lexical) (h : k.EndsBefore cs) : k.ScannedFrom cs := by
  cases k with
  | number n => exact scanned_number hk h
  | text s => exact scanned_text h
  | boolean b => exact scanned_boolean h
  | error e => exact scanned_error h
  | identifier name => exact scanned_identifier hk h
  | address a => exact scanned_address hk h
  | sheet name => exact scanned_sheet hk
  | plus => exact scanned_symbol '+' rfl rfl rfl
  | minus => exact scanned_symbol '-' rfl rfl rfl
  | star => exact scanned_symbol '*' rfl rfl rfl
  | slash => exact scanned_symbol '/' rfl rfl rfl
  | caret => exact scanned_symbol '^' rfl rfl rfl
  | ampersand => exact scanned_symbol '&' rfl rfl rfl
  | equal => exact scanned_symbol '=' rfl rfl rfl
  | notEqual => exact ⟨'<', ['>'], rfl, rfl, rfl⟩
  | less => exact scanned_less h
  | lessEqual => exact ⟨'<', ['='], rfl, rfl, rfl⟩
  | greater => exact scanned_greater h
  | greaterEqual => exact ⟨'>', ['='], rfl, rfl, rfl⟩
  | colon => exact scanned_symbol ':' rfl rfl rfl
  | comma => exact scanned_symbol ',' rfl rfl rfl
  | leftParen => exact scanned_symbol '(' rfl rfl rfl
  | rightParen => exact scanned_symbol ')' rfl rfl rfl
  | stop => exact hk.elim

end

end TokenKind

/-! ### All tokens of a text -/

/-- What tokens are written as, one after the other. -/
def writtenChars (ks : List TokenKind) : List Char :=
  ks.flatMap fun k => k.written.toList

/-- None of the tokens runs into what follows it. -/
def Separated : List TokenKind → Prop
  | [] => True
  | k :: ks => k.EndsBefore (writtenChars ks) ∧ Separated ks

theorem writtenChars_cons {k : TokenKind} {c : Char} {w : List Char} (h : k.written.toList = c :: w) (ks : List TokenKind) :
    writtenChars (k :: ks) = c :: (w ++ writtenChars ks) := by
  rw [writtenChars, List.flatMap_cons, h]
  rfl

theorem writtenChars_append (ks us : List TokenKind) : writtenChars (ks ++ us) = writtenChars ks ++ writtenChars us :=
  List.flatMap_append

theorem writtenChars_flatten_replicate (n : Nat) (ks : List TokenKind) :
    writtenChars (List.replicate n ks).flatten = (List.replicate n (writtenChars ks)).flatten := by
  induction n with
  | zero => rfl
  | succ n ih => rw [List.replicate_succ, List.flatten_cons, writtenChars_append, ih, List.replicate_succ, List.flatten_cons]

theorem writtenChars_replicate {k : TokenKind} {c : Char} (h : k.written.toList = [c]) (n : Nat) :
    writtenChars (List.replicate n k) = List.replicate n c := by
  induction n with
  | zero => rfl
  | succ n ih => rw [List.replicate_succ, writtenChars_cons h, ih, List.replicate_succ, List.nil_append]

/-- A token is scanned, and then those after it. -/
theorem tokensFrom_cons {k : TokenKind} {ks : List TokenKind} (h : k.ScannedFrom (writtenChars ks)) (position : Nat) :
    ∃ next, tokensFrom position 0 (writtenChars (k :: ks)) =
      (tokensFrom next 0 (writtenChars ks)).map (⟨k, position⟩ :: ·) := by
  obtain ⟨c, w, hwritten, hspace, hscan⟩ := h
  rw [writtenChars_cons hwritten]
  exact ⟨_, tokensFrom_of_scan hspace hscan⟩

theorem tokensFrom_written {ks : List TokenKind} (hlex : ∀ k ∈ ks, k.Lexical) (hsep : Separated ks) (position : Nat) :
    ∃ ts, tokensFrom position 0 (writtenChars ks) = .ok ts ∧ ts.map Token.kind = ks ++ [.stop] := by
  induction ks generalizing position with
  | nil => exact ⟨_, rfl, rfl⟩
  | cons k ks ih =>
    obtain ⟨hk, hks⟩ := List.forall_mem_cons.mp hlex
    obtain ⟨next, hnext⟩ := tokensFrom_cons (TokenKind.scanned hk hsep.1) position
    obtain ⟨ts, hts, hkinds⟩ := ih hks hsep.2 next
    exact ⟨⟨k, position⟩ :: ts, by rw [hnext, hts]; rfl, by simp [hkinds]⟩

/-- An error token directly before a `/` is not scanned again. -/
theorem tokensFrom_error_slash (e : ErrorValue) (ks : List TokenKind) (position : Nat) :
    ∃ cause, tokensFrom position 0 (writtenChars (.error e :: .slash :: ks)) = .error cause := by
  obtain ⟨w, cause, hwritten, hscan⟩ := TokenKind.scan_error_slash e (writtenChars ks)
  have hslash : writtenChars (.slash :: ks) = '/' :: ([] ++ writtenChars ks) := writtenChars_cons rfl ks
  rw [writtenChars_cons hwritten, hslash, List.nil_append, tokensFrom]
  simp only [show isSpace '#' = false from rfl, hscan, Bool.false_eq_true, if_false]
  exact ⟨_, rfl⟩

/-! ### What a scan takes -/

/-- What a scan can take from the start of `c :: cs`: the kinds of tokens, and the characters that make them. -/
inductive Takes (c : Char) (cs : List Char) : Scanned → Prop where
  | symbol {k : TokenKind} (h : symbol? c = some k) : Takes c cs ⟨k, [c], cs⟩
  | less : Takes c cs (scanLess cs)
  | greater : Takes c cs (scanGreater cs)
  | string {inside rest : List Char} :
    Takes c cs ⟨.text (String.ofList inside), '"' :: (doubledChars '"' inside ++ ['"']), rest⟩
  | quotedSheet {inside rest : List Char} (hne : inside ≠ []) :
    Takes c cs ⟨.sheet (String.ofList inside), '\'' :: (doubledChars '\'' inside ++ ['\'']) ++ ['!'], rest⟩
  | error {e : ErrorValue} {w rest : List Char} : Takes c cs ⟨.error e, '#' :: w, rest⟩
  | number {numeral : Numeral} {rest : List Char} {n : Number} (h : numeral.toNumber? = some n) :
    Takes c cs ⟨.number n, numeral.chars, rest⟩
  | sheet {w rest : List Char} (hc : startsWord c = true) :
    Takes c cs ⟨.sheet (String.ofList (c :: w)), c :: w ++ ['!'], rest⟩
  | call {w rest : List Char} (hc : startsWord c = true) (hw : ∀ d ∈ w, isWordChar d = true) :
    Takes c cs ⟨.identifier (String.ofList (c :: w)), c :: w, rest⟩
  | bare {w rest : List Char} {k : TokenKind} (hc : startsWord c = true) (hw : ∀ d ∈ w, isWordChar d = true)
    (h : bareWord (c :: w) = .ok k) : Takes c cs ⟨k, c :: w, rest⟩

section
variable {c : Char} {cs : List Char} {s : Scanned}

theorem takes_of_scanString (h : scanString cs = .ok s) : Takes c cs s := by
  unfold scanString at h
  split at h
  · cases h
    exact .string
  · cases h

theorem takes_of_scanQuotedSheet (h : scanQuotedSheet cs = .ok s) : Takes c cs s := by
  unfold scanQuotedSheet at h
  split at h
  · cases h
  · simp only at h
    split at h
    · cases h
    · next hne =>
      split at h
      · cases h
        exact .quotedSheet hne
      · cases h

theorem takes_of_scanErrorLiteral (h : scanErrorLiteral cs = .ok s) : Takes c cs s := by
  unfold scanErrorLiteral at h
  simp only at h
  split at h
  · cases h
    exact .error
  · cases h

theorem takes_of_scanNumber {text : List Char} (h : scanNumber text = .ok s) : Takes c cs s := by
  unfold scanNumber at h
  simp only at h
  split at h
  · next hn =>
    cases h
    exact .number hn
  · cases h

theorem takes_of_scanWord (hc : startsWord c = true) (h : scanWord (c :: cs) = .ok s) : Takes c cs s := by
  have hword : (c :: cs).takeWhile isWordChar = c :: cs.takeWhile isWordChar := by
    rw [List.takeWhile_cons, isWordChar_of_startsWord hc, if_pos rfl]
  have hmem : ∀ d ∈ cs.takeWhile isWordChar, isWordChar d = true := fun d hd =>
    List.all_eq_true.mp List.all_takeWhile d hd
  unfold scanWord at h
  simp only [hword] at h
  split at h
  · cases h
    exact .sheet hc
  · cases h
    exact .call hc hmem
  · obtain ⟨k, hk, rfl⟩ := Except.map_eq_ok.mp h
    exact .bare hc hmem hk

theorem takes_of_scan (h : scan c cs = .ok s) : Takes c cs s := by
  unfold scan at h
  split at h
  · next hk =>
    cases h
    exact .symbol hk
  · split at h
    · cases h
      exact .less
    split at h
    · cases h
      exact .greater
    split at h
    · exact takes_of_scanString h
    split at h
    · exact takes_of_scanQuotedSheet h
    split at h
    · exact takes_of_scanErrorLiteral h
    split at h
    · exact takes_of_scanNumber h
    split at h
    · next hc => exact takes_of_scanWord hc h
    · cases h

end

/-! ### How a text is divided -/

/-- How a text is divided into tokens: white space is passed over, and each scan goes on where the last one ended. -/
inductive Divides : List TokenKind → List Char → Prop where
  | stop : Divides [.stop] []
  | blank {c : Char} {cs : List Char} {ks : List TokenKind} (hc : isSpace c = true) (h : Divides ks cs) :
    Divides ks (c :: cs)
  | token {c : Char} {cs : List Char} {t : Scanned} {ks : List TokenKind} (hc : isSpace c = false)
    (hscan : scan c cs = .ok t) (h : Divides ks t.rest) : Divides (t.kind :: ks) (c :: cs)

/-- How the tokens of a text come about: at the end, past white space, where a scan fails, and where one succeeds. -/
theorem tokensFrom_induction {motive : Nat → List Char → Except ParseError (List Token) → Prop}
    (stop : ∀ position, motive position [] (.ok [⟨.stop, position⟩]))
    (blank : ∀ position c cs result, isSpace c = true → motive (position + c.utf8Size) cs result →
      motive position (c :: cs) result)
    (fail : ∀ position c cs e, isSpace c = false → scan c cs = .error e →
      motive position (c :: cs) (.error { e with position := position + e.position }))
    (token : ∀ position c cs t result, isSpace c = false → scan c cs = .ok t →
      motive (position + byteSize t.lexeme) t.rest result →
      motive position (c :: cs) (result.map (⟨t.kind, position⟩ :: ·)))
    (position : Nat) (cs : List Char) : motive position cs (tokensFrom position 0 cs) := by
  -- On the length, since a scan may take several characters.
  induction hn : cs.length using Nat.strongRecOn generalizing position cs with
  | ind n ih =>
    subst hn
    cases cs with
    | nil => exact stop position
    | cons c cs =>
      cases hc : isSpace c with
      | true =>
        rw [tokensFrom, if_pos hc]
        exact blank _ _ _ _ hc (ih cs.length (by simp) _ _ rfl)
      | false =>
        cases hscan : scan c cs with
        | error e =>
          rw [tokensFrom, if_neg (by simp [hc])]
          simp only [hscan]
          exact fail _ _ _ _ hc hscan
        | ok t =>
          obtain ⟨htext, hne⟩ := scan_of hscan
          have hlength : t.rest.length < (c :: cs).length := by
            have hpos := List.length_pos_iff.mpr hne
            rw [htext, List.length_append]
            omega
          rw [tokensFrom_of_scan hc hscan]
          exact token _ _ _ _ _ hc hscan (ih _ hlength _ _ rfl)

theorem divides_of_tokensFrom {position : Nat} {cs : List Char} {ts : List Token}
    (h : tokensFrom position 0 cs = .ok ts) : Divides (ts.map Token.kind) cs := by
  refine tokensFrom_induction (motive := fun _ cs result => ∀ ts, result = .ok ts → Divides (ts.map Token.kind) cs)
    ?_ ?_ ?_ ?_ position cs ts h
  · rintro position _ ⟨⟩
    exact .stop
  · exact fun _ _ _ _ hc hrest ts hts => .blank hc (hrest ts hts)
  · nofun
  · intro position c cs t result hc hscan hrest ts hts
    obtain ⟨us, hus, rfl⟩ := Except.map_eq_ok.mp hts
    exact .token hc hscan (hrest us hus)

/-- The division of a text does not depend on where the text stands. -/
theorem Divides.exists_tokensFrom {ks : List TokenKind} {cs : List Char} (h : Divides ks cs) (position : Nat) :
    ∃ ts, tokensFrom position 0 cs = .ok ts ∧ ts.map Token.kind = ks := by
  induction h generalizing position with
  | stop => exact ⟨[⟨.stop, position⟩], rfl, rfl⟩
  | blank hc _ ih =>
    rw [tokensFrom, if_pos hc]
    exact ih _
  | token hc hscan _ ih =>
    obtain ⟨us, hus, hkinds⟩ := ih (position + byteSize _)
    rw [tokensFrom_of_scan hc hscan, hus]
    exact ⟨_, rfl, by rw [List.map_cons, hkinds]⟩

/-! ### Scanned tokens can be written -/

theorem lexical_of_symbol? {c : Char} {k : TokenKind} (h : symbol? c = some k) : k.Lexical := by
  unfold symbol? at h
  split at h <;> cases h <;> exact trivial

theorem lexical_of_toNumber? {numeral : Numeral} {n : Number} (h : numeral.toNumber? = some n) :
    (TokenKind.number n).Lexical := by
  unfold Numeral.toNumber? at h
  simp only at h
  split at h
  · next hfinite =>
    cases h
    exact ⟨(Bool.and_eq_true_iff.mp hfinite).2, Number.isNegative_toNumber _⟩
  · cases h

theorem lexical_bareWord {c : Char} {w : List Char} (hc : startsWord c = true) (hw : ∀ d ∈ w, isWordChar d = true)
    {k : TokenKind} (h : bareWord (c :: w) = .ok k) : k.Lexical := by
  unfold bareWord at h
  split at h
  · cases h
    exact trivial
  · split at h
    · split at h
      · next a ha =>
        cases h
        exact Address.onGrid_parseChars ha
      · cases h
    · cases h
      exact ⟨c, w, by simp, hc, hw⟩

theorem lexical_scan {c : Char} {cs : List Char} {s : Scanned} (h : scan c cs = .ok s) : s.kind.Lexical := by
  cases takes_of_scan h with
  | symbol hk => exact lexical_of_symbol? hk
  | less => fun_cases scanLess cs <;> exact trivial
  | greater => fun_cases scanGreater cs <;> exact trivial
  | string | error => exact trivial
  | quotedSheet hne => simpa [TokenKind.Lexical] using hne
  | number hn => exact lexical_of_toNumber? hn
  | sheet => simp [TokenKind.Lexical]
  | call hc hw => exact ⟨c, _, by simp, hc, hw⟩
  | bare hc hw hk => exact lexical_bareWord hc hw hk

theorem Divides.exists_lexical {ks : List TokenKind} {cs : List Char} (h : Divides ks cs) :
    ∃ us, ks = us ++ [.stop] ∧ ∀ k ∈ us, k.Lexical := by
  induction h with
  | stop => exact ⟨[], rfl, List.forall_mem_nil _⟩
  | blank _ _ ih => exact ih
  | token _ hscan _ ih =>
    obtain ⟨us, rfl, hlex⟩ := ih
    exact ⟨_ :: us, rfl, List.forall_mem_cons.mpr ⟨lexical_scan hscan, hlex⟩⟩

/-- The tokens of a text are those of what is written in it, and one that marks the end. -/
theorem exists_lexical_of_tokensFrom {position : Nat} {cs : List Char} {ts : List Token}
    (h : tokensFrom position 0 cs = .ok ts) :
    ∃ ks, ts.map Token.kind = ks ++ [.stop] ∧ ∀ k ∈ ks, k.Lexical :=
  (divides_of_tokensFrom h).exists_lexical

theorem lexical_of_tokensFrom {position : Nat} {cs : List Char} {ts : List Token}
    (h : tokensFrom position 0 cs = .ok ts) : ∀ t ∈ ts, t.kind = .stop ∨ t.kind.Lexical := by
  obtain ⟨ks, hkinds, hlex⟩ := exists_lexical_of_tokensFrom h
  intro t ht
  have hmem : t.kind ∈ ks ++ [.stop] := hkinds ▸ List.mem_map_of_mem ht
  rcases List.mem_append.mp hmem with hk | hk
  · exact .inr (hlex _ hk)
  · exact .inl (List.mem_singleton.mp hk)

end Spreadsheet
