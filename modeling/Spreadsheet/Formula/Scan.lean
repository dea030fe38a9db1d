import Spreadsheet.Formula.ParseError
import Spreadsheet.Value.Coercion

/-! # From text to tokens

`scan` takes one token from the start of a text, `tokensFrom` all of them, with white space between
tokens passed over. What a scan takes and what it leaves make up the text again (`scan_of`), so that the
next token is looked for where the lexeme of the last one ends (`tokensFrom_of_scan`). -/

namespace Spreadsheet

def Text.byteSize : List Char → Nat
  | [] => 0
  | c :: cs => c.utf8Size + byteSize cs

/-- One token taken from the start of a text. -/
structure Scanned where
  kind : TokenKind
  /-- The characters taken. -/
  lexeme : List Char
  /-- The characters left. -/
  rest : List Char

/-- What stands between an opening quote and its closing quote, with doubled quotes undone, and the
    text after it; nothing if the quote is never closed. -/
def scanQuoted (quote : Char) : List Char → Option (List Char × List Char)
  | [] => none
  | [c] => if c = quote then some ([], []) else none
  | c :: d :: cs =>
    if c = quote then
      if d = quote then (scanQuoted quote cs).map fun (inside, rest) => (quote :: inside, rest)
      else some ([], d :: cs)
    else
      (scanQuoted quote (d :: cs)).map fun (inside, rest) => (c :: inside, rest)

/-- A text in double quotes; `cs` follows the opening quote. -/
def scanString (cs : List Char) : Except ParseError Scanned :=
  match scanQuoted '"' cs with
  | some (inside, rest) =>
    .ok ⟨.text (String.ofList inside), '"' :: (Text.doubledChars '"' inside ++ ['"']), rest⟩
  | none => .error ⟨.unterminatedString, 0⟩

/-- A sheet name in single quotes and the `!` after it; `cs` follows the opening quote. -/
def scanQuotedSheet (cs : List Char) : Except ParseError Scanned :=
  match scanQuoted '\'' cs with
  | none => .error ⟨.unterminatedSheetName, 0⟩
  | some (inside, rest) =>
    let quoted := '\'' :: (Text.doubledChars '\'' inside ++ ['\''])
    if inside = [] then
      .error ⟨.emptySheetName, 0⟩
    else
      match rest with
      | '!' :: after => .ok ⟨.sheet (String.ofList inside), quoted ++ ['!'], after⟩
      | _ => .error ⟨.missingBang (String.ofList inside), Text.byteSize quoted⟩

/-- The characters of an error token after its `#`. -/
def isErrorChar (c : Char) : Bool :=
  c.isAlphanum || c = '/' || c = '?' || c = '!'

/-- An error token; `cs` follows the `#`. -/
def scanErrorLiteral (cs : List Char) : Except ParseError Scanned :=
  let lexeme := '#' :: cs.takeWhile isErrorChar
  match ErrorValue.ofToken? (String.ofList lexeme) with
  | some e => .ok ⟨.error e, lexeme, cs.dropWhile isErrorChar⟩
  | none => .error ⟨.unknownErrorLiteral (String.ofList lexeme), 0⟩

def scanNumber (cs : List Char) : Except ParseError Scanned :=
  let (numeral, rest) := Numeral.scan cs
  match numeral.toNumber? with
  | some n => .ok ⟨.number n, numeral.chars, rest⟩
  | none => .error ⟨.invalidNumber (String.ofList numeral.chars), 0⟩

/-- The characters of names and addresses. -/
def isWordChar (c : Char) : Bool :=
  c.isAlphanum || c = '_' || c = '$' || c = '.'

/-- Letters and then digits, each with at most one `$` in front. -/
def isAddressShaped (word : List Char) : Bool :=
  let (_, rest) := Address.scanMarker word
  let (_, digits) := Address.scanMarker (rest.dropWhile Char.isAlpha)
  !(rest.takeWhile Char.isAlpha).isEmpty && !digits.isEmpty && digits.all Char.isDigit

/-- What a word is that is neither a sheet nor a function: a truth value, an address, or a name. -/
def bareWord (word : List Char) : Except ParseError TokenKind :=
  match Text.toLogical? (String.ofList word) with
  | some b => .ok (.boolean b)
  | none =>
    if isAddressShaped word then
      match Address.parseChars word with
      | .ok a => .ok (.address a)
      | .error refusal => .error ⟨.badAddress refusal, 0⟩
    else
      .ok (.identifier (String.ofList word))

/-- A word, with the `!` after it if it names a sheet. Before a parenthesis it names a function. -/
def scanWord (cs : List Char) : Except ParseError Scanned :=
  let word := cs.takeWhile isWordChar
  match cs.dropWhile isWordChar with
  | '!' :: after => .ok ⟨.sheet (String.ofList word), word ++ ['!'], after⟩
  | '(' :: after => .ok ⟨.identifier (String.ofList word), word, '(' :: after⟩
  | rest => (bareWord word).map fun kind => ⟨kind, word, rest⟩

/-- The token of a single character that starts no other token. -/
def symbol? : Char → Option TokenKind
  | '+' => some .plus
  | '-' => some .minus
  | '*' => some .star
  | '/' => some .slash
  | '^' => some .caret
  | '&' => some .ampersand
  | '=' => some .equal
  | ':' => some .colon
  | ',' => some .comma
  | '(' => some .leftParen
  | ')' => some .rightParen
  | _ => none

/-- The comparison that starts with `<`; `cs` follows it. -/
def scanLess : List Char → Scanned
  | '=' :: cs => ⟨.lessEqual, ['<', '='], cs⟩
  | '>' :: cs => ⟨.notEqual, ['<', '>'], cs⟩
  | cs => ⟨.less, ['<'], cs⟩

/-- The comparison that starts with `>`; `cs` follows it. -/
def scanGreater : List Char → Scanned
  | '=' :: cs => ⟨.greaterEqual, ['>', '='], cs⟩
  | cs => ⟨.greater, ['>'], cs⟩

/-- Whether a number starts here: a digit, or a point before a digit. -/
def startsNumber : List Char → Bool
  | '.' :: d :: _ => d.isDigit
  | c :: _ => c.isDigit
  | [] => false

/-- The token at the start of `c :: cs`, which is no white space. -/
def scan (c : Char) (cs : List Char) : Except ParseError Scanned :=
  match symbol? c with
  | some kind => .ok ⟨kind, [c], cs⟩
  | none =>
    if c = '<' then .ok (scanLess cs)
    else if c = '>' then .ok (scanGreater cs)
    else if c = '"' then scanString cs
    else if c = '\'' then scanQuotedSheet cs
    else if c = '#' then scanErrorLiteral cs
    else if startsNumber (c :: cs) then scanNumber (c :: cs)
    else if c.isAlpha || c = '_' || c = '$' then scanWord (c :: cs)
    else .error ⟨.invalidCharacter c, 0⟩

/-! ### What a scan takes -/

theorem scanQuoted_eq_append {quote : Char} {cs inside rest : List Char}
    (h : scanQuoted quote cs = some (inside, rest)) :
    cs = Text.doubledChars quote inside ++ quote :: rest := by
  fun_induction scanQuoted quote cs generalizing inside rest with
  | case1 => simp at h
  | case2 =>
    simp only [Option.some.injEq, Prod.mk.injEq] at h
    obtain ⟨rfl, rfl⟩ := h
    rfl
  | case3 => simp at h
  | case4 cs ih =>
    obtain ⟨⟨inner, after⟩, hin, heq⟩ := Option.map_eq_some_iff.1 h
    simp only [Prod.mk.injEq] at heq
    obtain ⟨rfl, rfl⟩ := heq
    simp [ih hin, Text.doubledChars]
  | case5 d cs hd =>
    simp only [Option.some.injEq, Prod.mk.injEq] at h
    obtain ⟨rfl, rfl⟩ := h
    rfl
  | case6 c d cs hc ih =>
    obtain ⟨⟨inner, after⟩, hin, heq⟩ := Option.map_eq_some_iff.1 h
    simp only [Prod.mk.injEq] at heq
    obtain ⟨rfl, rfl⟩ := heq
    simp [ih hin, Text.doubledChars, hc]

/-- A scan takes a nonempty piece from the start of `text`. -/
def Scanned.Of (text : List Char) (s : Scanned) : Prop :=
  text = s.lexeme ++ s.rest ∧ s.lexeme ≠ []

theorem scanString_of {cs : List Char} {s : Scanned} (h : scanString cs = .ok s) : s.Of ('"' :: cs) := by
  unfold scanString at h
  split at h
  case h_1 inside rest hq =>
    cases h
    exact ⟨by simp [scanQuoted_eq_append hq], by simp⟩
  case h_2 => cases h

theorem scanQuotedSheet_of {cs : List Char} {s : Scanned} (h : scanQuotedSheet cs = .ok s) :
    s.Of ('\'' :: cs) := by
  unfold scanQuotedSheet at h
  split at h
  case h_1 => cases h
  case h_2 inside rest hq =>
    simp only at h
    split at h
    · cases h
    · split at h
      case h_1 after =>
        cases h
        exact ⟨by simp [scanQuoted_eq_append hq], by simp⟩
      case h_2 => cases h

theorem scanErrorLiteral_of {cs : List Char} {s : Scanned} (h : scanErrorLiteral cs = .ok s) :
    s.Of ('#' :: cs) := by
  unfold scanErrorLiteral at h
  simp only at h
  split at h
  · cases h
    exact ⟨by simp, by simp⟩
  · cases h

theorem Numeral.chars_ne_nil_of_startsNumber {cs : List Char} (h : startsNumber cs = true) :
    (Numeral.scan cs).1.chars ≠ [] := by
  unfold startsNumber at h
  split at h
  · simp [Numeral.scan, Numeral.chars, Numeral.scanFraction, List.dropWhile, List.takeWhile]
  · simp [Numeral.scan, Numeral.chars, List.takeWhile, h]
  · cases h

theorem scanNumber_of {cs : List Char} {s : Scanned} (hs : startsNumber cs = true)
    (h : scanNumber cs = .ok s) : s.Of cs := by
  unfold scanNumber at h
  simp only at h
  split at h
  · cases h
    exact ⟨(Numeral.scan_eq_append cs).symm, Numeral.chars_ne_nil_of_startsNumber hs⟩
  · cases h

theorem scanWord_of {c : Char} {cs : List Char} {s : Scanned} (hc : isWordChar c = true)
    (h : scanWord (c :: cs) = .ok s) : s.Of (c :: cs) := by
  have hword : (c :: cs).takeWhile isWordChar ≠ [] := by simp [hc]
  have happ := List.takeWhile_append_dropWhile (p := isWordChar) (l := c :: cs)
  unfold scanWord at h
  simp only at h
  split at h
  case h_1 after hd =>
    cases h
    rw [hd] at happ
    exact ⟨by simp [happ], by simp⟩
  case h_2 after hd =>
    cases h
    rw [hd] at happ
    exact ⟨happ.symm, hword⟩
  case h_3 =>
    cases hb : bareWord ((c :: cs).takeWhile isWordChar) with
    | error e => rw [hb] at h; cases h
    | ok kind =>
      rw [hb] at h
      cases h
      exact ⟨happ.symm, hword⟩

theorem scan_of {c : Char} {cs : List Char} {s : Scanned} (h : scan c cs = .ok s) : s.Of (c :: cs) := by
  unfold scan at h
  split at h
  case h_1 => cases h; exact ⟨rfl, by simp⟩
  case h_2 =>
    split at h
    · subst c; cases h; fun_cases scanLess cs <;> exact ⟨rfl, by simp⟩
    split at h
    · subst c; cases h; fun_cases scanGreater cs <;> exact ⟨rfl, by simp⟩
    split at h
    · subst c; exact scanString_of h
    split at h
    · subst c; exact scanQuotedSheet_of h
    split at h
    · subst c; exact scanErrorLiteral_of h
    split at h
    · next hs => exact scanNumber_of hs h
    split at h
    · next hw =>
      refine scanWord_of ?_ h
      simp only [Bool.or_eq_true, decide_eq_true_eq] at hw
      rcases hw with (hw | hw) | hw
      · simp [isWordChar, Char.isAlphanum, hw]
      · simp [isWordChar, hw]
      · simp [isWordChar, hw]
    · cases h

/-! ### All tokens of a text -/

/-- The tokens of `cs`, which starts at byte `position`; the last one marks the end. The first `skip`
    characters belong to a token that was taken before. -/
def tokensFrom (position skip : Nat) : List Char → Except ParseError (List Token)
  | [] => .ok [⟨.stop, position⟩]
  | c :: cs =>
    match skip with
    | skip + 1 => tokensFrom (position + c.utf8Size) skip cs
    | 0 =>
      if Text.isSpace c then
        tokensFrom (position + c.utf8Size) 0 cs
      else
        match scan c cs with
        | .error e => .error { e with position := position + e.position }
        | .ok s =>
          (tokensFrom (position + c.utf8Size) (s.lexeme.length - 1) cs).map (⟨s.kind, position⟩ :: ·)

def tokens (s : String) : Except ParseError (List Token) :=
  tokensFrom 0 0 s.toList

theorem tokensFrom_skip (position skip : Nat) (cs : List Char) :
    tokensFrom position skip cs =
      tokensFrom (position + Text.byteSize (cs.take skip)) 0 (cs.drop skip) := by
  induction cs generalizing position skip with
  | nil => simp [tokensFrom, Text.byteSize]
  | cons c cs ih =>
    cases skip with
    | zero => simp [Text.byteSize]
    | succ skip =>
      rw [tokensFrom, ih, List.take_succ_cons, List.drop_succ_cons, Text.byteSize, Nat.add_assoc]

/-- After a token the text goes on where its lexeme ends. -/
theorem tokensFrom_of_scan {position : Nat} {c : Char} {cs : List Char} {s : Scanned}
    (hspace : Text.isSpace c = false) (h : scan c cs = .ok s) :
    tokensFrom position 0 (c :: cs) =
      (tokensFrom (position + Text.byteSize s.lexeme) 0 s.rest).map (⟨s.kind, position⟩ :: ·) := by
  obtain ⟨htext, hne⟩ := scan_of h
  obtain ⟨d, ds, hlexeme⟩ := List.exists_cons_of_ne_nil hne
  rw [hlexeme, List.cons_append, List.cons.injEq] at htext
  obtain ⟨rfl, rfl⟩ := htext
  simp only [tokensFrom, hspace, h, Bool.false_eq_true, if_false]
  rw [tokensFrom_skip]
  simp [hlexeme, Text.byteSize, Nat.add_assoc]

end Spreadsheet
