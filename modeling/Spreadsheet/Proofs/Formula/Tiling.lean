import Spreadsheet.Proofs.Formula.Tokens

/-! # Where tokens stand

Tokens tile the text from the byte on where the scanning starts (`Tiles`): what was scanned stands at the position of
its token, and there is only white space from where it ends to the next position. A scan that fails does so at such a
position, and reports a byte at which a character starts or the text ends (`Breaks`). -/

namespace Spreadsheet

/-! ### Bytes of a text -/

namespace Text

/-- A character of the text starts at the byte, or the text ends there. -/
def IsBoundary (text : String) (position : Nat) : Prop :=
  (String.Pos.Raw.mk position).IsValid text

/-- What is left of the text from the byte on. -/
def LeftAt (text : String) (rest : List Char) (position : Nat) : Prop :=
  ∃ before, text.toList = before ++ rest ∧ position = byteSize before

/-- The characters stand in the text at the byte. -/
def StandsAt (text : String) (cs : List Char) (position : Nat) : Prop :=
  ∃ rest, LeftAt text (cs ++ rest) position

/-- There is nothing but white space between the bytes. -/
def BlankBetween (text : String) (first last : Nat) : Prop :=
  ∃ cs, (∀ c ∈ cs, isSpace c = true) ∧ StandsAt text cs first ∧ last = first + byteSize cs

variable {text : String} {cs rest : List Char} {position : Nat}

theorem byteSize_append (as bs : List Char) : byteSize (as ++ bs) = byteSize as + byteSize bs := by
  induction as with
  | nil => simp [byteSize]
  | cons a as ih => rw [List.cons_append, byteSize, byteSize, ih, Nat.add_assoc]

theorem byteSize_pos (h : cs ≠ []) : 0 < byteSize cs := by
  obtain ⟨c, cs, rfl⟩ := List.exists_cons_of_ne_nil h
  exact Nat.add_pos_left c.utf8Size_pos _

theorem utf8ByteSize_ofList (cs : List Char) : (String.ofList cs).utf8ByteSize = byteSize cs := by
  induction cs with
  | nil => rfl
  | cons c cs ih =>
    rw [← List.singleton_append, String.ofList_append, String.utf8ByteSize_append, ih]
    simp [byteSize]

theorem byteSize_toList (s : String) : byteSize s.toList = s.utf8ByteSize := by
  rw [← utf8ByteSize_ofList, String.ofList_toList]

namespace LeftAt

theorem append (h : LeftAt text (cs ++ rest) position) : LeftAt text rest (position + byteSize cs) := by
  obtain ⟨before, htext, rfl⟩ := h
  exact ⟨before ++ cs, by rw [htext, List.append_assoc], (byteSize_append before cs).symm⟩

theorem isBoundary (h : LeftAt text rest position) : IsBoundary text position := by
  obtain ⟨before, htext, rfl⟩ := h
  refine String.Pos.Raw.isValid_iff_exists_append.mpr ⟨String.ofList before, String.ofList rest, ?_, ?_⟩
  · rw [← String.ofList_append, ← htext, String.ofList_toList]
  · rw [← utf8ByteSize_ofList]
    rfl

theorem eq_utf8ByteSize (h : LeftAt text [] position) : position = text.utf8ByteSize := by
  obtain ⟨before, htext, rfl⟩ := h
  rw [List.append_nil] at htext
  rw [← htext, byteSize_toList]

end LeftAt

theorem StandsAt.isBoundary (h : StandsAt text cs position) :
    IsBoundary text position ∧ IsBoundary text (position + byteSize cs) := by
  obtain ⟨rest, hleft⟩ := h
  exact ⟨hleft.isBoundary, hleft.append.isBoundary⟩

theorem exists_leftAt (h : IsBoundary text position) : ∃ rest, LeftAt text rest position := by
  obtain ⟨before, after, rfl, hposition⟩ := String.Pos.Raw.isValid_iff_exists_append.mp h
  refine ⟨after.toList, before.toList, String.toList_append, ?_⟩
  rw [byteSize_toList]
  exact congrArg String.Pos.Raw.byteIdx hposition

/-- The characters from a byte on. -/
def charsFrom (position : Nat) : List Char → List Char
  | [] => []
  | c :: cs => if position = 0 then c :: cs else charsFrom (position - c.utf8Size) cs

theorem charsFrom_byteSize (before rest : List Char) : charsFrom (byteSize before) (before ++ rest) = rest := by
  induction before with
  | nil => cases rest <;> rfl
  | cons c before ih =>
    have hpos := c.utf8Size_pos
    rw [List.cons_append, charsFrom, byteSize, if_neg (by omega), Nat.add_sub_cancel_left, ih]

theorem charsFrom_of_leftAt (h : LeftAt text rest position) : charsFrom position text.toList = rest := by
  obtain ⟨before, htext, rfl⟩ := h
  rw [htext, charsFrom_byteSize]

theorem LeftAt.unique {other : List Char} (h : LeftAt text rest position) (h' : LeftAt text other position) :
    rest = other := by
  rw [← charsFrom_of_leftAt h, charsFrom_of_leftAt h']

theorem leftAt_charsFrom (h : IsBoundary text position) : LeftAt text (charsFrom position text.toList) position := by
  obtain ⟨rest, hleft⟩ := exists_leftAt h
  rwa [charsFrom_of_leftAt hleft]

theorem LeftAt.blankBetween (h : LeftAt text rest position) : BlankBetween text position position :=
  ⟨[], List.forall_mem_nil _, ⟨rest, h⟩, rfl⟩

theorem BlankBetween.le {first last : Nat} (h : BlankBetween text first last) : first ≤ last := by
  obtain ⟨cs, -, -, rfl⟩ := h
  exact Nat.le_add_right _ _

theorem BlankBetween.cons {c : Char} {last : Nat} (hc : isSpace c = true) (hleft : LeftAt text (c :: rest) position)
    (h : BlankBetween text (position + c.utf8Size) last) : BlankBetween text position last := by
  obtain ⟨cs, hcs, ⟨others, hothers⟩, rfl⟩ := h
  have hrest : LeftAt text rest (position + byteSize [c]) := hleft.append
  obtain rfl := hrest.unique hothers
  exact ⟨c :: cs, List.forall_mem_cons.mpr ⟨hc, hcs⟩, ⟨others, hleft⟩, Nat.add_assoc ..⟩

end Text

open Text

/-! ### Tokens and what they were scanned from -/

/-- A token and the characters that it was scanned from. -/
structure Lexed where
  token : Token
  lexeme : List Char

namespace Lexed

def start (l : Lexed) : Nat :=
  l.token.position

/-- The byte at which the characters end. -/
def stop (l : Lexed) : Nat :=
  l.start + byteSize l.lexeme

/-- The characters of a token stand at its position, where a scan takes them for it. -/
structure ScannedIn (text : String) (l : Lexed) : Prop where
  stands : StandsAt text l.lexeme l.start
  nonempty : l.lexeme ≠ []
  proper : l.token.kind ≠ .stop
  scanned : ∃ c cs rest, LeftAt text (c :: cs) l.start ∧ scan c cs = .ok ⟨l.token.kind, l.lexeme, rest⟩

end Lexed

/-- Tokens and white space fill the text from `start` to `stop`. -/
structure Tiles (text : String) (start stop : Nat) (ls : List Lexed) : Prop where
  scanned : ∀ l ∈ ls, l.ScannedIn text
  increasing : (ls.map Lexed.start ++ [stop]).Pairwise (· < ·)
  gaps : ∀ gap ∈ (start :: ls.map Lexed.stop).zip (ls.map Lexed.start ++ [stop]), BlankBetween text gap.1 gap.2

/-- What is cut out of the text to be reported or read, where a scan fails with the cause. -/
def ParseCause.Cites (cs : List Char) : ParseCause → Prop
  | unknownErrorLiteral reported => cs = reported.toList
  | invalidNumber reported => cs = reported.toList
  | badAddress refusal => Address.parseChars cs = .error refusal
  | _ => True

/-- What a scan slices off the start of what is left: the characters of a number, of a word, or of an error. -/
inductive SlicesOff : List Char → List Char → Prop
  | number (cs : List Char) : SlicesOff cs (Numeral.scan cs).1.chars
  | word (cs : List Char) : SlicesOff cs (cs.takeWhile isWordChar)
  | error (cs : List Char) : SlicesOff ('#' :: cs) ('#' :: cs.takeWhile isErrorChar)

/-- At the byte, a scan fails with the error. -/
structure Breaks (text : String) (position : Nat) (e : ParseError) : Prop where
  failed : ∃ c cs e', LeftAt text (c :: cs) position ∧ scan c cs = .error e' ∧
    e = { e' with position := position + e'.position }
  cited : ∃ cs, StandsAt text cs position ∧ e.cause.Cites cs
  boundary : IsBoundary text e.position

/-- Scanning a text from `start` on fills all of it with tokens, of which the last one marks the end, or fails where a
    part of it is filled. -/
def Lexes (text : String) (start : Nat) : Except ParseError (List Token) → Prop
  | .ok ts => ∃ ls, Tiles text start text.utf8ByteSize ls ∧ ts = ls.map Lexed.token ++ [⟨.stop, text.utf8ByteSize⟩]
  | .error e => ∃ ls position, Tiles text start position ls ∧ Breaks text position e

/-- The tokens of a text from a byte on. -/
def tokensAt (text : String) (start : Nat) : Except ParseError (List Token) :=
  tokensFrom start 0 (charsFrom start text.toList)

/-! ### Scans that succeed -/

theorem SlicesOff.isPrefix {cs slice : List Char} (h : SlicesOff cs slice) : slice <+: cs := by
  cases h with
  | number => exact ⟨_, Numeral.scan_eq_append cs⟩
  | word => exact List.takeWhile_prefix isWordChar
  | error cs => exact (List.prefix_cons_inj '#').mpr (List.takeWhile_prefix isErrorChar)

theorem SlicesOff.standsAt {text : String} {cs slice : List Char} {position : Nat} (h : SlicesOff cs slice)
    (hleft : LeftAt text cs position) : StandsAt text slice position := by
  obtain ⟨rest, rfl⟩ := h.isPrefix
  exact ⟨rest, hleft⟩

namespace Tiles
variable {text : String} {start stop : Nat} {ls : List Lexed}

theorem nil {rest : List Char} (h : LeftAt text rest start) : Tiles text start start [] where
  scanned := List.forall_mem_nil _
  increasing := List.pairwise_singleton ..
  gaps := by
    rintro _ hgap
    obtain rfl := List.mem_singleton.mp hgap
    exact h.blankBetween

theorem le (h : Tiles text start stop ls) : ∀ n ∈ ls.map Lexed.start ++ [stop], start ≤ n := by
  cases ls with
  | nil => exact List.forall_mem_singleton.mpr (h.gaps (start, stop) (List.mem_singleton_self _)).le
  | cons l ls =>
    have hfirst := (h.gaps (start, l.start) List.mem_cons_self).le
    refine List.forall_mem_cons.mpr ⟨hfirst, fun n hn => ?_⟩
    exact Nat.le_of_lt (Nat.lt_of_le_of_lt hfirst (List.rel_of_pairwise_cons h.increasing hn))

theorem blank {c : Char} {rest : List Char} (hc : isSpace c = true) (hleft : LeftAt text (c :: rest) start)
    (h : Tiles text (start + c.utf8Size) stop ls) : Tiles text start stop ls where
  scanned := h.scanned
  increasing := h.increasing
  gaps := by
    cases ls with
    | nil =>
      exact List.forall_mem_singleton.mpr (.cons hc hleft (h.gaps (_, stop) (List.mem_singleton_self _)))
    | cons l ls =>
      obtain ⟨hfirst, hothers⟩ := List.forall_mem_cons.mp h.gaps
      exact List.forall_mem_cons.mpr ⟨.cons hc hleft hfirst, hothers⟩

theorem cons {l : Lexed} (hl : l.ScannedIn text) (h : Tiles text l.stop stop ls) :
    Tiles text l.start stop (l :: ls) where
  scanned := List.forall_mem_cons.mpr ⟨hl, h.scanned⟩
  increasing := List.pairwise_cons.mpr ⟨fun n hn => Nat.lt_of_lt_of_le
    (Nat.lt_add_of_pos_right (byteSize_pos hl.nonempty)) (h.le n hn), h.increasing⟩
  gaps := by
    obtain ⟨rest, hrest⟩ := hl.stands
    exact List.forall_mem_cons.mpr ⟨hrest.blankBetween, h.gaps⟩

end Tiles

theorem Lexed.scannedIn_of_scan {text : String} {position : Nat} {c : Char} {cs : List Char} {t : Scanned}
    (hleft : LeftAt text (c :: cs) position) (hscan : scan c cs = .ok t) :
    ScannedIn text ⟨⟨t.kind, position⟩, t.lexeme⟩ := by
  obtain ⟨htext, hne⟩ := scan_of hscan
  refine ⟨⟨t.rest, htext ▸ hleft⟩, hne, ?_, c, cs, t.rest, hleft, hscan⟩
  rintro (hstop : t.kind = .stop)
  exact (hstop ▸ lexical_scan hscan : TokenKind.stop.Lexical)

/-! ### Scans that fail -/

/-- Where a scan of the text fails: behind some of its characters, and for characters at its start. -/
structure ScanFails (text : List Char) (e : ParseError) : Prop where
  passed : ∃ cs rest, text = cs ++ rest ∧ e.position = byteSize cs
  cited : ∃ cs rest, text = cs ++ rest ∧ e.cause.Cites cs

section ScanFails
variable {c : Char} {cs text : List Char} {e : ParseError}

theorem ScanFails.atOnce (hposition : e.position = 0) (hcited : e.cause.Cites []) : ScanFails text e where
  passed := ⟨[], text, rfl, hposition⟩
  cited := ⟨[], text, rfl, hcited⟩

theorem scanString_fails (h : scanString cs = .error e) : ScanFails text e := by
  unfold scanString at h
  split at h <;> cases h
  exact .atOnce rfl trivial

theorem scanQuotedSheet_fails (h : scanQuotedSheet cs = .error e) : ScanFails ('\'' :: cs) e := by
  unfold scanQuotedSheet at h
  split at h
  · cases h
    exact .atOnce rfl trivial
  · next inside rest hquoted =>
    dsimp only at h
    split at h
    · cases h
      exact .atOnce rfl trivial
    · split at h <;> cases h
      exact ⟨⟨'\'' :: (doubledChars '\'' inside ++ ['\'']), rest, by simp [scanQuoted_eq_append hquoted], rfl⟩,
        [], _, rfl, trivial⟩

theorem scanErrorLiteral_fails (h : scanErrorLiteral cs = .error e) : ScanFails ('#' :: cs) e := by
  unfold scanErrorLiteral at h
  dsimp only at h
  split at h <;> cases h
  exact ⟨⟨[], _, rfl, rfl⟩, '#' :: cs.takeWhile isErrorChar, cs.dropWhile isErrorChar, by simp,
    String.toList_ofList.symm⟩

theorem scanNumber_fails (h : scanNumber text = .error e) : ScanFails text e := by
  unfold scanNumber at h
  dsimp only at h
  split at h <;> cases h
  exact ⟨⟨[], _, rfl, rfl⟩, _, _, (Numeral.scan_eq_append text).symm, String.toList_ofList.symm⟩

theorem scanWord_fails (h : scanWord text = .error e) : ScanFails text e := by
  unfold scanWord at h
  dsimp only at h
  split at h
  · cases h
  · cases h
  · cases hword : bareWord (text.takeWhile isWordChar) with
    | ok k =>
      rw [hword] at h
      cases h
    | error e' =>
      rw [hword] at h
      cases h
      unfold bareWord at hword
      split at hword
      · cases hword
      · split at hword
        · split at hword <;> cases hword
          next hrefused =>
            exact ⟨⟨[], _, rfl, rfl⟩, _, _, List.takeWhile_append_dropWhile.symm, hrefused⟩
        · cases hword

theorem scan_fails (h : scan c cs = .error e) : ScanFails (c :: cs) e := by
  unfold scan at h
  split at h
  · cases h
  · split at h
    · cases h
    split at h
    · cases h
    split at h
    · exact scanString_fails h
    split at h
    · subst c
      exact scanQuotedSheet_fails h
    split at h
    · subst c
      exact scanErrorLiteral_fails h
    split at h
    · exact scanNumber_fails h
    split at h
    · exact scanWord_fails h
    · cases h
      exact .atOnce rfl trivial

end ScanFails

theorem Breaks.of_scan {text : String} {position : Nat} {c : Char} {cs : List Char} {e : ParseError}
    (hleft : LeftAt text (c :: cs) position) (h : scan c cs = .error e) :
    Breaks text position { e with position := position + e.position } := by
  obtain ⟨⟨passed, rest, hpassed, hposition⟩, cited, others, hcited, hcites⟩ := scan_fails h
  refine ⟨⟨c, cs, e, hleft, h, rfl⟩, ⟨cited, ⟨others, hcited ▸ hleft⟩, hcites⟩, ?_⟩
  rw [hposition]
  exact (hpassed ▸ hleft : LeftAt text (passed ++ rest) position).append.isBoundary

/-! ### Texts -/

/-- By induction on the tokens: white space widens the gap before the next one, and a scan goes on behind what it
    took. -/
theorem lexes_tokensFrom {text : String} {cs : List Char} {position : Nat} (h : LeftAt text cs position) :
    Lexes text position (tokensFrom position 0 cs) := by
  refine tokensFrom_induction (motive := fun position cs result => LeftAt text cs position → Lexes text position result)
    ?_ ?_ ?_ ?_ position cs h
  · intro position hleft
    obtain rfl := hleft.eq_utf8ByteSize
    exact ⟨[], .nil hleft, rfl⟩
  · intro position c cs result hc hrest hleft
    have hnext : LeftAt text cs (position + byteSize [c]) := hleft.append
    cases result with
    | ok ts =>
      obtain ⟨ls, hls, hts⟩ := hrest hnext
      exact ⟨ls, hls.blank hc hleft, hts⟩
    | error e =>
      obtain ⟨ls, stop, hls, hbreaks⟩ := hrest hnext
      exact ⟨ls, stop, hls.blank hc hleft, hbreaks⟩
  · intro position c cs e _ hscan hleft
    exact ⟨[], position, .nil hleft, .of_scan hleft hscan⟩
  · intro position c cs t result _ hscan hrest hleft
    have hscanned := Lexed.scannedIn_of_scan hleft hscan
    have hnext : LeftAt text t.rest (position + byteSize t.lexeme) := ((scan_of hscan).1 ▸ hleft).append
    cases result with
    | ok ts =>
      obtain ⟨ls, hls, rfl⟩ := hrest hnext
      exact ⟨_, .cons hscanned hls, rfl⟩
    | error e =>
      obtain ⟨ls, stop, hls, hbreaks⟩ := hrest hnext
      exact ⟨_, stop, .cons hscanned hls, hbreaks⟩

theorem lexes_tokensAt {text : String} {start : Nat} (h : IsBoundary text start) :
    Lexes text start (tokensAt text start) :=
  lexes_tokensFrom (leftAt_charsFrom h)

end Spreadsheet
