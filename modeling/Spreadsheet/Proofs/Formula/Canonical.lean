import Spreadsheet.Proofs.Formula.Layout
import Spreadsheet.Proofs.Formula.Tokens

/-! # The canonical text of a formula reads back

Tokens that stand next to each other in a reading stay apart when they are written without space, but
for an error token in front of `/`. So what a layout is written as is scanned as the layout again, and
reads back to the expression as long as it does not nest too deep. -/

namespace Spreadsheet

open Parse

/-! ### Tokens next to each other -/

namespace TokenKind

/-- Whether a token may stand after a complete phrase. -/
def ends : TokenKind → Bool
  | plus | minus | star | slash | caret | ampersand => true
  | equal | notEqual | less | lessEqual | greater | greaterEqual => true
  | comma | rightParen | stop => true
  | _ => false

/-- Whether `b` may stand after `a`, so far as this keeps the two apart when they are written. -/
def Precedes (a b : TokenKind) : Prop :=
  match a with
  | number _ | text _ | boolean _ | error _ => b.ends = true
  | address _ => b.ends = true ∨ b = colon
  | identifier _ => b = leftParen
  | less | greater => opens b = true
  | _ => True

theorem precedes_of_op? {level : Level} {a b : TokenKind} {op : BinaryOp} (h : level.op? a = some op)
    (hb : opens b = true) : a.Precedes b := by
  cases level <;> cases a <;> cases h <;> first | exact hb | exact trivial

theorem ends_of_op? {level : Level} {a : TokenKind} {op : BinaryOp} (h : level.op? a = some op) : a.ends = true := by
  cases level <;> cases a <;> first | rfl | cases h

theorem precedes_of_sign? {a : TokenKind} {op : UnaryOp} (h : sign? a = some op) (b : TokenKind) : a.Precedes b := by
  cases a <;> cases h <;> exact trivial

theorem precedes_of_literal? {a : TokenKind} {e : Expr} (h : literal? a = some e) {b : TokenKind} (hb : b.ends = true) :
    a.Precedes b := by
  cases a <;> cases h <;> exact hb

end TokenKind

/-- Tokens that follow a complete phrase. -/
def EndsPhrase (ks : List TokenKind) : Prop :=
  ∀ k ∈ ks.head?, k.ends = true

theorem isChain_reference {r : Reference} {us rest : List TokenKind} (hspell : Spelling r us)
    (hrest : rest.IsChain TokenKind.Precedes) (hends : EndsPhrase rest) : (us ++ rest).IsChain TokenKind.Precedes := by
  have haddress (a : Address) : (.address a :: rest : List TokenKind).IsChain TokenKind.Precedes :=
    List.isChain_cons.mpr ⟨fun b hb => .inl (hends b hb), hrest⟩
  have hrange (a b : Address) : (.address a :: .colon :: .address b :: rest : List TokenKind).IsChain TokenKind.Precedes :=
    .cons_cons (.inr rfl) (.cons_cons trivial (haddress b))
  cases hspell with
  | cell sheet a =>
    cases sheet with
    | none => exact haddress a
    | some name => exact .cons_cons trivial (haddress a)
  | range sheet a b =>
    cases sheet with
    | none => exact hrange a b
    | some name => exact .cons_cons trivial (hrange a b)
  | repeated a b => exact .cons_cons trivial (.cons_cons (.inr rfl) (.cons_cons trivial (.cons_cons trivial (haddress b))))

/-- In a reading the tokens stand next to each other as they may. -/
theorem Parse.Reading.isChain {φ : Phrase} {ks rest : List TokenKind} {n : Nat} (h : Reading φ ks rest n) :
    rest.IsChain TokenKind.Precedes → EndsPhrase rest → ks.IsChain TokenKind.Precedes := by
  induction h with
  | expression _ ih => exact ih
  | chain _ ih => exact ih
  | first _ ih => exact ih
  | next _ hop hr ihl ihr =>
    intro hrest hends
    obtain ⟨b, bs, rfl, hb⟩ := hr.head_opens
    refine ihl (List.isChain_cons.mpr ⟨?_, ihr hrest hends⟩) ?_
    · rintro _ ⟨⟩
      exact TokenKind.precedes_of_op? hop hb
    · rintro _ ⟨⟩
      exact TokenKind.ends_of_op? hop
  | tighter _ _ ih => exact ih
  | tightest _ _ ih => exact ih
  | sign hsign _ ih =>
    intro hrest hends
    exact List.isChain_cons.mpr ⟨fun b _ => TokenKind.precedes_of_sign? hsign b, ih hrest hends⟩
  | unsigned _ ih => exact ih
  | exponent _ _ ihb ihx =>
    intro hrest hends
    refine ihb (List.isChain_cons.mpr ⟨fun b _ => trivial, ihx hrest hends⟩) ?_
    rintro _ ⟨⟩
    rfl
  | base _ ih => exact ih
  | literal hliteral =>
    intro hrest hends
    exact List.isChain_cons.mpr ⟨fun b hb => TokenKind.precedes_of_literal? hliteral (hends b hb), hrest⟩
  | reference hspell => exact isChain_reference hspell
  | parenthesized _ ih =>
    intro hrest hends
    refine List.isChain_cons.mpr ⟨fun b _ => trivial, ih (List.isChain_cons.mpr ⟨fun b _ => trivial, hrest⟩) ?_⟩
    rintro _ ⟨⟩
    rfl
  | callNone =>
    intro hrest hends
    exact .cons_cons rfl (.cons_cons trivial (List.isChain_cons.mpr ⟨fun b _ => trivial, hrest⟩))
  | call _ ih =>
    intro hrest hends
    exact .cons_cons rfl (List.isChain_cons.mpr ⟨fun b _ => trivial, ih hrest hends⟩)
  | last _ ih =>
    intro hrest hends
    refine ih (List.isChain_cons.mpr ⟨fun b _ => trivial, hrest⟩) ?_
    rintro _ ⟨⟩
    rfl
  | more _ _ ihe ihes =>
    intro hrest hends
    refine ihe (List.isChain_cons.mpr ⟨fun b _ => trivial, ihes hrest hends⟩) ?_
    rintro _ ⟨⟩
    rfl

/-! ### Tokens that stay apart -/

/-- Whether a token is an error token, and the one after it a `/`. -/
def TokenKind.isErrorBeforeSlash : TokenKind → TokenKind → Bool
  | error _, slash => true
  | _, _ => false

/-- No error token stands directly before a `/`. -/
def NoErrorBeforeSlash (ks : List TokenKind) : Prop :=
  ks.IsChain fun a b => a.isErrorBeforeSlash b = false

instance (ks : List TokenKind) : Decidable (NoErrorBeforeSlash ks) :=
  inferInstanceAs (Decidable (ks.IsChain _))

namespace TokenKind

theorem isErrorBeforeSlash_iff {a b : TokenKind} : a.isErrorBeforeSlash b = true ↔ ∃ e, a = error e ∧ b = slash := by
  cases a <;> cases b <;> simp [isErrorBeforeSlash]

/-- The characters that start what may stand after a complete phrase. -/
def endChars : List Char :=
  ['+', '-', '*', '/', '^', '&', '=', '<', '>', ',', ')']

theorem written_of_ends {b : TokenKind} (hb : b.ends = true) (hstop : b ≠ stop) :
    ∃ c w, b.written.toList = c :: w ∧ c ∈ endChars ∧
      (c = '/' → b = slash) := by
  cases b <;> cases hb <;> first | exact absurd rfl hstop | exact ⟨_, _, rfl, by decide, by decide⟩

theorem ends_of_mem {p : Char → Bool} {c : Char} {w cs : List Char} {chars : List Char} (hc : c ∈ chars)
    (hp : chars.any p = false) : Text.Ends p (c :: w ++ cs) := by
  rintro _ ⟨⟩
  exact eq_false_of_ne_true (List.any_eq_false.mp hp c hc)

/-- Before some text every token is left as it is. -/
theorem Lexical.exists_endsBefore {k : TokenKind} (_ : k.Lexical) : ∃ cs, k.EndsBefore cs := by
  cases k with
  | identifier name => exact ⟨['('], rfl⟩
  | number | text | boolean | error | address | less | greater => exact ⟨[], by rintro _ ⟨⟩⟩
  | _ => exact ⟨[], trivial⟩

/-- What opens a phrase does not make another comparison of `<` or `>`. -/
theorem written_of_opens {b : TokenKind} (hb : opens b = true) (hlex : b.Lexical) :
    ∃ c w, b.written.toList = c :: w ∧ c ≠ '=' ∧ c ≠ '>' := by
  obtain ⟨cs, hcs⟩ := hlex.exists_endsBefore
  obtain ⟨c, w, hwritten, -, hscan⟩ := scanned hlex hcs
  refine ⟨c, w, hwritten, ?_, ?_⟩
  · rintro rfl
    cases hscan
    cases hb
  · rintro rfl
    have hgreater : scanGreater (w ++ cs) = ⟨b, '>' :: w, cs⟩ := Except.ok.inj hscan
    unfold scanGreater at hgreater
    split at hgreater <;> cases hgreater <;> cases hb

/-- Of tokens that may stand next to each other, only an error literal runs into a token after it. -/
theorem endsBefore_of_precedes {a b : TokenKind} (hab : a.Precedes b) (hb : b.Lexical)
    (hslash : a.isErrorBeforeSlash b = false) (cs : List Char) : a.EndsBefore (b.written.toList ++ cs) := by
  have hstop : b ≠ stop := by rintro rfl; exact hb
  have hends {p : Char → Bool} (h : b.ends = true)
      (hp : endChars.any p = false) :
      Text.Ends p (b.written.toList ++ cs) := by
    obtain ⟨c, w, hwritten, hc, -⟩ := written_of_ends h hstop
    rw [hwritten]
    exact ends_of_mem hc hp
  have hopens {p : Char → Bool} (h : opens b = true) (hp : ∀ c, p c = true → c = '=' ∨ c = '>') :
      Text.Ends p (b.written.toList ++ cs) := by
    obtain ⟨c, w, hwritten, hequal, hgreater⟩ := written_of_opens h hb
    rw [hwritten]
    rintro _ ⟨⟩
    cases hpc : p c with
    | false => rfl
    | true => rcases hp c hpc with rfl | rfl <;> contradiction
  cases a with
  | number n => exact hends hab (by decide)
  | text s => exact hends hab (by decide)
  | boolean v => exact hends hab (by decide)
  | error e =>
    obtain ⟨c, w, hwritten, hc, hb⟩ := written_of_ends hab hstop
    rw [EndsBefore, hwritten]
    rintro _ ⟨⟩
    have herror : (endChars.filter (· ≠ '/')).any isErrorChar = false := by decide
    refine eq_false_of_ne_true (List.any_eq_false.mp herror c (List.mem_filter.mpr ⟨hc, decide_eq_true fun h => ?_⟩))
    rw [hb h] at hslash
    cases hslash
  | address a =>
    rcases hab with hab | rfl
    · exact hends hab (by decide)
    · rintro _ ⟨⟩
      rfl
  | identifier name =>
    obtain rfl : b = leftParen := hab
    rfl
  | less => exact hopens hab (by simp)
  | greater => exact hopens hab (by simp)
  | _ => exact trivial

end TokenKind

theorem noErrorBeforeSlash_of_forall {ks : List TokenKind} (h : ∀ k ∈ ks, k ≠ .slash) : NoErrorBeforeSlash ks := by
  induction ks with
  | nil => exact .nil
  | cons a ks ih =>
    obtain ⟨-, hks⟩ := List.forall_mem_cons.mp h
    refine List.isChain_cons.mpr ⟨fun b hb => ?_, ih hks⟩
    cases hab : a.isErrorBeforeSlash b with
    | false => rfl
    | true =>
      obtain ⟨-, -, rfl⟩ := TokenKind.isErrorBeforeSlash_iff.mp hab
      exact absurd rfl (hks .slash (List.mem_of_mem_head? hb))

section Separation
variable {ks : List TokenKind} (hchain : (ks ++ [TokenKind.stop]).IsChain TokenKind.Precedes)
  (hlex : ∀ k ∈ ks, k.Lexical)
include hchain hlex

theorem separated_of_isChain (hslash : NoErrorBeforeSlash ks) : Separated ks := by
  induction ks with
  | nil => exact trivial
  | cons a ks ih =>
    rw [List.cons_append, List.isChain_cons] at hchain
    refine ⟨?_, ih hchain.2 (List.forall_mem_cons.mp hlex).2 hslash.tail⟩
    cases ks with
    | nil =>
      have hstop := hchain.1 .stop rfl
      cases a with
      | identifier name => cases hstop
      | less | greater => cases hstop
      | number | text | boolean | error | address => rintro _ ⟨⟩
      | _ => exact trivial
    | cons b ks =>
      have hab := (List.isChain_cons_cons.mp hslash).1
      exact TokenKind.endsBefore_of_precedes (hchain.1 b rfl) (hlex b (by simp)) hab _

/-- An error token that stands before a `/` is not scanned again. -/
theorem error_of_slash (hslash : ¬NoErrorBeforeSlash ks) (position : Nat) :
    ∃ cause, tokensFrom position 0 (writtenChars ks) = .error cause := by
  induction ks generalizing position with
  | nil => exact absurd .nil hslash
  | cons a ks ih =>
    cases ks with
    | nil => exact absurd (.singleton a) hslash
    | cons b ks =>
      rw [List.cons_append, List.isChain_cons] at hchain
      cases hab : a.isErrorBeforeSlash b with
      | true =>
        obtain ⟨e, rfl, rfl⟩ := TokenKind.isErrorBeforeSlash_iff.mp hab
        exact tokensFrom_error_slash e ks position
      | false =>
        have htail : ¬NoErrorBeforeSlash (b :: ks) := fun h => hslash (List.isChain_cons_cons.mpr ⟨hab, h⟩)
        obtain ⟨ha, hks⟩ := List.forall_mem_cons.mp hlex
        have hends : a.EndsBefore (writtenChars (b :: ks)) :=
          TokenKind.endsBefore_of_precedes (hchain.1 b rfl) (hks b List.mem_cons_self) hab _
        obtain ⟨next, hnext⟩ := tokensFrom_cons (TokenKind.scanned ha hends) position
        obtain ⟨cause, hcause⟩ := ih hchain.2 hks htail next
        exact ⟨cause, by rw [hnext, hcause]; rfl⟩

end Separation

/-! ### Formulas that can be written -/

namespace Expr
variable {e l r x : Expr}

section
variable {P : TokenKind → Prop} (hopen : P .leftParen) (hclose : P .rightParen)
include hopen hclose

theorem forall_mem_parenthesizedIf {needed : Bool} {ks : List TokenKind} (h : ∀ k ∈ ks, P k) :
    ∀ k ∈ parenthesizedIf needed ks, P k := by
  unfold parenthesizedIf
  split
  · exact List.forall_mem_cons.mpr ⟨hopen, List.forall_mem_append.mpr ⟨h, List.forall_mem_singleton.mpr hclose⟩⟩
  · exact h

theorem forall_mem_layout_unary {op : UnaryOp} (hop : P op.token) (hx : ∀ k ∈ x.layout, P k) :
    ∀ k ∈ (unary op x).layout, P k := by
  rw [layout]
  exact List.forall_mem_cons.mpr ⟨hop, forall_mem_parenthesizedIf hopen hclose hx⟩

theorem forall_mem_layout_binary {op : BinaryOp} (hop : P op.token) (hl : ∀ k ∈ l.layout, P k)
    (hr : ∀ k ∈ r.layout, P k) : ∀ k ∈ (binary op l r).layout, P k := by
  rw [layout]
  exact List.forall_mem_append.mpr ⟨forall_mem_parenthesizedIf hopen hclose hl,
    List.forall_mem_cons.mpr ⟨hop, forall_mem_parenthesizedIf hopen hclose hr⟩⟩

omit hopen hclose in
theorem forall_mem_layoutArguments {es : List Expr} (hcomma : P .comma) (h : ∀ e ∈ es, ∀ k ∈ e.layout, P k) :
    ∀ k ∈ layoutArguments es, P k := by
  induction es with
  | nil => exact List.forall_mem_nil _
  | cons e es ih =>
    obtain ⟨he, hes⟩ := List.forall_mem_cons.mp h
    cases es with
    | nil => exact he
    | cons f fs => exact List.forall_mem_append.mpr ⟨he, List.forall_mem_cons.mpr ⟨hcomma, ih hes⟩⟩

theorem forall_mem_layout_call {name : String} {es : List Expr} (hname : P (.identifier name)) (hcomma : P .comma)
    (h : ∀ e ∈ es, ∀ k ∈ e.layout, P k) : ∀ k ∈ (call name es).layout, P k := by
  rw [layout]
  exact List.forall_mem_cons.mpr ⟨hname, List.forall_mem_cons.mpr ⟨hopen, List.forall_mem_append.mpr
    ⟨forall_mem_layoutArguments hcomma h, List.forall_mem_singleton.mpr hclose⟩⟩⟩

end

/-- An expression whose tokens can be written and whose ranges keep their corners. -/
structure Legible (e : Expr) : Prop where
  lexical : ∀ k ∈ e.layout, k.Lexical
  spanned : e.Spanned

theorem lexical_unary_token (op : UnaryOp) : op.token.Lexical := by
  cases op <;> exact trivial

theorem lexical_binary_token (op : BinaryOp) : op.token.Lexical := by
  cases op <;> exact trivial

theorem Legible.unary {op : UnaryOp} (h : Legible x) : Legible (.unary op x) where
  lexical := forall_mem_layout_unary trivial trivial (lexical_unary_token op) h.lexical
  spanned sheet r hr := by
    rcases List.mem_cons.mp hr with hr | hr
    · cases hr
    · exact h.spanned sheet r hr

theorem Legible.binary {op : BinaryOp} (hl : Legible l) (hr : Legible r) : Legible (.binary op l r) where
  lexical := forall_mem_layout_binary trivial trivial (lexical_binary_token op) hl.lexical hr.lexical
  spanned sheet ref href := by
    rcases List.mem_cons.mp href with href | href
    · cases href
    · rcases List.mem_append.mp href with href | href
      · exact hl.spanned sheet ref href
      · exact hr.spanned sheet ref href

theorem Legible.call {name : String} {es : List Expr} (hname : (TokenKind.identifier name).Lexical)
    (h : ∀ e ∈ es, Legible e) : Legible (.call name es) where
  lexical := forall_mem_layout_call trivial trivial hname trivial fun e he => (h e he).lexical
  spanned sheet ref href := by
    rcases List.mem_cons.mp href with href | href
    · cases href
    · obtain ⟨e, he, href⟩ := mem_preorderAll.mp href
      exact (h e he).spanned sheet ref href

theorem Legible.literal {t : TokenKind} (h : literal? t = some e) (ht : t.Lexical) : Legible e := by
  cases t <;> cases h <;>
    exact ⟨by simpa [layout] using ht, fun sheet r hr => by cases List.mem_singleton.mp hr⟩

theorem Legible.reference {r : Reference} {us : List TokenKind} (hspell : Spelling r us)
    (h : ∀ k ∈ us, k.Lexical) : Legible (.reference r) := by
  have hrange {sheet : Option String} {a b : Address} (hsheet : ∀ k ∈ sheetTokens sheet, k.Lexical)
      (ha : a.OnGrid) (hb : b.OnGrid) : Legible (.reference (.range sheet (.spanning a b))) := by
    obtain ⟨hfirst, hlast⟩ := AddressRange.onGrid_spanning ha hb
    refine ⟨List.forall_mem_append.mpr ⟨hsheet, ?_⟩, fun sheet r hr => ?_⟩
    · simp only [List.forall_mem_cons, List.not_mem_nil, false_implies, implies_true, and_true]
      exact ⟨hfirst, trivial, hlast⟩
    · cases List.mem_singleton.mp hr
      exact AddressRange.spanning_corners a b
  cases hspell with
  | cell sheet a => exact ⟨h, fun sheet r hr => by cases List.mem_singleton.mp hr⟩
  | range sheet a b =>
    have h := List.forall_mem_append.mp h
    exact hrange h.1 (h.2 (.address a) (by simp)) (h.2 (.address b) (by simp))
  | @repeated name again a b =>
    refine hrange ?_ (h (.address a) (by simp)) (h (.address b) (by simp))
    exact List.forall_mem_singleton.mpr (h (.sheet name) List.mem_cons_self)

end Expr

/-- The expressions of a phrase can be written. -/
def Parse.Phrase.Legible : Phrase → Prop
  | expression e | chain _ e | run _ _ e | operand _ e | signed e | power e | primary e => e.Legible
  | arguments es => ∀ e ∈ es, e.Legible

/-- A kind that the scanner finds, in a formula or at its end. -/
def TokenKind.Scannable (k : TokenKind) : Prop :=
  k = .stop ∨ k.Lexical

theorem TokenKind.Scannable.lexical {k : TokenKind} (h : k.Scannable) (hk : k ≠ .stop) : k.Lexical :=
  h.resolve_left hk

theorem Parse.Spelling.ne_stop {r : Reference} {us : List TokenKind} (h : Spelling r us) : ∀ k ∈ us, k ≠ .stop := by
  cases h with
  | cell sheet a => cases sheet <;> simp [sheetTokens]
  | range sheet a b => cases sheet <;> simp [sheetTokens]
  | repeated a b => simp

/-- What scanned tokens read as can be written. -/
theorem Parse.Reading.legible {φ : Phrase} {ks rest : List TokenKind} {n : Nat} (h : Reading φ ks rest n) :
    (∀ k ∈ ks, k.Scannable) → φ.Legible ∧ ∀ k ∈ rest, k.Scannable := by
  induction h with
  | next _ _ _ ihl ihr =>
    intro hks
    obtain ⟨hl, hmid⟩ := ihl hks
    obtain ⟨hr, hrest⟩ := ihr (List.forall_mem_cons.mp hmid).2
    exact ⟨.binary hl hr, hrest⟩
  | sign _ _ ih =>
    intro hks
    obtain ⟨hx, hrest⟩ := ih (List.forall_mem_cons.mp hks).2
    exact ⟨.unary hx, hrest⟩
  | exponent _ _ ihb ihx =>
    intro hks
    obtain ⟨hb, hmid⟩ := ihb hks
    obtain ⟨hx, hrest⟩ := ihx (List.forall_mem_cons.mp hmid).2
    exact ⟨.binary hb hx, hrest⟩
  | literal hliteral =>
    intro hks
    obtain ⟨ht, hrest⟩ := List.forall_mem_cons.mp hks
    exact ⟨.literal hliteral (ht.lexical (by rintro rfl; cases hliteral)), hrest⟩
  | reference hspell =>
    intro hks
    obtain ⟨hus, hrest⟩ := List.forall_mem_append.mp hks
    exact ⟨.reference hspell fun k hk => (hus k hk).lexical (hspell.ne_stop k hk), hrest⟩
  | parenthesized _ ih =>
    intro hks
    obtain ⟨he, hrest⟩ := ih (List.forall_mem_cons.mp hks).2
    exact ⟨he, (List.forall_mem_cons.mp hrest).2⟩
  | callNone =>
    intro hks
    obtain ⟨hname, hks⟩ := List.forall_mem_cons.mp hks
    exact ⟨.call (hname.lexical nofun) (by simp), fun k hk => hks k (by simp [hk])⟩
  | call _ ih =>
    intro hks
    obtain ⟨hname, hks⟩ := List.forall_mem_cons.mp hks
    obtain ⟨hes, hrest⟩ := ih (List.forall_mem_cons.mp hks).2
    exact ⟨.call (hname.lexical nofun) hes, hrest⟩
  | last _ ih =>
    intro hks
    obtain ⟨he, hrest⟩ := ih hks
    exact ⟨List.forall_mem_singleton.mpr he, (List.forall_mem_cons.mp hrest).2⟩
  | more _ _ ihe ihes =>
    intro hks
    obtain ⟨he, hmid⟩ := ihe hks
    obtain ⟨hes, hrest⟩ := ihes (List.forall_mem_cons.mp hmid).2
    exact ⟨List.forall_mem_cons.mpr ⟨he, hes⟩, hrest⟩
  | _ => assumption

namespace Expr
variable {e t : Expr} {s : String}

theorem exists_reading_of_parse (h : Expr.parse s = .ok t) :
    ∃ (ts : List Token) (rest : List TokenKind) (n : Nat), (∀ t ∈ ts, t.kind.Scannable) ∧ n ≤ maxNesting ∧
      Reading (.expression t) (ts.map Token.kind) rest n := by
  unfold Expr.parse at h
  split at h
  · split at h
    · cases h
    · next ts hts =>
      unfold Parse.formula at h
      simp only at h
      split at h
      · cases h
      · next p hp =>
        split at h
        · cases h
          obtain ⟨n, hn, hread⟩ := expression_sound hp
          exact ⟨ts, _, n, lexical_of_tokensFrom hts, by omega, hread⟩
        · cases h
  · cases h

theorem Legible.of_parse (h : Expr.parse s = .ok t) : Legible t := by
  obtain ⟨ts, rest, n, hts, -, hread⟩ := exists_reading_of_parse h
  exact (hread.legible (List.forall_mem_map.mpr hts)).1

end Expr

/-! ### Written tokens are read again -/

theorem formula_of_reading {e : Expr} {ks : List TokenKind} {n : Nat}
    (hread : Reading (.expression e) (ks ++ [.stop]) [.stop] n) {ts : List Token}
    (hts : ts.map Token.kind = ks ++ [.stop]) :
    (n ≤ maxNesting → Parse.formula ts = .ok e) ∧
      (maxNesting < n → ∃ q, Parse.formula ts = .error ⟨.tooDeep, q⟩) := by
  have hparses : Yields (Parse.expression (lastPosition ts) 0 ts) e [.stop] (0 + n) :=
    hread.parses 0 (Nat.zero_le _) hts Nat.zero_lt_one
  unfold Parse.formula
  refine ⟨fun hn => ?_, fun hn => ?_⟩
  · obtain ⟨p, hp, rfl, hrest⟩ := hparses.ok (by omega)
    obtain ⟨q, us, hus, -⟩ := map_kind_eq_cons hrest
    simp only [hp, hus, current]
  · obtain ⟨q, hq⟩ := hparses.tooDeep (by omega)
    exact ⟨q, by simp only [hq]⟩

/-- The tokens of a layout are read as the expression, unless they nest too deep. -/
theorem Expr.formula_layout {e : Expr} (h : e.Spanned) {ts : List Token} (hts : ts.map Token.kind = e.layout ++ [.stop]) :
    (Parse.formula ts = .ok e ∨ ∃ q, Parse.formula ts = .error ⟨.tooDeep, q⟩) ∧
      (Parse.formula ts = .ok e ↔ e.nesting < maxNesting) := by
  obtain ⟨hok, hdeep⟩ := formula_of_reading (reads_layout e h [.stop]).expression hts
  rcases Nat.lt_or_ge e.nesting maxNesting with hn | hn
  · have hread := hok hn
    exact ⟨.inl hread, iff_of_true hread hn⟩
  · obtain ⟨q, hq⟩ := hdeep (Nat.lt_succ_of_le hn)
    rw [hq]
    exact ⟨.inr ⟨q, rfl⟩, iff_of_false nofun (Nat.not_lt.mpr hn)⟩

/-- A sign takes the power behind it along, and a power takes no sign along on either side. What stands at
    the right end of a run takes parentheses, what stands at its left end does not. -/
theorem Expr.formula_layout_signs :
    let a : Expr := .reference (.cell none (.relative 0 0))
    let sum : Expr := .call "SUM" [.reference (.range (some "Data") (.spanning (.relative 0 0) (.relative 1 1))), a]
    let e : Expr := .binary .subtract (.binary .subtract (.unary .negate (.binary .power a (.unary .plus a))) a)
      (.binary .add (.binary .power (.unary .negate a) (.binary .power a a)) sum)
    e.layout = [.minus, .address (.relative 0 0), .caret,
          .leftParen, .plus, .address (.relative 0 0), .rightParen,
        .minus, .address (.relative 0 0),
        .minus, .leftParen, .leftParen, .minus, .address (.relative 0 0), .rightParen,
          .caret, .address (.relative 0 0), .caret, .address (.relative 0 0),
        .plus, .identifier "SUM", .leftParen, .sheet "Data", .address (.relative 0 0), .colon, .address (.relative 1 1),
          .comma, .address (.relative 0 0), .rightParen, .rightParen] ∧
      Parse.formula ((e.layout ++ [TokenKind.stop]).map (Token.mk · 0)) = .ok e := by
  intro a sum e
  have hspanned : e.Spanned := by
    intro sheet r hr
    simp only [e, sum, a, preorder, preorderAll, List.mem_cons, List.mem_append, reduceCtorEq, reference.injEq,
      Reference.range.injEq, List.not_mem_nil, or_false, false_or] at hr
    obtain ⟨-, rfl⟩ := hr
    rfl
  have hkinds : ((e.layout ++ [TokenKind.stop]).map (Token.mk · 0)).map Token.kind = e.layout ++ [.stop] := by
    rw [List.map_map]
    exact List.map_id _
  exact ⟨by decide, (formula_layout hspanned hkinds).2.mpr (by decide)⟩

theorem Expr.parse_eq (cs : List Char) {s : String} (hs : s.toList = '=' :: cs) :
    Expr.parse s = (tokensFrom 1 0 cs).bind Parse.formula := by
  unfold Expr.parse
  simp only [hs]
  cases tokensFrom 1 0 cs <;> rfl

section Written
variable {e : Expr} {ks : List TokenKind} {n : Nat} {s : String}
  (hread : Reading (.expression e) (ks ++ [.stop]) [.stop] n) (hlex : ∀ k ∈ ks, k.Lexical)
  (hs : s.toList = '=' :: writtenChars ks)
include hread hlex hs

/-- The tokens of a formula are read as it, if they are written so that none runs into the next. -/
theorem Parse.Reading.parse (hslash : NoErrorBeforeSlash ks) :
    (n ≤ maxNesting → Expr.parse s = .ok e) ∧ (maxNesting < n → ∃ q, Expr.parse s = .error ⟨.tooDeep, q⟩) := by
  have hchain := hread.isChain (.singleton _) (by rintro _ ⟨⟩; rfl)
  obtain ⟨ts, hts, hkinds⟩ := tokensFrom_written hlex (separated_of_isChain hchain hlex hslash) 1
  rw [Expr.parse_eq _ hs, hts]
  exact formula_of_reading hread hkinds

theorem Parse.Reading.parse_slash (hslash : ¬NoErrorBeforeSlash ks) : ∃ cause, Expr.parse s = .error cause := by
  have hchain := hread.isChain (.singleton _) (by rintro _ ⟨⟩; rfl)
  obtain ⟨cause, hcause⟩ := error_of_slash hchain hlex hslash 1
  rw [Expr.parse_eq _ hs, hcause]
  exact ⟨cause, rfl⟩

end Written

namespace Expr
variable {e t : Expr} {s : String}

theorem toList_toText (e : Expr) : ("=" ++ e.toText).toList = '=' :: writtenChars e.layout := by
  simp only [toText, writtenChars, List.flatMap_def, String.toList_append, String.toList_join, List.map_map]
  rfl

theorem Legible.reading (h : Legible e) : Reading (.expression e) (e.layout ++ [.stop]) [.stop] (e.nesting + 1) :=
  (reads_layout e h.spanned [.stop]).expression

/-! #### Parentheses that the canonical text leaves out -/

/-- An expression with signs in front. -/
def signs (op : UnaryOp) (e : Expr) : Nat → Expr
  | 0 => e
  | k + 1 => unary op (signs op e k)

theorem Legible.boolean (b : Bool) : Legible (.boolean b) :=
  .literal (show literal? (.boolean b) = some (.boolean b) from rfl) trivial

section Signs
variable {op : UnaryOp}

theorem Legible.signs (h : Legible e) (k : Nat) : Legible (signs op e k) := by
  induction k with
  | zero => exact h
  | succ k ih => exact ih.unary

theorem signPrecedence_le_signs (h : signPrecedence ≤ e.precedence) (k : Nat) :
    signPrecedence ≤ (signs op e k).precedence := by
  cases k with
  | zero => exact h
  | succ k => exact Nat.le_refl signPrecedence

theorem bare_signs (h : signPrecedence ≤ e.precedence) (k : Nat) :
    decide ((signs op e k).precedence < signPrecedence) = false :=
  decide_eq_false (Nat.not_lt.mpr (signPrecedence_le_signs h k))

theorem layout_signs (h : signPrecedence ≤ e.precedence) (k : Nat) :
    (signs op e k).layout = List.replicate k op.token ++ e.layout := by
  induction k with
  | zero => rfl
  | succ k ih =>
    rw [signs, layout, bare_signs h, parenthesizedIf, ih, List.replicate_succ, List.cons_append]
    rfl

theorem writtenChars_signs (h : signPrecedence ≤ e.precedence) {c : Char} (hc : op.token.written.toList = [c]) (k : Nat) :
    writtenChars (signs op e k).layout = List.replicate k c ++ writtenChars e.layout := by
  rw [layout_signs h, writtenChars_append, writtenChars_replicate hc]

theorem nesting_signs (h : signPrecedence ≤ e.precedence) (k : Nat) : (signs op e k).nesting = e.nesting + k := by
  induction k with
  | zero => rfl
  | succ k ih =>
    rw [signs, nesting, bare_signs h, nestedIf, ih, Nat.add_assoc]
    rfl

end Signs

section Sum
variable (hl : Legible l) (hr : Legible r)
include hl hr

theorem lexical_sum : ∀ k ∈ parenthesizedIf true l.layout ++ .plus :: r.layout, k.Lexical :=
  List.forall_mem_append.mpr ⟨forall_mem_parenthesizedIf trivial trivial hl.lexical,
    List.forall_mem_cons.mpr ⟨lexical_binary_token .add, hr.lexical⟩⟩

/-- In front of a `+`, parentheses keep a run of operators apart from the one that goes on. -/
theorem reading_sum (hprec : Level.additive.precedence < r.precedence) :
    Reading (.expression (binary .add l r)) ((parenthesizedIf true l.layout ++ .plus :: r.layout) ++ [.stop]) [.stop]
      (max (l.nesting + 1) (1 + r.nesting) + 1) := by
  have hleft := Reading.base (reading_parenthesized (reads_layout l hl.spanned) (.plus :: (r.layout ++ [.stop])))
  have hright := (reads_layout r hr.spanned [.stop]).operand .additive hprec
  have hplus : Level.additive.op? .plus = some .add := rfl
  have hrun := Reading.next (.first (Reading.operand_of_signed (.unsigned hleft) .additive)) hplus hright
  rw [List.append_assoc, List.cons_append]
  exact .expression (.chain (.first (hrun.operand_of_run (by decide))))

end Sum

/-! #### The round trip -/

/-- The canonical text of a formula reads back to it, and to nothing else. It is refused if an error
    token stands before a `/`, which runs into it, and if it nests deeper than allowed. -/
theorem parse_toText (h : Expr.parse s = .ok t) :
    (Expr.parse ("=" ++ t.toText) = .ok t ↔ NoErrorBeforeSlash t.layout ∧ t.nesting < maxNesting) ∧
      ∀ u, Expr.parse ("=" ++ t.toText) = .ok u → u = t := by
  have ht := Legible.of_parse h
  by_cases hslash : NoErrorBeforeSlash t.layout
  · obtain ⟨hok, hdeep⟩ := ht.reading.parse ht.lexical t.toList_toText hslash
    by_cases hn : t.nesting < maxNesting
    · rw [hok hn]
      exact ⟨by simp [hslash, hn], fun u hu => (Except.ok.inj hu).symm⟩
    · obtain ⟨q, hq⟩ := hdeep (Nat.lt_succ_of_le (Nat.le_of_not_lt hn))
      rw [hq]
      exact ⟨by simp [hn], nofun⟩
  · obtain ⟨cause, hcause⟩ := ht.reading.parse_slash ht.lexical t.toList_toText hslash
    rw [hcause]
    exact ⟨by simp [hslash], nofun⟩

theorem parse_toText_quotient :
    ∃ t, Expr.parse "= (A1+$B2) / -Data!C3" = .ok t ∧ Expr.parse ("=" ++ t.toText) = .ok t := by
  have h : Expr.parse "= (A1+$B2) / -Data!C3" = .ok (binary .divide
      (binary .add (reference (.cell none ⟨0, 0, false, false⟩)) (reference (.cell none ⟨1, 1, false, true⟩)))
      (unary .negate (reference (.cell (some "Data") ⟨2, 2, false, false⟩)))) := by cbv
  exact ⟨_, h, (parse_toText h).1.mpr ⟨by decide, by decide⟩⟩

/-- The canonical text of an accepted formula is refused where a space kept an error token from a `/`,
    and where parentheses kept the operators of a run apart. -/
theorem exists_parse_toText_refused :
    (∃ t, Expr.parse "=#DIV0 /TRUE" = .ok t ∧ ∃ cause, Expr.parse ("=" ++ t.toText) = .error cause) ∧
      ∃ t, Expr.parse ("=(TRUE+TRUE)+" ++ String.ofList (List.replicate 254 '-') ++ "TRUE") = .ok t ∧
        ∃ q, Expr.parse ("=" ++ t.toText) = .error ⟨.tooDeep, q⟩ := by
  constructor
  · have h : Expr.parse "=#DIV0 /TRUE" = .ok (binary .divide (error .div0) (boolean true)) := by cbv
    have ht := Legible.of_parse h
    exact ⟨_, h, ht.reading.parse_slash ht.lexical (toList_toText _) (by decide)⟩
  · have hl : Legible (binary .add (boolean true) (boolean true)) := .binary (.boolean true) (.boolean true)
    have hr : Legible (signs .negate (boolean true) 254) := .signs (.boolean true) 254
    have hsign : signPrecedence ≤ (boolean true).precedence := by decide
    have hprec : Level.additive.precedence < (signs .negate (boolean true) 254).precedence :=
      Nat.lt_of_lt_of_le (by decide) (signPrecedence_le_signs hsign 254)
    have hread := reading_sum hl hr hprec
    rw [nesting_signs hsign] at hread
    refine ⟨_, (hread.parse (lexical_sum hl hr) ?_ (by decide +kernel)).1 (by decide), ?_⟩
    · have hsum : writtenChars (parenthesizedIf true (binary .add (boolean true) (boolean true)).layout) =
          "(TRUE+TRUE)".toList := by decide +kernel
      have htrue : writtenChars (boolean true).layout = "TRUE".toList := by decide +kernel
      have hplus : TokenKind.plus.written.toList = '+' :: [] := rfl
      rw [writtenChars_append, hsum, writtenChars_cons hplus, writtenChars_signs hsign rfl, htrue]
      simp only [String.toList_append, String.toList_ofList]
      rfl
    · have ht : Legible (binary .add _ _) := hl.binary hr
      exact (ht.reading.parse ht.lexical (toList_toText _) (by decide +kernel)).2 (by decide +kernel)

end Expr

end Spreadsheet
