import Mathlib.Data.List.Basic
import Spreadsheet.Proofs.Formula.Canonical

/-! # The parser and its grammar

`Derives` is the grammar of formulas as one would write it down: the words of each category, without a
count of the nesting and without the tokens that follow. A word has a reading (`Derives.reads`), and what a
reading takes is a word (`Reading.exists_word`). So the parser answers with the tree of the tokens that it is
given, if they have one, unless they nest too deep, and refuses all others. -/

namespace Spreadsheet.Parse

/-! ### The grammar -/

/-- The categories of the grammar, from the loosest to the tightest, each with what its words stand for. -/
inductive Category where
  /-- Operands of a level with its operators between them. -/
  | level (level : Level) (e : Expr)
  /-- A power with any number of signs in front. -/
  | signed (e : Expr)
  /-- A primary expression, and the exponent that it is raised to if there is one. -/
  | power (e : Expr)
  | primary (e : Expr)
  /-- At least one argument, with commas between them. -/
  | arguments (es : List Expr)

namespace Category

/-- What stands between the operators of a level. -/
def operand : Level → Expr → Category
  | .comparison => level .concatenation
  | .concatenation => level .additive
  | .additive => level .multiplicative
  | .multiplicative => signed

/-- A whole formula, an argument, or what stands in parentheses. -/
def expression : Expr → Category :=
  level .comparison

end Category

/-- The tokens that make a word of a category. The left operand of an operator of a level is of that level
    itself, and its right operand is of a tighter one; the exponent of a power may be a power, or carry signs. -/
inductive Derives : Category → List TokenKind → Prop where
  | operation {level op l r us vs} :
      BinaryOp.level? op = some level → Derives (.level level l) us → Derives (.operand level r) vs →
      Derives (.level level (.binary op l r)) (us ++ op.token :: vs)
  | operand {level e us} :
      Derives (.operand level e) us → Derives (.level level e) us
  | sign {op : UnaryOp} {x us} :
      Derives (.signed x) us → Derives (.signed (.unary op x)) (op.token :: us)
  | unsigned {e us} :
      Derives (.power e) us → Derives (.signed e) us
  | exponent {b x us vs} :
      Derives (.primary b) us → Derives (.signed x) vs →
      Derives (.power (.binary .power b x)) (us ++ .caret :: vs)
  | base {e us} :
      Derives (.primary e) us → Derives (.power e) us
  | literal {t e} :
      literal? t = some e → Derives (.primary e) [t]
  | reference {r us} :
      Spelling r us → Derives (.primary (.reference r)) us
  | callNone {name} :
      Derives (.primary (.call name [])) [.identifier name, .leftParen, .rightParen]
  | call {name es us} :
      Derives (.arguments es) us →
      Derives (.primary (.call name es)) (.identifier name :: .leftParen :: (us ++ [.rightParen]))
  | parenthesized {e us} :
      Derives (.expression e) us → Derives (.primary e) (.leftParen :: (us ++ [.rightParen]))
  | last {e us} :
      Derives (.expression e) us → Derives (.arguments [e]) us
  | more {e es us vs} :
      Derives (.expression e) us → Derives (.arguments es) vs → Derives (.arguments (e :: es)) (us ++ .comma :: vs)

theorem Level.op?_eq_some {level : Level} {t : TokenKind} {op : BinaryOp} (h : level.op? t = some op) :
    op.level? = some level ∧ t = op.token := by
  cases level <;> cases t <;> cases h <;> exact ⟨rfl, rfl⟩

theorem sign?_eq_some {t : TokenKind} {op : UnaryOp} : sign? t = some op ↔ t = op.token := by
  constructor
  · intro h
    cases t <;> cases h <;> rfl
  · rintro rfl
    cases op <;> rfl

theorem Category.operand_of_tighter {level tighter : Level} (h : level.tighter? = some tighter) :
    Category.operand level = Category.level tighter := by
  cases level <;> cases h <;> rfl

theorem Category.operand_of_tightest {level : Level} (h : level.tighter? = none) :
    Category.operand level = Category.signed := by
  cases level <;> cases h
  rfl

/-- The mark of the end is in no word. -/
theorem Derives.ne_stop {c : Category} {us : List TokenKind} (h : Derives c us) : ∀ k ∈ us, k ≠ .stop := by
  have hpair : ∀ {us vs : List TokenKind} {t : TokenKind}, (∀ k ∈ us, k ≠ .stop) → t ≠ .stop →
      (∀ k ∈ vs, k ≠ .stop) → ∀ k ∈ us ++ t :: vs, k ≠ .stop := fun hus ht hvs =>
    List.forall_mem_append.mpr ⟨hus, List.forall_mem_cons.mpr ⟨ht, hvs⟩⟩
  induction h with
  | @operation _ op _ _ _ _ _ _ _ ihl ihr => exact hpair ihl (by cases op <;> nofun) ihr
  | @sign op _ _ _ ih => exact List.forall_mem_cons.mpr ⟨by cases op <;> nofun, ih⟩
  | exponent _ _ ihb ihx => exact hpair ihb nofun ihx
  | literal hliteral =>
    refine List.forall_mem_singleton.mpr ?_
    rintro rfl
    cases hliteral
  | reference hspell => exact hspell.ne_stop
  | callNone => simp
  | call _ ih => exact List.forall_mem_cons.mpr ⟨nofun, List.forall_mem_cons.mpr ⟨nofun, hpair ih nofun nofun⟩⟩
  | parenthesized _ ih => exact List.forall_mem_cons.mpr ⟨nofun, hpair ih nofun nofun⟩
  | more _ _ ihe ihes => exact hpair ihe nofun ihes
  | _ => assumption

/-! ### What is read is a word -/

/-- The tokens of a phrase are a word. Those of arguments end with the closing parenthesis of the call. -/
def Phrase.Word (us : List TokenKind) : Phrase → Prop
  | expression e => Derives (.expression e) us
  | chain level e | run level _ e => Derives (.level level e) us
  | operand level e => Derives (.operand level e) us
  | signed e => Derives (.signed e) us
  | power e => Derives (.power e) us
  | primary e => Derives (.primary e) us
  | arguments es => ∃ vs, us = vs ++ [.rightParen] ∧ Derives (.arguments es) vs

theorem Reading.exists_word {φ : Phrase} {ks rest : List TokenKind} {n : Nat} (h : Reading φ ks rest n) :
    ∃ us, ks = us ++ rest ∧ φ.Word us := by
  induction h with
  | first _ ih =>
    obtain ⟨us, hus, hword⟩ := ih
    exact ⟨us, hus, .operand hword⟩
  | next _ hop _ ihl ihr =>
    obtain ⟨us, rfl, hl⟩ := ihl
    obtain ⟨vs, rfl, hr⟩ := ihr
    obtain ⟨hlevel, rfl⟩ := Level.op?_eq_some hop
    exact ⟨us ++ _ :: vs, by rw [List.append_assoc, List.cons_append], .operation hlevel hl hr⟩
  | tighter ht _ ih =>
    obtain ⟨us, hus, hword⟩ := ih
    refine ⟨us, hus, ?_⟩
    rw [Phrase.Word, Category.operand_of_tighter ht]
    exact hword
  | tightest ht _ ih =>
    obtain ⟨us, hus, hword⟩ := ih
    refine ⟨us, hus, ?_⟩
    rw [Phrase.Word, Category.operand_of_tightest ht]
    exact hword
  | sign hsign _ ih =>
    obtain ⟨us, rfl, hword⟩ := ih
    obtain rfl := sign?_eq_some.mp hsign
    exact ⟨_ :: us, rfl, .sign hword⟩
  | unsigned _ ih =>
    obtain ⟨us, hus, hword⟩ := ih
    exact ⟨us, hus, .unsigned hword⟩
  | exponent _ _ ihb ihx =>
    obtain ⟨us, rfl, hb⟩ := ihb
    obtain ⟨vs, rfl, hx⟩ := ihx
    exact ⟨us ++ .caret :: vs, by rw [List.append_assoc, List.cons_append], .exponent hb hx⟩
  | base _ ih =>
    obtain ⟨us, hus, hword⟩ := ih
    exact ⟨us, hus, .base hword⟩
  | literal hliteral => exact ⟨[_], rfl, .literal hliteral⟩
  | reference hspell => exact ⟨_, rfl, .reference hspell⟩
  | parenthesized _ ih =>
    obtain ⟨us, rfl, hword⟩ := ih
    refine ⟨.leftParen :: (us ++ [TokenKind.rightParen]), ?_, .parenthesized hword⟩
    rw [List.cons_append, List.append_assoc, List.singleton_append]
  | callNone => exact ⟨[_, _, _], rfl, .callNone⟩
  | call _ ih =>
    obtain ⟨_, rfl, us, rfl, hword⟩ := ih
    exact ⟨_ :: _ :: (us ++ [TokenKind.rightParen]), rfl, .call hword⟩
  | last _ ih =>
    obtain ⟨us, rfl, hword⟩ := ih
    exact ⟨us ++ [.rightParen], by simp, us, rfl, .last hword⟩
  | more _ _ ihe ihes =>
    obtain ⟨us, rfl, he⟩ := ihe
    obtain ⟨_, rfl, vs, rfl, hes⟩ := ihes
    exact ⟨us ++ .comma :: vs ++ [.rightParen], by simp, _, rfl, .more he hes⟩
  | _ => assumption

/-! ### Words are read -/

/-- Whatever follows, the tokens have a reading as the category. A call closes its arguments first. -/
def Category.Reads (us : List TokenKind) : Category → Prop
  | level l e => ∀ rest, ∃ k n, Reading (.run l k e) (us ++ rest) rest n
  | signed e => ∀ rest, ∃ n, Reading (.signed e) (us ++ rest) rest n
  | power e => ∀ rest, ∃ n, Reading (.power e) (us ++ rest) rest n
  | primary e => ∀ rest, ∃ n, Reading (.primary e) (us ++ rest) rest n
  | arguments es => ∀ rest, ∃ n, Reading (.arguments es) (us ++ .rightParen :: rest) rest n

namespace Category.Reads
variable {us : List TokenKind} {e : Expr}

theorem chain {level : Level} (h : (Category.level level e).Reads us) (rest : List TokenKind) :
    ∃ n, Reading (.chain level e) (us ++ rest) rest n := by
  obtain ⟨k, n, hread⟩ := h rest
  exact ⟨n, .chain hread⟩

theorem expression (h : (Category.expression e).Reads us) (rest : List TokenKind) :
    ∃ n, Reading (.expression e) (us ++ rest) rest n := by
  obtain ⟨n, hread⟩ := chain h rest
  exact ⟨n + 1, .expression hread⟩

theorem operand {level : Level} (h : (Category.operand level e).Reads us) (rest : List TokenKind) :
    ∃ n, Reading (.operand level e) (us ++ rest) rest n := by
  cases hlevel : level.tighter? with
  | some tighter =>
    rw [Category.operand_of_tighter hlevel] at h
    obtain ⟨n, hread⟩ := chain h rest
    exact ⟨n, .tighter hlevel hread⟩
  | none =>
    rw [Category.operand_of_tightest hlevel] at h
    obtain ⟨n, hread⟩ := h rest
    exact ⟨n, .tightest hlevel hread⟩

end Category.Reads

theorem Derives.reads {c : Category} {us : List TokenKind} (h : Derives c us) : c.Reads us := by
  induction h with
  | @operation level op l r us vs hlevel _ _ ihl ihr =>
    intro rest
    obtain ⟨n, hr⟩ := ihr.operand rest
    obtain ⟨k, m, hl⟩ := ihl (op.token :: (vs ++ rest))
    rw [List.append_assoc, List.cons_append]
    exact ⟨k + 1, _, .next hl (BinaryOp.op?_token hlevel) hr⟩
  | operand _ ih =>
    intro rest
    obtain ⟨n, hread⟩ := ih.operand rest
    exact ⟨0, n, .first hread⟩
  | sign _ ih =>
    intro rest
    obtain ⟨n, hread⟩ := ih rest
    exact ⟨n + 1, .sign (sign?_eq_some.mpr rfl) hread⟩
  | unsigned _ ih =>
    intro rest
    obtain ⟨n, hread⟩ := ih rest
    exact ⟨n, .unsigned hread⟩
  | @exponent b x us vs _ _ ihb ihx =>
    intro rest
    obtain ⟨n, hx⟩ := ihx rest
    obtain ⟨m, hb⟩ := ihb (.caret :: (vs ++ rest))
    rw [List.append_assoc, List.cons_append]
    exact ⟨_, .exponent hb hx⟩
  | base _ ih =>
    intro rest
    obtain ⟨n, hread⟩ := ih rest
    exact ⟨n, .base hread⟩
  | literal hliteral => exact fun rest => ⟨0, .literal hliteral⟩
  | reference hspell => exact fun rest => ⟨0, .reference hspell⟩
  | callNone => exact fun rest => ⟨0, .callNone⟩
  | call _ ih =>
    intro rest
    obtain ⟨n, hread⟩ := ih rest
    rw [List.cons_append, List.cons_append, List.append_assoc]
    exact ⟨n, .call hread⟩
  | parenthesized _ ih =>
    intro rest
    obtain ⟨n, hread⟩ := ih.expression (.rightParen :: rest)
    rw [List.cons_append, List.append_assoc]
    exact ⟨n, .parenthesized hread⟩
  | last _ ih =>
    intro rest
    obtain ⟨n, hread⟩ := ih.expression (.rightParen :: rest)
    exact ⟨n, .last hread⟩
  | @more e es us vs _ _ ihe ihes =>
    intro rest
    obtain ⟨n, hes⟩ := ihes rest
    obtain ⟨m, he⟩ := ihe.expression (.comma :: (vs ++ .rightParen :: rest))
    rw [List.append_assoc, List.cons_append]
    exact ⟨_, .more he hes⟩

/-! ### What nesting costs -/

/-- From `ks` to `rest` there are more tokens than the phrase nests deep, or as many if it is a whole
    expression. A run takes more than it has operators, too. -/
def Phrase.Costs (n : Nat) (ks rest : List TokenKind) : Phrase → Prop
  | expression _ => rest.length + n ≤ ks.length
  | run _ k _ => rest.length + n < ks.length ∧ rest.length + k < ks.length
  | _ => rest.length + n < ks.length

theorem Reading.costs {φ : Phrase} {ks rest : List TokenKind} {n : Nat} (h : Reading φ ks rest n) :
    φ.Costs n ks rest := by
  induction h with
  | expression _ ih => exact ih
  | chain _ ih => exact ih.1
  | first _ ih => exact ⟨ih, Nat.lt_of_le_of_lt (Nat.le_add_right _ _) ih⟩
  | next _ _ _ ihl ihr =>
    simp only [Phrase.Costs, List.length_cons] at ihl ihr ⊢
    omega
  | reference hspell =>
    obtain ⟨t, us, rfl, -⟩ := hspell.head
    simp only [Phrase.Costs, List.length_append, List.length_cons]
    omega
  | _ =>
    simp only [Phrase.Costs, List.length_cons] at *
    omega

/-! ### The parser -/

section Formula
variable {ts : List Token} {ks : List TokenKind} {e : Expr}

theorem derives_of_formula (hts : ts.map Token.kind = ks ++ [.stop]) (hks : .stop ∉ ks) (h : formula ts = .ok e) :
    Derives (.expression e) ks := by
  unfold formula at h
  simp only at h
  split at h
  · cases h
  · next p hp =>
    split at h
    · next hstop =>
      cases h
      obtain ⟨n, -, hread⟩ := expression_sound hp
      obtain ⟨us, hus, hword⟩ := hread.exists_word
      have hword : Derives (.expression p.value) us := hword
      rw [hts] at hus
      -- The word ends where the end is marked: no word holds that mark, and it is the last token.
      cases hrest : p.rest with
      | nil =>
        rw [hrest, List.map_nil, List.append_nil] at hus
        exact absurd rfl (hword.ne_stop .stop (hus ▸ List.mem_append_right ks (List.mem_singleton_self _)))
      | cons t rest =>
        rw [hrest] at hstop hus
        rw [List.map_cons, show t.kind = .stop from hstop] at hus
        obtain ⟨rfl, -⟩ := (List.append_cons_inj_of_notMem hks List.not_mem_nil).mp hus
        exact hword
    · cases h

theorem formula_of_derives (hts : ts.map Token.kind = ks ++ [.stop]) (h : Derives (.expression e) ks) :
    formula ts = .ok e ∨ maxNesting < ks.length ∧ ∃ q, formula ts = .error ⟨.tooDeep, q⟩ := by
  obtain ⟨n, hread⟩ := h.reads.expression [.stop]
  obtain ⟨hok, hdeep⟩ := formula_of_reading hread hts
  have hcosts : [TokenKind.stop].length + n ≤ (ks ++ [TokenKind.stop]).length := hread.costs
  rw [List.length_append] at hcosts
  rcases Nat.lt_or_ge maxNesting n with hn | hn
  · exact .inr ⟨by omega, hdeep hn⟩
  · exact .inl (hok hn)

end Formula

end Spreadsheet.Parse

namespace Spreadsheet.Expr
open Parse

/-- A text that starts with `=` and has tokens is a formula with a tree only if these derive the tree. If they
    derive one, it is the formula's, unless they nest too deep, which takes more tokens than may nest. -/
theorem parse_derives {s : String} {cs : List Char} {ts : List Token} (hs : s.toList = '=' :: cs)
    (hts : tokensFrom 1 0 cs = .ok ts) :
    ∃ ks, ts.map Token.kind = ks ++ [.stop] ∧ TokenKind.stop ∉ ks ∧
      (∀ t, Expr.parse s = .ok t → Derives (.expression t) ks) ∧
        ∀ t, Derives (.expression t) ks → Expr.parse s = .ok t ∨
          maxNesting < ks.length ∧ ∃ error, Expr.parse s = .error error ∧ error.kind = .tooDeep := by
  obtain ⟨ks, hkinds, hlex⟩ := exists_lexical_of_tokensFrom hts
  have hstop : TokenKind.stop ∉ ks := fun hmem => hlex _ hmem
  have hparse : Expr.parse s = Parse.formula ts := by
    rw [Expr.parse_eq cs hs, hts]
    rfl
  refine ⟨ks, hkinds, hstop, fun t ht => ?_, fun t ht => ?_⟩
  · exact derives_of_formula hkinds hstop (hparse ▸ ht)
  · rw [hparse]
    rcases formula_of_derives hkinds ht with hok | ⟨hlong, q, hdeep⟩
    · exact .inl hok
    · exact .inr ⟨hlong, _, hdeep, rfl⟩

/-- A sign binds less than the power behind it, and the second corner of a range may name the sheet again. -/
theorem parse_derives_signed :
    ∃ t, Expr.parse "=-A1^TRUE+Data!B2:data!A1" = .ok t ∧
      Derives (.expression t) [.minus, .address (.relative 0 0), .caret, .boolean true, .plus,
        .sheet "Data", .address (.relative 1 1), .colon, .sheet "data", .address (.relative 0 0)] := by
  have hs : "=-A1^TRUE+Data!B2:data!A1".toList = '=' :: "-A1^TRUE+Data!B2:data!A1".toList := by decide
  have hts : tokensFrom 1 0 "-A1^TRUE+Data!B2:data!A1".toList =
      .ok [⟨.minus, 1⟩, ⟨.address (.relative 0 0), 2⟩, ⟨.caret, 4⟩, ⟨.boolean true, 5⟩, ⟨.plus, 9⟩,
        ⟨.sheet "Data", 10⟩, ⟨.address (.relative 1 1), 15⟩, ⟨.colon, 17⟩, ⟨.sheet "data", 18⟩,
        ⟨.address (.relative 0 0), 23⟩, ⟨.stop, 25⟩] := by cbv
  have hparse : Expr.parse "=-A1^TRUE+Data!B2:data!A1" = .ok (.binary .add
      (.unary .negate (.binary .power (.reference (.cell none (.relative 0 0))) (.boolean true)))
      (.reference (.range (some "Data") (.spanning (.relative 1 1) (.relative 0 0))))) := by cbv
  obtain ⟨ks, hkinds, -, hderives, -⟩ := parse_derives hs hts
  have hks : _ = ks := (congrArg List.dropLast hkinds).trans List.dropLast_concat
  subst hks
  exact ⟨_, hparse, hderives _ hparse⟩

end Spreadsheet.Expr
