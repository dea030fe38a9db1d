import Spreadsheet.Formula.Layout
import Spreadsheet.Formula.Parse

/-! # The grammar of formulas

`Reading φ ts rest n` says that `ts` starts with the phrase `φ`, that `rest` follows it, and that it
nests `n` deep: as deep as its parentheses, arguments, signs, exponents and unfinished runs of operators
stand in one another. The parser finds a reading (`expression_sound`). Conversely it reads every phrase
that no operator continues, unless the nesting is deeper than allowed (`Reading.parses`). -/

namespace Spreadsheet.Parse

/-- How strongly the operators of a level bind. -/
def Level.precedence : Level → Nat
  | comparison => 1
  | concatenation => 2
  | additive => 3
  | multiplicative => 4

/-- What tokens write. -/
inductive Phrase where
  | expression (e : Expr)
  | chain (level : Level) (e : Expr)
  /-- The start of a chain, up to an operand that `operators` operators precede. -/
  | run (level : Level) (operators : Nat) (e : Expr)
  | operand (level : Level) (e : Expr)
  | signed (e : Expr)
  | power (e : Expr)
  | primary (e : Expr)
  /-- The arguments of a call and its closing parenthesis. -/
  | arguments (es : List Expr)

/-- The expression that a single token is. -/
def literal? : TokenKind → Option Expr
  | .number n => some (.number n)
  | .text s => some (.text s)
  | .boolean b => some (.boolean b)
  | .error e => some (.error e)
  | _ => none

/-- The ways to write a reference. -/
inductive Spelling : Reference → List TokenKind → Prop where
  | cell (sheet : Option String) (a : Address) : Spelling (.cell sheet a) (sheetTokens sheet ++ [.address a])
  | range (sheet : Option String) (a b : Address) :
      Spelling (.range sheet (.spanning a b)) (sheetTokens sheet ++ [.address a, .colon, .address b])
  | repeated {name again : String} (a b : Address) (same : Text.SameName name again) :
      Spelling (.range (some name) (.spanning a b)) [.sheet name, .address a, .colon, .sheet again, .address b]

inductive Reading : Phrase → List TokenKind → List TokenKind → Nat → Prop where
  | expression {e ts rest n} :
      Reading (.chain .comparison e) ts rest n → Reading (.expression e) ts rest (n + 1)
  | chain {level k e ts rest n} :
      Reading (.run level k e) ts rest n → Reading (.chain level e) ts rest n
  | first {level e ts rest n} :
      Reading (.operand level e) ts rest n → Reading (.run level 0 e) ts rest n
  | next {level k l r ts t op mid rest m n} :
      Reading (.run level k l) ts (t :: mid) m → level.op? t = some op → Reading (.operand level r) mid rest n →
      Reading (.run level (k + 1) (.binary op l r)) ts rest (max m (k + 1 + n))
  | tighter {level tighter e ts rest n} :
      level.tighter? = some tighter → Reading (.chain tighter e) ts rest n → Reading (.operand level e) ts rest n
  | tightest {level e ts rest n} :
      level.tighter? = none → Reading (.signed e) ts rest n → Reading (.operand level e) ts rest n
  | sign {t op x ts rest n} :
      sign? t = some op → Reading (.signed x) ts rest n → Reading (.signed (.unary op x)) (t :: ts) rest (n + 1)
  | unsigned {e ts rest n} :
      Reading (.power e) ts rest n → Reading (.signed e) ts rest n
  | exponent {b x ts mid rest m n} :
      Reading (.primary b) ts (.caret :: mid) m → Reading (.signed x) mid rest n →
      Reading (.power (.binary .power b x)) ts rest (max m (n + 1))
  | base {e ts rest n} :
      Reading (.primary e) ts rest n → Reading (.power e) ts rest n
  | literal {t e rest} :
      literal? t = some e → Reading (.primary e) (t :: rest) rest 0
  | reference {r us rest} :
      Spelling r us → Reading (.primary (.reference r)) (us ++ rest) rest 0
  | parenthesized {e ts rest n} :
      Reading (.expression e) ts (.rightParen :: rest) n → Reading (.primary e) (.leftParen :: ts) rest n
  | callNone {name rest} :
      Reading (.primary (.call name [])) (.identifier name :: .leftParen :: .rightParen :: rest) rest 0
  | call {name es ts rest n} :
      Reading (.arguments es) ts rest n →
      Reading (.primary (.call name es)) (.identifier name :: .leftParen :: ts) rest n
  | last {e ts rest n} :
      Reading (.expression e) ts (.rightParen :: rest) n → Reading (.arguments [e]) ts rest n
  | more {e es ts mid rest m n} :
      Reading (.expression e) ts (.comma :: mid) m → Reading (.arguments es) mid rest n →
      Reading (.arguments (e :: es)) ts rest (max m n)

/-! ### What the parser finds is a reading -/

/-- Tokens start with a phrase that nests, from `depth` on, no deeper than allowed. -/
def Fits (depth : Nat) (φ : Phrase) (ts rest : List Token) : Prop :=
  ∃ n, depth + n ≤ maxNesting ∧ Reading φ (ts.map Token.kind) (rest.map Token.kind) n

section Soundness
variable {stop : Nat}

theorem Fits.map {depth : Nat} {φ ψ : Phrase} {ts rest : List Token}
    (h : Fits depth φ ts rest)
    (f : ∀ {n}, Reading φ (ts.map Token.kind) (rest.map Token.kind) n →
      Reading ψ (ts.map Token.kind) (rest.map Token.kind) n) : Fits depth ψ ts rest := by
  obtain ⟨n, hn, hread⟩ := h
  exact ⟨n, hn, f hread⟩

theorem rangeEnd_sound {sheet : Option String} {ts : List Token} {p : Parsed Address ts}
    (h : rangeEnd stop sheet ts = .ok p) (a : Address) :
    ∃ us, ts.map Token.kind = us ++ p.rest.map Token.kind ∧
      Spelling (.range sheet (.spanning a p.value)) (sheetTokens sheet ++ .address a :: .colon :: us) := by
  unfold rangeEnd at h
  split at h
  · cases h
    exact ⟨_, rfl, .range sheet a _⟩
  · split at h
    · next hsame =>
      obtain ⟨name, rfl⟩ : ∃ name, sheet = some name := by
        cases sheet with
        | none => simp at hsame
        | some name => exact ⟨name, rfl⟩
      split at h
      · cases h
        exact ⟨_, rfl, .repeated a _ (by simpa using hsame)⟩
      · cases h
    · cases h
  · cases h

theorem reference_sound {sheet : Option String} {a : Address} {q : Nat} {ts : List Token}
    {p : Parsed Expr (⟨.address a, q⟩ :: ts)} (h : reference stop sheet a ⟨.address a, q⟩ ts = .ok p) :
    ∃ r us, p.value = .reference r ∧ .address a :: ts.map Token.kind = us ++ p.rest.map Token.kind ∧
      Spelling r (sheetTokens sheet ++ us) := by
  unfold reference at h
  split at h
  · split at h
    · cases h
    · next last hlast =>
      cases h
      obtain ⟨us, hus, hspell⟩ := rangeEnd_sound hlast a
      exact ⟨_, _ :: _ :: us, rfl, by simp [Parsed.cons, Parsed.map, hus], hspell⟩
  · cases h
    exact ⟨_, [_], rfl, rfl, .cell sheet a⟩

/-- What the parser finds in `ts` are readings, for the functions that descend to fewer tokens. -/
structure Sound (stop : Nat) (ts : List Token) : Prop where
  expression : ∀ {depth : Nat} {p : Parsed Expr ts}, expression stop depth ts = .ok p →
    Fits depth (.expression p.value) ts p.rest
  operand : ∀ {depth : Nat} {level : Level} {p : Parsed Expr ts}, depth ≤ maxNesting →
    operand stop depth level ts = .ok p → Fits depth (.operand level p.value) ts p.rest
  signed : ∀ {depth : Nat} {p : Parsed Expr ts}, depth ≤ maxNesting → signed stop depth ts = .ok p →
    Fits depth (.signed p.value) ts p.rest
  arguments : ∀ {depth : Nat} {p : Parsed (List Expr) ts}, arguments stop depth ts = .ok p →
    Fits depth (.arguments p.value) ts p.rest

section Step
variable {ts : List Token}

theorem primary_sound (ih : ∀ us : List Token, us.length < ts.length → Sound stop us) {depth : Nat}
    {p : Parsed Expr ts} (hd : depth ≤ maxNesting) (h : primary stop depth ts = .ok p) :
    Fits depth (.primary p.value) ts p.rest := by
  unfold primary at h
  split at h
  case h_1 => cases h
  case h_2 => cases h; exact ⟨0, hd, .literal rfl⟩
  case h_3 => cases h; exact ⟨0, hd, .literal rfl⟩
  case h_4 => cases h; exact ⟨0, hd, .literal rfl⟩
  case h_5 => cases h; exact ⟨0, hd, .literal rfl⟩
  case h_6 rest =>
    split at h
    · cases h
    · next inner hinner =>
      obtain ⟨n, hn, hread⟩ := (ih rest (by simp)).expression hinner
      split at h
      · next after hafter =>
        cases h
        rw [hafter, List.map_cons] at hread
        exact ⟨n, hn, .parenthesized hread⟩
      · cases h
  case h_7 =>
    split at h
    · split at h
      · cases h
      · next r hr =>
        cases h
        obtain ⟨ref, us, hvalue, htokens, hspell⟩ := reference_sound hr
        refine ⟨0, hd, ?_⟩
        show Reading (.primary r.value) (.sheet _ :: .address _ :: _) _ 0
        rw [htokens, hvalue]
        exact .reference hspell
    · cases h
  case h_8 =>
    obtain ⟨ref, us, hvalue, htokens, hspell⟩ := reference_sound h
    refine ⟨0, hd, ?_⟩
    rw [List.map_cons, htokens, hvalue]
    exact .reference hspell
  case h_9 =>
    split at h
    · split at h
      · cases h
        exact ⟨0, hd, .callNone⟩
      · split at h
        · cases h
        · next args hargs =>
          cases h
          obtain ⟨n, hn, hread⟩ := (ih _ (by simp only [List.length_cons]; omega)).arguments hargs
          exact ⟨n, hn, .call hread⟩
    · cases h
  case h_10 => cases h

theorem power_sound (ih : ∀ us : List Token, us.length < ts.length → Sound stop us) {depth : Nat}
    {p : Parsed Expr ts} (hd : depth ≤ maxNesting) (h : power stop depth ts = .ok p) :
    Fits depth (.power p.value) ts p.rest := by
  rw [power] at h
  split at h
  · cases h
  · next base hbase =>
    have hprimary := primary_sound ih hd hbase
    split at h
    · next rest hrest =>
      have hlt := base.properEnd.length_lt
      rw [hrest, List.length_cons] at hlt
      split at h
      · cases h
      · split at h
        · cases h
        · next exponent hexponent =>
          cases h
          obtain ⟨m, hm, hb⟩ := hprimary
          obtain ⟨n, hn, hx⟩ := (ih rest (by omega)).signed (by omega) hexponent
          rw [hrest, List.map_cons] at hb
          exact ⟨_, by omega, .exponent hb hx⟩
    · cases h
      exact hprimary.map .base

theorem signed_sound (ih : ∀ us : List Token, us.length < ts.length → Sound stop us) {depth : Nat}
    {p : Parsed Expr ts} (hd : depth ≤ maxNesting) (h : signed stop depth ts = .ok p) :
    Fits depth (.signed p.value) ts p.rest := by
  unfold signed at h
  split at h
  · exact (power_sound ih hd h).map .unsigned
  · next t rest =>
    split at h
    · exact (power_sound ih hd h).map .unsigned
    · next op hop =>
      split at h
      · cases h
      · split at h
        · cases h
        · next x hx =>
          cases h
          obtain ⟨n, hn, hread⟩ := (ih rest (by simp)).signed (by omega) hx
          exact ⟨n + 1, by omega, .sign hop hread⟩

/-- A run that has begun with a reading ends with one: by induction on the tokens left. -/
theorem run_sound (ih : ∀ us : List Token, us.length < ts.length → Sound stop us) {depth k : Nat} {level : Level}
    {left p : Parsed Expr ts} (hd : depth + k ≤ maxNesting)
    (hleft : Fits depth (.run level k left.value) ts left.rest) (h : run stop (depth + k) level left = .ok p) :
    Fits depth (.chain level p.value) ts p.rest := by
  induction hlength : left.rest.length using Nat.strongRecOn generalizing k left with
  | ind length ihrun =>
    rw [run] at h
    split at h
    · cases h
      exact hleft.map .chain
    · next t rest hrest =>
      split at h
      · cases h
        exact hleft.map .chain
      · next op hop =>
        split at h
        · cases h
        · split at h
          · cases h
          · next right hright =>
            have hlt := left.properEnd.length_lt
            have hright_lt := right.properEnd.length_lt
            rw [hrest, List.length_cons] at hlt hlength
            obtain ⟨m, hm, hl⟩ := hleft
            obtain ⟨n, hn, hr⟩ := (ih rest (by omega)).operand (by omega) hright
            rw [hrest, List.map_cons] at hl
            exact ihrun right.rest.length (by omega) (k := k + 1) (by omega) ⟨_, by omega, .next hl hop hr⟩ h rfl

theorem chain_sound (ih : ∀ us : List Token, us.length < ts.length → Sound stop us) {depth : Nat} {level : Level}
    (hoperand : ∀ {p : Parsed Expr ts}, operand stop depth level ts = .ok p →
      Fits depth (.operand level p.value) ts p.rest)
    {p : Parsed Expr ts} (hd : depth ≤ maxNesting) (h : chain stop depth level ts = .ok p) :
    Fits depth (.chain level p.value) ts p.rest := by
  rw [chain] at h
  split at h
  · cases h
  · next left hleft => exact run_sound ih hd ((hoperand hleft).map .first) h

theorem operand_sound (ih : ∀ us : List Token, us.length < ts.length → Sound stop us) {depth : Nat}
    (hd : depth ≤ maxNesting) (level : Level) {p : Parsed Expr ts} (h : operand stop depth level ts = .ok p) :
    Fits depth (.operand level p.value) ts p.rest := by
  rw [operand] at h
  split at h
  · next tighter ht =>
    have := Level.rank_lt_of_tighter? ht
    exact (chain_sound ih (operand_sound ih hd tighter) hd h).map (.tighter ht)
  · next ht => exact (signed_sound ih hd h).map (.tightest ht)
termination_by level.rank

theorem expression_sound_of (ih : ∀ us : List Token, us.length < ts.length → Sound stop us) {depth : Nat}
    {p : Parsed Expr ts} (h : expression stop depth ts = .ok p) :
    Fits depth (.expression p.value) ts p.rest := by
  rw [expression] at h
  split at h
  · cases h
  · next hd =>
    obtain ⟨n, hn, hread⟩ := chain_sound ih (operand_sound ih (by omega) .comparison) (by omega) h
    exact ⟨n + 1, by omega, .expression hread⟩

theorem arguments_sound (ih : ∀ us : List Token, us.length < ts.length → Sound stop us) {depth : Nat}
    {p : Parsed (List Expr) ts} (h : arguments stop depth ts = .ok p) :
    Fits depth (.arguments p.value) ts p.rest := by
  rw [arguments] at h
  split at h
  · cases h
  · next first hfirst =>
    obtain ⟨m, hm, hread⟩ := expression_sound_of ih hfirst
    split at h
    · next after hafter =>
      have hlt := first.properEnd.length_lt
      rw [hafter, List.length_cons] at hlt
      split at h
      · cases h
      · next others hothers =>
        cases h
        obtain ⟨n, hn, hrest⟩ := (ih after (by omega)).arguments hothers
        rw [hafter, List.map_cons] at hread
        exact ⟨_, by omega, .more hread hrest⟩
    · next after hafter =>
      cases h
      rw [hafter, List.map_cons] at hread
      exact ⟨m, hm, .last hread⟩
    · cases h

end Step

theorem sound (ts : List Token) : Sound stop ts := by
  induction hlength : ts.length using Nat.strongRecOn generalizing ts with
  | ind length ih =>
    have ih : ∀ us : List Token, us.length < ts.length → Sound stop us := fun us hus => ih _ (by omega) us rfl
    exact ⟨expression_sound_of ih, fun hd => operand_sound ih hd _, signed_sound ih, arguments_sound ih⟩

theorem expression_sound {ts : List Token} {depth : Nat} {p : Parsed Expr ts}
    (h : expression stop depth ts = .ok p) : Fits depth (.expression p.value) ts p.rest :=
  (sound ts).expression h

end Soundness

/-! ### What has a reading is parsed -/

/-- How strongly a token binds to a phrase before it. A colon makes a range of an address. -/
def strength : TokenKind → Nat
  | .equal | .notEqual | .less | .lessEqual | .greater | .greaterEqual => 1
  | .ampersand => 2
  | .plus | .minus => 3
  | .star | .slash => 4
  | .caret => 6
  | .colon => primaryPrecedence
  | _ => 0

/-- How strongly what follows a phrase binds to it. -/
def pull : List TokenKind → Nat
  | [] => 0
  | t :: _ => strength t

/-- A phrase is complete if what follows binds less strongly than this. -/
def Phrase.precedence : Phrase → Nat
  | expression _ => 1
  | chain level _ => level.precedence
  | run level _ _ => level.precedence + 1
  | operand level _ => level.precedence + 1
  | signed _ => BinaryOp.power.precedence
  | power _ => BinaryOp.power.precedence
  | primary _ => primaryPrecedence
  | arguments _ => primaryPrecedence + 1

theorem strength_of_op? {level : Level} {t : TokenKind} {op : BinaryOp} (h : level.op? t = some op) :
    strength t = level.precedence := by
  cases level <;> cases t <;> first | rfl | cases h

theorem op?_of_strength_lt {level : Level} {t : TokenKind} (h : strength t < level.precedence) :
    level.op? t = none := by
  cases hop : level.op? t with
  | none => rfl
  | some op =>
    rw [strength_of_op? hop] at h
    exact absurd h (Nat.lt_irrefl _)

theorem Level.precedence_of_tighter? {a b : Level} (h : a.tighter? = some b) : b.precedence = a.precedence + 1 := by
  cases a <;> cases h <;> rfl

theorem Level.precedence_of_tightest {a : Level} (h : a.tighter? = none) :
    a.precedence + 2 = BinaryOp.power.precedence := by
  cases a <;> cases h
  rfl

/-- Whether a phrase can start with a token. -/
def opens : TokenKind → Bool
  | .number _ | .text _ | .boolean _ | .error _ | .identifier _ | .address _ | .sheet _ => true
  | .plus | .minus | .leftParen => true
  | _ => false

theorem Spelling.head {r : Reference} {us : List TokenKind} (h : Spelling r us) :
    ∃ t vs, us = t :: vs ∧ opens t = true ∧ sign? t = none := by
  cases h with
  | cell sheet a => cases sheet <;> exact ⟨_, _, rfl, rfl, rfl⟩
  | range sheet a b => cases sheet <;> exact ⟨_, _, rfl, rfl, rfl⟩
  | repeated a b => exact ⟨_, _, rfl, rfl, rfl⟩

theorem Reading.primary_head {e : Expr} {ks rest : List TokenKind} {n : Nat} (h : Reading (.primary e) ks rest n) :
    ∃ t us, ks = t :: us ∧ opens t = true ∧ sign? t = none := by
  cases h with
  | @literal t _ _ hliteral =>
    refine ⟨t, _, rfl, ?_⟩
    unfold literal? at hliteral
    split at hliteral <;> cases hliteral <;> exact ⟨rfl, rfl⟩
  | reference hspell =>
    obtain ⟨t, vs, rfl, ht⟩ := hspell.head
    exact ⟨t, _, rfl, ht⟩
  | parenthesized => exact ⟨_, _, rfl, rfl, rfl⟩
  | callNone => exact ⟨_, _, rfl, rfl, rfl⟩
  | call => exact ⟨_, _, rfl, rfl, rfl⟩

theorem Reading.power_head {e : Expr} {ks rest : List TokenKind} {n : Nat} (h : Reading (.power e) ks rest n) :
    ∃ t us, ks = t :: us ∧ opens t = true ∧ sign? t = none := by
  cases h with
  | exponent hb => exact hb.primary_head
  | base hb => exact hb.primary_head

theorem Reading.head_opens {φ : Phrase} {ks rest : List TokenKind} {n : Nat} (h : Reading φ ks rest n) :
    ∃ t us, ks = t :: us ∧ opens t = true := by
  induction h with
  | @sign t _ _ _ _ _ hsign =>
    refine ⟨t, _, rfl, ?_⟩
    unfold sign? at hsign
    split at hsign <;> first | rfl | cases hsign
  | literal hliteral =>
    obtain ⟨t, us, hks, ht, -⟩ := (Reading.literal hliteral).primary_head
    exact ⟨t, us, hks, ht⟩
  | reference hspell =>
    obtain ⟨t, vs, rfl, ht, -⟩ := hspell.head
    exact ⟨t, _, rfl, ht⟩
  | parenthesized => exact ⟨_, _, rfl, rfl⟩
  | callNone => exact ⟨_, _, rfl, rfl⟩
  | call => exact ⟨_, _, rfl, rfl⟩
  | _ => assumption

/-- The outcome is `a`, with `rest` left over, if the nesting is allowed, and that it is too deep if not. -/
structure Yields {α : Type} {ts : List Token} (r : Except ParseError (Parsed α ts)) (a : α)
    (rest : List TokenKind) (nesting : Nat) : Prop where
  ok : nesting ≤ maxNesting → ∃ p, r = .ok p ∧ p.value = a ∧ p.rest.map Token.kind = rest
  tooDeep : maxNesting < nesting → ∃ q, r = .error ⟨.tooDeep, q⟩

/-- The parser comes to the run of a chain at which `e` has been read and `rest` is left over. -/
structure Arrives (stop depth : Nat) (level : Level) (ts : List Token) (k : Nat) (e : Expr)
    (rest : List TokenKind) (nesting : Nat) : Prop where
  ok : nesting ≤ maxNesting → ∃ left : Parsed Expr ts, left.value = e ∧ left.rest.map Token.kind = rest ∧
    chain stop depth level ts = run stop (depth + k) level left
  tooDeep : maxNesting < nesting → ∃ q, chain stop depth level ts = .error ⟨.tooDeep, q⟩

/-- What the parser does with tokens that start with a phrase. -/
def Phrase.Parses (stop depth : Nat) (ts : List Token) (rest : List TokenKind) (n : Nat) : Phrase → Prop
  | expression e => Yields (Parse.expression stop depth ts) e rest (depth + n)
  | chain level e => Yields (Parse.chain stop depth level ts) e rest (depth + n)
  | run level k e => Arrives stop depth level ts k e rest (depth + n)
  | operand level e => Yields (Parse.operand stop depth level ts) e rest (depth + n)
  | signed e => Yields (Parse.signed stop depth ts) e rest (depth + n)
  | power e => Yields (Parse.power stop depth ts) e rest (depth + n)
  | primary e => Yields (Parse.primary stop depth ts) e rest (depth + n)
  | arguments es => Yields (Parse.arguments stop depth ts) es rest (depth + n)

section Completeness
variable {stop depth m n : Nat} {ts : List Token} {rest mid : List TokenKind} {e : Expr}

theorem map_kind_eq_cons {t : TokenKind} (h : ts.map Token.kind = t :: rest) :
    ∃ q us, ts = ⟨t, q⟩ :: us ∧ us.map Token.kind = rest := by
  obtain ⟨⟨k, q⟩, us, rfl, rfl, hus⟩ := List.map_eq_cons_iff.mp h
  exact ⟨q, us, rfl, hus⟩

theorem Yields.expression
    (h : depth < maxNesting → Yields (chain stop (depth + 1) .comparison ts) e rest (depth + 1 + n)) :
    Yields (expression stop depth ts) e rest (depth + (n + 1)) := by
  rw [Parse.expression]
  split
  · exact ⟨fun hn => by omega, fun _ => ⟨_, rfl⟩⟩
  · rw [show depth + (n + 1) = depth + 1 + n by omega]
    exact h (by omega)

/-! #### Chains -/

variable {level : Level}

theorem run_of_pull_lt {left : Parsed Expr ts} (h : pull (left.rest.map Token.kind) < level.precedence) :
    run stop depth level left = .ok left := by
  rw [run]
  split
  · rfl
  · next t rest hrest =>
    rw [hrest, List.map_cons] at h
    rw [op?_of_strength_lt h]

theorem run_next {us : List Token} {left : Parsed Expr ts} {t : Token} {op : BinaryOp}
    (hrest : left.rest = t :: us) (hop : level.op? t.kind = some op) (hd : depth < maxNesting)
    {right : Parsed Expr us} (hright : operand stop (depth + 1) level us = .ok right) :
    ∃ h, run stop depth level left =
      run stop (depth + 1) level ⟨.binary op left.value right.value, right.rest, h⟩ := by
  have hproper : ProperEnd right.rest ts := right.properEnd.trans (.tail (hrest ▸ left.properEnd))
  refine ⟨hproper, ?_⟩
  rw [run]
  split
  · next hnil => rw [hrest] at hnil; cases hnil
  · next t' us' hcons =>
    rw [hrest] at hcons
    cases hcons
    rw [hop]
    simp only
    rw [if_neg (by omega), hright]

theorem run_tooDeep {us : List Token} {left : Parsed Expr ts} {t : Token} {op : BinaryOp}
    (hrest : left.rest = t :: us) (hop : level.op? t.kind = some op)
    (h : depth < maxNesting → ∃ q, operand stop (depth + 1) level us = .error ⟨.tooDeep, q⟩) :
    ∃ q, run stop depth level left = .error ⟨.tooDeep, q⟩ := by
  rw [run]
  split
  · next hnil => rw [hrest] at hnil; cases hnil
  · next t' us' hcons =>
    rw [hrest] at hcons
    cases hcons
    rw [hop]
    simp only
    split
    · exact ⟨_, rfl⟩
    · obtain ⟨q, hq⟩ := h (by omega)
      exact ⟨q, by rw [hq]⟩

theorem Arrives.first (h : Yields (operand stop depth level ts) e rest n) : Arrives stop depth level ts 0 e rest n where
  ok hn := by
    obtain ⟨left, hleft, hvalue, hrest⟩ := h.ok hn
    exact ⟨left, hvalue, hrest, by rw [chain, hleft]; rfl⟩
  tooDeep hn := by
    obtain ⟨q, hq⟩ := h.tooDeep hn
    exact ⟨q, by rw [chain, hq]⟩

theorem Arrives.next {k : Nat} {l r : Expr} {t : TokenKind} {op : BinaryOp}
    (h : Arrives stop depth level ts k l (t :: mid) (depth + m)) (hop : level.op? t = some op)
    (hr : ∀ us : List Token, us.map Token.kind = mid → depth + k < maxNesting →
      Yields (operand stop (depth + k + 1) level us) r rest (depth + k + 1 + n)) :
    Arrives stop depth level ts (k + 1) (.binary op l r) rest (depth + max m (k + 1 + n)) := by
  by_cases hm : depth + m ≤ maxNesting
  · obtain ⟨left, hvalue, hrest, hchain⟩ := h.ok hm
    obtain ⟨q, us, hus, hmid⟩ := map_kind_eq_cons hrest
    refine ⟨fun hn => ?_, fun hn => ?_⟩
    · obtain ⟨right, hright, hrvalue, hrrest⟩ := (hr us hmid (by omega)).ok (by omega)
      obtain ⟨hproper, hrun⟩ := run_next hus hop (by omega) hright
      exact ⟨_, by rw [hvalue, hrvalue], hrrest, hchain.trans hrun⟩
    · rw [hchain]
      exact run_tooDeep hus hop fun hk => (hr us hmid hk).tooDeep (by omega)
  · exact ⟨fun hn => by omega, fun _ => h.tooDeep (by omega)⟩

theorem Arrives.yields {k : Nat} (h : Arrives stop depth level ts k e rest n) (hpull : pull rest < level.precedence) :
    Yields (chain stop depth level ts) e rest n where
  ok hn := by
    obtain ⟨left, hvalue, hrest, hchain⟩ := h.ok hn
    exact ⟨left, by rw [hchain, run_of_pull_lt (by rwa [hrest])], hvalue, hrest⟩
  tooDeep := h.tooDeep

theorem operand_of_tighter {tighter : Level} (h : level.tighter? = some tighter) :
    operand stop depth level ts = chain stop depth tighter ts := by
  rw [operand]
  split
  · next ht => rw [h] at ht; cases ht; rfl
  · next ht => rw [h] at ht; cases ht

theorem operand_of_tightest (h : level.tighter? = none) : operand stop depth level ts = signed stop depth ts := by
  rw [operand]
  split
  · next ht => rw [h] at ht; cases ht
  · rfl

/-! #### Signs and exponents -/

theorem Yields.sign {t : TokenKind} {q : Nat} {op : UnaryOp} {x : Expr} (hsign : sign? t = some op)
    (h : depth < maxNesting → Yields (signed stop (depth + 1) ts) x rest (depth + 1 + n)) :
    Yields (signed stop depth (⟨t, q⟩ :: ts)) (.unary op x) rest (depth + (n + 1)) := by
  rw [signed]
  simp only [hsign]
  split
  · exact ⟨fun hn => by omega, fun _ => ⟨_, rfl⟩⟩
  · refine ⟨fun hn => ?_, fun hn => ?_⟩
    · obtain ⟨p, hp, rfl, rfl⟩ := (h (by omega)).ok (by omega)
      exact ⟨_, by rw [hp], rfl, rfl⟩
    · obtain ⟨q, hq⟩ := (h (by omega)).tooDeep (by omega)
      exact ⟨q, by rw [hq]⟩

theorem signed_of_unsigned {t : TokenKind} {us : List TokenKind} (hsign : sign? t = none)
    (hts : ts.map Token.kind = t :: us) : signed stop depth ts = power stop depth ts := by
  obtain ⟨q, vs, rfl, -⟩ := map_kind_eq_cons hts
  rw [signed]
  simp only [hsign]

theorem Yields.exponent {b x : Expr} (h : Yields (primary stop depth ts) b (.caret :: mid) (depth + m))
    (hx : ∀ us : List Token, us.map Token.kind = mid → depth < maxNesting →
      Yields (signed stop (depth + 1) us) x rest (depth + 1 + n)) :
    Yields (power stop depth ts) (.binary .power b x) rest (depth + max m (n + 1)) := by
  rw [power]
  by_cases hm : depth + m ≤ maxNesting
  · obtain ⟨base, hbase, hvalue, hrest⟩ := h.ok hm
    obtain ⟨q, us, hus, hmid⟩ := map_kind_eq_cons hrest
    rw [hbase]
    simp only
    split
    · next q' us' hcaret =>
      rw [hus] at hcaret
      cases hcaret
      split
      · exact ⟨fun hn => by omega, fun _ => ⟨_, rfl⟩⟩
      · refine ⟨fun hn => ?_, fun hn => ?_⟩
        · obtain ⟨exponent, hexponent, hxvalue, hxrest⟩ := (hx us hmid (by omega)).ok (by omega)
          exact ⟨_, by rw [hexponent], by rw [hvalue, hxvalue], hxrest⟩
        · obtain ⟨q', hq'⟩ := (hx us hmid (by omega)).tooDeep (by omega)
          exact ⟨q', by rw [hq']⟩
    · next hcaret => exact absurd hus (hcaret _ _)
  · refine ⟨fun hn => by omega, fun _ => ?_⟩
    obtain ⟨q, hq⟩ := h.tooDeep (by omega)
    exact ⟨q, by rw [hq]⟩

theorem Yields.base (h : Yields (primary stop depth ts) e rest n) (hpull : pull rest < BinaryOp.power.precedence) :
    Yields (power stop depth ts) e rest n := by
  rw [power]
  refine ⟨fun hn => ?_, fun hn => ?_⟩
  · obtain ⟨base, hbase, hvalue, hrest⟩ := h.ok hn
    refine ⟨base, ?_, hvalue, hrest⟩
    rw [hbase]
    simp only
    split
    · next hcaret =>
      rw [← hrest, hcaret] at hpull
      exact absurd hpull (Nat.lt_irrefl _)
    · rfl
  · obtain ⟨q, hq⟩ := h.tooDeep hn
    exact ⟨q, by rw [hq]⟩

/-! #### Primary expressions -/

theorem reference_cell {sheet : Option String} {a : Address} {t : Token}
    (h : pull (ts.map Token.kind) < primaryPrecedence) :
    reference stop sheet a t ts = .ok ⟨.reference (.cell sheet a), ts, .of_cons t ts⟩ := by
  unfold reference
  split
  · exact absurd h (Nat.lt_irrefl _)
  · rfl

theorem primary_reference {r : Reference} {us : List TokenKind} (hspell : Spelling r us)
    (hks : ts.map Token.kind = us ++ rest) (hpull : pull rest < primaryPrecedence) :
    ∃ p, primary stop depth ts = .ok p ∧ p.value = .reference r ∧ p.rest.map Token.kind = rest := by
  cases hspell with
  | cell sheet a =>
    cases sheet with
    | none =>
      obtain ⟨_, ts, rfl, rfl⟩ := map_kind_eq_cons hks
      rw [primary, reference_cell hpull]
      exact ⟨_, rfl, rfl, rfl⟩
    | some name =>
      obtain ⟨_, _, rfl, h₁⟩ := map_kind_eq_cons hks
      obtain ⟨_, ts, rfl, rfl⟩ := map_kind_eq_cons h₁
      rw [primary]
      simp only [reference_cell hpull]
      exact ⟨_, rfl, rfl, rfl⟩
  | range sheet a b =>
    cases sheet with
    | none =>
      obtain ⟨_, _, rfl, h₁⟩ := map_kind_eq_cons hks
      obtain ⟨_, _, rfl, h₂⟩ := map_kind_eq_cons h₁
      obtain ⟨_, ts, rfl, rfl⟩ := map_kind_eq_cons h₂
      rw [primary]
      exact ⟨_, rfl, rfl, rfl⟩
    | some name =>
      obtain ⟨_, _, rfl, h₁⟩ := map_kind_eq_cons hks
      obtain ⟨_, _, rfl, h₂⟩ := map_kind_eq_cons h₁
      obtain ⟨_, _, rfl, h₃⟩ := map_kind_eq_cons h₂
      obtain ⟨_, ts, rfl, rfl⟩ := map_kind_eq_cons h₃
      rw [primary]
      exact ⟨_, rfl, rfl, rfl⟩
  | repeated a b hsame =>
    obtain ⟨_, _, rfl, h₁⟩ := map_kind_eq_cons hks
    obtain ⟨_, _, rfl, h₂⟩ := map_kind_eq_cons h₁
    obtain ⟨_, _, rfl, h₃⟩ := map_kind_eq_cons h₂
    obtain ⟨_, _, rfl, h₄⟩ := map_kind_eq_cons h₃
    obtain ⟨_, ts, rfl, rfl⟩ := map_kind_eq_cons h₄
    rw [primary]
    simp [reference, rangeEnd, hsame, Parsed.cons, Parsed.map]

theorem primary_literal {t : TokenKind} {q : Nat} (h : literal? t = some e) :
    primary stop depth (⟨t, q⟩ :: ts) = .ok ⟨e, ts, .of_cons ⟨t, q⟩ ts⟩ := by
  rw [primary.eq_def]
  unfold literal? at h
  split at h <;> cases h <;> rfl

theorem Yields.parenthesized {q : Nat} (h : Yields (Parse.expression stop depth ts) e (.rightParen :: rest) n) :
    Yields (primary stop depth (⟨.leftParen, q⟩ :: ts)) e rest n := by
  rw [primary]
  refine ⟨fun hn => ?_, fun hn => ?_⟩
  · obtain ⟨inner, hinner, hvalue, hrest⟩ := h.ok hn
    obtain ⟨q', after, hafter, hkinds⟩ := map_kind_eq_cons hrest
    rw [hinner]
    simp only
    split
    · next q'' after' hparen =>
      rw [hafter] at hparen
      cases hparen
      exact ⟨_, rfl, hvalue, hkinds⟩
    · next hparen => exact absurd hafter (hparen _ _)
  · obtain ⟨q', hq'⟩ := h.tooDeep hn
    exact ⟨q', by rw [hq']⟩

theorem Yields.call {name : String} {es : List Expr} {q q' : Nat} (h : Yields (Parse.arguments stop depth ts) es rest n)
    (hopen : ∀ q us, ts ≠ ⟨.rightParen, q⟩ :: us) :
    Yields (primary stop depth (⟨.identifier name, q⟩ :: ⟨.leftParen, q'⟩ :: ts)) (.call name es) rest n := by
  rw [primary]
  · refine ⟨fun hn => ?_, fun hn => ?_⟩
    · obtain ⟨args, hargs, rfl, hrest⟩ := h.ok hn
      exact ⟨_, by rw [hargs], rfl, hrest⟩
    · obtain ⟨q, hq⟩ := h.tooDeep hn
      exact ⟨q, by rw [hq]⟩
  · exact hopen

theorem Yields.last (h : Yields (Parse.expression stop depth ts) e (.rightParen :: rest) n) :
    Yields (Parse.arguments stop depth ts) [e] rest n := by
  rw [arguments]
  refine ⟨fun hn => ?_, fun hn => ?_⟩
  · obtain ⟨first, hfirst, hvalue, hrest⟩ := h.ok hn
    obtain ⟨q, after, hafter, hkinds⟩ := map_kind_eq_cons hrest
    rw [hfirst]
    simp only
    split
    · next hcomma => rw [hafter] at hcomma; cases hcomma
    · next hparen =>
      rw [hafter] at hparen
      cases hparen
      exact ⟨_, rfl, by rw [hvalue], hkinds⟩
    · next hparen => exact absurd hafter (hparen _ _)
  · obtain ⟨q, hq⟩ := h.tooDeep hn
    exact ⟨q, by rw [hq]⟩

theorem Yields.more {es : List Expr} (h : Yields (Parse.expression stop depth ts) e (.comma :: mid) (depth + m))
    (hes : ∀ us : List Token, us.map Token.kind = mid → Yields (Parse.arguments stop depth us) es rest (depth + n)) :
    Yields (Parse.arguments stop depth ts) (e :: es) rest (depth + max m n) := by
  rw [arguments]
  by_cases hm : depth + m ≤ maxNesting
  · obtain ⟨first, hfirst, hvalue, hrest⟩ := h.ok hm
    obtain ⟨q, after, hafter, hkinds⟩ := map_kind_eq_cons hrest
    rw [hfirst]
    simp only
    split
    · next q' after' hcomma =>
      rw [hafter] at hcomma
      cases hcomma
      refine ⟨fun hn => ?_, fun hn => ?_⟩
      · obtain ⟨others, hothers, hovalue, horest⟩ := (hes after hkinds).ok (by omega)
        exact ⟨_, by rw [hothers], by rw [hvalue, hovalue], horest⟩
      · obtain ⟨q, hq⟩ := (hes after hkinds).tooDeep (by omega)
        exact ⟨q, by rw [hq]⟩
    · next hparen => rw [hafter] at hparen; cases hparen
    · next hcomma _ => exact absurd hafter (hcomma _ _)
  · refine ⟨fun hn => by omega, fun _ => ?_⟩
    obtain ⟨q, hq⟩ := h.tooDeep (by omega)
    exact ⟨q, by rw [hq]⟩

/-! #### All phrases -/

/-- The parser reads every phrase that what follows it does not continue. -/
theorem Reading.parses {φ : Phrase} {ks : List TokenKind} (h : Reading φ ks rest n) :
    ∀ (depth : Nat) {ts : List Token}, depth ≤ maxNesting → ts.map Token.kind = ks → pull rest < φ.precedence →
      φ.Parses stop depth ts rest n := by
  induction h with
  | expression _ ih =>
    intro depth ts hd hks hpull
    exact .expression fun hlt => ih (depth + 1) hlt hks hpull
  | chain _ ih =>
    intro depth ts hd hks hpull
    exact Arrives.yields (ih depth hd hks (Nat.lt_succ_of_lt hpull)) hpull
  | first _ ih =>
    intro depth ts hd hks hpull
    exact .first (ih depth hd hks hpull)
  | @next level k l r ks t op mid rest m n _ hop _ ihl ihr =>
    intro depth ts hd hks hpull
    -- the operator itself pulls at its level, which does not continue the run before it
    have hl := ihl depth hd hks (by rw [pull, strength_of_op? hop]; exact Nat.lt_succ_self _)
    exact Arrives.next hl hop fun us hus hlt => ihr (depth + k + 1) hlt hus hpull
  | tighter ht _ ih =>
    intro depth ts hd hks hpull
    rw [Phrase.Parses, operand_of_tighter ht]
    exact ih depth hd hks (by rwa [Phrase.precedence, Level.precedence_of_tighter? ht])
  | tightest ht _ ih =>
    intro depth ts hd hks hpull
    rw [Phrase.Parses, operand_of_tightest ht]
    refine ih depth hd hks ?_
    rw [Phrase.precedence, ← Level.precedence_of_tightest ht]
    exact Nat.lt_succ_of_lt hpull
  | sign hsign _ ih =>
    intro depth ts hd hks hpull
    obtain ⟨q, us, rfl, hus⟩ := map_kind_eq_cons hks
    exact .sign hsign fun hlt => ih (depth + 1) hlt hus hpull
  | unsigned hpower ih =>
    intro depth ts hd hks hpull
    obtain ⟨t, us, rfl, -, hsign⟩ := hpower.power_head
    rw [Phrase.Parses, signed_of_unsigned hsign hks]
    exact ih depth hd hks hpull
  | exponent _ _ ihb ihx =>
    intro depth ts hd hks hpull
    exact Yields.exponent (ihb depth hd hks (Nat.lt_succ_self _))
      fun us hus hlt => ihx (depth + 1) hlt hus hpull
  | base _ ih =>
    intro depth ts hd hks hpull
    exact Yields.base (ih depth hd hks (Nat.lt_succ_of_lt hpull)) hpull
  | literal hliteral =>
    intro depth ts hd hks hpull
    obtain ⟨q, us, rfl, rfl⟩ := map_kind_eq_cons hks
    exact ⟨fun _ => ⟨_, primary_literal hliteral, rfl, rfl⟩, fun hn => by omega⟩
  | reference hspell =>
    intro depth ts hd hks hpull
    exact ⟨fun _ => primary_reference hspell hks hpull, fun hn => by omega⟩
  | parenthesized _ ih =>
    intro depth ts hd hks hpull
    obtain ⟨q, us, rfl, hus⟩ := map_kind_eq_cons hks
    exact .parenthesized (ih depth hd hus Nat.zero_lt_one)
  | callNone =>
    intro depth ts hd hks hpull
    obtain ⟨_, _, rfl, h₁⟩ := map_kind_eq_cons hks
    obtain ⟨_, _, rfl, h₂⟩ := map_kind_eq_cons h₁
    obtain ⟨_, ts, rfl, rfl⟩ := map_kind_eq_cons h₂
    refine ⟨fun _ => ?_, fun hn => by omega⟩
    rw [Parse.primary]
    exact ⟨_, rfl, rfl, rfl⟩
  | call hargs ih =>
    intro depth ts hd hks hpull
    obtain ⟨_, _, rfl, h₁⟩ := map_kind_eq_cons hks
    obtain ⟨_, us, rfl, h₂⟩ := map_kind_eq_cons h₁
    refine .call (ih depth hd h₂ (Nat.lt_succ_of_lt hpull)) ?_
    -- a parenthesis that closes the call at once would make it one without arguments
    rintro q vs rfl
    obtain ⟨t, ws, hws, ht⟩ := hargs.head_opens
    rw [← h₂] at hws
    cases hws
    cases ht
  | last _ ih =>
    intro depth ts hd hks hpull
    exact .last (ih depth hd hks Nat.zero_lt_one)
  | more _ _ ihe ihes =>
    intro depth ts hd hks hpull
    exact Yields.more (ihe depth hd hks Nat.zero_lt_one)
      fun us hus => ihes depth hd hus hpull

end Completeness

end Spreadsheet.Parse
