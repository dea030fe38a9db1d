import Spreadsheet.Formula.Expr
import Spreadsheet.Formula.Scan

/-! # From tokens to expressions

Recursive descent over a list of tokens. From the loosest to the tightest: comparison, `&`, `+` and
`-`, `*` and `/` (all grouping from the left), signs, `^` (grouping from the right, its exponent may
carry signs), and what stands alone.

Every function takes the nesting reached so far and answers with the tokens left over, a proper end of
those it was given; that is why the descent ends. Nesting grows with each parenthesis, call argument,
sign and exponent, and with each operator of a run until the run ends. -/

namespace Spreadsheet

/-- What is left of `ts` after at least one token is `rest`. -/
def ProperEnd (rest ts : List Token) : Prop :=
  ∃ taken, taken ≠ [] ∧ ts = taken ++ rest

theorem ProperEnd.of_cons (t : Token) (ts : List Token) : ProperEnd ts (t :: ts) :=
  ⟨[t], by simp, rfl⟩

theorem ProperEnd.cons {rest ts : List Token} (h : ProperEnd rest ts) (t : Token) : ProperEnd rest (t :: ts) := by
  obtain ⟨taken, -, rfl⟩ := h
  exact ⟨t :: taken, by simp, rfl⟩

theorem ProperEnd.trans {a b c : List Token} (h : ProperEnd a b) (k : ProperEnd b c) : ProperEnd a c := by
  obtain ⟨xs, -, rfl⟩ := h
  obtain ⟨ys, hy, rfl⟩ := k
  exact ⟨ys ++ xs, by simp [hy], by simp⟩

theorem ProperEnd.tail {t : Token} {a b : List Token} (h : ProperEnd (t :: a) b) : ProperEnd a b :=
  (ProperEnd.of_cons t a).trans h

theorem ProperEnd.length_lt {rest ts : List Token} (h : ProperEnd rest ts) : rest.length < ts.length := by
  obtain ⟨taken, hne, rfl⟩ := h
  have := List.length_pos_iff.2 hne
  simp only [List.length_append]
  omega

/-- What was read from the front of `ts`, and the tokens left over. -/
structure Parsed (α : Type) (ts : List Token) where
  value : α
  rest : List Token
  properEnd : ProperEnd rest ts

namespace Parsed

def map {α β : Type} {ts : List Token} (p : Parsed α ts) (f : α → β) : Parsed β ts :=
  ⟨f p.value, p.rest, p.properEnd⟩

def cons {α : Type} {ts : List Token} (t : Token) (p : Parsed α ts) : Parsed α (t :: ts) :=
  ⟨p.value, p.rest, p.properEnd.cons t⟩

end Parsed

namespace Parse

/-- The levels of the operators that group from the left. -/
inductive Level where
  | comparison
  | concatenation
  | additive
  | multiplicative
deriving DecidableEq

namespace Level

/-- The operator of a level that a token stands for. -/
def op? : Level → TokenKind → Option BinaryOp
  | comparison, .equal => some .equal
  | comparison, .notEqual => some .notEqual
  | comparison, .less => some .less
  | comparison, .lessEqual => some .lessEqual
  | comparison, .greater => some .greater
  | comparison, .greaterEqual => some .greaterEqual
  | concatenation, .ampersand => some .concat
  | additive, .plus => some .add
  | additive, .minus => some .subtract
  | multiplicative, .star => some .multiply
  | multiplicative, .slash => some .divide
  | _, _ => none

/-- The next tighter level, if its operators still group from the left. -/
def tighter? : Level → Option Level
  | comparison => some concatenation
  | concatenation => some additive
  | additive => some multiplicative
  | multiplicative => none

/-- The number of levels from this one on. -/
def rank : Level → Nat
  | comparison => 4
  | concatenation => 3
  | additive => 2
  | multiplicative => 1

theorem rank_lt_of_tighter? {a b : Level} (h : a.tighter? = some b) : b.rank < a.rank := by
  cases a <;> cases h <;> decide

end Level

def sign? : TokenKind → Option UnaryOp
  | .minus => some .negate
  | .plus => some .plus
  | _ => none

/-- The kind of the first token; past the last one the formula has ended. -/
def current : List Token → TokenKind
  | [] => .stop
  | t :: _ => t.kind

/-- The byte of the first token; past the last one it is `stop`. -/
def position (stop : Nat) : List Token → Nat
  | [] => stop
  | t :: _ => t.position

def lastPosition (ts : List Token) : Nat :=
  (ts.getLast?.map Token.position).getD 0

/-- The end of a range whose colon stands before `ts`. It may repeat the sheet of the first corner. -/
def rangeEnd (stop : Nat) (sheet : Option String) (ts : List Token) :
    Except ParseError (Parsed Address ts) :=
  match ts with
  | ⟨.address a, p⟩ :: rest => .ok ⟨a, rest, .of_cons ⟨.address a, p⟩ rest⟩
  | ⟨.sheet name, p⟩ :: rest =>
    if sheet.any fun first => Text.SameName first name then
      match rest with
      | ⟨.address a, q⟩ :: rest =>
        .ok ⟨a, rest, (ProperEnd.of_cons ⟨.address a, q⟩ rest).cons ⟨.sheet name, p⟩⟩
      | rest => .error ⟨.missingRangeEnd (current rest), p⟩
    else
      .error ⟨.sheetMismatch, p⟩
  | ts => .error ⟨.missingRangeEnd (current ts), position stop ts⟩

/-- The reference that starts with an address, with `ts` after it: a range if a colon follows. -/
def reference (stop : Nat) (sheet : Option String) (a : Address) (t : Token) (ts : List Token) :
    Except ParseError (Parsed Expr (t :: ts)) :=
  match ts with
  | ⟨.colon, p⟩ :: rest =>
    match rangeEnd stop sheet rest with
    | .error e => .error e
    | .ok last =>
      .ok (((last.map fun b => Expr.reference (.range sheet (.spanning a b))).cons ⟨.colon, p⟩).cons t)
  | rest => .ok ⟨.reference (.cell sheet a), rest, .of_cons t rest⟩

mutual

/-- An expression, one level of nesting deeper than `depth`. -/
def expression (stop depth : Nat) (ts : List Token) : Except ParseError (Parsed Expr ts) :=
  if maxNesting ≤ depth then .error ⟨.tooDeep, position stop ts⟩
  else chain stop (depth + 1) .comparison ts
termination_by (ts.length, 20)
decreasing_by exact Prod.Lex.right _ (by decide)

/-- Operands of a level, with its operators between them. -/
def chain (stop depth : Nat) (level : Level) (ts : List Token) : Except ParseError (Parsed Expr ts) :=
  match operand stop depth level ts with
  | .error e => .error e
  | .ok left => run stop depth level left
termination_by (ts.length, 2 * level.rank + 4)
decreasing_by
  · exact Prod.Lex.right _ (by omega)
  · exact Prod.Lex.left _ _ left.properEnd.length_lt

def operand (stop depth : Nat) (level : Level) (ts : List Token) : Except ParseError (Parsed Expr ts) :=
  match _h : level.tighter? with
  | some tighter => chain stop depth tighter ts
  | none => signed stop depth ts
termination_by (ts.length, 2 * level.rank + 3)
decreasing_by
  · have := Level.rank_lt_of_tighter? _h
    exact Prod.Lex.right _ (by omega)
  · exact Prod.Lex.right _ (by omega)

/-- The rest of a run of operators of a level, after the part of it that `left` holds. Each operator
    nests one deeper. -/
def run (stop depth : Nat) (level : Level) {ts : List Token} (left : Parsed Expr ts) :
    Except ParseError (Parsed Expr ts) :=
  match _hrest : left.rest with
  | [] => .ok left
  | t :: rest =>
    match level.op? t.kind with
    | none => .ok left
    | some op =>
      if maxNesting ≤ depth then
        .error ⟨.tooDeep, position stop rest⟩
      else
        match operand stop (depth + 1) level rest with
        | .error e => .error e
        | .ok right =>
          run stop (depth + 1) level
            (⟨.binary op left.value right.value, right.rest,
              right.properEnd.trans (.tail (_hrest ▸ left.properEnd))⟩ : Parsed Expr ts)
termination_by (left.rest.length, 30)
decreasing_by
  · rw [_hrest]
    exact Prod.Lex.left _ _ (by simp)
  · have := right.properEnd.length_lt
    rw [_hrest]
    exact Prod.Lex.left _ _ (by simp only [List.length_cons]; omega)

def signed (stop depth : Nat) (ts : List Token) : Except ParseError (Parsed Expr ts) :=
  match ts with
  | [] => power stop depth []
  | t :: rest =>
    match sign? t.kind with
    | none => power stop depth (t :: rest)
    | some op =>
      if maxNesting ≤ depth then
        .error ⟨.tooDeep, position stop rest⟩
      else
        match signed stop (depth + 1) rest with
        | .error e => .error e
        | .ok x => .ok ((x.map (Expr.unary op)).cons t)
termination_by (ts.length, 2)

/-- A primary expression, to the power of what follows a `^`. -/
def power (stop depth : Nat) (ts : List Token) : Except ParseError (Parsed Expr ts) :=
  match primary stop depth ts with
  | .error e => .error e
  | .ok base =>
    match _hrest : base.rest with
    | ⟨.caret, _⟩ :: rest =>
      if maxNesting ≤ depth then
        .error ⟨.tooDeep, position stop rest⟩
      else
        match signed stop (depth + 1) rest with
        | .error e => .error e
        | .ok exponent =>
          .ok ⟨.binary .power base.value exponent.value, exponent.rest,
            exponent.properEnd.trans (.tail (_hrest ▸ base.properEnd))⟩
    | _ => .ok base
termination_by (ts.length, 1)
decreasing_by
  · exact Prod.Lex.right _ (by omega)
  · have := base.properEnd.length_lt
    rw [_hrest, List.length_cons] at this
    exact Prod.Lex.left _ _ (by omega)

/-- What stands alone: a literal, a reference, a call, or an expression in parentheses. -/
def primary (stop depth : Nat) (ts : List Token) : Except ParseError (Parsed Expr ts) :=
  match ts with
  | [] => .error ⟨.missingOperand .stop, stop⟩
  | ⟨.number n, p⟩ :: rest => .ok ⟨.number n, rest, .of_cons ⟨.number n, p⟩ rest⟩
  | ⟨.text s, p⟩ :: rest => .ok ⟨.text s, rest, .of_cons ⟨.text s, p⟩ rest⟩
  | ⟨.boolean b, p⟩ :: rest => .ok ⟨.boolean b, rest, .of_cons ⟨.boolean b, p⟩ rest⟩
  | ⟨.error e, p⟩ :: rest => .ok ⟨.error e, rest, .of_cons ⟨.error e, p⟩ rest⟩
  | ⟨.leftParen, p⟩ :: rest =>
    match expression stop depth rest with
    | .error e => .error e
    | .ok inner =>
      match hrest : inner.rest with
      | ⟨.rightParen, _⟩ :: after =>
        .ok ⟨inner.value, after, (ProperEnd.tail (hrest ▸ inner.properEnd)).cons ⟨.leftParen, p⟩⟩
      | after => .error ⟨.missingRightParen (current after), position stop after⟩
  | ⟨.sheet name, p⟩ :: rest =>
    match rest with
    | ⟨.address a, q⟩ :: after =>
      match reference stop (some name) a ⟨.address a, q⟩ after with
      | .error e => .error e
      | .ok r => .ok (r.cons ⟨.sheet name, p⟩)
    | after => .error ⟨.missingAddress name (current after), p⟩
  | ⟨.address a, p⟩ :: rest => reference stop none a ⟨.address a, p⟩ rest
  | ⟨.identifier name, p⟩ :: rest =>
    match rest with
    | ⟨.leftParen, q⟩ :: after =>
      match after with
      | ⟨.rightParen, r⟩ :: after =>
        .ok ⟨.call name [], after,
          ((ProperEnd.of_cons ⟨.rightParen, r⟩ after).cons ⟨.leftParen, q⟩).cons ⟨.identifier name, p⟩⟩
      | after =>
        match arguments stop depth after with
        | .error e => .error e
        | .ok args => .ok (((args.map (Expr.call name)).cons ⟨.leftParen, q⟩).cons ⟨.identifier name, p⟩)
    | _ => .error ⟨.unknownName name, p⟩
  | t :: _ => .error ⟨.missingOperand t.kind, t.position⟩
termination_by (ts.length, 0)

/-- The arguments of a call up to its closing parenthesis, at least one. -/
def arguments (stop depth : Nat) (ts : List Token) : Except ParseError (Parsed (List Expr) ts) :=
  match expression stop depth ts with
  | .error e => .error e
  | .ok first =>
    match _hrest : first.rest with
    | ⟨.comma, _⟩ :: after =>
      match arguments stop depth after with
      | .error e => .error e
      | .ok others =>
        .ok ⟨first.value :: others.value, others.rest,
          others.properEnd.trans (.tail (_hrest ▸ first.properEnd))⟩
    | ⟨.rightParen, _⟩ :: after => .ok ⟨[first.value], after, .tail (_hrest ▸ first.properEnd)⟩
    | after => .error ⟨.openArguments (current after), position stop after⟩
termination_by (ts.length, 40)
decreasing_by
  · exact Prod.Lex.right _ (by omega)
  · have := first.properEnd.length_lt
    rw [_hrest, List.length_cons] at this
    exact Prod.Lex.left _ _ (by omega)

end

/-- The expression that tokens write, up to the token that marks the end. -/
def formula (ts : List Token) : Except ParseError Expr :=
  let stop := lastPosition ts
  match expression stop 0 ts with
  | .error e => .error e
  | .ok p =>
    match current p.rest with
    | .stop => .ok p.value
    | found => .error ⟨.trailing found, position stop p.rest⟩

end Parse

/-- The expression that the text of a formula writes, with its leading `=`. -/
def Expr.parse (s : String) : Except ParseError Expr :=
  match s.toList with
  | '=' :: cs =>
    match tokensFrom 1 0 cs with
    | .error e => .error e
    | .ok ts => Parse.formula ts
  | _ => .error ⟨.missingEquals, 0⟩

end Spreadsheet
