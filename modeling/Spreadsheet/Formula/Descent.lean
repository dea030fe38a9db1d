import Spreadsheet.Formula.Parse

/-! # The descent with a cursor

The same descent over a list of tokens that does not change, with a cursor into it and a depth of nesting that is raised
and taken back on the way. It goes up when an expression, the operand of a sign, an exponent or the right side of an
operator starts, and is taken back when that ends, for a run of operators all at once. Some failures end a call without
that. -/

namespace Spreadsheet

/-- What the descent reads. -/
abbrev Descent :=
  List Token

namespace Descent
open Parse

/-- A place in the list of tokens, and a depth of nesting. -/
structure Mark where
  pos : Nat
  depth : Nat
deriving DecidableEq

/-- Where a parser is, and the marks at which it was, the last one first. -/
structure Reader extends Mark where
  trail : List Mark
deriving DecidableEq

def Reader.moveTo (r : Reader) (m : Mark) : Reader :=
  ⟨m, r.toMark :: r.trail⟩

/-- The reader at a mark, before it has moved. -/
def Reader.at (m : Mark) : Reader :=
  ⟨m, []⟩

/-- What ends a run for good: more is taken from the depth than it has. -/
inductive Fault where
  | underflow
deriving DecidableEq

/-- An error as it is reported. -/
structure Report where
  kind : ParseErrorKind
  position : Nat
  message : String
deriving DecidableEq

end Descent

def ParseError.report (e : ParseError) : Descent.Report :=
  ⟨e.kind, e.position, e.cause.message⟩

namespace Descent
open Parse

/-- What moves a reader. It may fail for good, or not end. -/
abbrev Action :=
  StateT Reader (ExceptT Fault Option)

/-! ### Steps of the cursor and of the depth -/

def unexpectedAt (context : String) (position : Nat) (found : TokenKind) : Report :=
  ⟨ParseCause.unexpected found, position, s!"{context}, found {found.describe}"⟩

section Steps
variable (tokens : Descent)

/-- The kind of the token at the cursor; past the last one the formula has ended. -/
def kindAt (pos : Nat) : TokenKind :=
  (tokens[pos]?.map Token.kind).getD .stop

/-- The byte of the token at the cursor, or of the last one past it. -/
def byteAt (pos : Nat) : Nat :=
  ((tokens[pos]? <|> tokens.getLast?).map Token.position).getD 0

def current : Action TokenKind := do
  return tokens.kindAt (← get).pos

def position : Action Nat := do
  return tokens.byteAt (← get).pos

/-- Moves the cursor on, but not past the end of the list, and answers with the token it was at. -/
def consume : Action TokenKind := do
  let r ← get
  if r.pos < tokens.length then
    set (r.moveTo ⟨r.pos + 1, r.depth⟩)
  return tokens.kindAt r.pos

def unexpected {α : Type} (context : String) : Action (Except Report α) := do
  let found ← tokens.current
  return .error (unexpectedAt context (← tokens.position) found)

def expect (expected : TokenKind) : Action (Except Report Unit) := do
  if (← tokens.current) = expected then
    let _ ← tokens.consume
    return .ok ()
  else
    tokens.unexpected s!"expected {expected.describe}"

/-- Raises the depth, and then fails if it is too great. -/
def enter : Action (Except Report Unit) := do
  let r ← get
  set (r.moveTo ⟨r.pos, r.depth + 1⟩)
  if maxNesting < r.depth + 1 then
    return .error ⟨.tooDeep, ← tokens.position, s!"expression nested deeper than {maxNesting} levels"⟩
  else
    return .ok ()

/-- Takes back `n` levels of the depth. -/
def leave (n : Nat) : Action Unit := do
  let r ← get
  if r.depth < n then throwThe Fault .underflow
  set (r.moveTo ⟨r.pos, r.depth - n⟩)

/-! ### References -/

def rangeEndError (position : Nat) (found : TokenKind) : Report :=
  let kind := if found = .stop then ParseErrorKind.unexpectedEnd else .invalidReference
  ⟨kind, position, s!"expected a cell reference after ':', found {found.describe}"⟩

/-- The end of a range, behind its colon. -/
def rangeEnd (sheet : Option String) : Action (Except Report Address) := do
  let endPosition ← tokens.position
  match ← tokens.consume with
  | .address a => return .ok a
  | .sheet name =>
    if sheet.any fun first => Text.SameName first name then
      match ← tokens.consume with
      | .address a => return .ok a
      | other => return .error (rangeEndError endPosition other)
    else
      return .error ⟨.invalidReference, endPosition, "range references must be on the same sheet"⟩
  | other => return .error (rangeEndError endPosition other)

/-- The reference that starts with an address that was consumed. -/
def reference (sheet : Option String) (start : Address) : Action (Except Report Expr) := do
  match ← tokens.current with
  | .colon =>
    let _ ← tokens.consume
    match ← tokens.rangeEnd sheet with
    | .error e => return .error e
    | .ok last => return .ok (.reference (.range sheet (.spanning start last)))
  | _ => return .ok (.reference (.cell sheet start))

end Steps

/-! ### The descent -/

mutual

def expression (tokens : Descent) : Action (Except Report Expr) := do
  match ← tokens.enter with
  | .error e => return .error e
  | .ok _ =>
    let result ← tokens |>.chain .comparison
    leave 1
    return result
partial_fixpoint

/-- Operands of a level, with its operators between them. -/
def chain (tokens : Descent) (level : Level) : Action (Except Report Expr) := do
  match ← tokens |>.operand level with
  | .error e => return .error e
  | .ok left => tokens |>.run level left 0
partial_fixpoint

def operand (tokens : Descent) (level : Level) : Action (Except Report Expr) :=
  match level.tighter? with
  | some tighter => tokens |>.chain tighter
  | none => tokens |>.unary
partial_fixpoint

/-- The rest of a run of operators, after as many as are counted in `folds`. -/
def run (tokens : Descent) (level : Level) (left : Expr) (folds : Nat) : Action (Except Report Expr) := do
  match level.op? (← tokens.current) with
  | none =>
    leave folds
    return .ok left
  | some op =>
    let _ ← tokens.consume
    match ← tokens.enter with
    | .error e =>
      leave (folds + 1)
      return .error e
    | .ok _ =>
      match ← tokens |>.operand level with
      | .error e =>
        leave (folds + 1)
        return .error e
      | .ok right => tokens |>.run level (.binary op left right) (folds + 1)
partial_fixpoint

def unary (tokens : Descent) : Action (Except Report Expr) := do
  match sign? (← tokens.current) with
  | none => tokens |>.exponent
  | some op =>
    let _ ← tokens.consume
    match ← tokens.enter with
    | .error e => return .error e
    | .ok _ =>
      let result ← tokens |>.unary
      leave 1
      return result.map (.unary op)
partial_fixpoint

def exponent (tokens : Descent) : Action (Except Report Expr) := do
  match ← tokens |>.primary with
  | .error e => return .error e
  | .ok base =>
    match ← tokens.current with
    | .caret =>
      let _ ← tokens.consume
      match ← tokens.enter with
      | .error e => return .error e
      | .ok _ =>
        let result ← tokens |>.unary
        leave 1
        return result.map (.binary .power base)
    | _ => return .ok base
partial_fixpoint

def primary (tokens : Descent) : Action (Except Report Expr) := do
  let start ← tokens.position
  match ← tokens.current with
  | .number n =>
    let _ ← tokens.consume
    return .ok (.number n)
  | .text s =>
    let _ ← tokens.consume
    return .ok (.text s)
  | .boolean b =>
    let _ ← tokens.consume
    return .ok (.boolean b)
  | .error e =>
    let _ ← tokens.consume
    return .ok (.error e)
  | .leftParen =>
    let _ ← tokens.consume
    match ← tokens |>.expression with
    | .error e => return .error e
    | .ok inner =>
      match ← tokens.expect .rightParen with
      | .error e => return .error e
      | .ok _ => return .ok inner
  | .sheet name =>
    let _ ← tokens.consume
    match ← tokens.consume with
    | .address a => tokens.reference (some name) a
    | other =>
      return .error ⟨.invalidReference, start,
        s!"expected a cell reference after sheet '{name}', found {other.describe}"⟩
  | .address a =>
    let _ ← tokens.consume
    tokens.reference none a
  | .identifier name =>
    let _ ← tokens.consume
    match ← tokens.current with
    | .leftParen => tokens |>.functionCall name
    | _ => return .error ⟨.unknownName, start, s!"unknown name '{name}'"⟩
  | _ => tokens.unexpected "expected an operand"
partial_fixpoint

def functionCall (tokens : Descent) (name : String) : Action (Except Report Expr) := do
  match ← tokens.expect .leftParen with
  | .error e => return .error e
  | .ok _ =>
    match ← tokens.current with
    | .rightParen =>
      let _ ← tokens.consume
      return .ok (.call name [])
    | _ =>
      let result ← tokens |>.arguments []
      return result.map (.call name)
partial_fixpoint

/-- The arguments of a call up to its closing parenthesis, after those read before. -/
def arguments (tokens : Descent) (before : List Expr) : Action (Except Report (List Expr)) := do
  match ← tokens |>.expression with
  | .error e => return .error e
  | .ok e =>
    match ← tokens.current with
    | .comma =>
      let _ ← tokens.consume
      tokens |>.arguments (before ++ [e])
    | .rightParen =>
      let _ ← tokens.consume
      return .ok (before ++ [e])
    | _ => tokens.unexpected "expected ',' or ')' in argument list"
partial_fixpoint

end

/-- The expression that the tokens write, up to the token that marks the end. -/
def formula (tokens : Descent) : Action (Except Report Expr) := do
  match ← tokens.expression with
  | .error e => return .error e
  | .ok e =>
    match ← tokens.current with
    | .stop => return .ok e
    | other =>
      return .error ⟨.unexpectedToken, ← tokens.position, s!"unexpected {other.describe} after expression"⟩

/-- The functions that read an expression, with what they are given besides the reader. -/
inductive Call where
  | expression
  | chain (level : Level)
  | unary
  | exponent
  | primary
  /-- What starts with an address that was consumed. -/
  | reference (sheet : Option String) (start : Address)
  | functionCall (name : String)

def Call.run (tokens : Descent) : Call → Action (Except Report Expr)
  | expression => tokens.expression
  | chain level => tokens.chain level
  | unary => tokens.unary
  | exponent => tokens.exponent
  | primary => tokens.primary
  | reference sheet start => tokens.reference sheet start
  | functionCall name => tokens.functionCall name

end Descent

end Spreadsheet
