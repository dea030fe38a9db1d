import Spreadsheet.Formula.Expr

/-! # The canonical text of an expression

An expression is laid out as tokens, with parentheses only where the strength of operators asks for
them, and each token is written without space around it. -/

namespace Spreadsheet

/-! ### How tokens are written -/

/-- Whether a sheet name needs no quotes in a formula. -/
def isPlainSheetName (name : String) : Bool :=
  match name.toList with
  | [] => false
  | c :: cs =>
    (c.isAlpha || c = '_') && (c :: cs).all fun c => c.isAlphanum || c = '_' || c = '.'

/-- A sheet name in front of an address, in quotes if it needs them. -/
def sheetPrefixText (name : String) : String :=
  if isPlainSheetName name then name ++ "!" else "'" ++ Text.doubled '\'' name ++ "'!"

def TokenKind.written : TokenKind → String
  | number n => n.toText
  | text s => "\"" ++ Text.doubled '"' s ++ "\""
  | boolean b => Value.booleanText b
  | error e => e.token
  | identifier name => name
  | address a => a.toText
  | sheet name => sheetPrefixText name
  | plus => "+"
  | minus => "-"
  | star => "*"
  | slash => "/"
  | caret => "^"
  | ampersand => "&"
  | equal => "="
  | notEqual => "<>"
  | less => "<"
  | lessEqual => "<="
  | greater => ">"
  | greaterEqual => ">="
  | colon => ":"
  | comma => ","
  | leftParen => "("
  | rightParen => ")"
  | stop => ""

/-! ### The strength of operators -/

namespace BinaryOp

def token : BinaryOp → TokenKind
  | add => .plus
  | subtract => .minus
  | multiply => .star
  | divide => .slash
  | power => .caret
  | equal => .equal
  | notEqual => .notEqual
  | less => .less
  | lessEqual => .lessEqual
  | greater => .greater
  | greaterEqual => .greaterEqual
  | concat => .ampersand

/-- How strongly an operator binds; the higher the tighter. -/
def precedence : BinaryOp → Nat
  | equal => 1
  | notEqual => 1
  | less => 1
  | lessEqual => 1
  | greater => 1
  | greaterEqual => 1
  | concat => 2
  | add => 3
  | subtract => 3
  | multiply => 4
  | divide => 4
  | power => 6

/-- Whether a run of the operator groups from the right. -/
def groupsRight : BinaryOp → Bool
  | power => true
  | _ => false

end BinaryOp

def UnaryOp.token : UnaryOp → TokenKind
  | negate => .minus
  | plus => .plus

/-- How strongly a sign binds. -/
def signPrecedence : Nat := 5

/-- How strongly an expression without open operators binds. -/
def primaryPrecedence : Nat := 7

/-! ### Layout -/

def sheetTokens : Option String → List TokenKind
  | none => []
  | some name => [.sheet name]

def Reference.layout : Reference → List TokenKind
  | cell sheet a => sheetTokens sheet ++ [.address a]
  | range sheet r => sheetTokens sheet ++ [.address r.first, .colon, .address r.last]

/-- Tokens in parentheses, if these are called for. -/
def parenthesizedIf (needed : Bool) (tokens : List TokenKind) : List TokenKind :=
  if needed then .leftParen :: (tokens ++ [.rightParen]) else tokens

namespace Expr

/-- How strongly the outermost operator of an expression binds. -/
def precedence : Expr → Nat
  | unary _ _ => signPrecedence
  | binary op _ _ => op.precedence
  | _ => primaryPrecedence

/-- Whether `e` takes parentheses as the left operand of `op`. -/
def parenthesizedLeft (op : BinaryOp) (e : Expr) : Bool :=
  if op.groupsRight then e.precedence ≤ op.precedence else e.precedence < op.precedence

/-- Whether `e` takes parentheses as the right operand of `op`. -/
def parenthesizedRight (op : BinaryOp) (e : Expr) : Bool :=
  if op.groupsRight then e.precedence < op.precedence else e.precedence ≤ op.precedence

mutual

def layout : Expr → List TokenKind
  | number n => [.number n]
  | text s => [.text s]
  | boolean b => [.boolean b]
  | error e => [.error e]
  | reference r => r.layout
  | unary op x => op.token :: parenthesizedIf (x.precedence < signPrecedence) (layout x)
  | binary op l r =>
    parenthesizedIf (parenthesizedLeft op l) (layout l) ++
      op.token :: parenthesizedIf (parenthesizedRight op r) (layout r)
  | call name args => .identifier name :: .leftParen :: (layoutArguments args ++ [.rightParen])

/-- The tokens of arguments, with commas between them. -/
def layoutArguments : List Expr → List TokenKind
  | [] => []
  | [e] => layout e
  | e :: f :: es => layout e ++ .comma :: layoutArguments (f :: es)

end

/-- The canonical text of an expression, without a leading `=`. -/
def toText (e : Expr) : String :=
  String.join (e.layout.map TokenKind.written)

end Expr

def Reference.toText (r : Reference) : String :=
  String.join (r.layout.map TokenKind.written)

end Spreadsheet
