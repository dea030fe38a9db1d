import Spreadsheet.Grid.Address
import Spreadsheet.Value.Basic

/-! # Tokens of a formula

The kinds of tokens and how messages name them. A token records the byte at which it starts. -/

namespace Spreadsheet

/-- What a token is. -/
inductive TokenKind where
  | number (n : Number)
  | text (s : String)
  | boolean (b : Bool)
  | error (e : ErrorValue)
  /-- A function name, or a bare name that means nothing. -/
  | identifier (name : String)
  | address (a : Address)
  /-- A sheet name in front of an address, without quotes and without its `!`. -/
  | sheet (name : String)
  | plus
  | minus
  | star
  | slash
  | caret
  | ampersand
  | equal
  | notEqual
  | less
  | lessEqual
  | greater
  | greaterEqual
  | colon
  | comma
  | leftParen
  | rightParen
  /-- The end of the formula. -/
  | stop
deriving DecidableEq, Inhabited

def TokenKind.describe : TokenKind → String
  | number n => s!"number {n.toText}"
  | text s => s!"string \"{s}\""
  | boolean b => s!"boolean {Value.booleanText b}"
  | error e => s!"error {e.token}"
  | identifier name => s!"name '{name}'"
  | address a => s!"reference {a.toText}"
  | sheet name => s!"sheet '{name}'"
  | plus => "'+'"
  | minus => "'-'"
  | star => "'*'"
  | slash => "'/'"
  | caret => "'^'"
  | ampersand => "'&'"
  | equal => "'='"
  | notEqual => "'<>'"
  | less => "'<'"
  | lessEqual => "'<='"
  | greater => "'>'"
  | greaterEqual => "'>='"
  | colon => "':'"
  | comma => "','"
  | leftParen => "'('"
  | rightParen => "')'"
  | stop => "end of formula"

/-- A token and the byte at which it starts. -/
structure Token where
  kind : TokenKind
  position : Nat
deriving DecidableEq, Inhabited

end Spreadsheet
