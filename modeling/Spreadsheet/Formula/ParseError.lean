import Spreadsheet.Formula.Token

/-! # Why a text is no formula

The causes for which a text is not read as a formula, their classes and their wording. -/

namespace Spreadsheet

def maxNesting : Nat := 256

/-- The classes of parse errors. -/
inductive ParseErrorKind where
  /-- A token that cannot stand where it does. -/
  | unexpectedToken
  /-- The text ends in the middle of an expression. -/
  | unexpectedEnd
  /-- A string or a quoted sheet name without its closing quote. -/
  | unterminatedString
  /-- A reference off the grid or with mismatched sheets. -/
  | invalidReference
  /-- A bare name, or an error token that does not exist. -/
  | unknownName
  /-- Nesting deeper than allowed. -/
  | tooDeep
  /-- A character that starts no token. -/
  | invalidCharacter
deriving DecidableEq

/-- What exactly is wrong with a text that is no formula. -/
inductive ParseCause where
  | invalidCharacter (c : Char)
  | unterminatedString
  | unterminatedSheetName
  | emptySheetName
  /-- A quoted sheet name that no `!` follows. -/
  | missingBang (sheet : String)
  | unknownErrorLiteral (text : String)
  | invalidNumber (text : String)
  /-- A word in the form of an address that names no cell of the grid. -/
  | badAddress (refusal : Refusal)
  /-- The text does not start with `=`. -/
  | missingEquals
  /-- A token after the end of the expression. -/
  | trailing (found : TokenKind)
  | missingOperand (found : TokenKind)
  | missingRightParen (found : TokenKind)
  /-- An argument that neither a comma nor a parenthesis follows. -/
  | openArguments (found : TokenKind)
  | tooDeep
  /-- A sheet prefix that no address follows. -/
  | missingAddress (sheet : String) (found : TokenKind)
  | unknownName (name : String)
  /-- A range whose two ends name different sheets. -/
  | sheetMismatch
  /-- A colon that no address follows. -/
  | missingRangeEnd (found : TokenKind)
deriving DecidableEq

namespace ParseCause

/-- The class of a token that cannot stand where it does. -/
def unexpected : TokenKind → ParseErrorKind
  | .stop => .unexpectedEnd
  | _ => .unexpectedToken

def kind : ParseCause → ParseErrorKind
  | invalidCharacter _ => .invalidCharacter
  | unterminatedString => .unterminatedString
  | unterminatedSheetName => .unterminatedString
  | emptySheetName => .invalidReference
  | missingBang _ => .invalidReference
  | unknownErrorLiteral _ => .unknownName
  | invalidNumber _ => .unexpectedToken
  | badAddress _ => .invalidReference
  | missingEquals => .unexpectedToken
  | trailing _ => .unexpectedToken
  | missingOperand found => unexpected found
  | missingRightParen found => unexpected found
  | openArguments found => unexpected found
  | tooDeep => .tooDeep
  | missingAddress _ _ => .invalidReference
  | unknownName _ => .unknownName
  | sheetMismatch => .invalidReference
  | missingRangeEnd .stop => .unexpectedEnd
  | missingRangeEnd _ => .invalidReference

def message : ParseCause → String
  | invalidCharacter c => s!"invalid character '{c}'"
  | unterminatedString => "unterminated string literal"
  | unterminatedSheetName => "unterminated sheet name"
  | emptySheetName => "empty sheet name"
  | missingBang sheet => s!"expected '!' after sheet name '{sheet}'"
  | unknownErrorLiteral text => s!"unknown error literal '{text}'"
  | invalidNumber text => s!"invalid number '{text}'"
  | badAddress refusal => refusal.message
  | missingEquals => "formula must start with '='"
  | trailing found => s!"unexpected {found.describe} after expression"
  | missingOperand found => s!"expected an operand, found {found.describe}"
  | missingRightParen found => s!"expected ')', found {found.describe}"
  | openArguments found => s!"expected ',' or ')' in argument list, found {found.describe}"
  | tooDeep => s!"expression nested deeper than {maxNesting} levels"
  | missingAddress sheet found =>
    s!"expected a cell reference after sheet '{sheet}', found {found.describe}"
  | unknownName name => s!"unknown name '{name}'"
  | sheetMismatch => "range references must be on the same sheet"
  | missingRangeEnd found => s!"expected a cell reference after ':', found {found.describe}"

end ParseCause

/-- Why and at which byte a text is no formula. -/
structure ParseError where
  cause : ParseCause
  position : Nat
deriving DecidableEq

namespace ParseError

def kind (e : ParseError) : ParseErrorKind :=
  e.cause.kind

def message (e : ParseError) : String :=
  s!"{e.cause.message} at position {e.position}"

/-- The value of a cell whose text is no formula. -/
def errorValue (e : ParseError) : ErrorValue :=
  match e.kind with
  | .unknownName => .name
  | _ => .error

end ParseError

end Spreadsheet
