/-! # Refusals

Why a request to the grid is turned down: a bad address, an unknown or clashing sheet. Trouble inside
a formula never ends here; it becomes an error value of the cell. All wording is in
`Refusal.message`. -/

namespace Spreadsheet

def rowCount : Nat := 1048576

def columnCount : Nat := 16384

/-- The greatest length of a sheet name in characters. -/
def sheetNameLength : Nat := 31

/-- What an address text lacks. -/
inductive AddressFlaw where
  | missingColumn
  | missingRow
  | rowZero
deriving DecidableEq

/-- What is wrong with a sheet name. -/
inductive SheetNameFlaw where
  | empty
  | tooLong
  | forbidden (c : Char)
deriving DecidableEq

/-- Why a request is turned down. Rows, columns and sheets are counted from 0. -/
inductive Refusal where
  | invalidAddress (flaw : AddressFlaw) (text : String)
  | rowOutOfBounds (row : Nat)
  | columnOutOfBounds (column : Nat)
  | unknownSheet (name : String)
  | sheetOutOfBounds (sheet count : Nat)
  | invalidSheetName (flaw : SheetNameFlaw)
  | duplicateSheet (name : String)
deriving DecidableEq

def AddressFlaw.message : AddressFlaw → String
  | missingColumn => "missing column"
  | missingRow => "missing row"
  | rowZero => "row 0"

/-- What is wrong with a sheet name, in words. -/
def SheetNameFlaw.message : SheetNameFlaw → String
  | empty => "Sheet name cannot be empty"
  | tooLong => s!"Sheet name too long (max {sheetNameLength} characters)"
  | forbidden c => s!"Sheet name cannot contain '{c}'"

def Refusal.message : Refusal → String
  | invalidAddress flaw text => s!"Invalid cell address: {flaw.message} in '{text}'"
  | rowOutOfBounds row => s!"Row {row} is past the last row {rowCount - 1}"
  | columnOutOfBounds column => s!"Column {column} is past the last column {columnCount - 1}"
  | unknownSheet name => s!"No sheet named '{name}'"
  | sheetOutOfBounds sheet count => s!"Sheet id {sheet} was never issued ({count} sheets exist)"
  | invalidSheetName flaw => s!"Invalid sheet name '{flaw.message}'"
  | duplicateSheet name => s!"Sheet '{name}' already exists"

end Spreadsheet
