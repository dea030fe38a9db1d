import Spreadsheet.Refusal
import Spreadsheet.Text.Basic

/-! # Addresses in A1 notation

An address names a column by letters in bijective base 26 and a row by a number from 1. A `$` before
either makes that axis absolute: it stays put when the formula moves. `Address.parse` reads the
notation, `Address.toText` writes it. -/

namespace Spreadsheet

/-- A cell address as written; row and column count from 0. -/
structure Address where
  row : Nat
  column : Nat
  rowAbsolute : Bool
  columnAbsolute : Bool
deriving DecidableEq, Inhabited

namespace Address

/-- The address without markers. -/
def relative (row column : Nat) : Address :=
  ⟨row, column, false, false⟩

def OnGrid (a : Address) : Prop :=
  a.row < rowCount ∧ a.column < columnCount

instance (a : Address) : Decidable a.OnGrid :=
  inferInstanceAs (Decidable (_ ∧ _))

/-! ### Columns -/

/-- The place of a letter in the alphabet, from 1. -/
def letterValue (c : Char) : Nat :=
  c.toUpper.toNat - 64

/-- The column that letters name, counted from 1, when the letters before them name `before`. Stops
    at the first letter that leads past the last column. -/
def readColumn (before : Nat) : List Char → Except Refusal Nat
  | [] => .ok before
  | c :: cs =>
    let column := before * 26 + letterValue c
    if columnCount < column then .error (.columnOutOfBounds (column - 1)) else readColumn column cs

/-- The letters of a column counted from 1, in front of `after`; none for 0. -/
def columnLetters (column : Nat) (after : List Char) : List Char :=
  if column = 0 then
    after
  else
    columnLetters ((column - 1) / 26) (Char.ofNat (65 + (column - 1) % 26) :: after)
termination_by column
decreasing_by omega

/-! ### Text -/

/-- Whether a `$` stands in front, and what follows it. -/
def scanMarker : List Char → Bool × List Char
  | '$' :: cs => (true, cs)
  | cs => (false, cs)

/-- The greatest row that a refusal reports; rows beyond are reported as this one. -/
def greatestReportedRow : Nat := 4294967295

/-- The row that digits name, counted from 0. -/
def readRow (text digits : List Char) : Except Refusal Nat :=
  if digits = [] ∨ ¬digits.all Char.isDigit then
    .error (.invalidAddress .missingRow (String.ofList text))
  else
    match Nat.ofDigitChars 10 digits 0 with
    | 0 => .error (.invalidAddress .rowZero (String.ofList text))
    | row + 1 =>
      if row < rowCount then .ok row else .error (.rowOutOfBounds (min row greatestReportedRow))

/-- The address that characters without outer white space write. -/
def parseChars (text : List Char) : Except Refusal Address :=
  let (columnAbsolute, rest) := scanMarker text
  let letters := rest.takeWhile Char.isAlpha
  if letters = [] then
    .error (.invalidAddress .missingColumn (String.ofList text))
  else do
    let column ← readColumn 0 letters
    let (rowAbsolute, digits) := scanMarker (rest.dropWhile Char.isAlpha)
    let row ← readRow text digits
    return ⟨row, column - 1, rowAbsolute, columnAbsolute⟩

/-- The address that a text writes, with white space around it allowed. -/
def parse (s : String) : Except Refusal Address :=
  parseChars (Text.trimChars s.toList)

def marker (absolute : Bool) : List Char :=
  if absolute then ['$'] else []

def chars (a : Address) : List Char :=
  marker a.columnAbsolute ++ columnLetters (a.column + 1) [] ++
    (marker a.rowAbsolute ++ Nat.toDigits 10 (a.row + 1))

def toText (a : Address) : String :=
  String.ofList a.chars

/-- The address moved by rows and columns, markers kept; nothing if it leaves the grid. -/
def shift? (a : Address) (rows columns : Int) : Option Address :=
  let row := a.row + rows
  let column := a.column + columns
  if 0 ≤ row ∧ row < rowCount ∧ 0 ≤ column ∧ column < columnCount then
    some { a with row := row.toNat, column := column.toNat }
  else
    none

end Address

/-- Two corners of a rectangle as written. -/
structure AddressRange where
  first : Address
  last : Address
deriving DecidableEq, Inhabited

namespace AddressRange

/-- The rectangle with two given corners: the first corner becomes the top left one, the last the
    bottom right one, and each marker stays with the row or column it was written at. -/
def spanning (a b : Address) : AddressRange :=
  let (top, bottom) := if a.row ≤ b.row then (a, b) else (b, a)
  let (left, right) := if a.column ≤ b.column then (a, b) else (b, a)
  { first := ⟨top.row, left.column, top.rowAbsolute, left.columnAbsolute⟩
    last := ⟨bottom.row, right.column, bottom.rowAbsolute, right.columnAbsolute⟩ }

def chars (r : AddressRange) : List Char :=
  r.first.chars ++ ':' :: r.last.chars

def toText (r : AddressRange) : String :=
  String.ofList r.chars

end AddressRange

end Spreadsheet
