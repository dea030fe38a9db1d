import Spreadsheet.Grid.Location
import Spreadsheet.Sheets
import Spreadsheet.Text.Letters

/-! # Addresses with sheets

How a workbook reads addresses such as `B3`, `Data!B3` or `'My Data'!B3`, and how it shows locations. -/

namespace Spreadsheet

/-- Quotes that stand doubled made single, from the left. -/
def Text.undoubled (quote : Char) : List Char → List Char
  | c :: d :: cs =>
    if c = quote ∧ d = quote then quote :: undoubled quote cs else c :: undoubled quote (d :: cs)
  | cs => cs

/-- A text split at the last `!`; nothing if there is none. -/
def splitAtLastBang (cs : List Char) : Option (List Char × List Char) :=
  let reversed := cs.reverse
  match reversed.dropWhile (· ≠ '!') with
  | [] => none
  | _ :: before => some (before.reverse, (reversed.takeWhile (· ≠ '!')).reverse)

/-- A sheet name, out of its quotes if it has them on both sides. -/
def unquotedSheet : List Char → List Char
  | '\'' :: cs => if cs.getLast? = some '\'' then Text.undoubled '\'' cs.dropLast else '\'' :: cs
  | cs => cs

namespace Sheets

/-- The location that an address means. Without a sheet it is on the first one. -/
def locate (s : Sheets) (address : String) : Except Refusal Location :=
  let cs := Text.trimChars address.toList
  match splitAtLastBang cs with
  | none => (Address.parse (String.ofList cs)).map (Location.ofAddress 0)
  | some (sheet, cell) => do
    let sheet ← s.require (String.ofList (unquotedSheet sheet))
    let a ← Address.parse (String.ofList cell)
    return Location.ofAddress sheet a

/-- The location, if its sheet exists and it is on the grid. -/
def check (s : Sheets) (l : Location) : Except Refusal Location :=
  if s.size ≤ l.sheet then .error (.sheetOutOfBounds l.sheet s.size)
  else if rowCount ≤ l.row then .error (.rowOutOfBounds l.row)
  else if columnCount ≤ l.column then .error (.columnOutOfBounds l.column)
  else .ok l

/-- Whether a sheet name is shown without quotes. -/
def isShownPlain (name : String) : Bool :=
  !name.isEmpty && name.toList.all fun c => Text.isAlphanumeric c || c = '_'

/-- A location as shown: its sheet by name, and its address. -/
def locationText (s : Sheets) (l : Location) : String :=
  let name := (s.name? l.sheet).getD "?"
  let sheet := if isShownPlain name then name else "'" ++ Text.doubled '\'' name ++ "'"
  sheet ++ "!" ++ l.address.toText

end Sheets

end Spreadsheet
