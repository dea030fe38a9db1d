import Spreadsheet.Refusal
import Spreadsheet.Text.Basic

/-! # Sheets

The sheets of a workbook in the order they were added. A sheet is known by its place in that order,
which never changes, and by its name, in which the case of ASCII letters does not count. -/

namespace Spreadsheet

/-- The names of the sheets, in order. -/
structure Sheets where
  names : List String
deriving DecidableEq, Inhabited

namespace Sheets

def empty : Sheets :=
  ⟨[]⟩

/-- The name of the sheet that a workbook starts with. -/
def defaultName : String := "Sheet1"

/-- The one sheet that a workbook starts with. -/
def initial : Sheets :=
  ⟨[defaultName]⟩

def size (s : Sheets) : Nat :=
  s.names.length

def indexOf? (s : Sheets) (name : String) : Option Nat :=
  s.names.findIdx? fun known => Text.SameName known name

def name? (s : Sheets) (sheet : Nat) : Option String :=
  s.names[sheet]?

/-- The sheet with a name, or a refusal that quotes the name. -/
def require (s : Sheets) (name : String) : Except Refusal Nat :=
  match s.indexOf? name with
  | some sheet => .ok sheet
  | none => .error (.unknownSheet name)

def forbiddenCharacters : List Char :=
  [':', '\\', '/', '?', '*', '[', ']']

/-- What is wrong with a sheet name, taken alone. -/
def nameFlaw? (name : String) : Option SheetNameFlaw :=
  let cs := name.toList
  if cs = [] then some .empty
  else if sheetNameLength < cs.length then some .tooLong
  else (cs.find? (· ∈ forbiddenCharacters)).map .forbidden

/-- The sheets with one more at the end. -/
def add (s : Sheets) (name : String) : Except Refusal Sheets :=
  match nameFlaw? name with
  | some flaw => .error (.invalidSheetName flaw)
  | none =>
    if (s.indexOf? name).isSome then .error (.duplicateSheet name) else .ok ⟨s.names ++ [name]⟩

/-- A workbook's sheets when it starts with one of the given name. -/
def single (name : String) : Except Refusal Sheets :=
  empty.add name

/-- Adds a sheet to those that are there, and answers with its place. -/
def enroll (name : String) : EStateM Refusal Sheets Nat := do
  match (← get).add name with
  | .error refusal => throw refusal
  | .ok sheets =>
    set sheets
    return sheets.size - 1

/-- The sheets after calls that add some, in turn, whether they are accepted or refused. -/
def enrollAll (s : Sheets) (names : List String) : Sheets :=
  names.foldl (fun s name =>
    match (enroll name).run s with
    | .ok _ t => t
    | .error _ t => t) s

end Sheets

end Spreadsheet
