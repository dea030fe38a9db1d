import Spreadsheet.Text.CaseTable

/-! # Upper and lower case of a text

The full case mappings of Unicode: a character may map to several, and a capital sigma has its own
lower case form at the end of a word. -/

namespace Spreadsheet.Text

/-- The other case of a character outside ASCII, after the tables given. -/
def mapCase (runs : Array CaseRun) (sequences : Array (Nat × List Nat)) (c : Char) : List Char :=
  match runs.findSome? (·.target? c.toNat) with
  | some code => [Char.ofNat code]
  | none =>
    match sequences.find? (·.1 = c.toNat) with
    | some (_, codes) => codes.map Char.ofNat
    | none => [c]

def upperChar (c : Char) : List Char :=
  if c.toNat < 0x80 then [c.toUpper] else mapCase upperRuns upperSequences c

/-- The lower case form of a character, wherever it stands. -/
def lowerChar (c : Char) : List Char :=
  if c.toNat < 0x80 then [c.toLower] else mapCase lowerRuns lowerSequences c

def upper (s : String) : String :=
  String.ofList (s.toList.flatMap upperChar)

/-- Whether the first character that casing does not look through has a case. -/
def casedNext (cs : List Char) : Bool :=
  match cs.dropWhile fun c => inRanges caseIgnorableRanges c.toNat with
  | [] => false
  | c :: _ => inRanges casedRanges c.toNat

/-- The lower case form of `rest`; `before` are the characters in front of it, nearest first.
    A capital sigma after a cased character and not before one is written as a final sigma. -/
def lowerFrom (before : List Char) : List Char → List Char
  | [] => []
  | c :: rest =>
    (if c = 'Σ' then [if casedNext before && !casedNext rest then 'ς' else 'σ'] else lowerChar c) ++
      lowerFrom (c :: before) rest

def lower (s : String) : String :=
  String.ofList (lowerFrom [] s.toList)

end Spreadsheet.Text
