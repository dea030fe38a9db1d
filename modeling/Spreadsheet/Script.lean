import Spreadsheet.Engine.Command
import Spreadsheet.Formula.Layout

/-! # Scripts

A script fills a workbook line by line: `ADDRESS CONTENT` enters a content, `@sheet NAME` adds a sheet,
and lines that are blank or start with `#` say nothing. The first line that fails ends the script. What
is printed is text; nothing here reads or writes files. -/

namespace Spreadsheet

namespace Script

/-- A line that says something. -/
inductive Line where
  | addSheet (name : String)
  | enter (address content : String)
deriving DecidableEq

def Line.command : Line → Command
  | addSheet name => .addSheet name
  | enter address content => .input ⟨.address address, .text content⟩

/-- What did not happen if a line is refused. -/
def Line.failure : Line → String
  | addSheet name => s!"cannot add sheet '{name}'"
  | enter address _ => s!"cannot set '{address}'"

/-- Why a line says nothing that is understood. -/
inductive LineFlaw where
  | missingSheetName
  | unterminatedSheetName
deriving DecidableEq

/-- Why a line is not understood, in words. -/
def LineFlaw.message : LineFlaw → String
  | missingSheetName => "expected '@sheet NAME'"
  | unterminatedSheetName => "unterminated sheet name"

/-! ### Lines -/

/-- A line without its line end: a line feed, and a carriage return in front of one. -/
def withoutReturn (line : List Char) : List Char :=
  if line.getLast? = some '\r' then line.dropLast else line

/-- The lines of a text. What follows the last line feed is a line unless it is empty. -/
def lines (text : List Char) : List (List Char) :=
  go text []
where
  /-- Splits at each line feed; `line` holds the characters since the last one, latest first. -/
  go : List Char → List Char → List (List Char)
    | [], [] => []
    | [], line => [line.reverse]
    | c :: cs, line => if c = '\n' then withoutReturn line.reverse :: go cs [] else go cs (c :: line)

/-- The quoted sheet name that a line starts with, and what follows it; `cs` follows the opening quote.
    Nothing if the quote is never closed. -/
def takeQuoted : List Char → Option (List Char × List Char)
  | '\'' :: '\'' :: cs => (takeQuoted cs).map fun (name, rest) => ('\'' :: '\'' :: name, rest)
  | '\'' :: cs => some (['\''], cs)
  | c :: cs => (takeQuoted cs).map fun (name, rest) => (c :: name, rest)
  | [] => none

/-- Splits a line after its address, which ends at white space outside quotes. -/
def splitAddress (line : List Char) : Except LineFlaw (List Char × List Char) :=
  match line with
  | '\'' :: cs =>
    match takeQuoted cs with
    | none => .error .unterminatedSheetName
    | some (name, rest) =>
      .ok ('\'' :: (name ++ rest.takeWhile fun c => !Text.isAsciiSpace c),
        rest.dropWhile fun c => !Text.isAsciiSpace c)
  | cs => .ok (cs.takeWhile fun c => !Text.isAsciiSpace c, cs.dropWhile fun c => !Text.isAsciiSpace c)

def sheetWord : List Char := "@sheet".toList

/-- What a line says. One white space separates an address from its content. -/
def parseLine (line : List Char) : Except LineFlaw (Option Line) :=
  let line := Text.trimStart line
  if line.head?.all (· = '#') then
    .ok none
  else if sheetWord.isPrefixOf line then
    let rest := line.drop sheetWord.length
    let name := Text.trimChars rest
    if name = [] ∨ ¬rest.head?.any Text.isSpace then .error .missingSheetName
    else .ok (some (.addSheet (String.ofList name)))
  else
    (splitAddress line).map fun (address, rest) =>
      some (.enter (String.ofList address) (String.ofList (rest.drop 1)))

/-! ### Runs -/

/-- What is printed along the way, and with what bounds formulas are evaluated. -/
structure Settings where
  /-- Print what each line changes. -/
  traceChanges : Bool
  /-- Print formulas next to values. -/
  showFormulas : Bool
  limits : Limits

/-- What a run printed, and whether it failed. -/
structure Output where
  out : String
  err : String
  failed : Bool
deriving DecidableEq

/-- The report on a failure with its cause. -/
def report (context cause : String) : String :=
  s!"Error: {context}\n\nCaused by:\n    {cause}\n"

/-- What a line changed, as one line of output. -/
def traceText (e : Engine) (number : Nat) (changes : Changes) : String :=
  let cells := changes.toList.map fun (l, v) => s!"{e.sheets.locationText l}={v.toText}"
  let list := String.intercalate " " cells
  s!"# {number}: {list}\n"

/-- What is printed after a line that was carried out. -/
def lineText (settings : Settings) (e : Engine) (number : Nat) (changes : Changes) : Line → String
  | .addSheet _ => ""
  | .enter _ _ => if settings.traceChanges then traceText e number changes else ""

/-- A line carried out: the engine after it and what it prints, or the report on its failure. -/
def step (settings : Settings) (e : Engine) (number : Nat) (text : List Char) :
    Except String (Engine × String) :=
  match parseLine text with
  | .error flaw => .error (report s!"line {number}" flaw.message)
  | .ok none => .ok (e, "")
  | .ok (some line) =>
    match e.perform line.command with
    | .error refusal => .error (report s!"line {number}: {line.failure}" refusal.message)
    | .ok (e, changes) => .ok (e, lineText settings e number changes line)

def cellText (settings : Settings) (e : Engine) (l : Location) (v : Value) : String :=
  let shown := s!"{e.sheets.locationText l}\t{v.toText}"
  match e.store.expr? l with
  | some expr => if settings.showFormulas then s!"{shown}\t={expr.toText}\n" else shown ++ "\n"
  | none => shown ++ "\n"

def listing (settings : Settings) (e : Engine) : String :=
  String.join (e.snapshot.toList.map fun (l, v) => cellText settings e l v)

/-- Carries out lines, the first of which has the given number; `printed` is what was printed before. -/
def runLines (settings : Settings) (e : Engine) (printed : String) (number : Nat) :
    List (List Char) → Output
  | [] => ⟨printed ++ listing settings e, "", false⟩
  | line :: lines =>
    match step settings e number line with
    | .error failure => ⟨printed, failure, true⟩
    | .ok (e, text) => runLines settings e (printed ++ text) (number + 1) lines

/-- A script carried out in a new workbook. -/
def run (settings : Settings) (script : String) : Output :=
  match Engine.create { Options.standard with limits := settings.limits } with
  | .error refusal => ⟨"", report "Invalid engine options" refusal.message, true⟩
  | .ok e => runLines settings e "" 1 (lines script.toList)

/-! ### Formulas -/

def referenceText (r : Reference) : String :=
  match r with
  | .cell _ _ => s!"  cell  {r.toText}\n"
  | .range _ _ => s!"  range {r.toText}\n"

/-- A formula in canonical form with its references, or where and why the text is none. -/
def explain (formula : String) : Output :=
  match Expr.parse formula with
  | .ok expr =>
    ⟨s!"={expr.toText}\n" ++ String.join (expr.references.map referenceText), "", false⟩
  | .error error =>
    let caret := String.ofList (List.replicate error.position ' ' ++ ['^'])
    ⟨"", s!"{formula}\n{caret}\nError: {error.message} ({error.errorValue.token})\n", true⟩

end Script

end Spreadsheet
