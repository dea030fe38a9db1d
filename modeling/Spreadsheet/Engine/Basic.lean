import Spreadsheet.Engine.Addressing
import Spreadsheet.Engine.Pass
import Spreadsheet.Formula.Parse
import Spreadsheet.Function.Builtin

/-! # The engine

Sheets, functions, cells and dependencies in one. Every input goes through the engine: it replaces the
content and the dependencies of cells, then one pass brings all that depends on them up to date, and
then the listeners hear what changed. A request that is refused leaves the engine as it is. -/

namespace Spreadsheet

/-- What a new engine is given. -/
structure Options where
  limits : Limits
  /-- The name of the first sheet. Addresses without a sheet are on it. -/
  firstSheet : String
deriving DecidableEq

/-- The options that hold unless others are given. -/
def Options.standard : Options :=
  ⟨.standard, Sheets.defaultName⟩

/-- One that is told what changes. -/
structure Listener where
  /-- What it was told, the latest first. -/
  received : List Changes

def Listener.hear (changes : Changes) (l : Listener) : Listener :=
  ⟨changes :: l.received⟩

/-- A workbook with its recalculation. -/
structure Engine where
  limits : Limits
  sheets : Sheets
  library : Library
  store : Store
  dependencies : Dependencies
  listeners : List Listener
  /-- The report on the latest pass. -/
  lastPass : PassReport

/-- An input to a cell. -/
inductive Edit where
  /-- A text as typed. -/
  | text (s : String)
  /-- A value that was computed elsewhere. -/
  | value (v : Value)
deriving DecidableEq

def Edit.content : Edit → Content
  | text s => .ofText s
  | value v => .ofValue v

/-- The cell that an input is meant for. -/
inductive Target where
  | address (s : String)
  | location (l : Location)
deriving DecidableEq

/-- An input and the cell it is meant for. -/
structure Request where
  target : Target
  edit : Edit
deriving DecidableEq

namespace Engine

def onSheets (limits : Limits) (sheets : Sheets) : Engine :=
  ⟨limits, sheets, .builtin, .empty, .empty, [], .none⟩

def initial : Engine :=
  onSheets .standard .initial

/-- An engine with options. The name of its first sheet may be refused. -/
def create (options : Options) : Except Refusal Engine :=
  (Sheets.single options.firstSheet).map (onSheets options.limits)

/-- What the values of the engine depend on besides its cells. -/
def rules (e : Engine) : Rules :=
  ⟨e.library, e.sheets, e.limits⟩

/-! ### Passes -/

/-- Tells every listener what changed, if anything did. -/
def announce (e : Engine) (changes : Changes) : Engine :=
  if changes.isEmpty then e else { e with listeners := e.listeners.map (Listener.hear changes) }

/-- Recalculates the given cells and all that depend on them. -/
def recalculateFrom (e : Engine) (before : Before) (seeds : List Location) : Engine × Changes :=
  let plan := e.dependencies.plan seeds
  let pass := Pass.run e.rules before e.store plan
  let report := PassReport.of seeds.length plan pass
  ({ e with store := pass.store, lastPass := report }.announce pass.changes, pass.changes)

/-- Recalculates the given cells and all that depend on them. -/
def recalculate (e : Engine) (cells : List Location) : Engine × Changes :=
  e.recalculateFrom .none (Dependencies.sorted cells)

def recalculateAll (e : Engine) : Engine × Changes :=
  e.recalculateFrom .none e.store.formulas

/-! ### Inputs -/

/-- Enters a formula into a cell and links it to what it reads. -/
def writeFormula (e : Engine) (l : Location) (text : String) (expr : Expr) : Engine :=
  let resolver := Resolver.atCell e.sheets l
  { e with
    dependencies := e.dependencies.set l (resolver.precedents expr)
    store := e.store.setFormula l text expr (resolver.missingSheets expr) }

/-- Replaces the content of a cell and what it reads. Nothing is recalculated. -/
def write (e : Engine) (l : Location) (edit : Edit) : Engine :=
  match edit.content with
  | .formula text =>
    match Expr.parse text with
    | .ok expr => e.writeFormula l text expr
    | .error error =>
      { e with
        dependencies := e.dependencies.clear l
        store := e.store.setInvalid l text error }
  | constant =>
    { e with
      dependencies := e.dependencies.clear l
      store := e.store.setConstant l constant }

/-- Makes inputs to cells in turn, and keeps the value that each of these cells has before its first one. -/
def writeAll (e : Engine) (edits : List (Location × Edit)) : Engine × Before :=
  edits.foldl (fun (e, before) (l, edit) => (e.write l edit, before.keep e.store l)) (e, .none)

/-- Makes inputs to cells in turn and then recalculates once. -/
def apply (e : Engine) (edits : List (Location × Edit)) : Engine × Changes :=
  let (written, before) := e.writeAll edits
  written.recalculateFrom before (Dependencies.sorted (edits.map Prod.fst))

/-- The cell that is meant, if there is such a cell. -/
def target (e : Engine) : Target → Except Refusal Location
  | .address s => e.sheets.locate s
  | .location l => e.sheets.check l

/-- The input to make for a request, if there is such a cell. -/
def accept (e : Engine) (r : Request) : Except Refusal (Location × Edit) :=
  (e.target r.target).map fun l => (l, r.edit)

def input (e : Engine) (r : Request) : Except Refusal (Engine × Changes) :=
  (e.accept r).map fun edit => e.apply [edit]

/-- Makes several inputs and recalculates once. If one of them is refused, none is made. -/
def batch (e : Engine) (requests : List Request) : Except Refusal (Engine × Changes) :=
  (requests.mapM e.accept).map e.apply

/-- Links a formula anew to what it reads. -/
def relink (e : Engine) (l : Location) : Engine :=
  match e.store.expr? l with
  | none => e
  | some expr =>
    let resolver := Resolver.atCell e.sheets l
    { e with
      dependencies := e.dependencies.set l (resolver.precedents expr)
      store := e.store.setMissing l (resolver.missingSheets expr) }

/-- Adds a sheet after the others, and recalculates the formulas that name it already. -/
def addSheet (e : Engine) (name : String) : Except Refusal (Engine × Changes) :=
  (e.sheets.add name).map fun sheets =>
    let waiting := e.store.locationsWhere (·.awaits name)
    let linked := waiting.foldl relink { e with sheets }
    if waiting.isEmpty then (linked, .none) else linked.recalculateFrom .none waiting

/-- Registers a function, in place of an earlier one of that name, and recalculates the formulas that
    call it. -/
def register (e : Engine) (f : Callable) : Engine × Changes :=
  let extended := { e with library := e.library.register f }
  let callers := e.store.locationsWhere (·.calls f.name)
  if callers.isEmpty then (extended, .none) else extended.recalculateFrom .none callers

def listen (e : Engine) : Engine :=
  { e with listeners := e.listeners ++ [⟨[]⟩] }

/-! ### Outputs -/

def value (e : Engine) (l : Location) : Value :=
  e.store.value l

/-- The value of the cell at an address. -/
def valueAt (e : Engine) (address : String) : Except Refusal Value :=
  (e.sheets.locate address).map e.value

def precedents (e : Engine) (l : Location) : List Precedent :=
  e.dependencies.precedents l

def dependents (e : Engine) (l : Location) : List Location :=
  e.dependencies.dependents l

/-- The values of all cells that are not empty. -/
def snapshot (e : Engine) : Snapshot :=
  .of e.store

/-- The value that a formula would have if it were evaluated now; nothing for other cells. -/
def expected? (e : Engine) (l : Location) : Option Value :=
  if e.dependencies.HasCycle l then some (.error .circular)
  else (e.rules.compute e.store l).map committed

/-- The formulas whose value is not the one expected. -/
def audit (e : Engine) : List Location :=
  e.store.formulas.filter fun l => (e.expected? l).any fun v => !(e.value l).same v

end Engine

end Spreadsheet
