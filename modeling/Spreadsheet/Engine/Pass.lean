import Spreadsheet.Engine.Changes
import Spreadsheet.Evaluation
import Spreadsheet.Graph.Plan

/-! # Recalculation passes

A pass takes the steps of a plan one after another. The cells of a cycle become `#CIRCULAR`; every
other formula is evaluated against the store as it is by then, so that later formulas read the new
values. A fault becomes the value of its cell, and the pass goes on. At each cell the pass notes whether
its value is another than before. -/

namespace Spreadsheet

/-- What values depend on besides the cells. -/
structure Rules where
  library : Library
  sheets : Sheets
  limits : Limits

/-- What a formula in a cell is evaluated with. -/
def Rules.setting (rules : Rules) (store : Store) (cell : Location) : Setting where
  library := rules.library
  source := store.value
  resolver := .atCell rules.sheets cell
  limits := rules.limits

/-- The formula of a cell, evaluated; nothing for a cell without one. -/
def Rules.compute (rules : Rules) (store : Store) (cell : Location) : Option (Except Fault Value) :=
  (store.expr? cell).map (Expr.evaluate (rules.setting store cell))

/-- The value that the outcome of an evaluation gives a cell. -/
def committed : Except Fault Value → Value
  | .ok v => v
  | .error fault => .error fault.errorValue

/-- A pass under way: the store as it is, what was counted, and what has changed so far. -/
structure Pass where
  store : Store
  evaluated : Nat
  faults : Nat
  changes : Changes

namespace Pass

/-- A pass that has taken no step. -/
def start (store : Store) : Pass :=
  ⟨store, 0, 0, .none⟩

/-- Evaluates the formula of a cell that is on no cycle. Cells without a formula stay what they are. -/
def evaluate (rules : Rules) (p : Pass) (l : Location) : Pass :=
  match rules.compute p.store l with
  | none => p
  | some (.ok v) => { p with store := p.store.setValue l v, evaluated := p.evaluated + 1 }
  | some (.error fault) =>
    { p with
      store := p.store.setValue l (committed (.error fault))
      evaluated := p.evaluated + 1
      faults := p.faults + 1 }

/-- Marks a cell that is on a cycle. -/
def mark (p : Pass) (l : Location) : Pass :=
  { p with store := p.store.setValue l (.error .circular) }

/-- Gives a cell its value by `act`, and notes the value if it is another than the one before. -/
def visit (before : Before) (act : Pass → Location → Pass) (p : Pass) (l : Location) : Pass :=
  let after := act p l
  { after with changes := after.changes.note l (before.value p.store l) (after.store.value l) }

def take (rules : Rules) (before : Before) (p : Pass) : Step → Pass
  | .cell l => p.visit before (evaluate rules) l
  | .cycle cells => cells.foldl (visit before mark) p

def run (rules : Rules) (before : Before) (store : Store) (plan : Plan) : Pass :=
  plan.steps.foldl (take rules before) (start store)

end Pass

/-- What is told about a pass. -/
structure PassReport where
  /-- The number of cells that the pass started from. -/
  seeds : Nat
  /-- All cells of the plan, in its order. -/
  touched : List Location
  /-- The number of formulas evaluated. -/
  evaluated : Nat
  /-- The number of cells on cycles. -/
  circular : Nat
  /-- The number of evaluations that ended with a fault. -/
  faults : Nat
  /-- The number of cells whose value changed. -/
  changed : Nat
deriving DecidableEq

def PassReport.none : PassReport :=
  ⟨0, [], 0, 0, 0, 0⟩

def PassReport.of (seeds : Nat) (plan : Plan) (p : Pass) : PassReport where
  seeds := seeds
  touched := plan.order
  evaluated := p.evaluated
  circular := plan.circularCount
  faults := p.faults
  changed := p.changes.size

end Spreadsheet
