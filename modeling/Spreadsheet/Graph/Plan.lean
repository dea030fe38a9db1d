import Spreadsheet.Graph.Components
import Spreadsheet.Graph.Dependencies

/-! # Recalculation plans

After a change, the changed cells and all that depend on them are recalculated, each after what it
reads. Cells that read each other in a circle have no such order; they make one step of the plan. -/

namespace Spreadsheet

/-- One step of a recalculation. -/
inductive Step where
  /-- A cell that does not depend on itself. -/
  | cell (l : Location)
  /-- All cells of a dependency cycle, in order. -/
  | cycle (cells : List Location)
deriving DecidableEq

def Step.cells : Step → List Location
  | cell l => [l]
  | cycle cells => cells

/-- The steps of a recalculation, in the order in which they are taken. -/
structure Plan where
  steps : List Step
deriving DecidableEq

namespace Plan

/-- The cells of a plan, in the order of recalculation. -/
def order (p : Plan) : List Location :=
  p.steps.flatMap Step.cells

/-- The dependency cycles of a plan. -/
def cycles (p : Plan) : List (List Location) :=
  p.steps.filterMap fun
    | .cell _ => none
    | .cycle cells => some cells

/-- The cell lies on a dependency cycle. -/
def IsCircular (p : Plan) (l : Location) : Prop :=
  ∃ cycle ∈ p.cycles, l ∈ cycle

instance (p : Plan) (l : Location) : Decidable (p.IsCircular l) :=
  inferInstanceAs (Decidable (∃ cycle ∈ p.cycles, l ∈ cycle))

/-- The number of cells on dependency cycles. -/
def circularCount (p : Plan) : Nat :=
  p.cycles.flatten.length

end Plan

namespace Dependencies

/-- Locations in order and without repetition. -/
def sorted (cells : List Location) : List Location :=
  (Std.ExtTreeSet.ofList cells).toList

/-- The changed cells and all cells that depend on them, in order. -/
def affected (d : Dependencies) (changed : List Location) : List Location :=
  sorted (Graph.reach d.dependents (.ofList (changed ++ d.readers)) changed)

/-- The cell depends on itself. -/
def HasCycle (d : Dependencies) (cell : Location) : Prop :=
  cell ∈ Graph.reach d.dependents (.ofList d.readers) (d.dependents cell)

instance (d : Dependencies) (cell : Location) : Decidable (d.HasCycle cell) :=
  inferInstanceAs (Decidable (_ ∈ _))

/-- The dependents of several cells, looked up once. -/
def dependentsOf (d : Dependencies) (cells : List Location) : Std.ExtTreeMap Location (List Location) :=
  cells.foldl (fun found l => found.insert l (d.dependents l)) ∅

/-- The step for a strongly connected component. A cell alone is a cycle if it reads itself. -/
def stepOf (next : Location → List Location) : List Location → Step
  | [l] => if l ∈ next l then .cycle [l] else .cell l
  | cells => .cycle (sorted cells)

/-- The plan after a change of the given cells. -/
def plan (d : Dependencies) (changed : List Location) : Plan :=
  let cells := d.affected changed
  let dependents := d.dependentsOf cells
  let next := fun l => dependents.getD l []
  ⟨(Graph.components next cells).map (stepOf next)⟩

end Dependencies

end Spreadsheet
