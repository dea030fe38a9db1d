import Std.Data.ExtTreeMap
import Spreadsheet.Graph.Search

/-! # Strongly connected components

Two nodes belong together if each reaches the other. Among all nodes the one that a depth-first search
leaves last reaches every node that reaches it; so its component is what leads to it, and once that is
taken away the same holds of the rest. The components come out so that each stands before those that
can be reached from it. -/

namespace Spreadsheet

namespace Graph

variable {α : Type} [Ord α] [Std.TransOrd α]

/-- Notes `x` as a predecessor of its successors. -/
def addPredecessor (found : Std.ExtTreeMap α (List α)) (x : α) (successors : List α) :
    Std.ExtTreeMap α (List α) :=
  successors.foldl (fun found y => found.alter y fun before => some (x :: before.getD [])) found

def predecessors (next : α → List α) (nodes : List α) : Std.ExtTreeMap α (List α) :=
  nodes.foldl (fun found x => addPredecessor found x (next x)) ∅

/-- Takes from the `remaining` nodes, in the order of a list, those that lead to the first of them, then
    those that lead to the first of the rest, and so on. -/
def peel (back : α → List α) (remaining : Std.ExtTreeSet α) : List α → List (List α)
  | [] => []
  | x :: order =>
    if x ∈ remaining then
      let component := reach back remaining [x]
      component :: peel back (component.foldl Std.ExtTreeSet.erase remaining) order
    else
      peel back remaining order

/-- The strongly connected components of the graph on `nodes`. Nodes are searched in the order of the
    list. -/
def components (next : α → List α) (nodes : List α) : List (List α) :=
  let all := Std.ExtTreeSet.ofList nodes
  let back := predecessors next nodes
  peel (fun x => back.getD x []) all (finish next all [] (nodes.map .enter))

end Graph

end Spreadsheet
