import Std.Data.ExtTreeSet

/-! # Searching a graph

A graph is a function from nodes to their successors. A search keeps the set of nodes that it has not
met yet: a node outside that set is passed over, and every node met leaves it, so that the search ends.
`reach` collects what it meets; `finish` goes depth first and lists nodes in the order in which their
successors are done with. -/

namespace Spreadsheet

namespace Graph

variable {α : Type} [Ord α] [Std.TransOrd α]

theorem size_erase_lt {nodes : Std.ExtTreeSet α} {x : α} (h : x ∈ nodes) :
    (nodes.erase x).size < nodes.size := by
  have hne : nodes.size ≠ 0 := fun h0 =>
    Std.ExtTreeSet.ne_empty_of_mem h (Std.ExtTreeSet.eq_empty_iff_size_eq_zero.2 h0)
  rw [Std.ExtTreeSet.size_erase, if_pos (Std.ExtTreeSet.mem_iff_contains.1 h)]
  omega

/-- The nodes of `unmet` that can be reached from `pending` without leaving `unmet`, each once. -/
def reach (next : α → List α) (unmet : Std.ExtTreeSet α) : (pending : List α) → List α
  | [] => []
  | x :: pending =>
    if x ∈ unmet then x :: reach next (unmet.erase x) (next x ++ pending)
    else reach next unmet pending
termination_by pending => (unmet.size, pending.length)
decreasing_by
  · exact Prod.Lex.left _ _ (size_erase_lt ‹_›)
  · exact Prod.Lex.right _ (by simp)

/-- What a depth-first search still has to do with a node. -/
inductive Visit (α : Type) where
  /-- Meet the node and then its successors, unless it was met before. -/
  | enter (x : α)
  /-- Note that the successors of the node are done with. -/
  | leave (x : α)
deriving DecidableEq

/-- The nodes that a depth-first search leaves, the last one first, in front of those left before. -/
def finish (next : α → List α) (unmet : Std.ExtTreeSet α) (left : List α) : List (Visit α) → List α
  | [] => left
  | .leave x :: visits => finish next unmet (x :: left) visits
  | .enter x :: visits =>
    if x ∈ unmet then
      finish next (unmet.erase x) left ((next x).map .enter ++ .leave x :: visits)
    else
      finish next unmet left visits
termination_by visits => (unmet.size, visits.length)
decreasing_by
  · exact Prod.Lex.right _ (by simp)
  · exact Prod.Lex.left _ _ (size_erase_lt ‹_›)
  · exact Prod.Lex.right _ (by simp)

end Graph

end Spreadsheet
