import Std.Data.ExtTreeMap
import Std.Data.ExtTreeSet

/-! # Strongly connected components by low links

One depth-first search numbers the nodes as it meets them and keeps on a stack those that have no component yet. The
low link of a node is the least number of a node on the stack that was seen from it or from below it in the search. A
node that is left with its own number as its low link is the first of its component that was met, and the component is
what stands on the stack down to it. The path of the search is a list of frames. -/

namespace Spreadsheet

namespace Graph

/-- What the search keeps besides its frames. -/
structure LowLink (α : Type) [Ord α] where
  /-- The numbers of the nodes that were met. -/
  index : Std.ExtTreeMap α Nat
  low : Std.ExtTreeMap α Nat
  onStack : Std.ExtTreeSet α
  /-- The nodes without a component yet, the last one met first. -/
  stack : List α
  /-- The components found, the last one first. -/
  groups : List (List α)
  nextIndex : Nat

namespace LowLink

variable {α : Type} [Ord α] [Std.TransOrd α]

def start : LowLink α :=
  ⟨∅, ∅, ∅, [], [], 0⟩

def number (s : LowLink α) (x : α) : Nat :=
  s.index.getD x 0

def lowest (s : LowLink α) (x : α) : Nat :=
  s.low.getD x 0

def meet (s : LowLink α) (x : α) : LowLink α :=
  { s with
    index := s.index.insert x s.nextIndex
    low := s.low.insert x s.nextIndex
    onStack := s.onStack.insert x
    stack := x :: s.stack
    nextIndex := s.nextIndex + 1 }

def lower (s : LowLink α) (x : α) (number : Nat) : LowLink α :=
  { s with low := s.low.insert x (min (s.lowest x) number) }

/-- Lowers the node before `x` on the path to the low link of `x`. -/
def passUp (s : LowLink α) (x : α) : List (α × Nat) → LowLink α
  | [] => s
  | (parent, _) :: _ => s.lower parent (s.lowest x)

variable [DecidableEq α]

/-- The nodes of a stack down to `x`, and those below it. -/
def popThrough (x : α) : List α → List α × List α
  | [] => ([], [])
  | y :: stack =>
    if y = x then ([y], stack) else (y :: (popThrough x stack).1, (popThrough x stack).2)

/-- Takes a component from the stack, down to the node of it that was met first. -/
def close (s : LowLink α) (x : α) : LowLink α :=
  let popped := popThrough x s.stack
  { s with
    onStack := popped.1.foldl Std.ExtTreeSet.erase s.onStack
    stack := popped.2
    groups := popped.1 :: s.groups }

/-- Leaves a node whose successors are done with. -/
def leave (s : LowLink α) (x : α) (frames : List (α × Nat)) : LowLink α :=
  let s := s.passUp x frames
  if s.index[x]? = some (s.lowest x) then s.close x else s

/-- One step for a frame, which is a node and the place of its next successor. -/
def step (next : α → List α) (x : α) (i : Nat) (frames : List (α × Nat)) (s : LowLink α) :
    List (α × Nat) × LowLink α :=
  match (next x)[i]? with
  | some y =>
    match s.index[y]? with
    | none => ((y, 0) :: (x, i + 1) :: frames, s.meet y)
    | some number => ((x, i + 1) :: frames, if y ∈ s.onStack then s.lower x number else s)
  | none => (frames, s.leave x frames)

/-- Takes steps until no frame is left. -/
def run (next : α → List α) : List (α × Nat) → LowLink α → Option (LowLink α)
  | [], s => some s
  | (x, i) :: frames, s => (step next x i frames s).2 |>.run next (step next x i frames s).1
partial_fixpoint

/-- Searches from a root, unless it was met before. -/
def visit (next : α → List α) (s : LowLink α) (root : α) : Option (LowLink α) :=
  if root ∈ s.index then some s else run next [(root, 0)] (s.meet root)

/-- Searches from each root in turn. -/
def search (next : α → List α) (roots : List α) : Option (LowLink α) :=
  roots.foldlM (visit next) start

end LowLink

/-- The successors of a place in a list of successors. -/
def successorsIn (successors : List (List Nat)) (x : Nat) : List Nat :=
  successors.getD x []

/-- The strongly connected components of the graph whose nodes are the places in a list of successors, in the order
    in which they are found. -/
def stronglyConnected (successors : List (List Nat)) : Option (List (List Nat)) :=
  (LowLink.search (successorsIn successors) (List.range successors.length)).map fun s => s.groups.reverse

end Graph

end Spreadsheet
