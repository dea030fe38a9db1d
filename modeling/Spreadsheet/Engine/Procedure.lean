import Spreadsheet.Engine.Basic

/-! # Operations step by step

What may be refused, as procedures that read and replace an engine in turn. Nothing is undone: a procedure
that breaks off leaves the engine as it is by then. Several inputs come from a client that hears what
becomes of each request, may go on after a refusal, and may give up after any number of inputs. -/

namespace Spreadsheet

/-- A procedure on an engine, with an answer unless it breaks off. -/
abbrev Procedure (α : Type) : Type :=
  EStateM Refusal Engine α

/-- A client that queues inputs. -/
inductive Transaction where
  /-- All that is queued is to be applied. -/
  | commit
  | giveUp (why : Refusal)
  /-- A request to queue an input; the client hears whether it is accepted. -/
  | queue (r : Request) (next : Except Refusal Unit → Transaction)
  /-- The client asks how many inputs are queued. -/
  | count (next : Nat → Transaction)

namespace Transaction

/-- The inputs that a client has queued when it commits, after those that are queued already. Nothing but the
    sheets of the engine is read. -/
def collect (e : Engine) (queued : List (Location × Edit)) : Transaction → Except Refusal (List (Location × Edit))
  | commit => .ok queued
  | giveUp why => .error why
  | queue r next =>
    match e.accept r with
    | .ok edit => collect e (queued ++ [edit]) (next (.ok ()))
    | .error refusal => collect e queued (next (.error refusal))
  | count next => collect e queued (next queued.length)

/-- The client that makes requests in turn, and gives up at the first that is refused. -/
def ofRequests : List Request → Transaction
  | [] => commit
  | r :: requests => queue r fun
    | .ok () => ofRequests requests
    | .error refusal => giveUp refusal

end Transaction

namespace Procedure

/-- Goes on with what is there, or breaks off. -/
def require {α : Type} : Except Refusal α → Procedure α
  | .ok a => pure a
  | .error refusal => throw refusal

/-- Recalculates the given cells and all that depend on them. -/
def recalculateFrom (before : Before) (seeds : List Location) : Procedure Changes :=
  modifyGet fun e => (e.recalculateFrom before seeds).swap

/-- Makes inputs to cells in turn; `before` holds the values that cells had before their first one. -/
def writeAll (before : Before) : List (Location × Edit) → Procedure Before
  | [] => pure before
  | (l, edit) :: edits => do
    let before := before.keep (← get).store l
    modify fun e => e.write l edit
    writeAll before edits

/-- Makes inputs to cells in turn and then recalculates once. -/
def apply (edits : List (Location × Edit)) : Procedure Changes := do
  let before ← writeAll .none edits
  recalculateFrom before (Dependencies.sorted (edits.map Prod.fst))

/-- One input to a location. -/
def enter (l : Location) (edit : Edit) : Procedure Changes := do
  let l ← require ((← get).sheets.check l)
  apply [(l, edit)]

/-- One text for the cell at an address. -/
def set (address text : String) : Procedure Changes := do
  let l ← require ((← get).sheets.locate address)
  enter l (.text text)

/-- The inputs that a client queues, with one pass after them. -/
def batch (t : Transaction) : Procedure Changes := do
  let edits ← require (t.collect (← get) [])
  apply edits

/-- Adds a sheet, links anew the formulas that name it already, and recalculates these. The answer is the place
    of the sheet. -/
def addSheet (name : String) : Procedure Nat := do
  let sheets ← require ((← get).sheets.add name)
  modify fun e => { e with sheets }
  let waiting := (← get).store.locationsWhere (·.awaits name)
  waiting.forM fun l => modify fun e => e.relink l
  if !waiting.isEmpty then
    let _ ← recalculateFrom .none waiting
  return sheets.size - 1

end Procedure

/-- An operation that makes inputs. -/
inductive Operation where
  | set (address text : String)
  | enter (l : Location) (edit : Edit)
  | batch (t : Transaction)

namespace Operation

def procedure : Operation → Procedure Changes
  | set address text => .set address text
  | enter l edit => .enter l edit
  | batch t => .batch t

end Operation

end Spreadsheet
