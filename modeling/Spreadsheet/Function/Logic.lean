import Spreadsheet.Function.Arithmetic

/-! # Logical functions

`IF`, `AND`, `OR` and `IFERROR` are lazy: they evaluate only the arguments they need, so that a
branch not taken can do no harm. -/

namespace Spreadsheet.Builtin

/-- One of two branches, by a condition: `IF`. Without a third argument the other branch is false. -/
def conditional (c : LazyCall) : Except Fault Value :=
  match c.value 0 with
  | .error fault => .error fault
  | .ok (.error e) => .ok (.error e)
  | .ok (.boolean true) => c.value 1
  | .ok _ => if 2 < c.count then c.value 2 else .ok (.boolean false)

/-- What a value means to `AND` and `OR`. -/
inductive Vote where
  /-- The value does not count. -/
  | abstain
  | cast (b : Bool)
  /-- The value is the result. -/
  | veto (e : ErrorValue)
deriving DecidableEq

/-- The vote of a value. A text counts only as an argument of its own, and then must be a truth value;
    in a block it does not count. -/
def Vote.of (inBlock : Bool) : Value → Vote
  | .error e => .veto e
  | .boolean b => .cast b
  | .number n => .cast (!n.isZero)
  | .text s =>
    if inBlock then .abstain
    else
      match (Value.text s).toLogical with
      | .ok b => .cast b
      | .error e => .veto e
  | .empty => .abstain

/-- Goes through values until a vote is `decisive` or a veto, which then is the result (`.error`).
    Otherwise tells whether any value counted so far. -/
def poll (decisive inBlock : Bool) : Bool → List Value → Except Value Bool
  | seen, [] => .ok seen
  | seen, v :: vs =>
    match Vote.of inBlock v with
    | .abstain => poll decisive inBlock seen vs
    | .cast b => if b = decisive then .error (.boolean decisive) else poll decisive inBlock true vs
    | .veto e => .error (.error e)

/-- Goes through the `remaining` arguments from `index` on. If none decides, the result is the other
    truth value, or `#VALUE` if nothing counted. -/
def pollArguments (decisive : Bool) (c : LazyCall) (seen : Bool) (index : Nat) :
    (remaining : Nat) → Except Fault Value
  | 0 => .ok (if seen then .boolean !decisive else .error .value)
  | remaining + 1 =>
    match c.argument index with
    | .error fault => .error fault
    | .ok a =>
      match poll decisive a.isBlock seen a.values with
      | .error v => .ok v
      | .ok seen => pollArguments decisive c seen (index + 1) remaining

/-- Whether everything that counts is true: `AND`. -/
def conjunction (c : LazyCall) : Except Fault Value :=
  pollArguments false c false 0 c.count

/-- Whether anything that counts is true: `OR`. -/
def disjunction (c : LazyCall) : Except Fault Value :=
  pollArguments true c false 0 c.count

/-- The first argument, or the second if the first is an error: `IFERROR`. -/
def fallback (c : LazyCall) : Except Fault Value :=
  match c.value 0 with
  | .error fault => .error fault
  | .ok (.error _) => c.value 1
  | .ok v => .ok v

/-- The other truth value: `NOT`. -/
def negation (args : List Argument) (_ : CallSite) : Except Fault Value :=
  settle do
    let b ← Argument.logicalAt args 0
    return .boolean !b

/-- A truth value that takes no arguments: `TRUE` and `FALSE`. -/
def constant (b : Bool) (_ : List Argument) (_ : CallSite) : Except Fault Value :=
  .ok (.boolean b)

end Spreadsheet.Builtin
