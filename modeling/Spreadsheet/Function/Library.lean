import Spreadsheet.Function.Callable

/-! # Libraries of functions

The functions that formulas can call, found by name whatever the case of its ASCII letters. A name is
registered once: registering it again replaces the function. -/

namespace Spreadsheet

/-- Functions by folded name. -/
structure Library where
  entries : Std.ExtTreeMap String Callable

namespace Library

def empty : Library :=
  ⟨∅⟩

def find? (l : Library) (name : String) : Option Callable :=
  l.entries[Text.foldCase name]?

/-- The library with a function added, in place of an earlier one of that name. -/
def register (l : Library) (f : Callable) : Library :=
  ⟨l.entries.insert (Text.foldCase f.name) f⟩

def registerAll (l : Library) (fs : List Callable) : Library :=
  fs.foldl register l

def contains (l : Library) (name : String) : Bool :=
  (l.find? name).isSome

/-- The registered names in upper case, in order. -/
def names (l : Library) : List String :=
  l.entries.keys

def size (l : Library) : Nat :=
  l.entries.size

theorem find?_register (l : Library) (f : Callable) (name : String) :
    (l.register f).find? name = if Text.SameName f.name name then some f else l.find? name := by
  simp only [find?, register, Std.ExtTreeMap.getElem?_insert, Std.compare_eq_iff_eq]
  rfl

end Library

end Spreadsheet
