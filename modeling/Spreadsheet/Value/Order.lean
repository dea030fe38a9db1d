import Spreadsheet.Value.Basic
import Spreadsheet.Text.Case

/-! # The order of values

The order behind the six comparison operators: by type first, then by value, texts in lower case by
their characters. -/

namespace Spreadsheet.Value

/-- The place of a value's type in the order of types. -/
def typeRank : Value → Nat
  | empty => 0
  | boolean _ => 1
  | number _ => 2
  | text _ => 3
  | error _ => 4

def order : Value → Value → Ordering
  | boolean a, boolean b => compare a.toNat b.toNat
  | number a, number b => a.order b
  | text a, text b => compare (Text.lower a) (Text.lower b)
  | a, b => compare a.typeRank b.typeRank

end Spreadsheet.Value
