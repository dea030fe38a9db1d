import Spreadsheet.Function.Library
import Spreadsheet.Function.Logic
import Spreadsheet.Function.Texts

/-! # The built-in functions

Names, numbers of arguments and parameter kinds of the functions that every workbook starts with. -/

namespace Spreadsheet

namespace Builtin

def arithmetic : List Callable :=
  [("SUM", sum), ("PRODUCT", product), ("AVERAGE", average), ("MIN", minimum), ("MAX", maximum)].map
      (fun (name, run) => (Callable.eager name 1 none run).withParameters [.numberOrBlock]) ++
    [("COUNT", count), ("COUNTA", countFilled)].map
      (fun (name, run) => ((Callable.eager name 1 none run).withParameters [.anyOrBlock]).absorbing) ++
    [(Callable.eager "ABS" 1 (some 1) absolute).withParameters [.number],
      (Callable.eager "ROUND" 1 (some 2) round).withParameters [.number],
      (Callable.eager "INT" 1 (some 1) integer).withParameters [.number],
      (Callable.eager "MOD" 2 (some 2) modulo).withParameters [.number],
      (Callable.eager "SQRT" 1 (some 1) squareRoot).withParameters [.number],
      (Callable.eager "POWER" 2 (some 2) power).withParameters [.number]]

def logical : List Callable :=
  [(Callable.lazy "IF" 2 (some 3) conditional).withParameters [.logical, .any],
    (Callable.lazy "AND" 1 none conjunction).withParameters [.anyOrBlock],
    (Callable.lazy "OR" 1 none disjunction).withParameters [.anyOrBlock],
    ((Callable.lazy "IFERROR" 2 (some 2) fallback).withParameters [.any]).absorbing,
    (Callable.eager "NOT" 1 (some 1) negation).withParameters [.logical],
    Callable.eager "TRUE" 0 (some 0) (constant true),
    Callable.eager "FALSE" 0 (some 0) (constant false)]

def inspection : List Callable :=
  [("ISERROR", Value.isError), ("ISNUMBER", Value.isNumber), ("ISTEXT", Value.isText),
      ("ISBLANK", Value.isEmpty), ("ISLOGICAL", Value.isBoolean)].map fun (name, p) =>
    ((Callable.eager name 1 (some 1) (question p)).withParameters [.any]).absorbing

def textual : List Callable :=
  [(Callable.eager "CONCAT" 1 none concatenation).withParameters [.anyOrBlock],
    (Callable.eager "LEN" 1 (some 1) length).withParameters [.text],
    (Callable.eager "UPPER" 1 (some 1) upperCase).withParameters [.text],
    (Callable.eager "LOWER" 1 (some 1) lowerCase).withParameters [.text],
    (Callable.eager "TRIM" 1 (some 1) trimmed).withParameters [.text],
    (Callable.eager "LEFT" 1 (some 2) leftPart).withParameters [.text, .number],
    (Callable.eager "RIGHT" 1 (some 2) rightPart).withParameters [.text, .number]]

def all : List Callable :=
  arithmetic ++ logical ++ inspection ++ textual

end Builtin

def Library.builtin : Library :=
  Library.empty.registerAll Builtin.all

end Spreadsheet
