/-! # White space, trimming and names

White space is Unicode's `White_Space`. Names of sheets, functions and error values are compared
after folding the letters of ASCII to upper case; every other character counts as written. -/

namespace Spreadsheet.Text

/-- The 25 characters of Unicode's `White_Space`. -/
def isSpace (c : Char) : Bool :=
  let code := c.toNat
  (9 ≤ code && code ≤ 13) || code = 0x20 || code = 0x85 || code = 0xa0 || code = 0x1680 ||
    (0x2000 ≤ code && code ≤ 0x200a) || code = 0x2028 || code = 0x2029 || code = 0x202f ||
    code = 0x205f || code = 0x3000

/-- The white space of ASCII, the vertical tab not among it. -/
def isAsciiSpace (c : Char) : Bool :=
  c = ' ' || c = '\t' || c = '\n' || c = '\x0c' || c = '\r'

/-- The characters from the first that is not white space. -/
def trimStart (cs : List Char) : List Char :=
  cs.dropWhile isSpace

/-- The characters without white space at either end. -/
def trimChars (cs : List Char) : List Char :=
  ((trimStart cs).reverse.dropWhile isSpace).reverse

/-- A text without white space at either end. -/
def trim (s : String) : String :=
  String.ofList (trimChars s.toList)

/-- The maximal runs of characters that are not white space. -/
def words (cs : List Char) : List (List Char) :=
  (go cs []).filter (· ≠ [])
where
  /-- Splits at each white space; `word` holds the characters since the last one, latest first. -/
  go : List Char → List Char → List (List Char)
    | [], word => [word.reverse]
    | c :: cs, word => if isSpace c then word.reverse :: go cs [] else go cs (c :: word)

/-- The form under which names are compared: ASCII letters in upper case. -/
def foldCase (s : String) : String :=
  String.ofList (s.toList.map Char.toUpper)

/-- Two texts are the same name if they differ in the case of ASCII letters only. -/
def SameName (a b : String) : Prop :=
  foldCase a = foldCase b

instance (a b : String) : Decidable (SameName a b) :=
  inferInstanceAs (Decidable (foldCase a = foldCase b))

/-- Characters as they stand between quotes: a quote among them is written twice. -/
def doubledChars (quote : Char) (cs : List Char) : List Char :=
  cs.flatMap fun c => if c = quote then [quote, quote] else [c]

def doubled (quote : Char) (s : String) : String :=
  String.ofList (doubledChars quote s.toList)

theorem SameName.refl (a : String) : SameName a a := rfl

theorem SameName.symm {a b : String} (h : SameName a b) : SameName b a := Eq.symm h

theorem SameName.trans {a b c : String} (h : SameName a b) (k : SameName b c) : SameName a c :=
  Eq.trans h k

end Spreadsheet.Text
