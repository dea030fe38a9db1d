import Spreadsheet.Number.Basic

/-! # Decimal numerals

The written form of an unsigned number: digits, at most one point, at most one exponent. Reading
rounds the value that the numeral stands for to the nearest binary64 number. `Numeral.scan` splits a
text into the longest numeral at its start and what follows. -/

namespace Spreadsheet

/-- The rational `digits * 10 ^ exponent`. -/
structure Decimal where
  digits : Nat
  exponent : Int
deriving DecidableEq

namespace Decimal

/-- The number nearest to a decimal. Beyond `10 ^ 400` and below `10 ^ -400` the answer is known
    without forming the power of ten. -/
def toNumber (d : Decimal) : Number :=
  if d.digits = 0 ∨ d.exponent + Nat.log2 d.digits < -401 then
    Number.ofMagnitude 0
  else if 400 < d.exponent then
    Number.ofMagnitude Number.infinityMagnitude
  else
    Number.nearest (d.digits * Nat.pow 10 d.exponent.toNat) (Nat.pow 10 (-d.exponent).toNat)

end Decimal

/-- The exponent part of a numeral: `e` or `E`, at most one sign, digits. -/
structure Numeral.Scale where
  marker : Char
  sign : Option Char
  digits : List Char
deriving DecidableEq

/-- A numeral by its parts; `fraction` is `some []` in `5.`. -/
structure Numeral where
  whole : List Char
  fraction : Option (List Char)
  scale : Option Numeral.Scale
deriving DecidableEq

namespace Numeral

def Scale.chars (s : Scale) : List Char :=
  s.marker :: (s.sign.toList ++ s.digits)

/-- The exponent from which on further digits of the exponent part do not count. -/
def scaleBound : Nat := 65536

/-- The exponent that digits stand for. They are read up to the first that takes it to `scaleBound`.
    With fewer than 65000 other digits the numeral is then below or beyond all numbers anyway. -/
def Scale.magnitude (digits : List Char) : Nat :=
  digits.foldl (fun n c => if n < scaleBound then 10 * n + (c.toNat - '0'.toNat) else n) 0

/-- The power of ten that the exponent part stands for. -/
def Scale.value (s : Scale) : Int :=
  if s.sign = some '-' then -Scale.magnitude s.digits else Scale.magnitude s.digits

def chars (n : Numeral) : List Char :=
  n.whole ++ ((n.fraction.map ('.' :: ·)).getD [] ++ (n.scale.map Scale.chars).getD [])

def fractionDigits (n : Numeral) : List Char :=
  n.fraction.getD []

/-- A numeral has a digit before or after the point. -/
def hasDigits (n : Numeral) : Bool :=
  !n.whole.isEmpty || !n.fractionDigits.isEmpty

/-- The value of decimal digits. In each of `depth` rounds every piece is cut in half; what is left
    is read digit by digit. -/
def digitsValue : Nat → List Char → Nat
  | 0, digits => Nat.ofDigitChars 10 digits 0
  | depth + 1, digits =>
    let half := digits.length / 2
    digitsValue depth (digits.take half) * Nat.pow 10 (digits.length - half) +
      digitsValue depth (digits.drop half)

/-- The decimal that a numeral stands for. Its digits are halved down to pieces of at most 128, so
    that a very long numeral costs few operations on large numbers. -/
def toDecimal (n : Numeral) : Decimal where
  digits :=
    let digits := n.whole ++ n.fractionDigits
    digitsValue (Nat.log2 (digits.length / 64)) digits
  exponent := (n.scale.map Scale.value).getD 0 - n.fractionDigits.length

/-- The number of a numeral, unless it has no digits or is out of range. -/
def toNumber? (n : Numeral) : Option Number :=
  let x := n.toDecimal.toNumber
  if n.hasDigits && x.isFinite then some x else none

/-- The point and the digits after it, if `cs` starts with a point. -/
def scanFraction : List Char → Option (List Char) × List Char
  | '.' :: cs => (some (cs.takeWhile Char.isDigit), cs.dropWhile Char.isDigit)
  | cs => (none, cs)

/-- The sign that `cs` starts with, if any, and what follows it. -/
def scanSign : List Char → Option Char × List Char
  | '+' :: cs => (some '+', cs)
  | '-' :: cs => (some '-', cs)
  | cs => (none, cs)

/-- The exponent part that `cs` starts with. Without a digit in it there is none. -/
def scanScale : List Char → Option Scale × List Char
  | [] => (none, [])
  | marker :: cs =>
    let (sign, rest) := scanSign cs
    if (marker = 'e' ∨ marker = 'E') ∧ rest.takeWhile Char.isDigit ≠ [] then
      (some ⟨marker, sign, rest.takeWhile Char.isDigit⟩, rest.dropWhile Char.isDigit)
    else
      (none, marker :: cs)

/-- The longest numeral at the start of `cs`, and the rest. -/
def scan (cs : List Char) : Numeral × List Char :=
  let (fraction, afterFraction) := scanFraction (cs.dropWhile Char.isDigit)
  let (scale, rest) := scanScale afterFraction
  (⟨cs.takeWhile Char.isDigit, fraction, scale⟩, rest)

/-- The number that `cs` is a numeral of, without sign. -/
def readUnsigned (cs : List Char) : Option Number :=
  match scan cs with
  | (numeral, []) => numeral.toNumber?
  | (_, _ :: _) => none

/-! ### Halving does not change the value -/

theorem digitsValue_eq_ofDigitChars (depth : Nat) (digits : List Char) :
    digitsValue depth digits = Nat.ofDigitChars 10 digits 0 := by
  induction depth generalizing digits with
  | zero => rfl
  | succ depth ih =>
    simp only [digitsValue, ih, Nat.pow_eq]
    rw [Nat.mul_comm, ← List.length_drop, ← Nat.ofDigitChars_eq_ofDigitChars_zero,
      ← Nat.ofDigitChars_append, List.take_append_drop]

theorem toDecimal_digits (n : Numeral) :
    n.toDecimal.digits = Nat.ofDigitChars 10 (n.whole ++ n.fractionDigits) 0 :=
  digitsValue_eq_ofDigitChars _ _

/-! ### A scan loses nothing -/

theorem scanFraction_eq_append (cs : List Char) :
    ((scanFraction cs).1.map ('.' :: ·)).getD [] ++ (scanFraction cs).2 = cs := by
  fun_cases scanFraction cs <;> simp

theorem scanSign_eq_append (cs : List Char) : (scanSign cs).1.toList ++ (scanSign cs).2 = cs := by
  fun_cases scanSign cs <;> rfl

theorem scanScale_eq_append (cs : List Char) :
    ((scanScale cs).1.map Scale.chars).getD [] ++ (scanScale cs).2 = cs := by
  fun_cases scanScale cs
  case case1 => rfl
  case case2 cs sign rest hsign h =>
    have := scanSign_eq_append cs
    simp_all [Scale.chars]
  case case3 => simp

theorem scan_eq_append (cs : List Char) : (scan cs).1.chars ++ (scan cs).2 = cs := by
  simp only [scan, chars, List.append_assoc]
  rw [scanScale_eq_append, scanFraction_eq_append, List.takeWhile_append_dropWhile]

end Numeral

namespace Number

/-- The finite number that `cs` is a numeral of, with at most one sign in front. -/
def read? : List Char → Option Number
  | '-' :: cs => (Numeral.readUnsigned cs).map neg
  | '+' :: cs => Numeral.readUnsigned cs
  | cs => Numeral.readUnsigned cs

/-- The finite number that a text is a numeral of. -/
def ofText? (s : String) : Option Number :=
  read? s.toList

end Number

end Spreadsheet
