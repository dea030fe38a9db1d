import Spreadsheet.Number.Decimal

/-! # The text of a number

A number is written with the fewest digits that read back to it, in positional notation whatever its
size. Of the decimals with that many digits the nearest one is taken, the larger of two equally near.
The search asks the reader itself whether a candidate reads back, so that what it accepts needs no
further proof; the exact expansion stands behind it. -/

namespace Spreadsheet

namespace Decimal

/-- The digits of a decimal in positional notation. -/
def positional (d : Decimal) : List Char :=
  let digits := Nat.toDigits 10 d.digits
  if 0 ≤ d.exponent then
    digits ++ List.replicate d.exponent.toNat '0'
  else
    let places := (-d.exponent).toNat
    let padded := List.replicate (places + 1 - digits.length) '0' ++ digits
    padded.take (padded.length - places) ++ '.' :: padded.drop (padded.length - places)

end Decimal

namespace Number

/-- The exact decimal expansion of the absolute value of a finite number. -/
def exactDecimal (x : Number) : Decimal :=
  if 0 ≤ x.exponent then
    ⟨x.significand <<< x.exponent.toNat, 0⟩
  else
    ⟨x.significand * Nat.pow 5 (-x.exponent).toNat, x.exponent⟩

/-- The neighbour of `x` among the multiples of `10 ^ place` that reads back to `x`: the nearer one if
    both do, the upper one if they are equally near. -/
def neighbour? (x : Number) (place : Int) : Option Decimal :=
  let numerator := (x.significand <<< x.exponent.toNat) * Nat.pow 10 (-place).toNat
  let denominator := Nat.pow 10 place.toNat <<< (-x.exponent).toNat
  let low : Decimal := ⟨numerator / denominator, place⟩
  let high : Decimal := ⟨numerator / denominator + 1, place⟩
  let lowReads := low.toNumber = x
  let highReads := high.toNumber = x
  let lowNearer := 2 * (numerator % denominator) < denominator
  if lowReads ∧ (¬highReads ∨ lowNearer) then some low
  else if highReads then some high
  else none

/-- A power of ten above the absolute value of a finite number, by its exponent. -/
def placeAbove (x : Number) : Int :=
  (Nat.log2 x.significand + x.exponent + 1) * 30103 / 100000 + 1

/-- The decimal with the fewest digits that reads back to the positive finite number `x`. -/
def shortestDecimal (x : Number) : Decimal :=
  ((List.range 20).findSome? fun i : Nat => x.neighbour? (x.placeAbove - (i : Int))).getD x.exactDecimal

def toText (x : Number) : String :=
  if x.isNaN then
    "NaN"
  else if x.isZero then
    "0"
  else
    let digits :=
      if x.isFinite then String.ofList x.abs.shortestDecimal.positional else "inf"
    if x.isNegative then "-" ++ digits else digits

end Number

end Spreadsheet
