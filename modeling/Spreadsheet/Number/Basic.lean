/-! # Numbers

A number is a binary64 pattern. Arithmetic is the machine's; sign, order and equality are defined on
the pattern as integers, so that statements about them need no law of floating point. A finite number
is plus or minus `significand * 2 ^ exponent`. -/

namespace Spreadsheet

/-- A binary64 number, given by its bits. -/
structure Number where
  bits : UInt64
deriving DecidableEq, Inhabited

namespace Number

/-- The weight of the sign bit, the highest of 64. -/
def signBit : Nat := 0x8000000000000000

/-- The weight of the bit above the 52 bits of a significand that a pattern stores. -/
def hiddenBit : Nat := 0x10000000000000

/-- The pattern without its sign. Larger patterns stand for larger absolute values. -/
def magnitude (x : Number) : Nat :=
  x.bits.toNat % signBit

/-- The pattern of infinity; those above it are no numbers. -/
def infinityMagnitude : Nat :=
  2047 * hiddenBit

/-- Whether the sign bit is set, as it also is in negative zero. -/
def isNegative (x : Number) : Bool :=
  signBit ≤ x.bits.toNat

/-- Neither infinite nor not a number. -/
def isFinite (x : Number) : Bool :=
  x.magnitude < infinityMagnitude

/-- The patterns that are no numbers. -/
def isNaN (x : Number) : Bool :=
  infinityMagnitude < x.magnitude

/-- A nonnegative number from its pattern without sign. -/
def ofMagnitude (n : Nat) : Number :=
  ⟨UInt64.ofNat n⟩

/-- The integer that orders the numbers; both zeros have 0. -/
def rank (x : Number) : Int :=
  if x.isNegative then -(x.magnitude : Int) else x.magnitude

/-- The order of the numbers. What is no number is not ordered and counts as equal to all. -/
def order (x y : Number) : Ordering :=
  if x.isNaN || y.isNaN then .eq else compare x.rank y.rank

/-- Equality as numbers: the two zeros are equal, and what is no number equals nothing. -/
def same (x y : Number) : Bool :=
  !x.isNaN && !y.isNaN && x.rank == y.rank

/-- Strictly less, as numbers. -/
def less (x y : Number) : Bool :=
  !x.isNaN && !y.isNaN && x.rank < y.rank

/-- Less or equal, as numbers. -/
def atMost (x y : Number) : Bool :=
  !x.isNaN && !y.isNaN && x.rank ≤ y.rank

/-- Whether the number is one of the two zeros. -/
def isZero (x : Number) : Bool :=
  x.magnitude = 0

/-! ### Significand and exponent -/

/-- The integer significand of a finite number. -/
def significand (x : Number) : Nat :=
  if x.magnitude / hiddenBit = 0 then x.magnitude else hiddenBit + x.magnitude % hiddenBit

/-- The power of two that the significand counts. -/
def exponent (x : Number) : Int :=
  if x.magnitude / hiddenBit = 0 then -1074 else (x.magnitude / hiddenBit : Nat) - 1075

/-- The whole part of a number, toward zero. -/
def truncate (x : Number) : Int :=
  let whole : Nat :=
    if 0 ≤ x.exponent then x.significand <<< x.exponent.toNat
    else x.significand >>> (-x.exponent).toNat
  if x.isNaN then 0 else if x.isNegative then -whole else whole

/-! ### Rounding a quotient -/

/-- The integer nearest to `n / d`, the even one of two equally near. -/
def roundHalfEven (n d : Nat) : Nat :=
  let whole := n / d
  let rest := n % d
  if 2 * rest < d then whole else if d < 2 * rest then whole + 1 else whole + whole % 2

/-- The numerator of `(n / d) / 2 ^ q`. -/
def scaledNumerator (n : Nat) (q : Int) : Nat :=
  n <<< (-q).toNat

/-- The denominator of `(n / d) / 2 ^ q`. -/
def scaledDenominator (d : Nat) (q : Int) : Nat :=
  d <<< q.toNat

/-- The exponent at which a binary64 number near `n / d` counts: the least one, -1074 or more, with
    `n / d < 2 ^ (53 + q)`. -/
def unitExponent (n d : Nat) : Int :=
  let guess : Int := (Nat.log2 n : Int) - Nat.log2 d - 53
  let q := if scaledNumerator n guess < 2 * hiddenBit * scaledDenominator d guess then guess else guess + 1
  max q (-1074)

/-- The binary64 number nearest to `n / d`, with ties to even; infinity if that is out of range. -/
def nearest (n d : Nat) : Number :=
  if n = 0 then
    ofMagnitude 0
  else
    let q := unitExponent n d
    let m := roundHalfEven (scaledNumerator n q) (scaledDenominator d q)
    ofMagnitude (min ((q + 1074).toNat * hiddenBit + m) infinityMagnitude)

/-- The number nearest to a natural number. -/
def ofNat (n : Nat) : Number :=
  nearest n 1

/-- The number nearest to an integer. -/
def ofInt (n : Int) : Number :=
  if n < 0 then ⟨(ofNat n.natAbs).bits ||| 0x8000000000000000⟩ else ofNat n.natAbs

instance (n : Nat) : OfNat Number n :=
  ⟨Number.ofNat n⟩

/-! ### Arithmetic -/

/-- The number as a machine value. -/
def toFloat (x : Number) : Float :=
  Float.ofBits x.bits

/-- The number of a machine value. -/
def ofFloat (f : Float) : Number :=
  ⟨f.toBits⟩

instance : Add Number := ⟨fun x y => ofFloat (x.toFloat + y.toFloat)⟩
instance : Sub Number := ⟨fun x y => ofFloat (x.toFloat - y.toFloat)⟩
instance : Mul Number := ⟨fun x y => ofFloat (x.toFloat * y.toFloat)⟩
instance : Div Number := ⟨fun x y => ofFloat (x.toFloat / y.toFloat)⟩

def neg (x : Number) : Number :=
  ⟨x.bits ^^^ 0x8000000000000000⟩

instance : Neg Number := ⟨neg⟩

def abs (x : Number) : Number :=
  ofMagnitude x.magnitude

def min (x y : Number) : Number :=
  if x.isNaN || y.less x then y else x

def max (x y : Number) : Number :=
  if x.isNaN || x.less y then y else x

def pow (x y : Number) : Number :=
  ofFloat (x.toFloat ^ y.toFloat)

def sqrt (x : Number) : Number :=
  ofFloat x.toFloat.sqrt

/-- The largest whole number not above. -/
def floor (x : Number) : Number :=
  ofFloat x.toFloat.floor

/-- The nearest whole number, a half away from zero. -/
def round (x : Number) : Number :=
  ofFloat x.toFloat.round

/-- The power `base ^ n` by repeated squaring, the products in the order of the binary digits of `n`. -/
def powNat (base : Number) (n : Nat) : Number :=
  go base n 1
where
  /-- Multiplies `product` by `power ^ n`. -/
  go (power : Number) (n : Nat) (product : Number) : Number :=
    let product := if n % 2 = 1 then product * power else product
    if h : n / 2 = 0 then product else go (power * power) (n / 2) product
  termination_by n
  decreasing_by omega

/-- The power `base ^ n`, where a negative power is the inverse of the positive one. -/
def powInt (base : Number) (n : Int) : Number :=
  if n < 0 then 1 / powNat base n.natAbs else powNat base n.natAbs

end Number

end Spreadsheet
