/-!
# Numbers

A number of the language is an IEEE 754 double, represented by its bits. Two numbers are equal as
data when their bits are; the language's own comparison, under which a not-a-number differs from
itself and the two zeros are equal, is `Number.equal`.

`Number.ofRatio` rounds an exact non-negative fraction to the nearest double, ties to the one with
an even significand. It is how numerals are read, whatever their length.
-/

namespace LoxLang

/-- A double by its bits. -/
structure Number where
  bits : UInt64
deriving DecidableEq, Repr

namespace Number

/-- The double as the machine computes with it. -/
def toFloat (number : Number) : Float := Float.ofBits number.bits

/-- The bits of a computed double. -/
def ofFloat (float : Float) : Number := ⟨float.toBits⟩

/-- The sum, rounded to the nearest double. -/
def add (left right : Number) : Number := ofFloat (left.toFloat + right.toFloat)

/-- The difference, rounded to the nearest double. -/
def sub (left right : Number) : Number := ofFloat (left.toFloat - right.toFloat)

/-- The product, rounded to the nearest double. -/
def mul (left right : Number) : Number := ofFloat (left.toFloat * right.toFloat)

/-- The quotient, rounded to the nearest double; a division by zero is infinite or not a number. -/
def div (left right : Number) : Number := ofFloat (left.toFloat / right.toFloat)

/-- The number with the other sign. -/
def neg (number : Number) : Number := ofFloat (-number.toFloat)

/-- Equality of the language: false when a side is not a number, true for the two zeros. -/
def equal (left right : Number) : Bool := left.toFloat == right.toFloat

/-- The order of the language: false when a side is not a number. -/
def less (left right : Number) : Bool := left.toFloat < right.toFloat

/-- The order of the language with equality: false when a side is not a number. -/
def lessEqual (left right : Number) : Bool := left.toFloat ≤ right.toFloat

/-- The sign bit. -/
def isNegative (number : Number) : Bool := Nat.pow 2 63 ≤ number.bits.toNat

/-- The bits without the sign. On finite numbers and infinity they are ordered as the magnitudes. -/
def magnitude (number : Number) : Nat := number.bits.toNat % Nat.pow 2 63

/-- The biased exponent. -/
def exponentField (number : Number) : Nat := number.magnitude / Nat.pow 2 52

/-- The stored part of the significand. -/
def fractionField (number : Number) : Nat := number.magnitude % Nat.pow 2 52

/-- The magnitude of the infinities. -/
def infinite : Nat := 2047 * Nat.pow 2 52

/-- Whether the bits are those of no number. -/
def isNaN (number : Number) : Bool := infinite < number.magnitude

/-- Whether the number is infinite. -/
def isInfinite (number : Number) : Bool := number.magnitude = infinite

/-- Whether the number is one of the two zeros. -/
def isZero (number : Number) : Bool := number.magnitude = 0

/-- The significand `m` of a finite number, whose magnitude is `m * 2 ^ q`. -/
def significand (number : Number) : Nat :=
  if number.exponentField = 0 then number.fractionField else number.fractionField + Nat.pow 2 52

/-- The exponent `q` of a finite number, whose magnitude is `m * 2 ^ q`. -/
def exponent (number : Number) : Int :=
  if number.exponentField = 0 then -1074 else number.exponentField - 1075

/-- A quotient rounded to the nearest natural number, ties to the even one. -/
def roundDiv (numerator denominator : Nat) : Nat :=
  let quotient := numerator / denominator
  let rest := numerator % denominator
  if 2 * rest < denominator then quotient
  else if denominator < 2 * rest then quotient + 1
  else quotient + quotient % 2

/-- The numerator and denominator of a fraction divided by `2 ^ exponent`. -/
def scaled (numerator denominator : Nat) : Int → Nat × Nat
  | .ofNat exponent => (numerator, denominator * Nat.pow 2 exponent)
  | .negSucc exponent => (numerator * Nat.pow 2 (exponent + 1), denominator)

/-- The exponent at which a positive fraction has a significand of 53 bits, or the least exponent
there is. The two candidates follow from the lengths of numerator and denominator. -/
def exponentOf (numerator denominator : Nat) : Int :=
  let guess : Int := (numerator.log2 : Int) - denominator.log2 - 53
  let (upper, lower) := scaled numerator denominator guess
  max (-1074) (if upper < lower * Nat.pow 2 53 then guess else guess + 1)

/-- The double nearest to a fraction, ties to the even significand. A significand that rounds up to
`2 ^ 53` carries into the exponent by itself, and what exceeds the largest double is infinite. -/
def ofRatio (numerator denominator : Nat) : Number :=
  if numerator = 0 then ⟨0⟩
  else
    let exponent := exponentOf numerator denominator
    let (upper, lower) := scaled numerator denominator exponent
    let significand := roundDiv upper lower
    let magnitude := (exponent + 1074).toNat * Nat.pow 2 52 + significand
    ⟨(min infinite magnitude).toUInt64⟩

/-- The double nearest to `digits / 10 ^ places`. -/
def ofDecimal (digits places : Nat) : Number := ofRatio digits (Nat.pow 10 places)

end Number

end LoxLang
