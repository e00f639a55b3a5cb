import LoxLang.Number

/-!
# Shortest decimals

A positive finite double stands for an interval of reals: those that are nearer to it than to any
other double, with the end points when its significand is even. Among the decimals in that interval
the *shortest* is one with the fewest digits, and of several such the nearest to the double, a tie
going to the even last digit.

For one digit, two digits and so on, the two neighbours of the value on the grid of decimals with
that many digits are tested in exact arithmetic. If any point of a grid lies in the interval, one of
the two neighbours does, so the first grid with a hit gives the fewest digits. Seventeen digits
always suffice.
-/

namespace LoxLang

/-- The decimal `digits * 10 ^ scale`. -/
structure Decimal where
  digits : Nat
  scale : Int
deriving DecidableEq, Repr

/-- The decimal without a zero at its end; one step is enough for what the search below can find. -/
def Decimal.trimmed (decimal : Decimal) : Decimal :=
  if decimal.digits % 10 = 0 then ⟨decimal.digits / 10, decimal.scale + 1⟩ else decimal

/-- A positive fraction. -/
structure Fraction where
  numerator : Nat
  denominator : Nat
deriving DecidableEq, Repr

namespace Fraction

/-- The fraction `number * 2 ^ exponent`. -/
def ofBinary (number : Nat) : Int → Fraction
  | .ofNat exponent => ⟨number * Nat.pow 2 exponent, 1⟩
  | .negSucc exponent => ⟨number, Nat.pow 2 (exponent + 1)⟩

/-- The fraction that a decimal denotes. -/
def ofDecimal (decimal : Decimal) : Fraction :=
  match decimal.scale with
  | .ofNat scale => ⟨decimal.digits * Nat.pow 10 scale, 1⟩
  | .negSucc scale => ⟨decimal.digits, Nat.pow 10 (scale + 1)⟩

/-- The fraction divided by `10 ^ scale`. -/
def shift (fraction : Fraction) : Int → Fraction
  | .ofNat scale => ⟨fraction.numerator, fraction.denominator * Nat.pow 10 scale⟩
  | .negSucc scale => ⟨fraction.numerator * Nat.pow 10 (scale + 1), fraction.denominator⟩

/-- The order of fractions. -/
def less (left right : Fraction) : Bool :=
  left.numerator * right.denominator < right.numerator * left.denominator

/-- The order of fractions with equality. -/
def lessEqual (left right : Fraction) : Bool :=
  left.numerator * right.denominator ≤ right.numerator * left.denominator

/-- The number of decimal digits of a natural number, none for zero. -/
def digitCount (number : Nat) : Nat := if number = 0 then 0 else (Nat.toDigits 10 number).length

/-- The position of the first digit: the `k` with `10 ^ (k - 1) ≤ fraction < 10 ^ k`. -/
def decimalPosition (fraction : Fraction) : Int :=
  if fraction.denominator ≤ fraction.numerator then
    digitCount (fraction.numerator / fraction.denominator)
  else
    1 - (digitCount ((fraction.denominator - 1) / fraction.numerator) : Int)

end Fraction

namespace Number

/-- The interval of reals that round to a positive finite double, with the double inside it. -/
structure Rounding where
  lower : Fraction
  value : Fraction
  upper : Fraction
  closed : Bool

/-- The rounding interval of a positive finite double. Below a power of two the doubles are twice as
dense, so the lower half of the interval is half as wide there. -/
def rounding (number : Number) : Rounding :=
  let significand := number.significand
  let exponent := number.exponent - 2
  let narrow := number.fractionField = 0 && 1 < number.exponentField
  { lower := .ofBinary (4 * significand - if narrow then 1 else 2) exponent
    value := .ofBinary (4 * significand) exponent
    upper := .ofBinary (4 * significand + 2) exponent
    closed := significand % 2 = 0 }

namespace Rounding

/-- Whether a fraction rounds to the double. -/
def contains (interval : Rounding) (fraction : Fraction) : Bool :=
  if interval.closed then
    interval.lower.lessEqual fraction && fraction.lessEqual interval.upper
  else
    interval.lower.less fraction && fraction.less interval.upper

/-- The decimal on the grid of step `10 ^ scale` that is in the interval and nearest to the value,
if there is one. -/
def onGrid? (interval : Rounding) (scale : Int) : Option Decimal :=
  let steps := interval.value.shift scale
  let below := steps.numerator / steps.denominator
  let rest := steps.numerator % steps.denominator
  let lower : Decimal := ⟨below, scale⟩
  let upper : Decimal := ⟨below + 1, scale⟩
  match interval.contains (.ofDecimal lower), interval.contains (.ofDecimal upper) with
  | true, true =>
    if 2 * rest < steps.denominator then some lower
    else if steps.denominator < 2 * rest then some upper
    else if below % 2 = 0 then some lower else some upper
  | true, false => some lower
  | false, true => some upper
  | false, false => none

/-- The first hit on the grids of `count`, `count + 1`, … digits, at most `tries` of them. -/
def search (interval : Rounding) (position : Int) : Nat → Nat → Option Decimal
  | 0, _ => none
  | tries + 1, count =>
    match interval.onGrid? (position - count) with
    | some decimal => some decimal
    | none => search interval position tries (count + 1)

end Rounding

/-- The shortest decimal that rounds to the magnitude of a finite double other than zero. -/
def shortest (number : Number) : Decimal :=
  let interval := number.rounding
  match interval.search interval.value.decimalPosition 17 1 with
  | some decimal => decimal.trimmed
  | none => ⟨number.significand, 0⟩

end Number

end LoxLang
