import LoxLang.Number.Shortest
import LoxLang.Text

/-!
# Texts of numbers

Numbers are written with the digits of their shortest decimal, in one of two layouts: *plain*, with
as many zeros as it takes, and *exponent*, one digit before the point and at least two digits in the
exponent. What `print` shows (`Number.display`) is plain where the magnitude is zero or at least a
millionth and below 10²¹, and in exponent layout elsewhere. The printed form of programs is always
plain (`Number.plain`).
-/

namespace LoxLang

namespace Decimal

/-- The position of the point: the decimal is `0.ddd * 10 ^ point`. -/
def point (decimal : Decimal) : Int := (Text.ofNat decimal.digits).length + decimal.scale

/-- All digits, with zeros up to the point on either side of it. -/
def plain (decimal : Decimal) : Text :=
  let digits := Text.ofNat decimal.digits
  let count := digits.length
  let zeros (number : Nat) : Text := List.replicate number 0x30
  match decimal.point with
  | .ofNat point =>
    if point = 0 then 0x30 :: Byte.dot :: digits
    else if count ≤ point then digits ++ zeros (point - count)
    else digits.take point ++ Byte.dot :: digits.drop point
  | .negSucc point => 0x30 :: Byte.dot :: (zeros (point + 1) ++ digits)

/-- One digit, the point and the others if there are others, and the exponent with its sign. -/
def scientific (decimal : Decimal) : Text :=
  let mantissa := match Text.ofNat decimal.digits with
    | [] => []
    | [only] => [only]
    | first :: others => first :: Byte.dot :: others
  let exponent := decimal.point - 1
  let sign : UInt8 := if exponent < 0 then 0x2D else 0x2B
  let digits := Text.ofNat exponent.natAbs
  mantissa ++ 0x65 :: sign :: (List.replicate (2 - digits.length) 0x30 ++ digits)

end Decimal

namespace Number

/-- A text with a minus sign in front of it when the number has its sign bit set. -/
def signed (number : Number) (text : Text) : Text :=
  if number.isNegative then 0x2D :: text else text

/-- The number in plain layout. -/
def plain (number : Number) : Text :=
  if number.isNaN then "NaN"
  else if number.isInfinite then (if number.isNegative then "-Inf" else "+Inf")
  else number.signed (if number.isZero then "0" else number.shortest.plain)

/-- The least magnitude other than zero that is shown in plain layout. -/
def leastPlain : Number := ofRatio 1 (Nat.pow 10 6)

/-- The least magnitude that is too large to be shown in plain layout. -/
def beyondPlain : Number := ofRatio (Nat.pow 10 21) 1

/-- Whether the number is shown in plain layout. -/
def isShownPlain (number : Number) : Bool :=
  number.isZero ||
    (leastPlain.magnitude ≤ number.magnitude && number.magnitude < beyondPlain.magnitude)

/-- The number as `print` shows it. -/
def display (number : Number) : Text :=
  if number.isNaN then "NaN"
  else if number.isInfinite then number.signed "Infinity"
  else if number.isShownPlain then number.plain
  else number.signed number.shortest.scientific

/-- The number that a numeral `digits` or `digits.digits` denotes. -/
def ofNumeral (numeral : Text) : Number :=
  let whole := numeral.takeWhile Byte.isDigit
  let places := (numeral.dropWhile Byte.isDigit).drop 1
  ofDecimal (Text.toNat (whole ++ places)) places.length

end Number

end LoxLang
