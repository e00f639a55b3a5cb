import LoxLang.Number.Layout
import LoxLang.Number.Whole

/-!
# Meanings of plain scalars

A plain scalar means nothing, a truth value, a whole number, a float, a point in time, or its text,
which is settled by its form. Its tag names which. A whole number may hold underscores anywhere and
must fit in 64 bits, with or without a sign; one that does not fit is a float. A float that is too
large for a double is a text.
-/

namespace LoxLang

/-- The whole part of a finite number. -/
def Number.truncated (number : Number) : Int :=
  let magnitude : Nat := match number.exponent with
    | .ofNat exponent => number.significand * Nat.pow 2 exponent
    | .negSucc exponent => number.significand / Nat.pow 2 (exponent + 1)
  if number.isNegative then -(magnitude : Int) else magnitude

namespace Yaml

/-- What a plain scalar means. -/
inductive Meaning where
  | null
  | boolean
  | whole (value : Int)
  | float (value : Number)
  | time
  | text
deriving DecidableEq, Repr

namespace Meaning

/-- The tag of a meaning. -/
def tag : Meaning → Text
  | null => "!!null"
  | boolean => "!!bool"
  | whole _ => "!!int"
  | float _ => "!!float"
  | time => "!!timestamp"
  | text => "!!str"

/-- A quiet not-a-number. -/
def notANumber : Number := ⟨0x7FF8000000000001⟩

/-- The infinities. -/
def infinity (isNegative : Bool) : Number :=
  if isNegative then ⟨0xFFF0000000000000⟩ else ⟨0x7FF0000000000000⟩

/-- The scalars whose meaning is fixed. -/
def fixed : List (Text × Meaning) :=
  [("true", boolean), ("True", boolean), ("TRUE", boolean),
   ("false", boolean), ("False", boolean), ("FALSE", boolean),
   ("", null), ("~", null), ("null", null), ("Null", null), ("NULL", null),
   (".nan", float notANumber), (".NaN", float notANumber), (".NAN", float notANumber),
   (".inf", float (infinity false)), (".Inf", float (infinity false)),
   (".INF", float (infinity false)), ("+.inf", float (infinity false)),
   ("+.Inf", float (infinity false)), ("+.INF", float (infinity false)),
   ("-.inf", float (infinity true)), ("-.Inf", float (infinity true)),
   ("-.INF", float (infinity true))]

/-- A text without a sign in front, and whether the sign was a minus. -/
def unsigned (text : Text) : Bool × Text :=
  match text with
  | 0x2D :: rest => (true, rest)
  | 0x2B :: rest => (false, rest)
  | _ => (false, text)

/-- The exponent that a text denotes, where no text is no exponent. -/
def exponent? (text : Text) : Option Int :=
  match text with
  | [] => some 0
  | letter :: rest =>
    let (isNegative, digits) := unsigned rest
    if (letter = 0x65 || letter = 0x45) && digits ≠ [] && digits.all Byte.isDigit then
      let value : Int := Text.toNat digits
      some (if isNegative then -value else value)
    else none

/-- The double nearest to `digits * 10 ^ exponent`, if it is not too large. The exponents for which
the answer is clear are settled first. -/
def scaled? (digits : Nat) (exponent : Int) : Option Number :=
  let order := (Text.ofNat digits).length + exponent
  if digits = 0 || order < -400 then some ⟨0⟩
  else if 400 < order then none
  else
    let number := match exponent with
      | .ofNat exponent => Number.ofRatio (digits * Nat.pow 10 exponent) 1
      | .negSucc exponent => Number.ofRatio digits (Nat.pow 10 (exponent + 1))
    if number.isInfinite then none else some number

/-- The float that a text denotes: digits with a point in, before or after them, or none, and
perhaps an exponent. -/
def float? (text : Text) : Option Number := do
  let (isNegative, rest) := unsigned text
  let whole := rest.takeWhile Byte.isDigit
  let rest := rest.dropWhile Byte.isDigit
  let hasPoint := rest.head? = some Byte.dot
  let places := if hasPoint then (rest.drop 1).takeWhile Byte.isDigit else []
  let rest := if hasPoint then (rest.drop 1).dropWhile Byte.isDigit else rest
  if whole = [] && places = [] then none
  else
    let exponent ← exponent? rest
    let number ← scaled? (Text.toNat (whole ++ places)) (exponent - places.length)
    return if isNegative then ⟨number.bits ||| 0x8000000000000000⟩ else number

/-- The whole number that a text denotes. Without a sign it may use all 64 bits. -/
def whole? (text : Text) : Option Int :=
  match Whole.read text, Whole.unsigned text with
  | .ok value, _ => some value
  | .error _, .ok value => some value
  | .error _, .error _ => none

/-- One or two digits with a value in a range, and what follows them. -/
def twoDigits? (least greatest : Nat) (text : Text) : Option (Nat × Text) :=
  let digits := (text.take 2).takeWhile Byte.isDigit
  let value := Text.toNat digits
  if digits ≠ [] && least ≤ value && value ≤ greatest then some (value, text.drop digits.length)
  else none

/-- The number of days of a month. -/
def daysOf (year month : Nat) : Nat :=
  if month = 2 then
    if year % 4 = 0 && (year % 100 ≠ 0 || year % 400 = 0) then 29 else 28
  else if [4, 6, 9, 11].contains month then 30
  else 31

/-- What follows a time of day. -/
def afterTime? (text : Text) : Option Text := do
  let (_, rest) ← twoDigits? 0 23 text
  let (_, rest) ← twoDigits? 0 59 (← Text.after? (":") rest)
  let (_, rest) ← twoDigits? 0 59 (← Text.after? (":") rest)
  match rest with
  | 0x2E :: places =>
    if places.head?.any Byte.isDigit then return places.dropWhile Byte.isDigit else return rest
  | _ => return rest

/-- Whether a text is the name of a time zone. -/
def isZone (text : Text) : Bool :=
  match text with
  | [0x5A] => true
  | [sign, _, _, 0x3A, _, _] =>
    let digits := (text.drop 1).filter (· ≠ 0x3A)
    (sign = 0x2B || sign = 0x2D) && digits.all Byte.isDigit && digits.length = 4
      && Text.toNat (digits.take 2) ≤ 24 && Text.toNat (digits.drop 2) < 60
  | _ => false

/-- Whether a text is a date, perhaps with a time. -/
def isTime (text : Text) : Bool :=
  let year := text.takeWhile Byte.isDigit
  if year.length ≠ 4 then false
  else
    let date := do
      let (month, rest) ← twoDigits? 1 12 (← Text.after? ("-") (text.drop 4))
      let (_, rest) ← twoDigits? 1 (daysOf (Text.toNat year) month) (← Text.after? ("-") rest)
      return rest
    match date with
    | none => false
    | some [] => true
    | some (0x20 :: clock) => afterTime? clock = some []
    | some (letter :: clock) =>
      (letter = 0x54 || letter = 0x74) && (afterTime? clock).any isZone

/-- The meaning of a number, which starts with a digit or a sign. -/
def ofNumeral (text : Text) : Meaning :=
  if isTime text then time
  else
    let plain := text.filter (· ≠ Byte.underscore)
    match whole? plain with
    | some value => whole value
    | none =>
      match float? plain with
      | some value => float value
      | none => .text

/-- The meaning of a plain scalar. -/
def ofPlain (text : Text) : Meaning :=
  match fixed.lookup text with
  | some meaning => meaning
  | none =>
    match text with
    | first :: _ =>
      if Byte.isDigit first || first = 0x2B || first = 0x2D then ofNumeral text
      else if first = Byte.dot then
        match float? text with
        | some value => float value
        | none => .text
      else .text
    | [] => .text

end Meaning

end Yaml

end LoxLang
