import LoxLang.Text

/-!
# Whole numbers in their own base

A whole number can have a sign and be written in binary, octal or hexadecimal after `0b`, `0o` or
`0x`, or in octal after a zero alone. Underscores can stand between digits and between the opening
of the base and the first digit. A number must fit in 64 bits; digits are taken one by one, so what
comes first in the text is found first, a number that is too large or a character that is no digit.
-/

namespace LoxLang.Whole

/-- Why a text is no whole number. -/
inductive Fault where
  | malformed
  | outOfRange
deriving DecidableEq, Repr

/-- The wording of a fault. -/
def Fault.message : Fault → Text
  | malformed => "parse error"
  | outOfRange => "value out of range"

/-- The base that the second character of an opening names. -/
def baseOf? (byte : UInt8) : Option Nat :=
  match Byte.toLower byte with
  | 0x62 => some 2
  | 0x6F => some 8
  | 0x78 => some 16
  | _ => none

/-- The base of an unsigned number and its digits. -/
def split (text : Text) : Nat × Text :=
  match text with
  | 0x30 :: letter :: first :: rest =>
    match baseOf? letter with
    | some base => (base, first :: rest)
    | none => (8, letter :: first :: rest)
  | 0x30 :: rest => (8, rest)
  | _ => (10, text)

/-- The number beyond those that fit in 64 bits. -/
def limit : Nat := Nat.pow 2 64

/-- The number that digits denote after a number that was read before. Underscores are passed. -/
def digitsFrom (base : Nat) (number : Nat) : Text → Except Fault Nat
  | [] => .ok number
  | byte :: rest =>
    if byte = Byte.underscore then digitsFrom base number rest
    else match Byte.digitValue? byte with
      | none => .error .malformed
      | some digit =>
        if base ≤ digit then .error .malformed
        else if limit ≤ number * base + digit then .error .outOfRange
        else digitsFrom base (number * base + digit) rest

/-- Whether every underscore stands after a digit and before one, given whether a digit or an
underscore came before. -/
def separates (afterDigit afterUnderscore : Bool) : Text → Bool
  | [] => !afterUnderscore
  | byte :: rest =>
    if byte = Byte.underscore then afterDigit && separates false true rest
    else separates true false rest

/-- Whether the underscores of an unsigned number are where they may be. The opening of a base
counts as a digit. -/
def underscoresFit (text : Text) : Bool :=
  match text with
  | 0x30 :: letter :: rest =>
    if (baseOf? letter).isSome then separates true false rest else separates false false text
  | _ => separates false false text

/-- The number that an unsigned text denotes. -/
def unsigned (text : Text) : Except Fault Nat :=
  if text = [] then .error .malformed
  else do
    let (base, digits) := split text
    let number ← digitsFrom base 0 digits
    if underscoresFit text then return number else throw .malformed

/-- The number that a text denotes. -/
def read (text : Text) : Except Fault Int :=
  let (negative, digits) : Bool × Text := match text with
    | 0x2D :: rest => (true, rest)
    | 0x2B :: rest => (false, rest)
    | _ => (false, text)
  do
    let number ← unsigned digits
    if negative then (if number ≤ Nat.pow 2 63 then return -(number : Int) else throw .outOfRange)
    else if number < Nat.pow 2 63 then return (number : Int)
    else throw .outOfRange

end LoxLang.Whole
