import LoxLang.Text

/-!
# Characters of a text

A text is read as a sequence of *units*: a unit is a character, when the bytes at hand encode one
in UTF-8, and otherwise a single stray byte. Surrogates, overlong encodings and code points above
U+10FFFF encode no character, so their bytes are stray, one by one.
-/

namespace LoxLang.Text.Utf8

/-- A character given by its code point, or a byte that belongs to none. -/
inductive Unit where
  | char (code : Nat)
  | stray (byte : UInt8)
deriving DecidableEq, Repr

/-- A byte that continues a character. -/
def isTail (byte : UInt8) : Bool := 0x80 ≤ byte && byte ≤ 0xBF

/-- The six low bits of a continuation byte. -/
def tailBits (byte : UInt8) : Nat := byte.toNat % 0x40

/-- The code point of the character that starts with the given byte, and the number of bytes after
the first that it takes. The second byte has a narrower range after `E0`, `ED`, `F0` and `F4`, which
is what excludes overlong forms, surrogates and code points that are too large. -/
def decode? (first : UInt8) (rest : Text) : Option (Nat × Nat) :=
  if first < 0x80 then some (first.toNat, 0)
  else if first < 0xC2 then none
  else if first < 0xE0 then
    match rest with
    | second :: _ =>
      if isTail second then some (first.toNat % 0x20 * 0x40 + tailBits second, 1) else none
    | _ => none
  else if first < 0xF0 then
    match rest with
    | second :: third :: _ =>
      let least : UInt8 := if first = 0xE0 then 0xA0 else 0x80
      let greatest : UInt8 := if first = 0xED then 0x9F else 0xBF
      if least ≤ second && second ≤ greatest && isTail third then
        some ((first.toNat % 0x10 * 0x40 + tailBits second) * 0x40 + tailBits third, 2)
      else none
    | _ => none
  else if first < 0xF5 then
    match rest with
    | second :: third :: fourth :: _ =>
      let least : UInt8 := if first = 0xF0 then 0x90 else 0x80
      let greatest : UInt8 := if first = 0xF4 then 0x8F else 0xBF
      if least ≤ second && second ≤ greatest && isTail third && isTail fourth then
        some (((first.toNat % 0x08 * 0x40 + tailBits second) * 0x40 + tailBits third) * 0x40
          + tailBits fourth, 3)
      else none
    | _ => none
  else none

/-- The number of bytes after the first in the unit that starts with the given byte. -/
def extent (first : UInt8) (rest : Text) : Nat :=
  match decode? first rest with
  | some (_, extra) => extra
  | none => 0

/-- The units of a text after the given number of bytes that belong to an earlier unit. -/
def unitsAfter : Nat → Text → List Unit
  | _, [] => []
  | skipped + 1, _ :: rest => unitsAfter skipped rest
  | 0, first :: rest =>
    match decode? first rest with
    | some (code, extra) => .char code :: unitsAfter extra rest
    | none => .stray first :: unitsAfter 0 rest

/-- The units of a text. -/
def units (text : Text) : List Unit := unitsAfter 0 text

/-- A text is valid when it holds no stray byte. -/
def isValid (text : Text) : Bool :=
  (units text).all fun
    | .char _ => true
    | .stray _ => false

/-- The UTF-8 bytes of a code point. -/
def encode (code : Nat) : Text := String.utf8EncodeChar (Char.ofNat code)

/-- The bytes of a unit. -/
def Unit.bytes : Unit → Text
  | .char code => encode code
  | .stray byte => [byte]

/-- The character that stands in for a stray byte where characters are wanted. -/
def replacement : Nat := 0xFFFD

/-- The code point of a unit, a stray byte counting as the replacement character. -/
def Unit.code : Unit → Nat
  | .char code => code
  | .stray _ => replacement

end LoxLang.Text.Utf8
