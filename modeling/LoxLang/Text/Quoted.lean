import LoxLang.Text.Printable

/-!
# Quoted text

A text in double quotes, in which every character that is not printable is escaped: the usual
one-letter escapes, `\x` and two digits for other bytes below the space and for stray bytes, `\u`
and four digits or `\U` and eight for other characters, all in lower-case hexadecimal. The quoted
form has no line end in it, and different texts have different quoted forms.
-/

namespace LoxLang.Text

/-- The letter of a one-letter escape. -/
def escapeLetter? (code : Nat) : Option UInt8 :=
  match code with
  | 0x07 => some 0x61
  | 0x08 => some 0x62
  | 0x09 => some 0x74
  | 0x0A => some 0x6E
  | 0x0B => some 0x76
  | 0x0C => some 0x66
  | 0x0D => some 0x72
  | 0x22 => some 0x22
  | 0x5C => some 0x5C
  | _ => none

/-- A unit inside quotes. -/
def Utf8.Unit.quoted : Utf8.Unit → Text
  | .stray byte => Byte.backslash :: 0x78 :: ofHex 2 byte.toNat
  | .char code =>
    match escapeLetter? code with
    | some letter => [Byte.backslash, letter]
    | none =>
      if isPrintable code then Utf8.encode code
      else if code < 0x20 || code = 0x7F then Byte.backslash :: 0x78 :: ofHex 2 code
      else if code < 0x10000 then Byte.backslash :: 0x75 :: ofHex 4 code
      else Byte.backslash :: 0x55 :: ofHex 8 code

/-- A text in quotes. -/
def quoted (text : Text) : Text :=
  Byte.quote :: ((Utf8.units text).flatMap Utf8.Unit.quoted ++ [Byte.quote])

end LoxLang.Text
