/-!
# Byte text

Sources, names, string payloads and everything the interpreter writes are sequences of bytes.
Nothing obliges a source to be valid UTF-8, and a string payload is the bytes between its quotes,
so text is a list of bytes throughout; characters are a view of it, given by `LoxLang.Text.Utf8`.

A Lean string stands for its UTF-8 bytes wherever a text is expected, which keeps the fixed
messages readable where they are defined.
-/

namespace LoxLang

/-- A text is a sequence of bytes. -/
abbrev Text := List UInt8

namespace Byte

/-- The horizontal tab. -/
def tab : UInt8 := 0x09

/-- The line feed, which ends a line. -/
def newline : UInt8 := 0x0A

/-- The carriage return. -/
def carriageReturn : UInt8 := 0x0D

/-- The space. -/
def space : UInt8 := 0x20

/-- The double quote, which opens and closes a string. -/
def quote : UInt8 := 0x22

/-- The dot between the parts of a numeral. -/
def dot : UInt8 := 0x2E

/-- The slash. -/
def slash : UInt8 := 0x2F

/-- The backslash, which introduces an escape. -/
def backslash : UInt8 := 0x5C

/-- The underscore. -/
def underscore : UInt8 := 0x5F

/-- The decimal digits. -/
def isDigit (byte : UInt8) : Bool := 0x30 ≤ byte && byte ≤ 0x39

/-- The letters of the Latin alphabet without marks, in both cases. -/
def isLetter (byte : UInt8) : Bool :=
  (0x61 ≤ byte && byte ≤ 0x7A) || (0x41 ≤ byte && byte ≤ 0x5A)

/-- The number that a decimal digit denotes. -/
def digitValue (byte : UInt8) : Nat := byte.toNat - 0x30

/-- The value of a digit of a base up to sixteen, in either case. -/
def digitValue? (byte : UInt8) : Option Nat :=
  if isDigit byte then some (digitValue byte)
  else if 0x61 ≤ byte && byte ≤ 0x66 then some (byte.toNat - 0x61 + 10)
  else if 0x41 ≤ byte && byte ≤ 0x46 then some (byte.toNat - 0x41 + 10)
  else none

/-- The lower-case form of a letter; every other byte is its own. -/
def toLower (byte : UInt8) : UInt8 :=
  if 0x41 ≤ byte && byte ≤ 0x5A then byte + 0x20 else byte

end Byte

namespace Text

/-- The UTF-8 bytes of a string. -/
def ofString (string : String) : Text := string.toList.flatMap String.utf8EncodeChar

instance : Coe String Text := ⟨ofString⟩

/-- A natural number in decimal. -/
def ofNat (number : Nat) : Text := (Nat.toDigits 10 number).map fun digit => digit.toNat.toUInt8

/-- A whole number in decimal, with a minus sign when it is negative. -/
def ofInt : Int → Text
  | .ofNat number => ofNat number
  | .negSucc number => 0x2D :: ofNat (number + 1)

/-- A natural number in lower-case hexadecimal, with at least the given number of digits. -/
def ofHex (width number : Nat) : Text :=
  let digits : Text := (Nat.toDigits 16 number).map fun digit => digit.toNat.toUInt8
  List.replicate (width - digits.length) 0x30 ++ digits

/-- The natural number that a text of decimal digits denotes. -/
def toNat (digits : Text) : Nat :=
  digits.foldl (fun number digit => 10 * number + Byte.digitValue digit) 0

/-- Texts put together with a separator between neighbours. -/
def join (separator : Text) : List Text → Text
  | [] => []
  | [last] => last
  | first :: second :: rest => first ++ separator ++ join separator (second :: rest)

/-- The stretches between the occurrences of one byte; there is always at least one. -/
def splitOn (separator : UInt8) : Text → List Text
  | [] => [[]]
  | byte :: rest =>
    if byte = separator then [] :: splitOn separator rest
    else match splitOn separator rest with
      | [] => [[byte]]
      | first :: others => (byte :: first) :: others

/-- What follows a given opening, if the text starts with it. -/
def after? : Text → Text → Option Text
  | [], text => some text
  | _ :: _, [] => none
  | wanted :: opening, byte :: text => if wanted = byte then after? opening text else none

/-- Whether the text starts with a given opening. -/
def startsWith (text opening : Text) : Bool := (after? opening text).isSome

/-- The order of texts by their first differing byte, a text coming after its own openings. -/
def before : Text → Text → Bool
  | _, [] => false
  | [], _ :: _ => true
  | left :: lefts, right :: rights => left < right || (left = right && before lefts rights)

/-- The text with its letters in lower case; bytes of other characters stay as they are. -/
def toLower (text : Text) : Text := text.map Byte.toLower

/-- The number of line ends in a text. -/
def newlines (text : Text) : Nat := text.count Byte.newline

end Text

end LoxLang
