import LoxLang.Toml.Reader

/-!
# TOML documents

A document is a sequence of headers and pairs. A header names the table that the pairs after it
belong to; a pair has a key and a value. A string is kept with its escapes resolved. The form of an
escape is part of the grammar, but it may still name no character, and an escaped slash is not one
that can be resolved; such a string has no content, which is only noticed once the whole document
has been read.
-/

namespace LoxLang.Toml

mutual

/-- A value, as far as it matters here. -/
inductive Value where
  | datetime
  | float
  | boolean
  | integer (digits : Text)
  | string (content : Option Text)
  | array (values : List Value)
  | table (pairs : List Pair)

/-- A key with the line it is on, and a value with the line on which it ends. -/
inductive Pair where
  | mk (key : Option Text) (keyLine : Nat) (value : Value) (line : Nat)

end

/-- A header: whether it adds a table to an array of tables, and the names of the table on the way
from the root. -/
structure Header where
  isArray : Bool
  names : List (Option Text)
  line : Nat

/-- A part of a document. -/
inductive Statement where
  | header (header : Header)
  | pair (pair : Pair)

namespace Grammar

open Reader

/-- Whether a character is in a range. -/
def within (first last char : Char) : Bool := first ≤ char && char ≤ last

/-- Spaces and tabs. -/
def blanks : Reader Unit := rule (discard (many (char fun char => char = ' ' || char = '\t')))

/-- Line ends, one at least. -/
def lineEnds : Reader (List Char) := rule (manyOne (char isLineEnd))

/-- Spaces, tabs and line ends. -/
def space : Reader Unit :=
  rule (discard (many (char fun char => char = ' ' || char = '\t' || isLineEnd char)))

/-- A comment, up to the end of its line. -/
def comment : Reader Unit := rule do
  symbol '#'
  discard (many (char fun char => char = '\t' || ' ' ≤ char))

/-- A decimal digit. -/
def digit : Reader Char := rule (char (within '0' '9'))

/-- Two digits. -/
def digitPair : Reader Unit := rule do
  discard digit
  discard digit

/-- Four digits. -/
def digitQuad : Reader Unit := rule do
  digitPair
  digitPair

/-- A digit, after an underscore or not. -/
def laterDigit : Reader Char :=
  either digit do
    symbol '_'
    digit

/-- A whole number without a sign; it starts with a zero only if it is one digit. -/
def unsigned : Reader (List Char) :=
  rule (either
    (do
      let first ← char (within '1' '9')
      return first :: (← manyOne laterDigit))
    (do return [← digit]))

/-- A sign. -/
def sign : Reader Char := char fun char => char = '-' || char = '+'

/-- A whole number, without its underscores. -/
def integer : Reader (List Char) := rule do
  let sign ← optional sign
  return sign.toList ++ (← unsigned)

/-- The digits after a dot. -/
def fraction : Reader Unit := rule do
  symbol '.'
  discard digit
  discard (many laterDigit)

/-- An exponent. -/
def exponent : Reader Unit := rule do
  discard (char fun char => char = 'e' || char = 'E')
  discard (optional sign)
  discard digit
  discard (many laterDigit)

/-- A number with a fraction or an exponent. -/
def float : Reader Unit := rule do
  discard integer
  either
    (do
      fraction
      discard (optional exponent))
    (do
      discard (optional fraction)
      exponent)

/-- A time of day. -/
def timeOfDay : Reader Unit := rule do
  rule digitPair
  symbol ':'
  rule digitPair
  symbol ':'
  rule digitPair
  discard (optional (rule do
    symbol '.'
    discard (manyOne digit)))

/-- The offset of a time zone. -/
def timeZone : Reader Unit :=
  rule (either (symbol 'Z') (rule do
    discard sign
    rule digitPair
    symbol ':'
    rule digitPair))

/-- A date. -/
def date : Reader Unit := rule do
  rule digitQuad
  symbol '-'
  rule digitPair
  symbol '-'
  rule digitPair

/-- A date, perhaps with a time, or a time. -/
def datetime : Reader Unit :=
  rule (either
    (do
      date
      discard (optional do
        symbol 'T'
        rule do
          timeOfDay
          timeZone))
    timeOfDay)

/-- A truth value. -/
def boolean : Reader Unit :=
  rule (either (symbols ['t', 'r', 'u', 'e']) (symbols ['f', 'a', 'l', 's', 'e']))

/-- The double quote. -/
def quote : Char := Char.ofNat 0x22

/-- The single quote. -/
def apostrophe : Char := Char.ofNat 0x27

/-- The backslash. -/
def backslash : Char := Char.ofNat 0x5C

/-- The backslash of an escape. -/
def escape : Reader Unit := rule (symbol backslash)

/-- A hexadecimal digit. -/
def hexDigit : Reader Nat := rule do
  let digit ← char fun char => within '0' '9' char || within 'a' 'f' char || within 'A' 'F' char
  return (Byte.digitValue? digit.toNat.toUInt8).getD 0

/-- Four hexadecimal digits. -/
def hexQuad : Reader Nat := rule do
  let first ← hexDigit
  let second ← hexDigit
  let third ← hexDigit
  let fourth ← hexDigit
  return ((first * 16 + second) * 16 + third) * 16 + fourth

/-- The character of a code point, if there is one. -/
def charOf? (code : Nat) : Option Char := if code.isValidChar then some (Char.ofNat code) else none

/-- The character that a letter stands for after a backslash. -/
def charOfEscape? (letter : Char) : Option Char :=
  if letter = 'b' then some (Char.ofNat 0x08)
  else if letter = 't' then some '\t'
  else if letter = 'n' then some '\n'
  else if letter = 'f' then some (Char.ofNat 0x0C)
  else if letter = 'r' then some '\r'
  else if letter = quote then some quote
  else if letter = backslash then some backslash
  else none

/-- The letters that can stand after a backslash alone. -/
def isEscapeLetter (letter : Char) : Bool := letter = '/' || (charOfEscape? letter).isSome

/-- A character in double quotes that is no escape. -/
def plainChar : Reader (Option Char) :=
  rule (some <$> char fun char => ' ' ≤ char && char ≠ quote && char ≠ backslash)

/-- An escape. -/
def escaped : Reader (Option Char) := rule do
  escape
  choice [
    charOfEscape? <$> char isEscapeLetter,
    (do
      symbol 'u'
      return charOf? (← hexQuad)),
    (do
      symbol 'U'
      let high ← hexQuad
      let low ← hexQuad
      return charOf? (high * 0x10000 + low))]

/-- A character in double quotes. -/
def quotedChar : Reader (Option Char) := rule (either plainChar escaped)

/-- The text of characters. -/
def textOf (chars : List Char) : Text := chars.flatMap String.utf8EncodeChar

/-- The text of characters that may be missing. -/
def textOf? (chars : List (Option Char)) : Option Text := (chars.mapM id).map textOf

/-- A string in double quotes. -/
def basicString : Reader (Option Text) := rule do
  symbol quote
  let chars ← many quotedChar
  symbol quote
  return textOf? chars

/-- A text without the line ends it starts with. -/
def withoutFirstLineEnds (chars : List (Option Char)) : List (Option Char) :=
  chars.dropWhile fun char => char.any isLineEnd

/-- A string in three double quotes, which may hold line ends; a backslash at the end of a line
joins it to what follows the space after it. -/
def longBasicString : Reader (Option Text) := rule do
  symbols [quote, quote, quote]
  let parts ← rule (many (choice [
    List.singleton <$> quotedChar,
    List.map some <$> lineEnds,
    (do
      escape
      discard lineEnds
      space
      return [])]))
  symbols [quote, quote, quote]
  return textOf? (withoutFirstLineEnds parts.flatten)

/-- A string in single quotes. -/
def literalString : Reader (Option Text) := rule do
  symbol apostrophe
  let chars ← many (rule (char fun char => char = '\t' || (' ' ≤ char && char ≠ apostrophe)))
  symbol apostrophe
  return some (textOf chars)

/-- A string in three single quotes, which may hold line ends. -/
def longLiteralString : Reader (Option Text) := rule do
  symbols [apostrophe, apostrophe, apostrophe]
  let parts ← rule (many (do
    notAt (symbols [apostrophe, apostrophe, apostrophe])
    either (List.singleton <$> rule (char fun char => char = '\t' || ' ' ≤ char)) lineEnds))
  symbols [apostrophe, apostrophe, apostrophe]
  return some (textOf (parts.flatten.dropWhile isLineEnd))

/-- A string. -/
def string : Reader (Option Text) :=
  rule (choice [longLiteralString, literalString, longBasicString, basicString])

/-- A key without quotes. -/
def bareKey : Reader (Option Text) := rule do
  let chars ← manyOne (char fun char => within '0' '9' char || within 'A' 'Z' char
    || within 'a' 'z' char || char = '-' || char = '_')
  return some (textOf chars)

/-- A key in double quotes, which is not empty. -/
def quotedKey : Reader (Option Text) := rule do
  symbol quote
  let chars ← manyOne quotedChar
  symbol quote
  return textOf? chars

/-- A key. -/
def key : Reader (Option Text) := rule (either bareKey quotedKey)

/-- A key, an equals sign and a value. -/
def pair (value : Reader Value) : Reader Pair := rule do
  let line ← line
  let key ← key
  blanks
  symbol '='
  blanks
  let value ← value
  return ⟨key, line, value, ← Reader.line⟩

/-- A comma between values. -/
def comma : Reader Unit := rule (symbol ',')

/-- The values of an array. -/
def arrayValues (value : Reader Value) : Reader (List Value) := rule do
  let first ← value
  let rest ← many do
    space
    discard (optional comment)
    space
    comma
    space
    discard (optional comment)
    space
    value
  space
  discard (optional comma)
  space
  discard (optional comment)
  return first :: rest

/-- An array. -/
def array (value : Reader Value) : Reader Value := rule do
  symbol '['
  space
  let values ← optional (arrayValues value)
  space
  symbol ']'
  return .array (values.getD [])

/-- A table in braces. -/
def inlineTable (value : Reader Value) : Reader Value := rule do
  symbol (Char.ofNat 0x7B)
  blanks
  let pairs ← rule (many do
    let pair ← pair value
    discard (optional (rule do
      blanks
      symbol ','
      blanks))
    return pair)
  blanks
  symbol (Char.ofNat 0x7D)
  return .table pairs

/-- A value that is nested at most to a given depth. -/
def value : Nat → Reader Value
  | 0 => fail
  | depth + 1 => fun place =>
    rule (choice [
      (fun _ => .datetime) <$> datetime,
      (fun _ => .float) <$> float,
      (fun digits => .integer (textOf digits)) <$> integer,
      (fun _ => .boolean) <$> boolean,
      .string <$> string,
      array (value depth),
      inlineTable (value depth)]) place

/-- The names of a table. -/
def tableNames : Reader (List (Option Text)) := rule do
  let first ← rule key
  let rest ← many do
    rule do
      blanks
      symbol '.'
      blanks
    rule key
  return first :: rest

/-- A header between brackets of a given number. -/
def header (brackets : Nat) : Reader Header := rule do
  symbols (List.replicate brackets '[')
  blanks
  let names ← tableNames
  blanks
  symbols (List.replicate brackets ']')
  return ⟨1 < brackets, names, ← Reader.line⟩

/-- A header with the pairs right after it, a pair alone, or nothing. -/
def statements (value : Reader Value) : Reader (List Statement) :=
  rule (choice [
    (do
      blanks
      let header ← rule (either (header 1) (header 2))
      blanks
      discard (optional comment)
      let pairs ← many do
        space
        let pair ← pair value
        blanks
        discard (optional comment)
        return pair
      return .header header :: pairs.map .pair),
    (do
      blanks
      let pair ← pair value
      blanks
      discard (optional comment)
      return [.pair pair]),
    (do
      blanks
      discard (optional comment)
      return [])])

/-- A whole document. -/
def document (value : Reader Value) : Reader (List Statement) := rule do
  let first ← statements value
  let rest ← many do
    discard lineEnds
    statements value
  discard (optional lineEnds)
  if ← atEnd then return first ++ rest.flatten else fail

end Grammar

/-- The line on which an offset is. A line ends just before its line feed. -/
def lineAt (chars : List Char) (offset : Nat) : Nat := 1 + (chars.take (offset + 1)).count '\n'

/-- The statements of a document, or the line up to which it makes sense. -/
def statementsOf (document : Text) : Except Nat (List Statement) :=
  let start := Place.start document
  match Grammar.document (Grammar.value (start.ahead.length + 1)) start with
  | .ok (statements, _) => .ok statements
  | .error furthest => .error (lineAt start.ahead furthest)

end LoxLang.Toml
