import LoxLang.Text.Utf8

/-!
# Places in a YAML stream

A cursor is a place in a stream of characters, with the line and the column it is at, both counted
from zero. A line ends with a carriage return, a line feed, the two together, a next-line character
or one of the two separators.

Faults of a stream are found while it is split into tokens or while the tokens are put together.
Both know the line of the trouble and often the line of what it is in. The line that is shown is
the latter unless it is the first line, or else the former unless it is the first line; a fault of
the tokens shows it counted from one, and a fault of their order counted from zero.
-/

namespace LoxLang.Yaml

/-- A place in a stream: the number of characters, of lines, and of characters in the line before
it. -/
structure Mark where
  index : Nat := 0
  line : Nat := 0
  column : Nat := 0
deriving DecidableEq, Repr

/-- A fault of a stream. -/
inductive Fault where
  | unreadable (message : Text)
  | token (context problem : Nat) (message : Text)
  | order (context problem : Nat) (message : Text)
deriving DecidableEq, Repr

/-- The line that is shown with a fault, if any: the first of two lines that is not zero. -/
def Fault.shownLine (context problem offset : Nat) : Text :=
  let line := if context = 0 then problem else context
  if line = 0 then [] else "line " ++ Text.ofNat (line + offset) ++ ": "

/-- The wording of a fault. -/
def Fault.message : Fault → Text
  | unreadable message => message
  | token context problem message => shownLine context problem 1 ++ message
  | order context problem message => shownLine context problem 0 ++ message

/-- The character that ends a line in some old texts. -/
def nextLine : Char := Char.ofNat 0x85

/-- Line and paragraph separators. -/
def isSeparator (char : Char) : Bool := char = Char.ofNat 0x2028 || char = Char.ofNat 0x2029

/-- The characters that end a line. -/
def isBreak (char : Char) : Bool :=
  char = '\n' || char = '\r' || char = nextLine || isSeparator char

/-- Spaces and tabs. -/
def isBlank (char : Char) : Bool := char = ' ' || char = '\t'

/-- A place in a stream and the characters from there on. -/
structure Cursor where
  ahead : List Char
  mark : Mark := {}
deriving DecidableEq, Repr

namespace Cursor

/-- The character at hand. -/
def head? (cursor : Cursor) : Option Char := cursor.ahead.head?

/-- The character at some distance. -/
def peek? (cursor : Cursor) (distance : Nat) : Option Char := cursor.ahead[distance]?

/-- Whether the character at some distance is a given one. -/
def holds (cursor : Cursor) (distance : Nat) (char : Char) : Bool :=
  cursor.peek? distance = some char

/-- Whether the stream ends at some distance. -/
def endsAt (cursor : Cursor) (distance : Nat) : Bool := (cursor.peek? distance).isNone

/-- Whether the character at some distance ends a line. -/
def breaksAt (cursor : Cursor) (distance : Nat) : Bool := (cursor.peek? distance).any isBreak

/-- Whether the character at some distance is a space or a tab. -/
def blankAt (cursor : Cursor) (distance : Nat) : Bool := (cursor.peek? distance).any isBlank

/-- Whether a line or the stream ends at some distance. -/
def lineEndsAt (cursor : Cursor) (distance : Nat) : Bool := (cursor.peek? distance).all isBreak

/-- Whether a word ends at some distance: by a space, a tab, or the end of a line. -/
def wordEndsAt (cursor : Cursor) (distance : Nat) : Bool :=
  (cursor.peek? distance).all fun char => isBlank char || isBreak char

/-- The place after the character at hand, in the same line. -/
def skip (cursor : Cursor) : Cursor where
  ahead := cursor.ahead.tail
  mark := { cursor.mark with index := cursor.mark.index + 1, column := cursor.mark.column + 1 }

/-- The place after a number of characters in the same line. -/
def skipMany (cursor : Cursor) : Nat → Cursor
  | 0 => cursor
  | count + 1 => cursor.skip.skipMany count

/-- The place after the end of the line at hand, and the text that the end of the line stands for.
-/
def readBreak (cursor : Cursor) : List Char × Cursor :=
  let next (count : Nat) : Cursor :=
    ⟨cursor.ahead.drop count, ⟨cursor.mark.index + count, cursor.mark.line + 1, 0⟩⟩
  match cursor.ahead with
  | '\r' :: '\n' :: _ => (['\n'], next 2)
  | char :: _ => if isSeparator char then ([char], next 1) else (['\n'], next 1)
  | [] => ([], cursor)

/-- The place after the end of the line at hand. -/
def skipBreak (cursor : Cursor) : Cursor := cursor.readBreak.2

/-- Passes characters in the line at hand while they are of a class, a given number at most. -/
def skipWhile (accepts : Char → Bool) : Nat → Cursor → Cursor
  | 0, cursor => cursor
  | budget + 1, cursor =>
    if cursor.head?.any accepts then skipWhile accepts budget cursor.skip else cursor

/-- Passes the rest of the line at hand. -/
def skipLine (cursor : Cursor) : Cursor :=
  skipWhile (fun char => !isBreak char) cursor.ahead.length cursor

/-- Whether three characters that start or end a document stand at the start of the line. -/
def atIndicator (cursor : Cursor) (char : Char) : Bool :=
  cursor.mark.column = 0 && cursor.holds 0 char && cursor.holds 1 char && cursor.holds 2 char
    && cursor.wordEndsAt 3

/-- Whether a document starts or ends here. -/
def atDocumentIndicator (cursor : Cursor) : Bool := cursor.atIndicator '-' || cursor.atIndicator '.'

end Cursor

/-- The characters that a stream can hold. -/
def isAllowed (code : Nat) : Bool :=
  code = 0x09 || code = 0x0A || code = 0x0D || (0x20 ≤ code && code ≤ 0x7E) || code = 0x85
    || (0xA0 ≤ code && code ≤ 0xD7FF) || (0xE000 ≤ code && code ≤ 0xFFFD)
    || (0x10000 ≤ code && code ≤ 0x10FFFF)

/-- The number of bytes that a character takes whose first byte is given, or zero for a byte that is
no first byte. -/
def widthOf (first : UInt8) : Nat :=
  if first < 0x80 then 1
  else if first < 0xC0 then 0
  else if first < 0xE0 then 2
  else if first < 0xF0 then 3
  else if first < 0xF8 then 4
  else 0

/-- The complaint about bytes that are no character. -/
def strayMessage (first : UInt8) (rest : Text) : Text :=
  let width := widthOf first
  if width = 0 then "invalid leading UTF-8 octet"
  else if rest.length + 1 < width then "incomplete UTF-8 octet sequence"
  else if !(rest.take (width - 1)).all Text.Utf8.isTail then "invalid trailing UTF-8 octet"
  else
    let extended (code : Nat) (byte : UInt8) : Nat := code * 0x40 + Text.Utf8.tailBits byte
    let code := (rest.take (width - 1)).foldl extended (first.toNat % Nat.pow 2 (7 - width))
    let least := if width = 2 then 0x80 else if width = 3 then 0x800 else 0x10000
    if code < least then "invalid length of a UTF-8 sequence" else "invalid Unicode character"

/-- The characters of a text after some bytes that belong to an earlier character. -/
def charsAfter : Nat → Text → Except Fault (List Char)
  | _, [] => .ok []
  | skipped + 1, _ :: rest => charsAfter skipped rest
  | 0, first :: rest =>
    match Text.Utf8.decode? first rest with
    | none => .error (.unreadable (strayMessage first rest))
    | some (code, extra) =>
      if isAllowed code then return Char.ofNat code :: (← charsAfter extra rest)
      else .error (.unreadable "control characters are not allowed")

/-- The mark that a text in UTF-8 can start with. -/
def byteOrderMark : Text := [0xEF, 0xBB, 0xBF]

/-- The cursor at the start of a text. -/
def Cursor.start (text : Text) : Except Fault Cursor := do
  let text := (Text.after? byteOrderMark text).getD text
  return { ahead := ← charsAfter 0 text }

end LoxLang.Yaml
