import LoxLang.Yaml.Cursor

/-!
# Scalars of a YAML stream

A scalar is plain, in single or double quotes, or a block after `|` or `>`. Lines of a plain or
quoted scalar are folded: a line end becomes a space, and empty lines become line ends. The lines of
a block keep their ends, or are folded after `>`.
-/

namespace LoxLang.Yaml

/-- What stands between two words of a scalar: blanks, or line ends. -/
structure Gap where
  blanks : List Char := []
  firstBreak : List Char := []
  laterBreaks : List Char := []
  isBroken : Bool := false
deriving DecidableEq, Repr

/-- What a gap becomes between words: the blanks as they are, a single line end a space, and more
line ends all but the first. -/
def Gap.folded (gap : Gap) : List Char :=
  if gap.isBroken then
    if gap.firstBreak.head? = some '\n' then
      if gap.laterBreaks = [] then [' '] else gap.laterBreaks
    else gap.firstBreak ++ gap.laterBreaks
  else gap.blanks

/-- A gap with the blank or the line end at hand added to it, and the place after that. Blanks at
the start of a line are no part of the gap. -/
def Gap.extend (gap : Gap) (cursor : Cursor) : Gap × Cursor :=
  if cursor.blankAt 0 then
    let blanks := gap.blanks ++ cursor.head?.toList
    (if gap.isBroken then gap else { gap with blanks }, cursor.skip)
  else
    let (chars, next) := cursor.readBreak
    if gap.isBroken then ({ gap with laterBreaks := gap.laterBreaks ++ chars }, next)
    else ({ gap with blanks := [], firstBreak := chars, isBroken := true }, next)

namespace Scalar

/-- The characters that end a word of a plain scalar between brackets or braces. -/
def flowEnds (cursor : Cursor) : Bool :=
  cursor.head?.any fun char =>
    [',', '[', ']', Char.ofNat 0x7B, Char.ofNat 0x7D].contains char
      || (char = '?' && (cursor.holds 1 ' ' || cursor.lineEndsAt 1))

/-- Whether a word of a plain scalar ends here. -/
def plainEnds (inFlow : Bool) (cursor : Cursor) : Bool :=
  cursor.wordEndsAt 0 || (cursor.holds 0 ':' && cursor.wordEndsAt 1) || (inFlow && flowEnds cursor)

/-- A word of a plain scalar, and the place after it. -/
def plainWord (inFlow : Bool) : Nat → Cursor → List Char × Cursor
  | 0, cursor => ([], cursor)
  | budget + 1, cursor =>
    if plainEnds inFlow cursor then ([], cursor)
    else
      let (chars, next) := plainWord inFlow budget cursor.skip
      (cursor.head?.toList ++ chars, next)

/-- The blanks and line ends at hand. A tab before the least column of a line that continues the
scalar is refused. -/
def plainGap (start : Mark) (indent : Int) : Nat → Gap → Cursor → Except Fault (Gap × Cursor)
  | 0, gap, cursor => .ok (gap, cursor)
  | budget + 1, gap, cursor =>
    if cursor.blankAt 0 || cursor.breaksAt 0 then
      if gap.isBroken && cursor.mark.column < indent && cursor.holds 0 '\t' then
        .error (.token start.line cursor.mark.line
          "found a tab character that violates indentation")
      else
        let (gap, cursor) := gap.extend cursor
        plainGap start indent budget gap cursor
    else .ok (gap, cursor)

/-- A plain scalar from its next word on, given the gap before it. The result tells whether the
scalar is followed by a line end. -/
def plainFrom (start : Mark) (inFlow : Bool) (indent : Int) :
    Nat → Gap → Cursor → Except Fault (List Char × Bool × Cursor)
  | 0, gap, cursor => .ok ([], gap.isBroken, cursor)
  | budget + 1, gap, cursor =>
    if cursor.atDocumentIndicator || cursor.holds 0 '#' then .ok ([], gap.isBroken, cursor)
    else
      let (word, next) := plainWord inFlow cursor.ahead.length cursor
      let opening := if word = [] then [] else gap.folded ++ word
      let gap := if word = [] then gap else {}
      if next.blankAt 0 || next.breaksAt 0 then do
        let (gap, next) ← plainGap start indent next.ahead.length gap next
        if !inFlow && next.mark.column < indent then return (opening, gap.isBroken, next)
        let (chars, broken, last) ← plainFrom start inFlow indent budget gap next
        return (opening ++ chars, broken, last)
      else .ok (opening, gap.isBroken, next)

/-- A plain scalar, in a context with the given indentation. -/
def plain (inFlow : Bool) (indent : Int) (cursor : Cursor) :
    Except Fault (List Char × Bool × Cursor) :=
  plainFrom cursor.mark inFlow (indent + 1) (cursor.ahead.length + 1) {} cursor

/-- The single quote. -/
def apostrophe : Char := Char.ofNat 0x27

/-- The double quote. -/
def quote : Char := Char.ofNat 0x22

/-- The backslash. -/
def backslash : Char := Char.ofNat 0x5C

/-- The character that a letter stands for after a backslash. -/
def charOfEscape? (letter : Char) : Option Char :=
  match letter with
  | '0' => some (Char.ofNat 0x00)
  | 'a' => some (Char.ofNat 0x07)
  | 'b' => some (Char.ofNat 0x08)
  | 't' => some '\t'
  | '\t' => some '\t'
  | 'n' => some '\n'
  | 'v' => some (Char.ofNat 0x0B)
  | 'f' => some (Char.ofNat 0x0C)
  | 'r' => some '\r'
  | 'e' => some (Char.ofNat 0x1B)
  | ' ' => some ' '
  | '/' => some '/'
  | 'N' => some nextLine
  | '_' => some (Char.ofNat 0xA0)
  | 'L' => some (Char.ofNat 0x2028)
  | 'P' => some (Char.ofNat 0x2029)
  | _ =>
    if letter = quote || letter = apostrophe || letter = backslash then some letter else none

/-- The number of hexadecimal digits after a letter. -/
def digitsOfEscape? (letter : Char) : Option Nat :=
  match letter with
  | 'x' => some 2
  | 'u' => some 4
  | 'U' => some 8
  | _ => none

/-- The value of a hexadecimal digit. -/
def hexValue? (char : Char) : Option Nat :=
  if char.toNat < 0x80 then Byte.digitValue? char.toNat.toUInt8 else none

/-- The escape at hand, and the place after it. -/
def escape (start : Mark) (cursor : Cursor) : Except Fault (Char × Cursor) :=
  let failed (message : Text) : Except Fault (Char × Cursor) :=
    .error (.token start.line cursor.mark.line message)
  let letter := (cursor.peek? 1).getD quote
  match charOfEscape? letter, digitsOfEscape? letter with
  | some char, _ =>
    if cursor.endsAt 1 then failed "found unknown escape character"
    else .ok (char, cursor.skipMany 2)
  | none, some count =>
    match ((cursor.ahead.drop 2).take count).mapM hexValue? with
    | none => failed "did not find expected hexdecimal number"
    | some digits =>
      let code := digits.foldl (fun code digit => code * 16 + digit) 0
      if digits.length < count then failed "did not find expected hexdecimal number"
      else if code.isValidChar then .ok (Char.ofNat code, cursor.skipMany (2 + count))
      else failed "found invalid Unicode character escape code"
  | none, none => failed "found unknown escape character"

/-- A word of a quoted scalar, and the place after it. The result tells whether the word is followed
by an escaped line end, which joins it to what follows. -/
def quotedWord (single : Bool) (start : Mark) :
    Nat → Cursor → Except Fault (List Char × Bool × Cursor)
  | 0, cursor => .ok ([], false, cursor)
  | budget + 1, cursor => do
    let continued (char : Char) (next : Cursor) : Except Fault (List Char × Bool × Cursor) := do
      let (chars, joined, last) ← quotedWord single start budget next
      return (char :: chars, joined, last)
    if cursor.wordEndsAt 0 then return ([], false, cursor)
    else if single then
      if cursor.holds 0 apostrophe then
        if cursor.holds 1 apostrophe then continued apostrophe (cursor.skipMany 2)
        else return ([], false, cursor)
      else continued (cursor.head?.getD ' ') cursor.skip
    else if cursor.holds 0 quote then return ([], false, cursor)
    else if cursor.holds 0 backslash then
      if cursor.breaksAt 1 then return ([], true, cursor.skip.skipBreak)
      else
        let (char, next) ← escape start cursor
        continued char next
    else continued (cursor.head?.getD ' ') cursor.skip

/-- The blanks and line ends at hand. -/
def quotedGap : Nat → Gap → Cursor → Gap × Cursor
  | 0, gap, cursor => (gap, cursor)
  | budget + 1, gap, cursor =>
    if cursor.blankAt 0 || cursor.breaksAt 0 then
      let (gap, cursor) := gap.extend cursor
      quotedGap budget gap cursor
    else (gap, cursor)

/-- A quoted scalar from its next word on. -/
def quotedFrom (single : Bool) (start : Mark) : Nat → Cursor → Except Fault (List Char × Cursor)
  | 0, cursor => .error (.token start.line cursor.mark.line "found unexpected end of stream")
  | budget + 1, cursor =>
    if cursor.atDocumentIndicator then
      .error (.token start.line cursor.mark.line "found unexpected document indicator")
    else if cursor.endsAt 0 then
      .error (.token start.line cursor.mark.line "found unexpected end of stream")
    else do
      let (word, joined, next) ← quotedWord single start (cursor.ahead.length + 1) cursor
      if next.holds 0 (if single then apostrophe else quote) then return (word, next.skip)
      let (gap, next) := quotedGap next.ahead.length { isBroken := joined } next
      let between := if joined then gap.laterBreaks else gap.folded
      let (chars, last) ← quotedFrom single start budget next
      return (word ++ between ++ chars, last)

/-- A quoted scalar, from its opening quote on. -/
def quoted (single : Bool) (cursor : Cursor) : Except Fault (List Char × Cursor) :=
  quotedFrom single cursor.mark (cursor.ahead.length + 1) cursor.skip

/-- What is done with the line ends at the end of a block. -/
inductive Chomping where
  | strip | clip | keep
deriving DecidableEq, Repr

/-- How a block is read: its first line, whether its lines keep their ends, and the rest of its
header. -/
structure Block where
  start : Mark
  literal : Bool
  chomping : Chomping
  increment : Nat
deriving DecidableEq, Repr

/-- The empty lines at hand, the column of the first line that is not empty or the greatest column
of the blanks before it, and the place there. -/
def blockBreaks (start : Mark) (indent : Nat) :
    Nat → Nat → Cursor → Except Fault (List Char × Nat × Cursor)
  | 0, greatest, cursor => .ok ([], greatest, cursor)
  | budget + 1, greatest, cursor =>
    let room := if indent = 0 then cursor.ahead.length else indent - cursor.mark.column
    let cursor := Cursor.skipWhile (· = ' ') room cursor
    let greatest := max greatest cursor.mark.column
    if (indent = 0 || cursor.mark.column < indent) && cursor.holds 0 '\t' then
      .error (.token start.line cursor.mark.line
        "found a tab character where an indentation space is expected")
    else if cursor.breaksAt 0 then do
      let (chars, next) := cursor.readBreak
      let (more, greatest, last) ← blockBreaks start indent budget greatest next
      return (chars ++ more, greatest, last)
    else .ok ([], greatest, cursor)

/-- The lines of a block, given the line end and the empty lines before them, and whether the line
before them starts with a blank. The result ends with the last line end and the empty lines after
it. -/
def blockLines (block : Block) (indent : Nat) :
    Nat → List Char → List Char → Bool → Cursor →
      Except Fault (List Char × List Char × List Char × Cursor)
  | 0, lineEnd, empty, _, cursor => .ok ([], lineEnd, empty, cursor)
  | budget + 1, lineEnd, empty, afterBlank, cursor =>
    if cursor.mark.column = indent && !cursor.endsAt 0 then do
      let blank := cursor.blankAt 0
      let folds := !block.literal && !afterBlank && !blank && lineEnd.head? = some '\n'
      let between := if folds then (if empty = [] then [' '] else []) else lineEnd
      let line := cursor.ahead.takeWhile fun char => !isBreak char
      let (lineEnd, next) := cursor.skipLine.readBreak
      let (laterEmpty, _, next) ← blockBreaks block.start indent (next.ahead.length + 1) 0 next
      let (chars, lastEnd, lastEmpty, last) ←
        blockLines block indent budget lineEnd laterEmpty blank next
      return (between ++ empty ++ line ++ chars, lastEnd, lastEmpty, last)
    else .ok ([], lineEnd, empty, cursor)

/-- The digit of a block header. -/
def blockIncrement (start : Mark) (cursor : Cursor) : Except Fault (Nat × Cursor) :=
  match cursor.head? with
  | some char =>
    if char = '0' then
      .error (.token start.line cursor.mark.line "found an indentation indicator equal to 0")
    else if char.isDigit then .ok (char.toNat - '0'.toNat, cursor.skip)
    else .ok (0, cursor)
  | none => .ok (0, cursor)

/-- The sign of a block header. -/
def blockChomping (cursor : Cursor) : Chomping × Cursor :=
  if cursor.holds 0 '+' then (.keep, cursor.skip)
  else if cursor.holds 0 '-' then (.strip, cursor.skip)
  else (.clip, cursor)

/-- The header of a block, up to the start of the next line: a sign and a digit in either order, and
perhaps a comment. -/
def blockHeader (cursor : Cursor) : Except Fault (Block × Cursor) := do
  let start := cursor.mark
  let literal := cursor.holds 0 '|'
  let (chomping, next) := blockChomping cursor.skip
  let (increment, next) ← blockIncrement start next
  let (chomping, next) := if chomping = .clip && increment ≠ 0 then blockChomping next
    else (chomping, next)
  let next := Cursor.skipWhile isBlank next.ahead.length next
  let next := if next.holds 0 '#' then next.skipLine else next
  if !next.lineEndsAt 0 then
    throw (.token start.line next.mark.line "did not find expected comment or line break")
  return (⟨start, literal, chomping, increment⟩, next.skipBreak)

/-- A block, in a context with the given indentation. -/
def block (indent : Int) (cursor : Cursor) : Except Fault (List Char × Cursor) := do
  let (block, next) ← blockHeader cursor
  let given := if block.increment = 0 then 0
    else if 0 ≤ indent then (indent + block.increment).toNat else block.increment
  let (empty, greatest, next) ← blockBreaks block.start given (next.ahead.length + 1) 0 next
  let column := if given = 0 then max (max greatest (indent + 1).toNat) 1 else given
  let (chars, lineEnd, empty, last) ←
    blockLines block column (next.ahead.length + 1) [] empty false next
  let ending := match block.chomping with
    | .strip => []
    | .clip => lineEnd
    | .keep => lineEnd ++ empty
  return (chars ++ ending, last)

end Scalar

end LoxLang.Yaml
