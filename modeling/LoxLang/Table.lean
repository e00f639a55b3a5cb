import LoxLang.Text.Width

/-!
# Tables

A table has a header and rows of cells. The words of a cell are set in lines of at most thirty
columns, or more when one word is wider, such that the lines come out even: of all ways to break
the words into lines, the one with the least cost is taken. The cost of a line is the square of
what is missing in it, and more if it is too long; the last line costs nothing when the words left
fit on it.

A column is as wide as its widest line. Header cells are centred, numbers are set to the right, and
all else to the left.
-/

namespace LoxLang.Table

/-- A way to set the words from some word on: what it costs, the lines, and the columns that all the
words would take on one line. -/
structure Layout where
  cost : Nat
  lines : List Text
  length : Nat
deriving DecidableEq, Repr

/-- A word and its columns. -/
structure Word where
  text : Text
  width : Nat
deriving DecidableEq, Repr

/-- The word of a text. -/
def Word.ofText (text : Text) : Word := ⟨text, text.width⟩

/-- Words on one line. -/
def lineOf (words : List Word) : Text := Text.join [Byte.space] (words.map (·.text))

/-- What a line costs that is too long. -/
def penalty : Nat := 100000

/-- The cost of a line that is not the last. -/
def lineCost (limit length : Nat) : Nat :=
  if length ≤ limit then (limit - length) * (limit - length)
  else (length - limit) * (length - limit) + penalty

/-- A place for the first break: its cost, the number of words before it, and the lines after it. -/
structure Break where
  cost : Nat
  count : Nat
  lines : List Text
deriving DecidableEq, Repr

/-- The cheapest break, and the earliest of equal ones, given the length and the number of words of
the first line so far, the words that could be added to it, and the layouts from each of these on. A
line that is too long only becomes more expensive, so the search ends when it costs too much. -/
def cheapest (limit length count : Nat) (best : Break) : List Word → List Layout → Break
  | word :: words, layout :: layouts =>
    let line := lineCost limit length
    if limit < length && best.cost ≤ line then best
    else
      let cost := line + layout.cost
      let best := if cost < best.cost then ⟨cost, count, layout.lines⟩ else best
      cheapest limit (length + 1 + word.width) (count + 1) best words layouts
  | _, _ => best

/-- A cost above all that are taken. -/
def costLimit : Nat := Nat.pow 2 31 - 1

/-- The layouts from each word on. -/
def layouts (limit : Nat) : List Word → List Layout
  | [] => []
  | word :: words =>
    let later := layouts limit words
    let length := match later with
      | [] => word.width
      | next :: _ => word.width + 1 + next.length
    if length ≤ limit then ⟨0, [lineOf (word :: words)], length⟩ :: later
    else
      let whole : Break := ⟨costLimit, words.length + 1, []⟩
      let first := cheapest limit word.width 1 whole words later
      let lines := lineOf ((word :: words).take first.count) :: first.lines
      ⟨first.cost, lines, length⟩ :: later

/-- The lines of words. -/
def wrap (limit : Nat) (words : List Word) : List Text :=
  match layouts limit words with
  | layout :: _ => layout.lines
  | [] => []

/-- The greatest of some numbers. -/
def greatest (numbers : List Nat) : Nat := numbers.foldl max 0

/-- The columns that a line has at most, unless one word is wider. -/
def widestLine : Nat := 30

/-- A cell that has been set: its lines, and the columns it takes. -/
structure Cell where
  lines : List Text
  width : Nat
deriving DecidableEq, Repr

/-- Sets a cell. Its own lines only bound the columns; its words are set anew. -/
def Cell.ofText (text : Text) : Cell :=
  let given := Text.splitOn Byte.newline text
  let columns := min widestLine (greatest (given.map Text.displayWidth))
  let words := (Text.splitOn Byte.space (Text.join [Byte.space] given)).map Word.ofText
  let lines := wrap (max columns (greatest (words.map (·.width)))) words
  ⟨lines, max columns (greatest (lines.map Text.displayWidth))⟩

/-- The characters that count as space around a number. -/
def isSpace (code : Nat) : Bool :=
  (0x09 ≤ code && code ≤ 0x0D) || (0x2000 ≤ code && code ≤ 0x200A)
    || [0x20, 0x85, 0xA0, 0x1680, 0x2028, 0x2029, 0x202F, 0x205F, 0x3000].contains code

/-- Whether a unit counts as space. -/
def isSpaceUnit : Text.Utf8.Unit → Bool
  | .char code => isSpace code
  | .stray _ => false

/-- A text without the space around it. -/
def trimmed (text : Text) : Text :=
  let start := (Text.Utf8.units text).dropWhile isSpaceUnit
  ((start.reverse.dropWhile isSpaceUnit).reverse).flatMap (·.bytes)

/-- What follows the groups of three digits after commas. -/
def afterGroups (text : Text) : Text :=
  match text with
  | 0x2C :: first :: second :: third :: rest =>
    if Byte.isDigit first && Byte.isDigit second && Byte.isDigit third then afterGroups rest
    else text
  | _ => text

/-- Whether a text is empty, or a dot and digits. -/
def isFraction : Text → Bool
  | [] => true
  | first :: digits => first = Byte.dot && digits ≠ [] && digits.all Byte.isDigit

/-- Whether a text is a number: digits, perhaps in groups of three, perhaps with a minus sign before
and a fraction after them. -/
def isNumeral (text : Text) : Bool :=
  let text := (Text.after? ("-") text).getD text
  let digits := text.takeWhile Byte.isDigit
  let rest := text.dropWhile Byte.isDigit
  digits ≠ [] && (isFraction rest || (digits.length ≤ 3 && isFraction (afterGroups rest)))

/-- Spaces. -/
def gap (columns : Nat) : Text := List.replicate columns Byte.space

/-- A text in the middle of a column. -/
def centred (columns : Nat) (text : Text) : Text :=
  let free := columns - text.displayWidth
  gap (free / 2) ++ text ++ gap (free - free / 2)

/-- A text in a column: on the right if it is a number, or else on the left. -/
def aligned (columns : Nat) (text : Text) : Text :=
  let free := columns - text.displayWidth
  if isNumeral (trimmed text) then gap free ++ text else text ++ gap free

/-- A line of the header, as it is written piece by piece. -/
def headerPieces (widths : List Nat) (texts : List Text) : List Text :=
  let cells := (widths.zip texts).map fun (columns, text) => centred columns text
  let last := cells.length - 1
  let piece (cell : Text) (index : Nat) : Text :=
    " " ++ cell ++ (if index = last then "  " else " |")
  [Byte.space] :: (cells.zipIdx.map fun (cell, index) => piece cell index) ++ [[Byte.newline]]

/-- The rule under the header, as it is written piece by piece. -/
def rulePieces (widths : List Nat) : List Text :=
  let last := widths.length - 1
  let dashes (count : Nat) : Text := List.replicate count 0x2D
  let piece (columns index : Nat) : Text :=
    dashes (columns + 2) ++ (if index = last then "-" else "+")
  dashes 1 :: (widths.zipIdx.map fun (columns, index) => piece columns index) ++ [[Byte.newline]]

/-- What stands for a line that a cell does not have. -/
def missingLine : Text := "  "

/-- One line of a row, as it is written piece by piece. -/
def linePieces (widths : List Nat) (cells : List Cell) (index : Nat) : List Text :=
  let pieces (columns : Nat) (cell : Cell) (column : Nat) : List Text :=
    [if column = 0 then " " else "|", " ",
     aligned columns ((cell.lines[index]?).getD missingLine), " "]
  ((widths.zip cells).zipIdx.flatMap fun ((columns, cell), column) => pieces columns cell column)
    ++ [[Byte.space], [Byte.newline]]

/-- A row, as it is written piece by piece. -/
def rowPieces (widths : List Nat) (cells : List Cell) : List Text :=
  let height := greatest (cells.map (·.lines.length))
  (List.range height).flatMap (linePieces widths cells)

/-- A table, as it is written piece by piece. -/
def pieces (header : List Text) (rows : List (List Text)) : List Text :=
  let rows := rows.map (·.map Cell.ofText)
  let widths := header.zipIdx.map fun (text, column) =>
    greatest ((Cell.ofText text).width :: rows.filterMap fun cells => cells[column]?.map (·.width))
  headerPieces widths header ++ rulePieces widths ++ rows.flatMap (rowPieces widths)

end LoxLang.Table
