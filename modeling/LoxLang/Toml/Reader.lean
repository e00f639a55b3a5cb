import LoxLang.Text.Utf8

/-!
# Reading by ordered choice

A document is read by rules that try their alternatives in order and go back to where they started
when one fails. Two things are kept on the way. The line at hand counts every carriage return and
every line feed that has been passed. The *furthest* offset is the greatest one at which a rule has
ended that had passed anything at all; going back does not undo it, so that it tells how far a
document makes sense when no alternative is left.
-/

namespace LoxLang.Toml

/-- A place in a document. -/
structure Place where
  ahead : List Char
  offset : Nat
  line : Nat
  furthest : Nat
deriving DecidableEq, Repr

/-- A reader of a part of a document. When it fails, only the furthest offset is left. -/
abbrev Reader := StateT Place (Except Nat)

/-- The characters that end a line. -/
def isLineEnd (char : Char) : Bool := char = '\n' || char = '\r'

/-- The place at which a document starts. -/
def Place.start (document : Text) : Place where
  ahead := (Text.Utf8.units document).map fun unit => Char.ofNat unit.code
  offset := 0
  line := 1
  furthest := 0

/-- The place after the character at hand. -/
def Place.after (place : Place) (char : Char) (rest : List Char) : Place :=
  { place with
    ahead := rest
    offset := place.offset + 1
    line := if isLineEnd char then place.line + 1 else place.line }

namespace Reader

variable {α : Type}

/-- Fails. -/
def fail : Reader α := fun place => .error place.furthest

/-- The line at hand. -/
def line : Reader Nat := return (← get).line

/-- Whether the document is at its end. -/
def atEnd : Reader Bool := return (← get).ahead.isEmpty

/-- A character of a class. -/
def char (accepts : Char → Bool) : Reader Char := fun place =>
  match place.ahead with
  | [] => .error place.furthest
  | next :: rest =>
    if accepts next then .ok (next, place.after next rest) else .error place.furthest

/-- A given character. -/
def symbol (wanted : Char) : Reader Unit := discard (char (· = wanted))

/-- Given characters, one after the other. -/
def symbols : List Char → Reader Unit
  | [] => return
  | first :: rest => do
    symbol first
    symbols rest

/-- The first reader, or the second from the same place if the first fails. -/
def either (first second : Reader α) : Reader α := fun place =>
  match first place with
  | .ok result => .ok result
  | .error furthest => second { place with furthest }

/-- The first of some readers that does not fail. -/
def choice : List (Reader α) → Reader α
  | [] => fail
  | reader :: rest => either reader (choice rest)

/-- What a reader reads, if it does not fail. -/
def optional (reader : Reader α) : Reader (Option α) := either (some <$> reader) (pure none)

/-- What a reader reads at most a given number of times, until it fails. -/
def manyWithin (reader : Reader α) : Nat → Reader (List α)
  | 0 => pure []
  | budget + 1 => do
    match ← optional reader with
    | none => return []
    | some first => return first :: (← manyWithin reader budget)

/-- What a reader reads until it fails. The reader passes a character each time, so that there are
no more turns than characters ahead. -/
def many (reader : Reader α) : Reader (List α) := do
  manyWithin reader (← get).ahead.length

/-- What a reader reads until it fails, once at least. -/
def manyOne (reader : Reader α) : Reader (List α) := do
  let first ← reader
  return first :: (← many reader)

/-- Fails where another reader does not; passes nothing. -/
def notAt (reader : Reader α) : Reader Unit := fun place =>
  match reader place with
  | .ok (_, after) => .error after.furthest
  | .error furthest => .ok ((), { place with furthest })

/-- A reader whose end counts for the furthest offset, if it has passed anything. -/
def rule (reader : Reader α) : Reader α := fun place =>
  match reader place with
  | .error furthest => .error furthest
  | .ok (result, after) =>
    if place.offset < after.offset then
      .ok (result, { after with furthest := max after.furthest after.offset })
    else .ok (result, after)

end Reader

end LoxLang.Toml
