import LoxLang.Yaml.Scalar

/-!
# Tokens of a YAML stream

Besides what is written in it, the tokens of a stream show where its nested parts start and end,
which follows from the columns. That something is a key shows only at the colon after it. So the
place of whatever may turn out to be a key is remembered, one on each level of brackets, and when
the colon comes the tokens that open a key are put in at that place. A key stays possible for the
rest of its line and for no more than 1024 characters.
-/

namespace LoxLang.Yaml

/-- What a token can be. -/
inductive TokenKind where
  | streamStart
  | streamEnd
  | directive (isVersion : Bool)
  | documentStart
  | documentEnd
  | blockSequenceStart
  | blockMappingStart
  | blockEnd
  | flowSequenceStart
  | flowSequenceEnd
  | flowMappingStart
  | flowMappingEnd
  | blockEntry
  | flowEntry
  | key
  | value
  | alias (name : Text)
  | anchor (name : Text)
  | tag (name : Text)
  | scalar (text : Text) (isPlain : Bool)
deriving DecidableEq, Repr

/-- A token and the place where it starts. -/
structure Token where
  kind : TokenKind
  start : Mark
deriving DecidableEq, Repr

/-- Something that may turn out to be a key: whether nothing else can stand there, the number of
tokens before it, and its place. -/
structure PossibleKey where
  required : Bool
  number : Nat
  mark : Mark
deriving DecidableEq, Repr

/-- A stream in the middle of being split. The possible keys are those of the levels of brackets,
innermost first. -/
structure Scanner where
  cursor : Cursor
  tokens : Array Token
  indent : Int
  outerIndents : List Int
  keyAllowed : Bool
  keys : List (Option PossibleKey)
  isDone : Bool

namespace Scanner

/-- A stream before its first token. -/
def new (cursor : Cursor) : Scanner where
  cursor := cursor
  tokens := #[⟨.streamStart, cursor.mark⟩]
  indent := -1
  outerIndents := []
  keyAllowed := true
  keys := [none]
  isDone := false

/-- Whether the place is between brackets or braces. -/
def inFlow (scanner : Scanner) : Bool := 1 < scanner.keys.length

/-- The place at hand. -/
def mark (scanner : Scanner) : Mark := scanner.cursor.mark

/-- A fault of the token at hand, in something that starts at the given place. -/
def failed {α : Type} (scanner : Scanner) (context : Mark) (message : Text) : Except Fault α :=
  .error (.token context.line scanner.mark.line message)

/-- Adds a token at the place at hand and passes its characters. -/
def push (scanner : Scanner) (kind : TokenKind) (length : Nat) : Scanner :=
  { scanner with
    tokens := scanner.tokens.push ⟨kind, scanner.mark⟩
    cursor := scanner.cursor.skipMany length }

/-- Puts a token in before the one with a given number. -/
def insert (scanner : Scanner) (number : Nat) (token : Token) : Scanner :=
  { scanner with
    tokens := scanner.tokens.extract 0 number ++ #[token]
      ++ scanner.tokens.extract number scanner.tokens.size }

/-- Ends the nested parts that are to the right of a column. -/
def unroll (scanner : Scanner) (column : Int) : Scanner :=
  if scanner.inFlow then scanner
  else
    let ended := (scanner.indent :: scanner.outerIndents).takeWhile (column < ·)
    match (scanner.indent :: scanner.outerIndents).drop ended.length with
    | indent :: outerIndents =>
      { scanner with
        indent, outerIndents
        tokens := scanner.tokens ++ (ended.map fun _ => ⟨.blockEnd, scanner.mark⟩).toArray }
    | [] => scanner

/-- Starts a nested part at a column, with a token put in at the given number, if the column is to
the right of the part at hand. -/
def roll (scanner : Scanner) (column : Nat) (number : Nat) (kind : TokenKind) (mark : Mark) :
    Scanner :=
  if scanner.inFlow || column ≤ scanner.indent then scanner
  else
    { scanner with
      indent := column
      outerIndents := scanner.indent :: scanner.outerIndents }.insert number ⟨kind, mark⟩

/-- Whether a possible key is still one. -/
def isCurrent (scanner : Scanner) (key : PossibleKey) : Bool :=
  scanner.mark.line ≤ key.mark.line && scanner.mark.index ≤ key.mark.index + 1024

/-- The complaint about something that can only be a key and has no colon after it. -/
def missingColon : Text := "could not find expected ':'"

/-- Gives up the possible key of the level at hand. One that nothing else could be is a fault. -/
def dropKey (scanner : Scanner) : Except Fault Scanner :=
  match scanner.keys with
  | some key :: rest =>
    if key.required then scanner.failed key.mark missingColon
    else .ok { scanner with keys := none :: rest }
  | _ => .ok scanner

/-- Remembers the place at hand as a possible key, where a key is allowed. -/
def saveKey (scanner : Scanner) : Except Fault Scanner :=
  if scanner.keyAllowed then do
    let scanner ← scanner.dropKey
    let required := !scanner.inFlow && scanner.indent = scanner.mark.column
    return { scanner with
      keys := some ⟨required, scanner.tokens.size, scanner.mark⟩ :: scanner.keys.drop 1 }
  else .ok scanner

/-- Sets whether a key is allowed. -/
def allow (scanner : Scanner) (keyAllowed : Bool) : Scanner := { scanner with keyAllowed }

/-- Passes spaces, comments and line ends. Tabs are passed where no key is allowed. -/
def skipSpace : Nat → Scanner → Scanner
  | 0, scanner => scanner
  | budget + 1, scanner =>
    let tabs := scanner.inFlow || !scanner.keyAllowed
    let cursor := scanner.cursor
    let cursor := if cursor.mark.column = 0 && cursor.holds 0 (Char.ofNat 0xFEFF) then cursor.skip
      else cursor
    let cursor := Cursor.skipWhile (fun char => char = ' ' || (tabs && char = '\t'))
      cursor.ahead.length cursor
    let cursor := if cursor.holds 0 '#' then cursor.skipLine else cursor
    if cursor.breaksAt 0 then
      skipSpace budget { scanner with
        cursor := cursor.skipBreak
        keyAllowed := scanner.keyAllowed || !scanner.inFlow }
    else { scanner with cursor }

/-- The end of the stream, which is on a line of its own. -/
def fetchStreamEnd (scanner : Scanner) : Except Fault Scanner := do
  let mark := scanner.mark
  let mark := if mark.column = 0 then mark else { mark with line := mark.line + 1, column := 0 }
  let scanner := { scanner with cursor := { scanner.cursor with mark } }
  let scanner ← (scanner.unroll (-1)).dropKey
  return { (scanner.allow false).push .streamEnd 0 with isDone := true }

/-- The start or the end of a document. -/
def fetchDocumentIndicator (scanner : Scanner) (kind : TokenKind) : Except Fault Scanner := do
  let scanner ← (scanner.unroll (-1)).dropKey
  return (scanner.allow false).push kind 3

/-- A line that is about the stream: the version of the format, or a shorthand for tags. -/
def fetchDirective (scanner : Scanner) : Except Fault Scanner := do
  let scanner ← (scanner.unroll (-1)).dropKey
  let scanner := scanner.allow false
  let name := (scanner.cursor.ahead.drop 1).takeWhile Char.isAlphanum
  let isVersion := name = "YAML".toList
  if !isVersion && name ≠ "TAG".toList then
    scanner.failed scanner.mark "found unknown directive name"
  else
    let pushed := scanner.push (.directive isVersion) 0
    return { pushed with cursor := pushed.cursor.skipLine }

/-- A bracket or brace that opens. -/
def fetchFlowStart (scanner : Scanner) (kind : TokenKind) : Except Fault Scanner := do
  let scanner ← scanner.saveKey
  return { (scanner.allow true).push kind 1 with keys := none :: scanner.keys }

/-- A bracket or brace that closes. -/
def fetchFlowEnd (scanner : Scanner) (kind : TokenKind) : Except Fault Scanner := do
  let scanner ← scanner.dropKey
  let keys := if scanner.inFlow then scanner.keys.drop 1 else scanner.keys
  return { (scanner.allow false).push kind 1 with keys }

/-- A comma between brackets or braces. -/
def fetchFlowEntry (scanner : Scanner) : Except Fault Scanner := do
  let scanner ← scanner.dropKey
  return (scanner.allow true).push .flowEntry 1

/-- The dash of an entry. -/
def fetchBlockEntry (scanner : Scanner) : Except Fault Scanner := do
  if !scanner.inFlow && !scanner.keyAllowed then
    scanner.failed scanner.mark "block sequence entries are not allowed in this context"
  else
    let scanner := scanner.roll scanner.mark.column scanner.tokens.size .blockSequenceStart
      scanner.mark
    let scanner ← scanner.dropKey
    return (scanner.allow true).push .blockEntry 1

/-- The question mark before a key. -/
def fetchKey (scanner : Scanner) : Except Fault Scanner := do
  if !scanner.inFlow && !scanner.keyAllowed then
    scanner.failed scanner.mark "mapping keys are not allowed in this context"
  else
    let scanner := scanner.roll scanner.mark.column scanner.tokens.size .blockMappingStart
      scanner.mark
    let scanner ← scanner.dropKey
    return (scanner.allow !scanner.inFlow).push .key 1

/-- Gives up a possible key of the level at hand that has become too old. -/
def dropOldKey (scanner : Scanner) : Except Fault Scanner :=
  match scanner.keys with
  | some key :: _ => if scanner.isCurrent key then .ok scanner else scanner.dropKey
  | _ => .ok scanner

/-- The colon after a key. -/
def fetchValue (scanner : Scanner) : Except Fault Scanner := do
  let scanner ← scanner.dropOldKey
  match scanner.keys with
  | some key :: rest =>
    let scanner := { scanner with keys := none :: rest }.insert key.number ⟨.key, key.mark⟩
    let scanner := scanner.roll key.mark.column key.number .blockMappingStart key.mark
    return (scanner.allow false).push .value 1
  | _ =>
    if scanner.inFlow then return (scanner.allow false).push .value 1
    else if scanner.keyAllowed then
      let scanner := scanner.roll scanner.mark.column scanner.tokens.size .blockMappingStart
        scanner.mark
      return (scanner.allow true).push .value 1
    else scanner.failed scanner.mark "mapping values are not allowed in this context"

/-- The text of characters. -/
def textOf (chars : List Char) : Text := chars.flatMap String.utf8EncodeChar

/-- The characters of names. -/
def isNameChar (char : Char) : Bool := char.isAlphanum || char = '_' || char = '-'

/-- An alias or an anchor. -/
def fetchName (scanner : Scanner) (context : Text) (kind : Text → TokenKind) :
    Except Fault Scanner := do
  let scanner ← scanner.saveKey
  let name := (scanner.cursor.ahead.drop 1).takeWhile isNameChar
  let after := scanner.cursor.skipMany (1 + name.length)
  let endings := ['?', ':', ',', ']', Char.ofNat 0x7D, '%', '@', Char.ofNat 0x60]
  if name = [] || !(after.wordEndsAt 0 || after.head?.any endings.contains) then
    scanner.failed scanner.mark context
  else return (scanner.allow false).push (kind (textOf name)) (1 + name.length)

/-- A tag. -/
def fetchTag (scanner : Scanner) : Except Fault Scanner := do
  let scanner ← scanner.saveKey
  let name := scanner.cursor.ahead.takeWhile fun char =>
    !isBlank char && !isBreak char && !(scanner.inFlow && char = ',')
  return (scanner.allow false).push (.tag (textOf name)) name.length

/-- A block. -/
def fetchBlock (scanner : Scanner) : Except Fault Scanner := do
  let scanner ← scanner.dropKey
  let (chars, cursor) ← Scalar.block scanner.indent scanner.cursor
  return { (scanner.allow true).push (.scalar (textOf chars) false) 0 with cursor }

/-- A scalar in quotes. -/
def fetchQuoted (scanner : Scanner) (single : Bool) : Except Fault Scanner := do
  let scanner ← scanner.saveKey
  let (chars, cursor) ← Scalar.quoted single scanner.cursor
  return { (scanner.allow false).push (.scalar (textOf chars) false) 0 with cursor }

/-- A plain scalar. A line end after it allows a key again. -/
def fetchPlain (scanner : Scanner) : Except Fault Scanner := do
  let scanner ← scanner.saveKey
  let (chars, broken, cursor) ← Scalar.plain scanner.inFlow scanner.indent scanner.cursor
  return { (scanner.allow broken).push (.scalar (textOf chars) true) 0 with cursor }

/-- The characters with which no plain scalar starts. -/
def indicators : List Char :=
  ['-', '?', ':', ',', '[', ']', Char.ofNat 0x7B, Char.ofNat 0x7D, '#', '&', '*', '!', '|', '>',
   Scalar.apostrophe, Scalar.quote, '%', '@', Char.ofNat 0x60]

/-- Whether a plain scalar starts here. A dash, a question mark or a colon starts one when it is not
followed by a space. -/
def startsPlain (scanner : Scanner) : Bool :=
  match scanner.cursor.head? with
  | none => false
  | some char =>
    !(isBlank char || isBreak char || indicators.contains char)
      || (char = '-' && !scanner.cursor.blankAt 1)
      || (!scanner.inFlow && (char = '?' || char = ':') && !scanner.cursor.wordEndsAt 1)

/-- The next token, after spaces and comments. -/
def fetch (scanner : Scanner) : Except Fault Scanner :=
  let scanner := skipSpace (scanner.cursor.ahead.length + 1) scanner
  let scanner := scanner.unroll scanner.mark.column
  let cursor := scanner.cursor
  match cursor.head? with
  | none => scanner.fetchStreamEnd
  | some char =>
    if scanner.mark.column = 0 && char = '%' then scanner.fetchDirective
    else if cursor.atIndicator '-' then scanner.fetchDocumentIndicator .documentStart
    else if cursor.atIndicator '.' then scanner.fetchDocumentIndicator .documentEnd
    else if char = '[' then scanner.fetchFlowStart .flowSequenceStart
    else if char = Char.ofNat 0x7B then scanner.fetchFlowStart .flowMappingStart
    else if char = ']' then scanner.fetchFlowEnd .flowSequenceEnd
    else if char = Char.ofNat 0x7D then scanner.fetchFlowEnd .flowMappingEnd
    else if char = ',' then scanner.fetchFlowEntry
    else if char = '-' && cursor.wordEndsAt 1 then scanner.fetchBlockEntry
    else if char = '?' && (scanner.inFlow || cursor.wordEndsAt 1) then scanner.fetchKey
    else if char = ':' && (scanner.inFlow || cursor.wordEndsAt 1) then scanner.fetchValue
    else if char = '*' then
      scanner.fetchName "did not find expected alphabetic or numeric character" .alias
    else if char = '&' then
      scanner.fetchName "did not find expected alphabetic or numeric character" .anchor
    else if char = '!' then scanner.fetchTag
    else if (char = '|' || char = '>') && !scanner.inFlow then scanner.fetchBlock
    else if char = Scalar.apostrophe then scanner.fetchQuoted true
    else if char = Scalar.quote then scanner.fetchQuoted false
    else if scanner.startsPlain then scanner.fetchPlain
    else scanner.failed scanner.mark "found character that cannot start any token"

/-- The number of tokens that are certain before a fault: the last two of them, and a possible key
with what follows it, are still open. -/
def certain (scanner : Scanner) : Nat :=
  let pending := scanner.keys.filterMap fun key =>
    key.bind fun key => if scanner.isCurrent key then some key.number else none
  pending.foldl min (scanner.tokens.size - 2)

/-- A key that is still missing its colon where nothing but a key can stand. -/
def overdue? (scanner : Scanner) : Option PossibleKey :=
  scanner.keys.findSome? fun key =>
    key.bind fun key => if key.required && !scanner.isCurrent key then some key else none

/-- The tokens up to the end of the stream or a fault. -/
def fetchAll : Nat → Scanner → List Token × Option Fault
  | 0, scanner => (scanner.tokens.toList, none)
  | budget + 1, scanner =>
    match scanner.overdue? with
    | some key =>
      (scanner.tokens.toList.take key.number,
       some (.token key.mark.line scanner.mark.line missingColon))
    | none =>
      if scanner.isDone then (scanner.tokens.toList, none)
      else match scanner.fetch with
        | .ok scanner => fetchAll budget scanner
        | .error fault => (scanner.tokens.toList.take scanner.certain, some fault)

end Scanner

/-- The tokens of a stream up to its end or a fault. Each token but the last takes a character. -/
def tokens (cursor : Cursor) : List Token × Option Fault :=
  Scanner.fetchAll (cursor.ahead.length + 3) (Scanner.new cursor)

end LoxLang.Yaml
