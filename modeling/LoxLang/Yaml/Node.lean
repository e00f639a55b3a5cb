import LoxLang.Yaml.Token

/-!
# Nodes of a YAML document

The tokens of a stream are put together to nodes: scalars, sequences and mappings. Only the first
document of a stream is read. An alias stands for the node that has its anchor.
-/

namespace LoxLang.Yaml

/-- A node with the line it starts on, counted from one, and its tag if one is written. A scalar
that is plain can mean something else than its text. -/
inductive Node where
  | scalar (line : Nat) (tag : Option Text) (text : Text) (isPlain : Bool)
  | sequence (line : Nat) (nodes : List Node)
  | mapping (line : Nat) (pairs : List (Node × Node))

namespace Node

/-- The line of a node. -/
def line : Node → Nat
  | scalar line _ _ _ | sequence line _ | mapping line _ => line

/-- The scalar that stands for nothing. -/
def missing (mark : Mark) : Node := scalar (mark.line + 1) none [] true

/-- The short form of a tag; the exclamation mark alone says nothing. -/
def shortTag? (tag : Text) : Option Text :=
  match Text.after? "!<tag:yaml.org,2002:" tag with
  | some name => some ("!!" ++ name.takeWhile (· ≠ 0x3E))
  | none => if tag = ("!" : Text) then none else some tag

/-- The node with a written tag, which matters only for a scalar. -/
def tagged (node : Node) (tag : Option Text) : Node :=
  match node with
  | scalar line none text isPlain => scalar line (tag.bind shortTag?) text isPlain
  | _ => node

end Node

/-- Tokens in the middle of being put together, what is wrong after the last of them, and the nodes
that have an anchor. -/
structure Composer where
  tokens : List Token
  fault : Option Fault
  anchors : List (Text × Node)

namespace Composer

/-- A step of putting tokens together. -/
abbrev Step := StateT Composer (Except Fault)

/-- The token at hand. -/
def peek : Step Token := do
  let composer ← get
  match composer.tokens with
  | token :: _ => return token
  | [] =>
    match composer.fault with
    | some fault => throw fault
    | none => return ⟨.streamEnd, {}⟩

/-- Passes the token at hand. -/
def advance : Step Unit := modify fun composer => { composer with tokens := composer.tokens.tail }

/-- Whether the token at hand is of one of some kinds; another one is looked for when there is
none. -/
def isAt (kinds : List TokenKind) : Step Bool := return kinds.contains (← peek).kind

/-- Passes the token at hand if it is of a kind, and tells whether it is. -/
def accept (kind : TokenKind) : Step Bool := do
  if (← peek).kind = kind then
    advance
    return true
  else return false

/-- A fault of the order of tokens, in something that starts at the given place. -/
def failed {α : Type} (context : Mark) (message : Text) : Step α := do
  throw (.order context.line (← peek).start.line message)

/-- The anchor and the tag before a node, in either order. -/
def properties : Nat → Step (Option Text × Option Text)
  | 0 => return (none, none)
  | budget + 1 => do
    match (← peek).kind with
    | .anchor name =>
      advance
      let (_, tag) ← properties budget
      return (some name, tag)
    | .tag name =>
      advance
      let (anchor, _) ← properties budget
      return (anchor, some name)
    | _ => return (none, none)

/-- A node, or the missing one where the token at hand is of one of some kinds. -/
def unlessAt (kinds : List TokenKind) (node : Step Node) : Step Node := do
  if ← isAt kinds then return .missing (← peek).start else node

/-- The entries of a sequence of dashes, up to the token that ends it. -/
def blockEntries (start : Mark) (node : Step Node) : Nat → Step (List Node)
  | 0 => return []
  | budget + 1 => do
    if ← accept .blockEntry then
      let first ← unlessAt [.blockEntry, .blockEnd] node
      return first :: (← blockEntries start node budget)
    else if ← accept .blockEnd then return []
    else failed start "did not find expected '-' indicator"

/-- The entries of a sequence of dashes in the column of the key that they belong to. -/
def levelEntries (node : Step Node) : Nat → Step (List Node)
  | 0 => return []
  | budget + 1 => do
    if ← accept .blockEntry then
      let first ← unlessAt [.blockEntry, .key, .value, .blockEnd] node
      return first :: (← levelEntries node budget)
    else return []

/-- The value after a key. -/
def valueAfter (ends : List TokenKind) (node : Step Node) : Step Node := do
  if ← accept .value then unlessAt ends node else return .missing (← peek).start

/-- The pairs of a mapping, up to the token that ends it. -/
def blockPairs (start : Mark) (node : Step Node) : Nat → Step (List (Node × Node))
  | 0 => return []
  | budget + 1 => do
    let ends : List TokenKind := [.key, .value, .blockEnd]
    if ← accept .key then
      let key ← unlessAt ends node
      let value ← valueAfter ends node
      return (key, value) :: (← blockPairs start node budget)
    else if ← accept .blockEnd then return []
    else failed start "did not find expected key"

/-- A pair without braces in a sequence between brackets. -/
def singlePair (node : Step Node) : Step Node := do
  let mark := (← peek).start
  advance
  let key ← unlessAt [.value, .flowEntry, .flowSequenceEnd] node
  let value ← valueAfter [.flowEntry, .flowSequenceEnd] node
  return .mapping (mark.line + 1) [(key, value)]

/-- The nodes between brackets. -/
def flowEntries (start : Mark) (node : Step Node) (isFirst : Bool) : Nat → Step (List Node)
  | 0 => return []
  | budget + 1 => do
    if ← accept .flowSequenceEnd then return []
    if !isFirst then
      if !(← accept .flowEntry) then failed start "did not find expected ',' or ']'"
      if ← accept .flowSequenceEnd then return []
    let first ← if ← isAt [.key] then singlePair node else node
    return first :: (← flowEntries start node false budget)

/-- The pairs between braces. A key can stand without a value. -/
def flowPairs (start : Mark) (node : Step Node) (isFirst : Bool) :
    Nat → Step (List (Node × Node))
  | 0 => return []
  | budget + 1 => do
    if ← accept .flowMappingEnd then return []
    if !isFirst then
      if !(← accept .flowEntry) then
        failed start ("did not find expected ',' or '\x7d'" : Text)
      if ← accept .flowMappingEnd then return []
    let pair ← if ← accept .key then do
        let key ← unlessAt [.value, .flowEntry, .flowMappingEnd] node
        pure (key, ← valueAfter [.flowEntry, .flowMappingEnd] node)
      else do
        let key ← node
        pure (key, Node.missing (← peek).start)
    return pair :: (← flowPairs start node false budget)

/-- The number of tokens left, and one more. -/
def room : Step Nat := return (← get).tokens.length + 1

/-- What the token at hand starts, if it can start a node, given how the nodes in it are read. -/
def content (nested : Bool → Bool → Step Node) (inBlock afterKey : Bool) (start : Mark) :
    Step (Option Node) := do
  let token ← peek
  let line := start.line + 1
  match token.kind with
  | .alias name =>
    advance
    match (← get).anchors.lookup name with
    | some node => return some node
    | none => throw (.unreadable ("unknown anchor '" ++ name ++ "' referenced"))
  | .scalar text isPlain =>
    advance
    return some (.scalar line none text isPlain)
  | .flowSequenceStart =>
    advance
    return some (.sequence line (← flowEntries token.start (nested false false) true (← room)))
  | .flowMappingStart =>
    advance
    return some (.mapping line (← flowPairs token.start (nested false false) true (← room)))
  | .blockEntry =>
    if afterKey then
      return some (.sequence line (← levelEntries (nested true false) (← room)))
    else return none
  | .blockSequenceStart =>
    if inBlock then
      advance
      return some (.sequence line (← blockEntries token.start (nested true false) (← room)))
    else return none
  | .blockMappingStart =>
    if inBlock then
      advance
      return some (.mapping line (← blockPairs token.start (nested true true) (← room)))
    else return none
  | _ => return none

/-- The node at hand with its anchor and its tag. -/
def nodeWith (nested : Bool → Bool → Step Node) (inBlock afterKey : Bool) : Step Node := do
  let start := (← peek).start
  let (anchor, tag) ← properties 2
  let node ← match ← content nested inBlock afterKey start with
    | some node => pure (node.tagged tag)
    | none =>
      if anchor.isSome || tag.isSome then pure ((Node.missing start).tagged tag)
      else failed start "did not find expected node content"
  if let some name := anchor then
    modify fun composer => { composer with anchors := (name, node) :: composer.anchors }
  return node

/-- The node at hand, nested at most to a given depth. In a block it may be a nested block; after a
key it may be a sequence of dashes in the column of the key. -/
def node : Nat → Bool → Bool → Step Node
  | 0, _, _ => return .missing {}
  | depth + 1, inBlock, afterKey => fun composer =>
    nodeWith (fun inBlock afterKey => node depth inBlock afterKey) inBlock afterKey composer

/-- Passes the lines about the stream. -/
def directives : Nat → Step Unit
  | 0 => return
  | budget + 1 => do
    if ← isAt [.directive true, .directive false] then
      advance
      directives budget

/-- The first document of a stream, if there is one. -/
def document : Step (Option Node) := do
  discard (accept .streamStart)
  if ← isAt [.streamEnd] then return none
  let budget ← room
  let root := node budget true false
  if ← isAt [.directive true, .directive false, .documentStart] then
    directives budget
    if !(← accept .documentStart) then
      throw (.order 0 (← peek).start.line "did not find expected <document start>")
    let ends : List TokenKind :=
      [.directive true, .directive false, .documentStart, .documentEnd, .streamEnd]
    let node ← unlessAt ends root
    discard peek
    return some node
  else
    let node ← root
    discard peek
    return some node

end Composer

/-- The first document of a text, if there is one. -/
def read (text : Text) : Except Fault (Option Node) := do
  let cursor ← Cursor.start text
  let (tokens, fault) := tokens cursor
  match Composer.document ⟨tokens, fault, []⟩ with
  | .ok (node, _) => .ok node
  | .error fault => .error fault

end LoxLang.Yaml
