import LoxLang.Parse.Grammar

/-!
# Parsing

The parser keeps a cursor: the tokens ahead and the complaints so far. It is defined on every list
of tokens. A syntax error is reported at the token where it is noticed and recovered by the
innermost declaration around it, which contributes nothing. The nesting of statements, expressions,
assigned values and unary operands is counted against a limit, and the parse is given up where the
limit is passed; a limit that is not positive is none.

Every reader that goes on consumes a token within a few steps, so a budget in proportion to the
number of tokens is never used up, and `parse` supplies one.
-/

namespace LoxLang

namespace Parse

/-- Why a reader stops: it met a syntax error, it passed the nesting limit, or it used up its
budget. -/
inductive Halt where
  | misread
  | tooDeep
  | exhausted
deriving DecidableEq, Repr

/-- The token that ends a list of tokens. The first end token counts, whatever follows it; when
there is none, the input ends on the line of its last token. -/
def ending (tokens : List Token) : Token :=
  (tokens.find? (·.kind = .eof)).getD (.endOfInput ((tokens.getLast?.map Token.line).getD 1))

theorem ending_kind (tokens : List Token) : (ending tokens).kind = .eof := by
  unfold ending
  cases found : tokens.find? (·.kind = .eof) with
  | none => rfl
  | some stop => simpa using List.find?_some found

/-- The state of a parse: the tokens ahead, none of which ends the input, the token that ends it,
and the complaints so far. -/
structure Cursor where
  ahead : List Token
  stop : Token
  reports : Array Diagnostic
  ends : stop.kind = .eof
deriving DecidableEq, Repr

namespace Cursor

/-- The cursor at the start of a list of tokens. -/
def ofTokens (tokens : List Token) : Cursor where
  ahead := tokens.takeWhile (·.kind ≠ .eof)
  stop := ending tokens
  reports := #[]
  ends := ending_kind tokens

/-- The token at hand. -/
def current (cursor : Cursor) : Token := cursor.ahead.head?.getD cursor.stop

/-- The cursor after the token at hand; it stays at the end. -/
def advance (cursor : Cursor) : Cursor := { cursor with ahead := cursor.ahead.tail }

/-- The cursor with one more complaint. -/
def report (cursor : Cursor) (token : Token) (fault : Fault) : Cursor :=
  { cursor with reports := cursor.reports.push (.atToken token fault) }

end Cursor

/-- A reader moves a cursor and gives a result or stops. What it has reported stays reported. -/
abbrev Reader := EStateM Halt Cursor

/-- The token at hand, which stays at hand. -/
def peek : Reader Token := return (← get).current

/-- Passes the token at hand. -/
def skip : Reader Unit := modify Cursor.advance

/-- Reports a fault at a token and goes on. -/
def report (token : Token) (fault : Fault) : Reader Unit := modify (·.report token fault)

/-- Reports a fault at the token at hand and stops. -/
def misread {α : Type} (fault : Fault) : Reader α := do
  report (← peek) fault
  throw .misread

/-- The token at hand if it is of one of the kinds; it is then passed. -/
def accept (kinds : List Token.Kind) : Reader (Option Token) := do
  let token ← peek
  if token.kind ∈ kinds then
    skip
    return some token
  else
    return none

/-- The token at hand, which must be of the given kind and is passed. -/
def expect (kind : Token.Kind) (fault : Fault) : Reader Token := do
  match ← accept [kind] with
  | some token => return token
  | none => misread fault

/-- Stops when a depth is over the limit. -/
def descend (limit : Int) (depth : Nat) : Reader Unit := do
  if 0 < limit ∧ limit < depth then
    report (← peek) .nestingTooDeep
    throw .tooDeep

/-- The kinds of tokens at which a statement starts. -/
def statementStarts : List Token.Kind :=
  [.classKeyword, .funKeyword, .varKeyword, .forKeyword, .ifKeyword, .whileKeyword, .printKeyword,
   .returnKeyword]

/-- Where reading resumes among the tokens after one that is passed: at a token that starts a
statement or comes after a semicolon, or at the end. -/
def resumption : Token → List Token → List Token
  | _, [] => []
  | passed, token :: rest =>
    if passed.kind = .semicolon ∨ token.kind ∈ statementStarts then token :: rest
    else resumption token rest

/-- The cursor where reading resumes after a syntax error at the token at hand, which is passed. -/
def Cursor.synchronize (cursor : Cursor) : Cursor :=
  match cursor.ahead with
  | [] => cursor
  | token :: rest => { cursor with ahead := resumption token rest }

/-- Recovers a reader from a syntax error: it gives nothing, and reading resumes further on. -/
def recovering {α : Type} (reader : Reader α) : Reader (Option α) := fun cursor =>
  match reader cursor with
  | .ok value cursor => .ok (some value) cursor
  | .error .misread cursor => .ok none cursor.synchronize
  | .error halt cursor => .error halt cursor

/-- Nothing at a token of one of the kinds and at the end, and otherwise what the reader gives,
recovered from a syntax error. -/
def attemptUnless {α : Type} (stops : List Token.Kind) (reader : Reader α) :
    Reader (Option (Option α)) := do
  let token ← peek
  if token.kind ∈ stops ∨ token.kind = .eof then
    return none
  else
    return some (← recovering reader)

/-- Reading with a cursor. -/
@[reducible] def primitives : Primitives Reader where
  exhausted := throw .exhausted
  accept := accept
  expect := expect
  report := report
  misread := misread
  nested limit depth reader := do
    descend limit depth
    reader
  attempt := attemptUnless

section Readers

variable (limit : Int) (fuel depth : Nat)

/-- Reads an expression with a cursor. -/
abbrev expression : Reader Expr := primitives.expression limit fuel depth

/-- Reads an assignment with a cursor. -/
abbrev assignment : Reader Expr := primitives.assignment limit fuel depth

/-- Reads an operand with a cursor. -/
abbrev unary : Reader Expr := primitives.unary limit fuel depth

/-- Reads an operand without unary operators with a cursor. -/
abbrev primary : Reader Expr := primitives.primary limit fuel depth

/-- Reads the rest of a declaration with a cursor. -/
abbrev variableDeclaration : Reader Stmt :=
  primitives.variableDeclaration (expression limit fuel depth)

/-- Reads a statement with a cursor. -/
abbrev statement : Reader Stmt := primitives.statement limit fuel depth

/-- Reads a declaration or a statement with a cursor, recovering from a syntax error in it. -/
def declaration : Reader (Option Stmt) := recovering (primitives.declaration limit fuel depth)

/-- Reads the declarations of a block with a cursor. -/
abbrev block (done : List Stmt) : Reader (List Stmt) := primitives.block limit fuel depth done

/-- Reads a program with a cursor. -/
abbrev program (done : List Stmt) : Reader (List Stmt) := primitives.program limit fuel done

end Readers

/-- A budget that no parse of that many tokens uses up. -/
def budget (count : Nat) : Nat := 8 * (count + 2)

end Parse

/-- What parsing a list of tokens gives: statements, unless it was given up, and the complaints. -/
structure Parsed where
  outcome : Except Parse.Halt (List Stmt)
  diagnostics : List Diagnostic

/-- Parses a list of tokens as a program under a nesting limit. -/
def parse (limit : Int) (tokens : List Token) : Parsed :=
  let start := Parse.Cursor.ofTokens tokens
  match Parse.program limit (Parse.budget start.ahead.length) [] start with
  | .ok statements cursor => ⟨.ok statements, cursor.reports.toList⟩
  | .error halt cursor => ⟨.error halt, cursor.reports.toList⟩

/-- The nesting limit where none is chosen. -/
def defaultNestingLimit : Int := 512

/-- The wording for a parse that was given up at a limit. -/
def abortMessage (limit : Int) : Text :=
  "parse aborted: nesting deeper than " ++ Text.ofInt limit

end LoxLang
