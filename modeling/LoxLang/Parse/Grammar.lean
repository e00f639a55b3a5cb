import LoxLang.Diagnostic
import LoxLang.Tree

/-!
# The readers of the grammar

A recursive-descent parser for the grammar

```text
program     → declaration*
declaration → "var" IDENTIFIER ( "=" expression )? ";" | statement
statement   → "if" "(" expression ")" statement ( "else" statement )?
            | "while" "(" expression ")" statement
            | "print" expression ";" | "{" declaration* "}" | expression ";"
expression  → IDENTIFIER "=" expression | or
or          → and ( "or" and )*
and         → equality ( "and" equality )*
equality    → comparison ( ( "!=" | "==" ) comparison )*
comparison  → term ( ( ">" | ">=" | "<" | "<=" ) term )*
term        → factor ( ( "-" | "+" ) factor )*
factor      → unary ( ( "/" | "*" ) unary )*
unary       → ( "!" | "-" ) unary | primary
primary     → "false" | "true" | "nil" | NUMBER | STRING | IDENTIFIER | "(" expression ")"
```

There is one reader for each of its rules. The readers are made of a few primitives, which say how
tokens are looked at and passed, how nesting is counted and how syntax errors are recovered. They
are given for any primitives, so that ways of keeping the state of a parse can be compared.

The readers recurse on a budget of steps and are told how deeply they stand.
-/

namespace LoxLang.Parse

/-- The levels of the operators that take two operands. -/
inductive Tier where
  | or | and | equality | comparison | term | factor
deriving DecidableEq, Repr

namespace Tier

/-- The levels from the loosest to the tightest. -/
def all : List Tier := [or, and, equality, comparison, term, factor]

/-- The operators of a level. -/
def operators : Tier → List Token.Kind
  | or => [.orKeyword]
  | and => [.andKeyword]
  | equality => [.bangEqual, .equalEqual]
  | comparison => [.greater, .greaterEqual, .less, .lessEqual]
  | term => [.minus, .plus]
  | factor => [.slash, .star]

/-- The expression that an operator of a level makes of two operands. -/
def combine (tier : Tier) (left : Expr) (operator : Token) (right : Expr) : Expr :=
  match tier with
  | or | and => .logical left operator right
  | equality | comparison | term | factor => .binary left operator right

end Tier

/-- What the readers are made of. -/
structure Primitives (m : Type → Type) where
  /-- Stops because the budget is used up. -/
  exhausted {α : Type} : m α
  /-- The token at hand if it is of one of the kinds; it is then passed. -/
  accept : List Token.Kind → m (Option Token)
  /-- The token at hand, which must be of the given kind and is passed. -/
  expect : Token.Kind → Fault → m Token
  /-- Reports a fault at a token and goes on. -/
  report : Token → Fault → m Unit
  /-- Reports a fault at the token at hand and stops. -/
  misread {α : Type} : Fault → m α
  /-- Reads what stands at a depth, or stops when the depth is over the limit. -/
  nested {α : Type} : Int → Nat → m α → m α
  /-- Nothing, if the token at hand is of one of the kinds or ends the input. Otherwise something is
  read, and a syntax error in it is recovered: it gives nothing, and reading resumes further on. -/
  attempt {α : Type} : List Token.Kind → m α → m (Option (Option α))

namespace Primitives

variable {m : Type → Type} [Monad m] (base : Primitives m)

/-- Reads on by the first choice that has the token at hand, which is passed. -/
def select {α : Type} (otherwise : m α) : List (List Token.Kind × (Token → m α)) → m α
  | [] => otherwise
  | (kinds, next) :: others => do
    match ← base.accept kinds with
    | some token => next token
    | none => select otherwise others

/-- Reads operators of a level with their right operands, as long as there are any, and combines
them with what stands to the left. -/
def chain (tier : Tier) (operand : m Expr) : Nat → Expr → m Expr
  | 0, _ => base.exhausted
  | fuel + 1, left => do
    match ← base.accept tier.operators with
    | some operator =>
      let right ← operand
      chain tier operand fuel (tier.combine left operator right)
    | none => return left

/-- Reads an expression of the first of the given levels; below the last level stands `operand`. -/
def tiered (fuel : Nat) (operand : m Expr) : List Tier → m Expr
  | [] => operand
  | tier :: tighter => do
    let left ← tiered fuel operand tighter
    base.chain tier (tiered fuel operand tighter) fuel left

/-- Reads the value of an assignment. Only a bare name can be assigned to; what else stands to the
left of the equals sign is reported and kept, and the value is dropped. -/
def assigned (value : m Expr) (target : Expr) (equals : Token) : m Expr := do
  let value ← value
  match target with
  | .name token => return .assign token value
  | _ =>
    base.report equals .badAssignmentTarget
    return target

/-- Reads an expression in parentheses after the first of them. -/
def group (expression : m Expr) : m Expr := do
  let inner ← expression
  let _ ← base.expect .rightParen .noParenAfterExpression
  return .group inner

mutual

/-- Reads an expression, one level deeper than its surroundings. -/
def expression (limit : Int) : Nat → Nat → m Expr
  | 0, _ => base.exhausted
  | fuel + 1, depth => base.nested limit (depth + 1) (assignment limit fuel (depth + 1))

/-- Reads an assignment or an expression of the loosest level. -/
def assignment (limit : Int) : Nat → Nat → m Expr
  | 0, _ => base.exhausted
  | fuel + 1, depth => do
    let target ← base.tiered fuel (unary limit fuel depth) Tier.all
    match ← base.accept [.equal] with
    | some equals =>
      base.nested limit (depth + 1)
        (base.assigned (assignment limit fuel (depth + 1)) target equals)
    | none => return target

/-- Reads an expression with any number of unary operators in front of it. -/
def unary (limit : Int) : Nat → Nat → m Expr
  | 0, _ => base.exhausted
  | fuel + 1, depth => do
    match ← base.accept [.bang, .minus] with
    | some operator =>
      base.nested limit (depth + 1) do
        return .unary operator (← unary limit fuel (depth + 1))
    | none => primary limit fuel depth

/-- Reads a literal, a name or an expression in parentheses. -/
def primary (limit : Int) : Nat → Nat → m Expr
  | 0, _ => base.exhausted
  | fuel + 1, depth => base.select (base.misread .noExpression)
      [([.falseKeyword], fun _ => return .literal (.bool false)),
       ([.trueKeyword], fun _ => return .literal (.bool true)),
       ([.nilKeyword], fun _ => return .literal .nil),
       ([.number, .string], fun token => return .literal token.literal),
       ([.identifier], fun token => return .name token),
       ([.leftParen], fun _ => base.group (expression limit fuel depth))]

end

/-- Reads the rest of a declaration after its keyword. -/
def variableDeclaration (expression : m Expr) : m Stmt := do
  let name ← base.expect .identifier .noVariableName
  match ← base.accept [.equal] with
  | some _ =>
    let initial ← expression
    let _ ← base.expect .semicolon .noSemicolonAfterDeclaration
    return .declare name (some initial)
  | none =>
    let _ ← base.expect .semicolon .noSemicolonAfterDeclaration
    return .declare name none

/-- Reads the rest of an `if` statement after its keyword. -/
def ifStatement (expression : m Expr) (statement : m Stmt) : m Stmt := do
  let _ ← base.expect .leftParen .noParenAfterIf
  let condition ← expression
  let _ ← base.expect .rightParen .noParenAfterIfCondition
  let consequence ← statement
  match ← base.accept [.elseKeyword] with
  | some _ => return .ifElse condition consequence (← statement)
  | none => return .ifThen condition consequence

/-- Reads the rest of a `while` statement after its keyword. -/
def whileStatement (expression : m Expr) (statement : m Stmt) : m Stmt := do
  let _ ← base.expect .leftParen .noParenAfterWhile
  let condition ← expression
  let _ ← base.expect .rightParen .noParenAfterCondition
  return .while condition (← statement)

/-- Reads the rest of a `print` statement after its keyword. -/
def printStatement (expression : m Expr) : m Stmt := do
  let value ← expression
  let _ ← base.expect .semicolon .noSemicolonAfterValue
  return .print value

/-- Reads the rest of a block after its opening brace. -/
def blockStatement (body : m (List Stmt)) : m Stmt := do
  let stmts ← body
  let _ ← base.expect .rightBrace .noBraceAfterBlock
  return .block stmts

/-- Reads a statement that starts with an expression. -/
def expressionStatement (expression : m Expr) : m Stmt := do
  let value ← expression
  let _ ← base.expect .semicolon .noSemicolonAfterExpression
  return .expression value

mutual

/-- Reads a statement, one level deeper than its surroundings. -/
def statement (limit : Int) : Nat → Nat → m Stmt
  | 0, _ => base.exhausted
  | fuel + 1, outer =>
    let depth := outer + 1
    base.nested limit depth <|
      base.select (base.expressionStatement (base.expression limit fuel depth))
        [([.ifKeyword], fun _ =>
            base.ifStatement (base.expression limit fuel depth) (statement limit fuel depth)),
         ([.whileKeyword], fun _ =>
            base.whileStatement (base.expression limit fuel depth) (statement limit fuel depth)),
         ([.printKeyword], fun _ => base.printStatement (base.expression limit fuel depth)),
         ([.leftBrace], fun _ => base.blockStatement (block limit fuel depth []))]

/-- Reads a declaration or a statement. -/
def declaration (limit : Int) : Nat → Nat → m Stmt
  | 0, _ => base.exhausted
  | fuel + 1, depth => do
    match ← base.accept [.varKeyword] with
    | some _ => base.variableDeclaration (base.expression limit fuel depth)
    | none => statement limit fuel depth

/-- Reads the declarations of a block, up to its closing brace or the end. What has been read is
kept last first. -/
def block (limit : Int) : Nat → Nat → List Stmt → m (List Stmt)
  | 0, _, _ => base.exhausted
  | fuel + 1, depth, done => do
    match ← base.attempt [.rightBrace] (declaration limit fuel depth) with
    | some stmt? => block limit fuel depth (stmt?.toList ++ done)
    | none => return done.reverse

end

/-- Reads declarations up to the end of the input. -/
def program (limit : Int) : Nat → List Stmt → m (List Stmt)
  | 0, _ => base.exhausted
  | fuel + 1, done => do
    match ← base.attempt [] (base.declaration limit fuel 0) with
    | some stmt? => program limit fuel (stmt?.toList ++ done)
    | none => return done.reverse

end Primitives

end LoxLang.Parse
