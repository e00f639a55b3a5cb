import LoxLang.Failure
import LoxLang.Scope
import LoxLang.Tree

/-!
# Evaluation

Evaluating an expression gives a value or fails, and may change bindings by assignment. Operands are
evaluated from left to right, both before the operator looks at either, except that `and` and `or`
leave out the right one when the left one decides. Operators are told by the kinds of their tokens.
-/

namespace LoxLang

/-- Computations that read and change bindings. -/
abbrev Evaluation := EStateM Failure Scopes

/-- Fails with a runtime error at a token. -/
def raise {σ α : Type} (token : Token) (fault : RuntimeFault) : EStateM Failure σ α :=
  throw (.runtime ⟨token, fault⟩)

namespace Evaluation

/-- The value of a name. -/
def read (name : Token) : Evaluation Value := do
  match (← get).find? name.lexeme with
  | some value => return value
  | none => raise name .undefinedVariable

/-- Changes the binding of a name. -/
def assign (name : Token) (value : Value) : Evaluation Unit := do
  match (← get).assign? name.lexeme value with
  | some scopes => set scopes
  | none => raise name .undefinedVariable

/-- The result of a unary operator. -/
def unary (operator : Token) (operand : Value) : Evaluation Value :=
  match operator.kind with
  | .bang => return .bool !operand.isTruthy
  | .minus =>
    match operand with
    | .number value => return .number value.neg
    | _ => raise operator .operandNotNumber
  | _ => throw (.internal (.unaryOperator operator.lexeme))

/-- The result of an operator on two numbers, other than addition and the equalities. -/
def arithmetic (operator : Token) (left right : Number) : Evaluation Value :=
  match operator.kind with
  | .minus => return .number (left.sub right)
  | .star => return .number (left.mul right)
  | .slash => return .number (left.div right)
  | .greater => return .bool (right.less left)
  | .greaterEqual => return .bool (right.lessEqual left)
  | .less => return .bool (left.less right)
  | .lessEqual => return .bool (left.lessEqual right)
  | _ => throw (.internal (.binaryOperator operator.lexeme))

/-- The result of an operator on two values. The equalities take all values, addition two numbers or
two strings, and the others two numbers. -/
def binary (operator : Token) (left right : Value) : Evaluation Value :=
  match operator.kind with
  | .equalEqual => return .bool (left.equal right)
  | .bangEqual => return .bool !(left.equal right)
  | .plus =>
    match left, right with
    | .number left, .number right => return .number (left.add right)
    | .string left, .string right => return .string (left ++ right)
    | _, _ => raise operator .operandsNotAddable
  | _ =>
    match left, right with
    | .number left, .number right => arithmetic operator left right
    | _, _ => raise operator .operandsNotNumbers

/-- Whether the left operand of a logical operator is its result. -/
def decides (operator : Token) (left : Value) : Bool :=
  if operator.kind = .orKeyword then left.isTruthy else !left.isTruthy

end Evaluation

/-- The value of an expression. -/
def Expr.evaluate : Expr → Evaluation Value
  | missing => throw (.internal .expression)
  | literal value =>
    match Value.ofLiteral? value with
    | some value => return value
    | none => throw (.internal .literal)
  | group inner => inner.evaluate
  | unary operator operand => do
    Evaluation.unary operator (← operand.evaluate)
  | binary left operator right => do
    let left ← left.evaluate
    let right ← right.evaluate
    Evaluation.binary operator left right
  | logical left operator right => do
    let left ← left.evaluate
    if Evaluation.decides operator left then return left else right.evaluate
  | name token => Evaluation.read token
  | assign target value => do
    let value ← value.evaluate
    Evaluation.assign target value
    return value

end LoxLang
