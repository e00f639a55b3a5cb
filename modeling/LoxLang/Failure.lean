import LoxLang.Token

/-!
# Failures of a run

A run ends early for one of four reasons. A *runtime error* is the program's own: it is attributed
to a token and reported to the user. An *internal* failure is a tree that no source denotes. The
output may be *closed*. And since programs need not end, a run has a budget of loop iterations and
may use it up, which is kept apart from every other outcome.
-/

namespace LoxLang

/-- What a program can do wrong while it runs. -/
inductive RuntimeFault where
  | undefinedVariable
  | operandNotNumber
  | operandsNotNumbers
  | operandsNotAddable
deriving DecidableEq, Repr

/-- A runtime error, at the token that caused it. -/
structure RuntimeError where
  token : Token
  fault : RuntimeFault
deriving DecidableEq, Repr

namespace RuntimeError

/-- The complaint about a name that no scope binds. -/
def undefinedMessage (name : Text) : Text := "Undefined variable '" ++ name ++ "'."

/-- The wording of a runtime error. -/
def message (error : RuntimeError) : Text :=
  match error.fault with
  | .undefinedVariable => undefinedMessage error.token.lexeme
  | .operandNotNumber => "Operand must be a number."
  | .operandsNotNumbers => "Operands must be numbers."
  | .operandsNotAddable => "Operands must be two numbers or two strings."

/-- A message with the line it is about. -/
def renderAt (message : Text) (line : Int) : Text :=
  message ++ "\n[line " ++ Text.ofInt line ++ "]"

/-- What is shown for a runtime error. -/
def render (error : RuntimeError) : Text := renderAt error.message error.token.line

end RuntimeError

/-- What a tree can contain that cannot be executed. -/
inductive Unsupported where
  | expression
  | statement
  | unaryOperator (lexeme : Text)
  | binaryOperator (lexeme : Text)
  | literal
deriving DecidableEq, Repr

/-- The wording for what cannot be executed. -/
def Unsupported.message : Unsupported → Text
  | expression => "unsupported expression type: <nil>"
  | statement => "unsupported statement type: <nil>"
  | unaryOperator lexeme => "unsupported unary operator " ++ lexeme
  | binaryOperator lexeme => "unsupported binary operator " ++ lexeme
  | literal => "unsupported literal int"

/-- Why a run ended early. -/
inductive Failure where
  | runtime (error : RuntimeError)
  | internal (cause : Unsupported)
  | outputClosed
  | budgetSpent
deriving DecidableEq, Repr

/-- The wording of the failure to write to a closed output. -/
def closedMessage : Text := "sink closed"

/-- The wording of a failure. -/
def Failure.message : Failure → Text
  | runtime error => error.message
  | internal cause => cause.message
  | outputClosed => "print: " ++ closedMessage
  | budgetSpent => "budget spent"

end LoxLang
