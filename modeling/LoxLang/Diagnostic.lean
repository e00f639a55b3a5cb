import LoxLang.Token

/-!
# Diagnostics

A diagnostic is a complaint about a source, found by the scanner or by the parser. It names a line,
for the parser also a place on it, and its cause.
-/

namespace LoxLang

/-- The stage that found a fault. -/
inductive Stage where
  | scanner
  | parser
deriving DecidableEq, Repr

/-- The faults that a source can have. Complaints of other origin carry their own wording. -/
inductive Fault where
  | unexpectedCharacter
  | unterminatedString
  | noExpression
  | noVariableName
  | noSemicolonAfterDeclaration
  | noSemicolonAfterValue
  | noSemicolonAfterExpression
  | noParenAfterIf
  | noParenAfterIfCondition
  | noParenAfterWhile
  | noParenAfterCondition
  | noParenAfterExpression
  | noBraceAfterBlock
  | badAssignmentTarget
  | nestingTooDeep
  | other (message : Text)
deriving DecidableEq, Repr

/-- The wording of a fault. -/
def Fault.message : Fault → Text
  | unexpectedCharacter => "Unexpected character."
  | unterminatedString => "Unterminated string."
  | noExpression => "Expect expression."
  | noVariableName => "Expect variable name."
  | noSemicolonAfterDeclaration => "Expect ';' after variable declaration."
  | noSemicolonAfterValue => "Expect ';' after value."
  | noSemicolonAfterExpression => "Expect ';' after expression."
  | noParenAfterIf => "Expect '(' after 'if'."
  | noParenAfterIfCondition => "Expect ')' after if condition."
  | noParenAfterWhile => "Expect '(' after 'while'."
  | noParenAfterCondition => "Expect ')' after condition."
  | noParenAfterExpression => "Expect ')' after expression."
  | noBraceAfterBlock => "Expect '\x7d' after block."
  | badAssignmentTarget => "Invalid assignment target."
  | nestingTooDeep => "Too much nesting."
  | other message => message

/-- A complaint about a source. -/
structure Diagnostic where
  stage : Stage
  line : Int
  place : Text
  fault : Fault
deriving DecidableEq, Repr

namespace Diagnostic

/-- The line that is shown for a diagnostic. -/
def render (diagnostic : Diagnostic) : Text :=
  "[line " ++ Text.ofInt diagnostic.line ++ "] Error" ++ diagnostic.place ++ ": "
    ++ diagnostic.fault.message

/-- A complaint of the parser about a token, which it names by lexeme unless the input ends there.
-/
def atToken (token : Token) (fault : Fault) : Diagnostic where
  stage := .parser
  line := token.line
  place := if token.kind = .eof then " at end" else " at '" ++ token.lexeme ++ "'"
  fault := fault

/-- Diagnostics in the order in which they were reported. -/
structure Collector where
  diagnostics : Array Diagnostic
deriving DecidableEq, Repr

namespace Collector

/-- A collector to which nothing has been reported, which is also what a reset leaves. -/
def empty : Collector := ⟨#[]⟩

/-- Takes one more diagnostic. -/
def report (collector : Collector) (diagnostic : Diagnostic) : Collector :=
  ⟨collector.diagnostics.push diagnostic⟩

/-- Whether anything was reported. -/
def hasErrors (collector : Collector) : Bool := !collector.diagnostics.isEmpty

/-- The lines that are shown for the diagnostics. -/
def messages (collector : Collector) : List Text := collector.diagnostics.toList.map render

/-- These lines as one text. -/
def text (collector : Collector) : Text := Text.join [Byte.newline] collector.messages

end Collector

end Diagnostic

end LoxLang
