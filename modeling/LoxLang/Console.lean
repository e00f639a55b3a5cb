import LoxLang.Diagnostic
import LoxLang.Failure

/-!
# The console

Diagnostics and runtime errors are shown on the console, one to a line and in colour if that is
wanted. The console remembers whether it has shown any of either. The first of the two marks can be
cleared, so that an interactive session survives a mistyped line; the second cannot.
-/

namespace LoxLang

/-- The console and what it has shown. -/
structure Console where
  colored : Bool
  hadError : Bool
  hadRuntimeError : Bool
deriving DecidableEq, Repr

namespace Console

/-- A console that has shown nothing. -/
def new (colored : Bool) : Console := ⟨colored, false, false⟩

/-- A text between the sequence that sets a style and the one that ends all styles. -/
def painted (style text : Text) : Text := "\x1b[" ++ style ++ "m" ++ text ++ "\x1b[0m"

/-- The style of diagnostics. -/
def diagnosticStyle : Text := "31;1"

/-- The style of runtime errors. -/
def runtimeStyle : Text := "35"

/-- A line of the console. -/
def line (console : Console) (style text : Text) : Text :=
  (if console.colored then painted style text else text) ++ [Byte.newline]

/-- What is written for a diagnostic. -/
def diagnosticLine (console : Console) (diagnostic : Diagnostic) : Text :=
  console.line diagnosticStyle diagnostic.render

/-- What is written for a runtime error with the given message and line. -/
def runtimeLine (console : Console) (message : Text) (line : Int) : Text :=
  console.line runtimeStyle (RuntimeError.renderAt message line)

/-- The console after a diagnostic. -/
def afterDiagnostic (console : Console) : Console := { console with hadError := true }

/-- The console after a runtime error. -/
def afterRuntimeError (console : Console) : Console := { console with hadRuntimeError := true }

/-- The console with the mark of diagnostics cleared. -/
def reset (console : Console) : Console := { console with hadError := false }

/-- Whether a colour mode asks for colour on an output that may be a terminal. -/
def colorEnabled (mode : Text) (terminal : Bool) : Bool :=
  if mode = ("always" : Text) then true
  else if mode = ("never" : Text) then false
  else terminal

end Console

end LoxLang
