import LoxLang.Session

/-!
# The interactive prompt

The prompt is written, a line is read and run, and so on until the input ends; then the prompt has
been written once more. A line that is too long, or an output that takes no more, ends it early;
nothing else that happens in a line does. The input is taken byte by byte, as it comes.
-/

namespace LoxLang.Repl

/-- The length from which on a line is too long. -/
def tooLong : Nat := 65536

/-- A line without the carriage return at its end. -/
def withoutReturn (line : Text) : Text :=
  if line.getLast? = some Byte.carriageReturn then line.dropLast else line

/-- Why the prompt ended before the input. -/
inductive Failure where
  | lineTooLong
  | failed (failure : LoxLang.Failure)
deriving DecidableEq, Repr

/-- The wording of that. -/
def Failure.message : Failure → Text
  | lineTooLong => "read input: bufio.Scanner: token too long"
  | failed failure => failure.message

/-- Runs a line. -/
def step (session : Session) (line : Text) : Session × Option Failure :=
  if tooLong ≤ line.length then (session, some .lineTooLong)
  else
    let (session, failure) := session.runLine (withoutReturn line)
    (session, failure.map .failed)

/-- A prompt in use: what has been read of a line, the session after the lines before, and why the
prompt ended if it did. -/
structure Serving where
  read : Array UInt8
  session : Session
  failure : Option Failure

namespace Serving

/-- Waits for a line, after the prompt. -/
def await (prompt : Text) (session : Session) : Serving where
  read := #[]
  session := session.write prompt
  failure := none

/-- Runs the line that has been read, and waits for the next one unless that fails. -/
def serveLine (prompt : Text) (serving : Serving) : Serving :=
  match step serving.session serving.read.toList with
  | (session, none) => await prompt session
  | (session, some failure) => ⟨#[], session, some failure⟩

/-- Takes a byte of the input. A line is served when its line feed comes, and given up as soon as it
is too long. -/
def feed (prompt : Text) (serving : Serving) (byte : UInt8) : Serving :=
  if serving.failure.isSome then serving
  else if byte = Byte.newline then serving.serveLine prompt
  else
    let longer := { serving with read := serving.read.push byte }
    if tooLong ≤ longer.read.size then longer.serveLine prompt else longer

/-- Takes the end of the input. What has been read of a line is a line then. -/
def finish (prompt : Text) (serving : Serving) : Serving :=
  if serving.failure.isSome ∨ serving.read.isEmpty then serving else serving.serveLine prompt

/-- How the prompt ended. -/
def result (serving : Serving) : Session × Option Failure := (serving.session, serving.failure)

end Serving

/-- Serves a prompt with the whole of its input. -/
def serve (prompt : Text) (session : Session) (input : Text) : Session × Option Failure :=
  ((input.foldl (Serving.feed prompt) (.await prompt session)).finish prompt).result

end LoxLang.Repl
