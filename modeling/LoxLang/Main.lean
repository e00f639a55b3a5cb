import LoxLang.Command

/-!
# The program

The outer layer of the command line: it looks at the files that a run may need, and carries the
input and the output of the run to where they belong. The input of a prompt is taken as it comes.
-/

namespace LoxLang.Main

/-- The string of a text that is one. -/
def stringOf? (text : Text) : Option String := String.fromUTF8? ⟨text.toArray⟩

/-- The fault behind an error of the system. -/
def faultOf : IO.Error → FileFault
  | .noFileOrDirectory .. => .notFound
  | .inappropriateType .. => .notDirectory
  | _ => .invalid

/-- Looks at what a path leads to. -/
def look (path : Text) : IO (Except FileFault FileEntry) := do
  match stringOf? path with
  | none => return .error .notFound
  | some name =>
    if name.isEmpty then return .error .notFound
    let place := (← IO.currentDir) / name
    match ← place.metadata.toBaseIO with
    | .error error => return .error (faultOf error)
    | .ok data =>
      if data.type == .dir then return .ok .directory
      match ← (IO.FS.readBinFile place).toBaseIO with
      | .ok bytes => return .ok (.file bytes.toList)
      | .error error => return .error (faultOf error)

/-- The file system as far as a run with the given arguments may look at it. -/
def filesFor (arguments : List Text) : IO FileSystem := do
  let workingDirectory := Text.ofString (← IO.currentDir).toString
  let paths := CommandLine.pathsOf workingDirectory arguments
  let found ← paths.mapM fun path => return (path, ← look path)
  return { workingDirectory, find := fun path => (found.lookup path).getD (.error .notFound) }

/-- Writes a text to a stream. -/
def writeTo (stream : IO.FS.Stream) (text : Text) : IO Unit := do
  stream.write ⟨text.toArray⟩
  stream.flush

/-- Writes what a run has written, and gives the number of its status. -/
def close (outcome : Outcome) : IO UInt32 := do
  writeTo (← IO.getStdout) outcome.output
  writeTo (← IO.getStderr) outcome.errors
  return outcome.status.number.toUInt32

/-- Writes the events of a session, and gives the session without them. -/
def flush (config : Config) (session : Session) : IO Session := do
  for event in session.events do
    writeTo (← IO.getStdout) event.output
    writeTo (← IO.getStderr) (CommandLine.errorsOf config event)
  return { session with events := #[] }

/-- Serves a prompt with the rest of its input. -/
partial def serve (config : Config) (serving : Repl.Serving) : IO UInt32 := do
  let serving := { serving with session := ← flush config serving.session }
  if serving.failure.isSome then
    return ← close (CommandLine.afterPrompt config serving.session serving.failure)
  match (← (← IO.getStdin).read 1).toList with
  | byte :: _ => serve config (serving.feed config.prompt byte)
  | [] =>
    let last := serving.finish config.prompt
    close (CommandLine.afterPrompt config last.session last.failure)

/-- The number of times that one execution of a loop goes through its body at most. -/
def budget : Nat := Nat.pow 2 60

/-- Runs the program. -/
def start (arguments : List Text) : IO UInt32 := do
  let files ← filesFor arguments
  let terminal ← (← IO.getStderr).isTty
  match CommandLine.plan ⟨files, .unlimited, budget, terminal⟩ arguments with
  | .over outcome => close outcome
  | .prompt config session => serve config (.await config.prompt session)

end LoxLang.Main

/-- The entry of the program. -/
def main (arguments : List String) : IO UInt32 :=
  LoxLang.Main.start (arguments.map LoxLang.Text.ofString)
