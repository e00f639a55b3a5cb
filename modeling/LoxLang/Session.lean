import LoxLang.Cache
import LoxLang.Console
import LoxLang.Execute
import LoxLang.File.System
import LoxLang.Log
import LoxLang.Parse
import LoxLang.Scan

/-!
# Sessions

A session runs one source after another on the same global bindings. A source is compiled first, and
it is executed only if no complaint stands against it or an earlier source. Complaints and runtime
errors go to the console, printed texts to the output, and what was done to the log; all three are
kept as one sequence of events. Sources that compiled cleanly are cached, which saves compiling them
again and changes nothing else.
-/

namespace LoxLang

/-- What a session has written, and where to. -/
inductive Event where
  | printed (text : Text)
  | reported (text : Text)
  | logged (record : Log.Record)
deriving DecidableEq, Repr

/-- The text that an event puts on the output. -/
def Event.output : Event → Text
  | printed text => text
  | reported _ | logged _ => []

/-- The text that an event puts on the console. -/
def Event.console : Event → Text
  | reported text => text
  | printed _ | logged _ => []

/-- The text that an event puts in the log. -/
def Event.log : Event → Text
  | logged record => record.render
  | printed _ | reported _ => []

/-- The statuses with which a program ends. -/
inductive ExitStatus where
  | ok | usage | badData | noInput | software | badConfig | noHelpTopic
deriving DecidableEq, Repr

/-- The number of a status. -/
def ExitStatus.number : ExitStatus → Nat
  | ok => 0
  | usage => 64
  | badData => 65
  | noInput => 66
  | software => 70
  | badConfig => 78
  | noHelpTopic => 3

/-- A session: its nesting limit, the budget of its loops, and its state. -/
structure Session where
  limit : Int
  budget : Nat
  console : Console
  cache : Cache (List Stmt)
  globals : Bindings Value
  sink : Sink
  events : Array Event

namespace Session

/-- A session before its first source. -/
def new (limit cacheSize : Int) (budget : Nat) (console : Console) (sink : Sink) : Session where
  limit := limit
  budget := budget
  console := console
  cache := .new cacheSize
  globals := .empty
  sink := sink
  events := #[]

/-- The session with an event added. -/
def emit (session : Session) (event : Event) : Session :=
  { session with events := session.events.push event }

/-- The session with a record added to its log. -/
def log (session : Session) (message : Text) (fields : List (Text × Text)) : Session :=
  session.emit (.logged ⟨message, fields⟩)

/-- Shows a diagnostic. -/
def report (session : Session) (diagnostic : Diagnostic) : Session :=
  let session := session.emit (.reported (session.console.diagnosticLine diagnostic))
  { session with console := session.console.afterDiagnostic }

/-- Shows diagnostics in order. -/
def reportAll (session : Session) (diagnostics : List Diagnostic) : Session :=
  diagnostics.foldl report session

/-- Shows a runtime error. -/
def reportRuntime (session : Session) (error : RuntimeError) : Session :=
  let text := session.console.runtimeLine error.message error.token.line
  let session := session.emit (.reported text)
  { session with console := session.console.afterRuntimeError }

/-- Clears the mark of diagnostics. -/
def reset (session : Session) : Session := { session with console := session.console.reset }

/-- Scans and parses a source that is not cached, and caches it if there is no complaint at all. -/
def compileAnew (session : Session) (source : Text) : Session × Option (List Stmt) :=
  let marked := session.console.hadError
  let scan := scan source
  let session := session.reportAll scan.diagnostics
  let session := session.log "scanned" [("tokens", Text.ofNat scan.tokens.length)]
  let parsed := parse session.limit scan.tokens
  let session := session.reportAll parsed.diagnostics
  match parsed.outcome with
  | .error _ => (session.log "parse aborted" [("err", abortMessage session.limit)], none)
  | .ok statements =>
    let session := session.log "parsed" [("statements", Text.ofNat statements.length)]
    if marked || session.console.hadError then (session, some statements)
    else ({ session with cache := session.cache.use source statements }, some statements)

/-- The statements of a source, from the cache if it holds them. -/
def compile (session : Session) (source : Text) : Session × Option (List Stmt) :=
  match session.cache.find? source with
  | some statements =>
    let session := session.log "parse cache hit" [("statements", Text.ofNat statements.length)]
    ({ session with cache := session.cache.use source statements }, some statements)
  | none => session.compileAnew source

/-- Executes statements on the global bindings. -/
def execute (session : Session) (statements : List Stmt) : Session × Option Failure :=
  let start : Machine := ⟨.global session.globals, session.sink, #[], #[]⟩
  let (machine, failure) := match Stmt.executeAll session.budget statements start with
    | .ok () machine => (machine, none)
    | .error failure machine => (machine, some failure)
  let printed := machine.printed.map fun text => Event.printed (text ++ [Byte.newline])
  let entered := machine.entered.map fun entry => Event.logged ⟨"enter block",
    [("module", "interpreter"), ("depth", Text.ofNat entry.depth),
     ("statements", Text.ofNat entry.statements)]⟩
  ({ session with
      globals := machine.scopes.innermost
      sink := machine.sink
      events := session.events ++ printed ++ entered }, failure)

/-- Compiles a source and, when nothing stands against it, executes it. A runtime error is shown;
any other failure is returned. -/
def run (session : Session) (source : Text) : Session × Option Failure :=
  match session.compile source with
  | (session, none) => (session, none)
  | (session, some statements) =>
    if session.console.hadError then (session, none)
    else
      let (session, failure) := session.execute statements
      let session := session.log "interpreted" [("statements", Text.ofNat statements.length)]
      match failure with
      | some (.runtime error) => (session.reportRuntime error, none)
      | _ => (session, failure)

/-- Runs a line of an interactive session. Complaints about it do not stand against later lines. -/
def runLine (session : Session) (line : Text) : Session × Option Failure :=
  let (session, failure) := session.run line
  let session := session.reset
  (session.log "globals" [("names", Text.join (",") session.globals.names)], failure)

/-- Why running a file failed. -/
inductive FileFailure where
  | unreadable (path : Text) (error : FileError)
  | failed (failure : Failure)
deriving DecidableEq, Repr

/-- The wording of a failure to run a file. -/
def FileFailure.message : FileFailure → Text
  | unreadable path error => "read " ++ path ++ ": " ++ error.message
  | failed failure => failure.message

/-- Runs the content of a file. -/
def runFile (session : Session) (files : FileSystem) (path : Text) :
    Session × Option FileFailure :=
  match files.read path with
  | .error error => (session, some (.unreadable path error))
  | .ok source =>
    let session := session.log "running file"
      [("path", path), ("bytes", Text.ofNat source.length)]
    let (session, failure) := session.run source
    (session, failure.map .failed)

/-- The status that the session ends with. -/
def exitStatus (session : Session) : ExitStatus :=
  if session.console.hadError then .badData
  else if session.console.hadRuntimeError then .software
  else .ok

/-- Writes a text to the output as it is; if that fails nothing happens. -/
def write (session : Session) (text : Text) : Session :=
  match session.sink.write? with
  | some sink => { session with sink }.emit (.printed text)
  | none => session

end Session

end LoxLang
