import LoxLang.Command.Flags
import LoxLang.Command.Help
import LoxLang.Config.Locate
import LoxLang.Repl
import LoxLang.Table
import LoxLang.Tree.Printed

/-!
# The command line

The arguments are flags and then a command with its own arguments; an argument that is no command
is a script to run, and without arguments the prompt starts. Most of the flags override settings of
the configuration that is in effect.

A run of the program is decided in two steps. `CommandLine.plan` says what the arguments ask for:
it is done, with a status and what was written, or a prompt is to be started with a session. What
the prompt then does depends on the input; `CommandLine.perform` does both steps for an input that
is there as a whole.
-/

namespace LoxLang

/-- What the program runs on: files, an output that may fail, the budget of loops, and whether
complaints go to a terminal. -/
structure Environment where
  files : FileSystem
  sink : Sink
  budget : Nat
  terminal : Bool

/-- What a run has written so far. -/
structure Streams where
  sink : Sink
  output : Text := []
  errors : Text := []
deriving DecidableEq, Repr

namespace Streams

/-- Writes a text to the output; nothing happens if that fails. -/
def write (streams : Streams) (text : Text) : Streams :=
  match streams.sink.write? with
  | some sink => { streams with sink, output := streams.output ++ text }
  | none => streams

/-- Writes texts to the output one after the other, as many as it takes. -/
def writeAll (streams : Streams) (texts : List Text) : Streams :=
  match streams.sink.room with
  | none => { streams with output := streams.output ++ texts.flatten }
  | some room =>
    { streams with
      sink := ⟨some (room - texts.length)⟩
      output := streams.output ++ (texts.take room).flatten }

/-- Writes a line to where complaints go. -/
def complain (streams : Streams) (line : Text) : Streams :=
  { streams with errors := streams.errors ++ line ++ [Byte.newline] }

end Streams

/-- A run that is over: its status and what it has written. -/
structure Outcome where
  status : ExitStatus
  output : Text
  errors : Text
deriving DecidableEq, Repr

/-- A run that ends with a status. -/
def Streams.finish (streams : Streams) (status : ExitStatus) : Outcome :=
  ⟨status, streams.output, streams.errors⟩

/-- Why a command fails. -/
inductive CommandError where
  | usage (message : Text)
  | config (error : Config.Error)
  | file (message : Text)
  | other (message : Text)
deriving DecidableEq, Repr

/-- The end of a run with an error. How the program is to be called is shown on the output. -/
def Streams.fail (streams : Streams) : CommandError → Outcome
  | .usage message => (streams.write (message ++ [Byte.newline])).finish .usage
  | .config error => (streams.complain error.message).finish .badConfig
  | .file message => (streams.complain message).finish .noInput
  | .other message => (streams.complain message).finish .software

/-- The settings that flags override. -/
structure Overrides where
  configPath : Text := []
  verbosity : Option Text := none
  color : Option Text := none
  maxDepth : Option Int := none
deriving DecidableEq, Repr

/-- The overrides in the flags that were given. -/
def Overrides.ofFlags (parsed : Flags.Parsed) : Overrides where
  configPath := (parsed.text? "config").getD []
  verbosity := parsed.text? "verbosity"
  color := parsed.text? "color"
  maxDepth := parsed.number? "max-depth"

/-- A configuration with some settings overridden. -/
def Overrides.apply (overrides : Overrides) (config : Config) : Config :=
  { config with
    verbosity := overrides.verbosity.getD config.verbosity
    color := overrides.color.getD config.color
    maxDepth := overrides.maxDepth.getD config.maxDepth }

/-- The configuration in effect, which must be valid before and after it is overridden. -/
def Overrides.config (overrides : Overrides) (files : FileSystem) : Except CommandError Config :=
  match Config.resolve files overrides.configPath "." with
  | .error (.stopped error) => .error (.file error.message)
  | .error (.unusable error) => .error (.config error)
  | .ok config =>
    match (overrides.apply config).validate with
    | .ok config => .ok config
    | .error error => .error (.config error)

/-- Whether a configuration asks for the log to be written. -/
def Config.isLogged (config : Config) : Bool :=
  Log.Level.ofName? config.verbosity = some .debug

/-- The use of a command that takes a script. -/
def Command.usage (command : Command) : Text :=
  "Usage: " ++ command.title ++ " " ++ command.arguments

namespace CommandLine

/-- The console of a configuration. -/
def consoleOf (environment : Environment) (config : Config) : Console :=
  .new (Console.colorEnabled config.color environment.terminal)

/-- A session of a configuration. -/
def sessionOf (environment : Environment) (config : Config) : Session :=
  let session := Session.new config.maxDepth config.parseCacheSize environment.budget
    (consoleOf environment config) environment.sink
  if config.path = [] then session else session.log "loaded config" [("path", config.path)]

/-- What an event puts where complaints go. -/
def errorsOf (config : Config) (event : Event) : Text :=
  event.console ++ (if config.isLogged then event.log else [])

/-- The streams after a session. -/
def streamsOf (config : Config) (session : Session) : Streams where
  sink := session.sink
  output := session.events.toList.flatMap (·.output)
  errors := session.events.toList.flatMap (errorsOf config)

/-- Runs a script. -/
def runScript (environment : Environment) (config : Config) (path : Text) : Outcome :=
  let (session, failure) := (sessionOf environment config).runFile environment.files path
  let streams := streamsOf config session
  match failure with
  | none => streams.finish session.exitStatus
  | some (.unreadable path error) =>
    streams.fail (.file (Session.FileFailure.unreadable path error).message)
  | some (.failed failure) => streams.fail (.other failure.message)

/-- Streams on which diagnostics have been shown. -/
def showing (environment : Environment) (config : Config) (diagnostics : List Diagnostic) :
    Streams where
  sink := environment.sink
  errors := diagnostics.flatMap (consoleOf environment config).diagnosticLine

/-- The header of the table of tokens. -/
def tokenHeader : List Text := ["Line", "Type", "Lexeme", "Literal"]

/-- The row of a token in the table. -/
def tokenRow (token : Token) : List Text :=
  [Text.ofInt token.line, Text.ofString token.kind.name, token.lexeme, token.literal.cell]

/-- Prints the tokens of a source. -/
def printTokens (environment : Environment) (config : Config) (source : Text) : Outcome :=
  let scan := scan source
  let streams := showing environment config scan.diagnostics
  let streams := streams.writeAll (Table.pieces tokenHeader (scan.tokens.map tokenRow))
  streams.finish (if scan.diagnostics = [] then .ok else .badData)

/-- Prints the statements of a source, if nothing is wrong with it. -/
def printTree (environment : Environment) (config : Config) (source : Text) : Outcome :=
  let scan := scan source
  let parsed := parse config.maxDepth scan.tokens
  let diagnostics := scan.diagnostics ++ parsed.diagnostics
  let streams := showing environment config diagnostics
  match parsed.outcome with
  | .error _ => streams.finish .badData
  | .ok statements =>
    if diagnostics ≠ [] then streams.finish .badData
    else if statements.isEmpty then streams.finish .ok
    else (streams.write (Stmt.printedProgram statements ++ [Byte.newline])).finish .ok

/-- Prints the configuration, after the path of its file if it has one. -/
def printConfig (environment : Environment) (config : Config) : Outcome :=
  let streams : Streams := { sink := environment.sink }
  let streams := if config.path = [] then streams
    else streams.write ("# Loaded from " ++ config.path ++ "\n\n")
  match streams.sink.write? with
  | some _ => (streams.write config.toml).finish .ok
  | none => streams.fail (.other "sink closed")

/-- What a run comes to: it is over, or a prompt starts. -/
inductive Plan where
  | over (outcome : Outcome)
  | prompt (config : Config) (session : Session)

/-- A run that only writes a text. -/
def saying (environment : Environment) (text : Text) : Plan :=
  .over (({ sink := environment.sink : Streams }.write text).finish .ok)

/-- A run that fails at once. -/
def failing (environment : Environment) (error : CommandError) : Plan :=
  .over ({ sink := environment.sink : Streams }.fail error)

/-- What is done with the configuration in effect. -/
def withConfig (environment : Environment) (overrides : Overrides) (plan : Config → Plan) : Plan :=
  match overrides.config environment.files with
  | .ok config => plan config
  | .error error => failing environment error

/-- What is done with the one script that a command takes, given its use and the arguments. -/
def withScript (environment : Environment) (usage : Text) (plan : Text → Plan) : List Text → Plan
  | [path] => plan path
  | _ => failing environment (.usage usage)

/-- What is done with the content of a script. -/
def withSource (environment : Environment) (path : Text) (outcome : Text → Outcome) : Plan :=
  match environment.files.read path with
  | .ok source => .over (outcome source)
  | .error error => failing environment (.file error.message)

/-- Shows the help for the program or for a command. -/
def planHelp (environment : Environment) : List Text → Plan
  | [] => saying environment Help.manual
  | name :: _ =>
    if name = [] then saying environment Help.nameless
    else match Command.ofName? name with
      | some command => saying environment command.manual
      | none =>
        .over (({ sink := environment.sink : Streams }.complain
          ("No help topic for '" ++ name ++ "'")).finish .noHelpTopic)

/-- What a command comes to with its arguments. -/
def planCommand (environment : Environment) (overrides : Overrides) (command : Command)
    (arguments : List Text) : Plan :=
  match command with
  | .run => withScript environment Command.run.usage (fun path =>
      withConfig environment overrides fun config =>
        .over (runScript environment config path)) arguments
  | .tokens => withScript environment Command.tokens.usage (fun path =>
      withConfig environment overrides fun config =>
        withSource environment path (printTokens environment config)) arguments
  | .ast => withScript environment Command.ast.usage (fun path =>
      withConfig environment overrides fun config =>
        withSource environment path (printTree environment config)) arguments
  | .repl => withConfig environment overrides fun config =>
      .prompt config (sessionOf environment config)
  | .config => withConfig environment overrides fun config => .over (printConfig environment config)
  | .help => planHelp environment arguments

/-- The flag that asks for help, in its two forms. -/
def helpFlags : List (Text × Flags.Kind) := [("help", .switch), ("h", .switch)]

/-- The flags before a command. -/
def globalFlags : List (Text × Flags.Kind) :=
  [("config", .text), ("verbosity", .text), ("color", .text), ("max-depth", .number),
   ("help", .switch), ("h", .switch), ("version", .switch), ("v", .switch)]

/-- The complaint about a flag that was given in both of its forms. -/
def bothForms? (parsed : Flags.Parsed) (long short : Text) : Option Text :=
  if parsed.has long && parsed.has short then
    some ("Cannot use two forms of the same flag: " ++ short ++ " " ++ long)
  else none

/-- Whether help is asked for. -/
def wantsHelp (parsed : Flags.Parsed) : Bool := parsed.isOn "help" || parsed.isOn "h"

/-- An argument that is a flag by its looks. -/
def looksLikeFlag (argument : Text) : Bool :=
  argument.head? = some 0x2D && argument ≠ ("-" : Text)

/-- The arguments of a command with its flags put first: from the first flag on, up to two dashes
alone, which end them. -/
def flagsFirst (arguments : List Text) : List Text :=
  let ending := ("--" : Text)
  let before := arguments.takeWhile (· ≠ ending)
  let after := arguments.drop before.length
  let plain := before.takeWhile fun argument => !looksLikeFlag argument
  let flags := before.drop plain.length
  if flags = [] then arguments else flags ++ plain ++ after

/-- What a command comes to with its flags and arguments. -/
def planWithFlags (environment : Environment) (overrides : Overrides) (command : Command)
    (arguments : List Text) : Plan :=
  let parsed := Flags.parse helpFlags (flagsFirst arguments)
  let explained (opening complaint : Text) : Plan :=
    .over (({ sink := environment.sink : Streams }.writeAll
      [opening ++ [Byte.newline], [Byte.newline], command.manual]).fail (.other complaint))
  match bothForms? parsed "help" "h", parsed.fault with
  | some complaint, _ => explained complaint complaint
  | none, some fault => explained ("Incorrect Usage: " ++ fault.message) fault.message
  | none, none =>
    if wantsHelp parsed then saying environment command.manual
    else planCommand environment overrides command parsed.rest

/-- What arguments without a command come to. -/
def planDefault (environment : Environment) (overrides : Overrides) : List Text → Plan
  | [] => planCommand environment overrides .repl []
  | [path] => planCommand environment overrides .run [path]
  | _ => failing environment (.usage "Usage: lox [script]")

/-- What the arguments of the program come to. -/
def plan (environment : Environment) (arguments : List Text) : Plan :=
  let parsed := Flags.parse globalFlags arguments
  let overrides := Overrides.ofFlags parsed
  let twice := (bothForms? parsed "help" "h").or (bothForms? parsed "version" "v")
  match twice, parsed.fault with
  | some complaint, _ =>
    .over (({ sink := environment.sink : Streams }.writeAll
      [complaint ++ [Byte.newline], Help.manual]).fail (.other complaint))
  | none, some fault => failing environment (.usage fault.message)
  | none, none =>
    if wantsHelp parsed then saying environment Help.manual
    else if parsed.isOn "version" || parsed.isOn "v" then saying environment Help.versionLine
    else match parsed.rest with
      | [] => planDefault environment overrides []
      | name :: rest =>
        match Command.ofName? name with
        | some command => planWithFlags environment overrides command rest
        | none => planDefault environment overrides (name :: rest)

/-- The paths that a run with the given arguments may look at, from a working directory: the scripts
and the configuration file that the arguments name, and where a configuration file may be found. -/
def pathsOf (workingDirectory : Text) (arguments : List Text) : List Text :=
  let named := (Overrides.ofFlags (Flags.parse globalFlags arguments)).configPath
  let nearby := (Path.upwards workingDirectory).flatMap fun directory =>
    Config.names.map (Path.join directory)
  arguments ++ Path.absolute workingDirectory named :: workingDirectory :: nearby

/-- The end of a prompt. -/
def afterPrompt (config : Config) (session : Session) (failure : Option Repl.Failure) : Outcome :=
  let streams := streamsOf config session
  match failure with
  | none => streams.finish .ok
  | some failure => streams.fail (.other failure.message)

/-- Runs the program on an input. -/
def perform (environment : Environment) (arguments : List Text) (input : Text) : Outcome :=
  match plan environment arguments with
  | .over outcome => outcome
  | .prompt config session =>
    let (session, failure) := Repl.serve config.prompt session input
    afterPrompt config session failure

end CommandLine

end LoxLang
