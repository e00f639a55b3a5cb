import LoxLang.Text

/-!
# Commands and their help

The commands of the program, the flags that go before them, and the texts that explain them.
-/

namespace LoxLang

/-- The commands. -/
inductive Command where
  | run
  | repl
  | tokens
  | ast
  | config
  | help
deriving DecidableEq, Repr

namespace Command

/-- The commands in the order in which they are explained. -/
def all : List Command := [run, repl, tokens, ast, config, help]

/-- The names of a command. -/
def names : Command → List Text
  | run => ["run"]
  | repl => ["repl"]
  | tokens => ["tokens"]
  | ast => ["ast"]
  | config => ["config"]
  | help => ["help", "h"]

/-- The command with a name. -/
def ofName? (name : Text) : Option Command := all.find? fun command => command.names.contains name

/-- What a command does. -/
def purpose : Command → Text
  | run => "Run a script"
  | repl => "Start an interactive prompt"
  | tokens => "Print the token stream of a script as a table"
  | ast => "Print the syntax tree of a script"
  | config => "Show effective configuration values as TOML"
  | help => "Shows a list of commands or help for one command"

/-- The name of a command in its help. The command that shows the help has none. -/
def title : Command → Text
  | run => "lox run"
  | repl => "lox repl"
  | tokens => "lox tokens"
  | ast => "lox ast"
  | config => "lox config"
  | help => []

/-- The arguments of a command in its help. -/
def arguments : Command → Text
  | run | tokens | ast => "<script>"
  | repl | config => "[arguments...]"
  | help => "[command]"

/-- The help for a command. -/
def manual (command : Command) : Text :=
  "NAME:\n   " ++ command.title ++ " - " ++ command.purpose ++ "\n\nUSAGE:\n   " ++ command.title
    ++ " " ++ command.arguments ++ "\n"

end Command

namespace Help

/-- The flags before the command, and what they are for. -/
def flags : List (Text × Text) :=
  [("--config value", "YAML or TOML configuration file "
      ++ "(default: nearest lox.yml, lox.yaml or lox.toml)"),
   ("--verbosity value", "log level: crit, error, warn, info, debug"),
   ("--color value", "color diagnostics: auto, always, never"),
   ("--max-depth value", "maximum syntax nesting depth (0 disables the limit) (default: 0)"),
   ("--help, -h", "show help"),
   ("--version, -v", "print the version")]

/-- The commands, and what they are for. -/
def commands : List (Text × Text) :=
  Command.all.map fun command => (Text.join (", ") command.names, command.purpose)

/-- Lines of two columns, the second two columns to the right of the first, after a margin. -/
def columns (margin : Nat) (rows : List (Text × Text)) : Text :=
  let width := (rows.map fun row => row.1.length).foldl max 0
  rows.flatMap fun (left, right) =>
    List.replicate margin Byte.space ++ left
      ++ List.replicate (width + 2 - left.length) Byte.space ++ right ++ [Byte.newline]

/-- What the program does. -/
def purpose : Text := "tree-walking interpreter for the Lox language"

/-- The version of the program. -/
def version : Text := "0.1.0-dev"

/-- The line that shows the version. -/
def versionLine : Text := "lox version " ++ version ++ "\n"

/-- The help for the program. -/
def manual : Text :=
  "NAME:\n   lox - " ++ purpose
    ++ "\n\nUSAGE:\n   lox [global options] command [command options] [script]"
    ++ "\n\nVERSION:\n   " ++ version
    ++ "\n\nCOMMANDS:\n" ++ columns 5 commands
    ++ "\nGLOBAL OPTIONS:\n" ++ columns 3 flags

/-- The help for a command with an empty name, which is the program as a command. -/
def nameless : Text :=
  "NAME:\n   lox - " ++ purpose
    ++ "\n\nUSAGE:\n   lox command [command options] [script]"
    ++ "\n\nCOMMANDS:\n" ++ columns 5 commands
    ++ "\nOPTIONS:\n" ++ columns 3 flags ++ "   \n"

end Help

end LoxLang
