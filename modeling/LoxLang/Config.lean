import LoxLang.File.System
import LoxLang.Log
import LoxLang.Parse

/-!
# Configuration

A configuration has six settings, each with a key in configuration files and a default, and the path
of the file it was loaded from. Four settings are texts and two are whole numbers. Any values can be
set; `Config.issues` lists what is wrong with them, and a configuration is valid when nothing is.

`Config.toml` writes the settings in the form that configuration files can have.
-/

namespace LoxLang

/-- The settings. -/
inductive Setting where
  | prompt
  | historyFile
  | color
  | verbosity
  | maxDepth
  | parseCacheSize
deriving DecidableEq, Repr

namespace Setting

/-- The settings in the order in which they are written. -/
def all : List Setting := [prompt, historyFile, color, verbosity, maxDepth, parseCacheSize]

/-- The key of a setting in a file. -/
def key : Setting → Text
  | prompt => "prompt"
  | historyFile => "history_file"
  | color => "color"
  | verbosity => "verbosity"
  | maxDepth => "max_depth"
  | parseCacheSize => "parse_cache_size"

/-- The setting with a key. -/
def ofKey? (key : Text) : Option Setting := all.find? fun setting => setting.key = key

/-- The name of a setting in complaints about its type. -/
def title : Setting → Text
  | prompt => "Prompt"
  | historyFile => "HistoryFile"
  | color => "Color"
  | verbosity => "Verbosity"
  | maxDepth => "MaxDepth"
  | parseCacheSize => "ParseCacheSize"

/-- Whether a setting is a whole number. -/
def isNumber : Setting → Bool
  | maxDepth | parseCacheSize => true
  | prompt | historyFile | color | verbosity => false

/-- The name of a setting's type. -/
def type (setting : Setting) : Text := if setting.isNumber then "int" else "string"

end Setting

/-- The name that complaints have for a whole configuration. -/
def configType : Text := "driver.Config"

/-- A configuration. -/
structure Config where
  prompt : Text := "> "
  historyFile : Text := ".lox_history"
  color : Text := "auto"
  verbosity : Text := "warn"
  maxDepth : Int := defaultNestingLimit
  parseCacheSize : Int := 128
  path : Text := []
deriving DecidableEq, Repr

/-- The least and the greatest whole number that a setting can have. -/
def inRange (number : Int) : Bool := -Int.pow 2 63 ≤ number && number < Int.pow 2 63

namespace Config

/-- The configuration with a text setting changed; a setting that is a number stays as it is. -/
def setText (config : Config) (value : Text) : Setting → Config
  | .prompt => { config with prompt := value }
  | .historyFile => { config with historyFile := value }
  | .color => { config with color := value }
  | .verbosity => { config with verbosity := value }
  | .maxDepth | .parseCacheSize => config

/-- The configuration with a numeric setting changed; a setting that is a text stays as it is. -/
def setNumber (config : Config) (value : Int) : Setting → Config
  | .maxDepth => { config with maxDepth := value }
  | .parseCacheSize => { config with parseCacheSize := value }
  | .prompt | .historyFile | .color | .verbosity => config

/-- What can be wrong with the settings of a configuration. -/
inductive Issue where
  | color (value : Text)
  | verbosity (value : Text)
  | negative (setting : Setting)
  | other (text : Text)
deriving DecidableEq, Repr

/-- The wording of an issue. -/
def Issue.message : Issue → Text
  | color value => "color must be one of auto, always, never (got " ++ value.quoted ++ ")"
  | verbosity value => "verbosity " ++ value.quoted ++ " is not a log level"
  | negative setting => setting.key ++ " must not be negative"
  | other text => text

/-- The colour modes. -/
def colorModes : List Text := ["auto", "always", "never"]

/-- What is wrong with a configuration, in the order of its settings. -/
def issues (config : Config) : List Issue :=
  (if colorModes.contains config.color then [] else [.color config.color])
    ++ (if (Log.Level.ofName? config.verbosity).isSome then [] else [.verbosity config.verbosity])
    ++ (if config.maxDepth < 0 then [.negative .maxDepth] else [])
    ++ (if config.parseCacheSize < 0 then [.negative .parseCacheSize] else [])

/-- A line of a configuration file. -/
def line (setting : Setting) (value : Text) : Text :=
  setting.key ++ " = " ++ value ++ [Byte.newline]

/-- A configuration as the text of a file. -/
def toml (config : Config) : Text :=
  line .prompt config.prompt.quoted
    ++ line .historyFile config.historyFile.quoted
    ++ line .color config.color.quoted
    ++ line .verbosity config.verbosity.quoted
    ++ line .maxDepth (Text.ofInt config.maxDepth)
    ++ line .parseCacheSize (Text.ofInt config.parseCacheSize)

/-- Where the history is kept, given the user's home directory, which is empty if it is unknown. An
absolute path is kept as it is, and so is an empty one, which means that there is no history. -/
def historyPath (config : Config) (home : Text) : Text :=
  if config.historyFile = [] || Path.isAbsolute config.historyFile || home = [] then
    config.historyFile
  else Path.join home config.historyFile

end Config

end LoxLang
