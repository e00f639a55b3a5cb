import LoxLang.Config.FromToml
import LoxLang.Config.FromYaml
import LoxLang.File.Ascent

/-!
# Configuration files

A configuration is loaded from a file in one of two formats, told apart by the ending of its name,
and must be valid. When no file is named, the nearest one is taken: from a directory up to the root,
the first that holds a file with one of the three names for configurations. If there is none, the
defaults hold.
-/

namespace LoxLang.Config

/-- Why a file gives no configuration. -/
inductive Cause where
  | emptyPath
  | unopened (error : FileError)
  | unsupported (extension : Text)
  | unreadable (path : Text) (error : FileError)
  | yaml (path : Text) (error : YamlError)
  | toml (path : Text) (error : TomlError)
  | other (text : Text)
deriving DecidableEq, Repr

/-- The wording of a cause. -/
def Cause.message : Cause → Text
  | emptyPath => "empty path"
  | unopened error => error.message
  | unsupported extension => "unsupported format " ++ extension.quoted
  | unreadable path error => "parse " ++ path ++ ": " ++ error.message
  | yaml path error => "parse " ++ path ++ ": " ++ error.message
  | toml path error => path ++ ", " ++ error.message
  | other text => text

/-- A configuration that cannot be used: the file it is from, what is wrong with its settings, and
why there is none at all if that is so. -/
structure Error where
  path : Text := []
  issues : List Issue := []
  cause : Option Cause := none
deriving DecidableEq, Repr

namespace Error

/-- Whether the file is missing. -/
def isMissingFile (error : Error) : Bool :=
  match error.cause with
  | some (.unopened error) => error.fault = .notFound
  | _ => false

/-- The line of an issue in the wording of an error. -/
def issueLine (issue : Issue) : Text := "\n- " ++ issue.message

/-- The wording of an error. -/
def message (error : Error) : Text :=
  match error.cause with
  | some cause => "config: " ++ cause.message
  | none =>
    if error.issues = [] then "config: invalid configuration"
    else
      let source : Text := if error.path = [] then [] else " for " ++ error.path
      "config validation failed" ++ source ++ ":" ++ error.issues.flatMap issueLine

end Error

/-- The configuration if it is valid. -/
def validate (config : Config) : Except Error Config :=
  if config.issues = [] then .ok config
  else .error { path := config.path, issues := config.issues }

/-- The formats of configuration files. -/
inductive Format where
  | yaml
  | toml
deriving DecidableEq, Repr

/-- The format of files whose names end in an extension, in any case. -/
def Format.ofExtension? (extension : Text) : Option Format :=
  let lower := extension.lowercase
  if lower = (".yml" : Text) || lower = (".yaml" : Text) then some .yaml
  else if lower = (".toml" : Text) then some .toml
  else none

/-- The configuration in a file that has been opened. -/
def decode (format : Format) (path : Text) (entry : FileEntry) : Except Cause Config :=
  match format, FileSystem.contentOf path entry with
  | .yaml, .error error => .error (.yaml path (.unreadable error))
  | .toml, .error error => .error (.unreadable path error)
  | .yaml, .ok content =>
    match ofYaml content with
    | .ok config => .ok config
    | .error error => .error (.yaml path error)
  | .toml, .ok content =>
    match ofToml content with
    | .ok config => .ok config
    | .error error => .error (.toml path error)

/-- Loads the configuration in a file, which must be valid. -/
def load (files : FileSystem) (path : Text) : Except Error Config :=
  if path = [] then .error { cause := some .emptyPath }
  else
    let path := files.absolute path
    let failed (cause : Cause) : Except Error Config := .error { path, cause := some cause }
    match files.findFor "open" path with
    | .error error => failed (.unopened error)
    | .ok entry =>
      match Format.ofExtension? (Path.extension path) with
      | none => failed (.unsupported (Path.extension path))
      | some format =>
        match decode format path entry with
        | .error cause => failed cause
        | .ok config => { config with path }.validate

/-- The names of configuration files, the preferred ones first. -/
def names : List Text := ["lox.yml", "lox.yaml", "lox.toml"]

/-- Why no configuration file was found. -/
inductive Lost where
  | nowhere (origin : Text)
  | stopped (error : FileError)
deriving DecidableEq, Repr

/-- The wording of that. -/
def Lost.message : Lost → Text
  | nowhere origin => "no lox config found from " ++ origin ++ " upwards: config file not found"
  | stopped error => error.message

/-- The first of some names that is that of a file in a directory. A fault other than that there is
nothing stops the search. -/
def findIn (files : FileSystem) (directory : Text) : List Text → Except FileError (Option Text)
  | [] => .ok none
  | name :: rest =>
    let path := Path.join directory name
    match files.find path with
    | .ok (.file _) => .ok (some path)
    | .ok .directory | .error .notFound => findIn files directory rest
    | .error fault => .error ⟨"stat", path, fault⟩

/-- The nearest configuration file from a directory upwards, for a search with the given origin. It
stops at the directory that is its own. -/
def findFrom (files : FileSystem) (origin directory : Text) : Except Lost Text :=
  match findIn files directory names with
  | .error error => .error (.stopped error)
  | .ok (some path) => .ok path
  | .ok none =>
    if Path.parent directory = directory then .error (.nowhere origin)
    else findFrom files origin (Path.parent directory)
termination_by Path.height directory
decreasing_by exact Path.height_parent_lt ‹_›

/-- The directory that a search starts in: the path, or the directory of the file it leads to. -/
def originOf (files : FileSystem) (start : Text) : Text :=
  let path := files.absolute start
  match files.find path with
  | .ok (.file _) => Path.parent path
  | .ok .directory | .error _ => path

/-- The nearest configuration file from a path upwards. -/
def find (files : FileSystem) (start : Text) : Except Lost Text :=
  let origin := originOf files start
  findFrom files origin origin

/-- Why there is no configuration. -/
inductive Unresolved where
  | stopped (error : FileError)
  | unusable (error : Error)
deriving DecidableEq, Repr

/-- The wording of that. -/
def Unresolved.message : Unresolved → Text
  | stopped error => error.message
  | unusable error => error.message

/-- The configuration in a file, or in the nearest one when the path is empty, or the defaults when
there is none. -/
def resolve (files : FileSystem) (path start : Text) : Except Unresolved Config :=
  let loaded (path : Text) : Except Unresolved Config :=
    match load files path with
    | .ok config => .ok config
    | .error error => .error (.unusable error)
  if path = [] then
    match find files start with
    | .ok path => loaded path
    | .error (.nowhere _) => .ok {}
    | .error (.stopped error) => .error (.stopped error)
  else loaded path

end LoxLang.Config
