import LoxLang.Config
import LoxLang.Toml.Tables

/-!
# Configurations from TOML documents

The keys of a document set the settings of a configuration. A key must be that of a setting, and its
value must be a string or a whole number, whichever the setting is; a number must be in range. The
first key that does not fit is reported with its line.
-/

namespace LoxLang.Config

/-- What can be wrong with a TOML document as a configuration. -/
inductive TomlFault where
  | document (fault : Toml.Fault)
  | undefined (key : Text)
  | unsettable (key : Text)
  | mismatch (setting : Setting) (sort : Text)
  | array (setting : Setting) (sort : Text)
  | table (setting : Setting)
  | outOfRange (setting : Setting) (digits : Text)
deriving DecidableEq, Repr

/-- The name of a setting in complaints about its value. -/
def TomlFault.subject (setting : Setting) : Text :=
  "(" ++ configType ++ "." ++ setting.title ++ ") "

/-- A complaint about the sort of a value. -/
def TomlFault.cannot (setting : Setting) (sort : Text) : Text :=
  "cannot unmarshal TOML " ++ sort ++ " into " ++ setting.type

/-- The wording of a fault. -/
def TomlFault.message : TomlFault → Text
  | document fault => fault.message
  | undefined key => "field '" ++ key ++ "' is not defined in " ++ configType
  | unsettable key =>
    "field corresponding to `" ++ key ++ "' in " ++ configType ++ " cannot be set through TOML"
  | mismatch setting sort => subject setting ++ cannot setting sort
  | array setting sort => subject setting ++ cannot setting sort ++ " (need slice)"
  | table setting => cannot setting "table" ++ " (need struct or map)"
  | outOfRange setting digits =>
    subject setting ++ "value " ++ digits ++ " is out of range for " ++ setting.type

/-- A fault on a line. -/
structure TomlError where
  line : Nat
  fault : TomlFault
deriving DecidableEq, Repr

/-- The wording of a fault on a line. -/
def TomlError.message (error : TomlError) : Text :=
  "line " ++ Text.ofNat error.line ++ ": " ++ error.fault.message

/-- The number that digits with an optional sign denote. -/
def numberOf : Text → Int
  | 0x2D :: digits => -(Text.toNat digits : Int)
  | 0x2B :: digits => (Text.toNat digits : Int)
  | digits => (Text.toNat digits : Int)

/-- A configuration with a setting changed to a value. -/
def setFromToml (config : Config) (setting : Setting) : Toml.Value → Except TomlFault Config
  | .string content =>
    if setting.isNumber then .error (.mismatch setting "string")
    else .ok (config.setText (content.getD []) setting)
  | .integer digits =>
    if !setting.isNumber then .error (.mismatch setting "integer")
    else if inRange (numberOf digits) then .ok (config.setNumber (numberOf digits) setting)
    else .error (.outOfRange setting digits)
  | .float => .error (.mismatch setting "float")
  | .boolean => .error (.mismatch setting "boolean")
  | .datetime => .error (.mismatch setting "datetime")
  | .array _ => .error (.array setting "array")
  | .table _ => .error (.table setting)

/-- Keys that could only mean the path, which no file can set. -/
def meansPath (key : Text) : Bool := key.lowercase.filter (· ≠ Byte.underscore) = ("path" : Text)

/-- A configuration with the setting of a key changed. -/
def setFromNode (config : Config) (key : Text) (node : Toml.Node) : Except TomlError Config :=
  let line := match node with
    | .value line _ | .table line _ _ | .tables line _ => line
  let failed (fault : TomlFault) : Except TomlError Config := .error ⟨line, fault⟩
  match Setting.ofKey? key with
  | none => failed (if meansPath key then .unsettable key else .undefined key)
  | some setting =>
    match node with
    | .value _ value =>
      match config.setFromToml setting value with
      | .ok config => .ok config
      | .error fault => failed fault
    | .table _ _ _ => failed (.table setting)
    | .tables _ _ => failed (.array setting "array table")

/-- The configuration of a document: the defaults with the settings of the document changed. -/
def ofToml (document : Text) : Except TomlError Config :=
  match Toml.read document with
  | .error error => .error ⟨error.line, .document error.fault⟩
  | .ok nodes => nodes.foldlM (fun config (key, node) => config.setFromNode key node) {}

end LoxLang.Config
