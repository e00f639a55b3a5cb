import LoxLang.Config
import LoxLang.Yaml.Meaning
import LoxLang.Yaml.Node

/-!
# Configurations from YAML documents

A document must be a mapping, and its keys set the settings of a configuration. A setting that is a
text takes any scalar by its text; a setting that is a number takes whole numbers, and the whole
part of floats. A value that means nothing leaves the setting as it is. All that does not fit is
reported together; but if a key is there twice, only such keys are.
-/

namespace LoxLang.Config

/-- What does not fit in a document as a configuration. -/
inductive YamlFault where
  | undefined (key : Text)
  | keyAgain (key : Text) (line : Nat)
  | scalar (tag text target : Text)
  | collection (tag target : Text)
deriving DecidableEq, Repr

/-- The beginning of a text when it is long. -/
def YamlFault.excerpt (text : Text) : Text :=
  if 10 < text.length then text.take 7 ++ "..." else text

/-- The wording of what does not fit. -/
def YamlFault.message : YamlFault → Text
  | undefined key => "field " ++ key ++ " not found in type " ++ configType
  | keyAgain key line =>
    "mapping key " ++ key.quoted ++ " already defined at line " ++ Text.ofNat line
  | scalar tag text target =>
    "cannot unmarshal " ++ tag ++ " `" ++ excerpt text ++ "` into " ++ target
  | collection tag target => "cannot unmarshal " ++ tag ++ " into " ++ target

/-- What is wrong with a YAML text as a configuration: the text itself, or what is on some lines. -/
inductive YamlError where
  | unreadable (error : FileError)
  | document (fault : Yaml.Fault)
  | lines (faults : List (Nat × YamlFault))
deriving DecidableEq, Repr

/-- The wording of what does not fit on a line. -/
def YamlFault.lineMessage (line : Nat) (fault : YamlFault) : Text :=
  "\n  line " ++ Text.ofNat line ++ ": " ++ fault.message

/-- The wording of what is wrong. -/
def YamlError.message : YamlError → Text
  | unreadable error => "yaml: input error: " ++ error.message
  | document fault => "yaml: " ++ fault.message
  | lines faults =>
    Text.ofString "yaml: unmarshal errors:"
      ++ faults.flatMap fun (line, fault) => fault.lineMessage line

/-- The tag of a scalar: the one that is written, or else that of its meaning. -/
def tagOf (written : Option Text) (text : Text) (isPlain : Bool) : Text :=
  match written with
  | some tag => tag
  | none => if isPlain then (Yaml.Meaning.ofPlain text).tag else Yaml.Meaning.text.tag

/-- The meaning of a scalar. A written tag must be the one of its form, except that any text is a
string and a whole number is a float too. -/
def meaningOf (written : Option Text) (text : Text) (isPlain : Bool) :
    Except Yaml.Fault Yaml.Meaning :=
  let formed := Yaml.Meaning.ofPlain text
  match written with
  | none => .ok (if isPlain then formed else .text)
  | some tag =>
    if tag = Yaml.Meaning.text.tag then .ok .text
    else if tag = formed.tag then .ok formed
    else match formed with
      | .whole value =>
        if tag = (Yaml.Meaning.float ⟨0⟩).tag then .ok (.whole value) else unfit tag formed
      | _ => unfit tag formed
where
  unfit (tag : Text) (formed : Yaml.Meaning) : Except Yaml.Fault Yaml.Meaning :=
    .error (.unreadable ("cannot decode " ++ formed.tag ++ " `" ++ text ++ "` as a " ++ tag))

/-- The whole number that a float is taken for. The whole part of a float that is not in range is
the least number, or there is none if the float is too large or not a number. -/
def numberOfFloat? (value : Number) : Option Int :=
  if value.isNaN then none
  else
    let whole := if value.isInfinite then (if value.isNegative then -Int.pow 2 64 else Int.pow 2 64)
      else value.truncated
    if Int.pow 2 63 < whole then none
    else if inRange whole then some whole
    else some (-Int.pow 2 63)

/-- The document's complaints so far and the configuration at hand. -/
structure YamlState where
  config : Config := {}
  faults : List (Nat × YamlFault) := []

/-- The state with one more complaint. -/
def YamlState.complain (state : YamlState) (line : Nat) (fault : YamlFault) : YamlState :=
  { state with faults := state.faults ++ [(line, fault)] }

/-- The state after a setting has got a value. -/
def YamlState.set (state : YamlState) (setting : Setting) :
    Yaml.Node → Except Yaml.Fault YamlState
  | .sequence line _ => .ok (state.complain line (.collection "!!seq" setting.type))
  | .mapping line _ => .ok (state.complain line (.collection "!!map" setting.type))
  | .scalar line tag text isPlain => do
    let meaning ← meaningOf tag text isPlain
    let unfit := state.complain line (.scalar (tagOf tag text isPlain) text setting.type)
    let taken (value : Int) := { state with config := state.config.setNumber value setting }
    if meaning = .null then return state
    else if setting.isNumber then
      match meaning with
      | .whole value => return if inRange value then taken value else unfit
      | .float value =>
        match numberOfFloat? value with
        | some value => return taken value
        | none => return unfit
      | _ => return unfit
    else return { state with config := state.config.setText text setting }

/-- The state after a key with its value. A key that means nothing is passed over. -/
def YamlState.enter (state : YamlState) (pair : Yaml.Node × Yaml.Node) :
    Except Yaml.Fault YamlState :=
  match pair.1 with
  | .sequence line _ => .ok (state.complain line (.collection "!!seq" "string"))
  | .mapping line _ => .ok (state.complain line (.collection "!!map" "string"))
  | .scalar line tag text isPlain => do
    if (← meaningOf tag text isPlain) = .null then return state
    else match Setting.ofKey? text with
      | some setting => state.set setting pair.2
      | none => return state.complain line (.undefined text)

/-- What two keys have in common when they are the same: their sort, and the text of scalars. -/
def identity : Yaml.Node → Nat × Text
  | .scalar _ _ text _ => (0, text)
  | .sequence _ _ => (1, [])
  | .mapping _ _ => (2, [])

/-- The keys that are there again, each with the line of the earlier one. -/
def repeated : List Yaml.Node → List (Nat × YamlFault)
  | [] => []
  | key :: rest =>
    (rest.filter fun later => identity later = identity key).map
        (fun later => (later.line, .keyAgain (identity later).2 key.line))
      ++ repeated rest

/-- The state after a whole document. -/
def YamlState.ofNode : Yaml.Node → Except Yaml.Fault YamlState
  | .sequence line _ => .ok (YamlState.complain {} line (.collection "!!seq" configType))
  | .scalar line tag text isPlain => do
    if (← meaningOf tag text isPlain) = .null then return {}
    else
      return YamlState.complain {} line (.scalar (tagOf tag text isPlain) text configType)
  | .mapping _ pairs =>
    match repeated (pairs.map (·.1)) with
    | [] => pairs.foldlM YamlState.enter {}
    | faults => .ok { faults }

/-- The configuration of a text: the defaults with the settings of its first document changed. -/
def ofYaml (text : Text) : Except YamlError Config :=
  let read : Except Yaml.Fault YamlState := do
    match ← Yaml.read text with
    | none => return {}
    | some node => YamlState.ofNode node
  match read with
  | .error fault => .error (.document fault)
  | .ok state => if state.faults = [] then .ok state.config else .error (.lines state.faults)

end LoxLang.Config
