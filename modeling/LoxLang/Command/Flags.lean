import LoxLang.Number.Whole
import LoxLang.Text.Quoted

/-!
# Flags

Arguments that start with one or two dashes are flags, up to the first argument that does not or to
two dashes alone. A flag has a value after an equals sign or in the next argument; one that is a
switch needs none. The flags that were given are kept in order, also when one of them is refused.
-/

namespace LoxLang.Flags

/-- What the value of a flag can be. -/
inductive Kind where
  | text
  | number
  | switch
deriving DecidableEq, Repr

/-- The value of a flag. -/
inductive Value where
  | text (value : Text)
  | number (value : Int)
  | switch (value : Bool)
deriving DecidableEq, Repr

/-- What can be wrong with flags. -/
inductive Fault where
  | badForm (argument : Text)
  | undefined (name : Text)
  | noValue (name : Text)
  | badNumber (name value : Text) (fault : Whole.Fault)
  | badSwitch (name value : Text)
deriving DecidableEq, Repr

/-- The wording of a fault. -/
def Fault.message : Fault → Text
  | badForm argument => "bad flag syntax: " ++ argument
  | undefined name => "flag provided but not defined: -" ++ name
  | noValue name => "flag needs an argument: -" ++ name
  | badNumber name value fault =>
    "invalid value " ++ value.quoted ++ " for flag -" ++ name ++ ": " ++ fault.message
  | badSwitch name value =>
    "invalid boolean value " ++ value.quoted ++ " for -" ++ name ++ ": parse error"

/-- Arguments that have been read: the flags that were given, the arguments after them, and what is
wrong with the flag that was refused. -/
structure Parsed where
  given : List (Text × Value) := []
  rest : List Text := []
  fault : Option Fault := none
deriving DecidableEq, Repr

/-- The truth value that a word stands for. -/
def switchOf? (word : Text) : Option Bool :=
  if word ∈ ([("1" : Text), "t", "T", "true", "TRUE", "True"]) then some true
  else if word ∈ ([("0" : Text), "f", "F", "false", "FALSE", "False"]) then some false
  else none

/-- The value of a flag from its text. -/
def valueOf (name : Text) (kind : Kind) (text : Text) : Except Fault Value :=
  match kind with
  | .text => .ok (.text text)
  | .number =>
    match Whole.read text with
    | .ok value => .ok (.number value)
    | .error fault => .error (.badNumber name text fault)
  | .switch =>
    match switchOf? text with
    | some value => .ok (.switch value)
    | none => .error (.badSwitch name text)

/-- An argument as a flag. -/
inductive Form where
  | none
  | stop
  | bad
  | flag (name : Text) (value : Option Text)
deriving DecidableEq, Repr

/-- The name and the value of a flag, given what follows its dashes. The first byte belongs to the
name. -/
def splitFlag (text : Text) : Text × Option Text :=
  let name := text.take 1 ++ (text.drop 1).takeWhile (· ≠ 0x3D)
  (name, if name.length < text.length then some (text.drop (name.length + 1)) else Option.none)

/-- What an argument is. -/
def Form.ofArgument (argument : Text) : Form :=
  match argument with
  | 0x2D :: 0x2D :: [] => stop
  | 0x2D :: second :: rest =>
    let body := if second = 0x2D then rest else second :: rest
    if body.head? = some 0x2D || body.head? = some 0x3D then bad
    else
      let (name, value) := splitFlag body
      flag name value
  | _ => none

/-- Reads arguments, given the flags there are. -/
def parse (flags : List (Text × Kind)) (arguments : List Text) : Parsed :=
  let giving (name : Text) (value : Value) (parsed : Parsed) : Parsed :=
    { parsed with given := (name, value) :: parsed.given }
  match arguments with
  | [] => {}
  | argument :: rest =>
    match Form.ofArgument argument with
    | .none => { rest := argument :: rest }
    | .stop => { rest }
    | .bad => { rest := argument :: rest, fault := some (.badForm argument) }
    | .flag name value =>
      match flags.lookup name, value, rest with
      | none, _, _ => { rest, fault := some (.undefined name) }
      | some kind, some text, rest =>
        match valueOf name kind text with
        | .ok value => giving name value (parse flags rest)
        | .error fault => { rest, fault := some fault }
      | some .switch, none, rest => giving name (.switch true) (parse flags rest)
      | some _, none, [] => { fault := some (.noValue name) }
      | some kind, none, text :: rest =>
        match valueOf name kind text with
        | .ok value => giving name value (parse flags rest)
        | .error fault => { rest, fault := some fault }

namespace Parsed

/-- Whether a flag was given. -/
def has (parsed : Parsed) (name : Text) : Bool := parsed.given.any fun (given, _) => given = name

/-- The last value of a flag that was given. -/
def value? (parsed : Parsed) (name : Text) : Option Value := parsed.given.reverse.lookup name

/-- The last value of a flag that is a text. -/
def text? (parsed : Parsed) (name : Text) : Option Text :=
  match parsed.value? name with
  | some (.text value) => some value
  | _ => none

/-- The last value of a flag that is a number. -/
def number? (parsed : Parsed) (name : Text) : Option Int :=
  match parsed.value? name with
  | some (.number value) => some value
  | _ => none

/-- Whether a switch is on. -/
def isOn (parsed : Parsed) (name : Text) : Bool := parsed.value? name = some (.switch true)

end Parsed

end LoxLang.Flags
