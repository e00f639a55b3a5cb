import LoxLang.Literal

/-!
# Values

The values that programs compute with, and how they are shown.
-/

namespace LoxLang

/-- The values of the language. -/
inductive Value where
  | nil
  | bool (value : Bool)
  | number (value : Number)
  | string (value : Text)
deriving DecidableEq, Repr

/-- The kinds of values. -/
inductive Value.Kind where
  | nil | bool | number | string
deriving DecidableEq, Repr

namespace Value

namespace Kind

/-- The word for a kind. -/
def name : Kind → Text
  | nil => "nil"
  | bool => "bool"
  | number => "number"
  | string => "string"

/-- The kinds in the order of their numbers. -/
def all : List Kind := [nil, bool, number, string]

/-- The word for the kind with a number, or a word that says there is none. -/
def nameOfNumber (number : Int) : Text :=
  let known? := if number < 0 then none else all[number.toNat]?
  match known? with
  | some kind => kind.name
  | none => "unknown_kind_" ++ Text.ofInt number

end Kind

/-- The kind of a value. -/
def kind : Value → Kind
  | nil => .nil
  | bool _ => .bool
  | number _ => .number
  | string _ => .string

/-- The value that a payload denotes; a whole-number payload denotes none. -/
def ofLiteral? : Literal → Option Value
  | .nil => some nil
  | .bool value => some (bool value)
  | .number value => some (number value)
  | .string value => some (string value)
  | .int _ => none

/-- Everything but nil and false counts as true in conditions. -/
def isTruthy : Value → Bool
  | nil => false
  | bool value => value
  | number _ | string _ => true

/-- Equality of the language. Values of different kinds differ, and numbers compare as numbers. -/
def equal : Value → Value → Bool
  | nil, nil => true
  | bool left, bool right => left == right
  | number left, number right => left.equal right
  | string left, string right => left == right
  | _, _ => false

/-- The text that `print` shows for a value. -/
def display : Value → Text
  | nil => "nil"
  | bool value => Literal.boolText value
  | number value => value.display
  | string value => value

end Value

end LoxLang
