import LoxLang.Number.Layout
import LoxLang.Text.Quoted

/-!
# Literal payloads

The payload of a token or of a literal expression. Sources denote nil, truth values, numbers and
strings. A whole-number payload has no notation and no value of the language corresponds to it;
trees and tokens built by hand may carry one, and evaluating it is an error.
-/

namespace LoxLang

/-- What a token or a literal expression carries. -/
inductive Literal where
  | nil
  | bool (value : Bool)
  | number (value : Number)
  | string (value : Text)
  | int (value : Int)
deriving DecidableEq, Repr

namespace Literal

/-- The words for the truth values. -/
def boolText (value : Bool) : Text := if value then "true" else "false"

/-- The payload in the printed form of a program: numbers in plain layout, strings in quotes. -/
def printed : Literal → Text
  | nil => "nil"
  | bool value => boolText value
  | number value => value.plain
  | string value => value.quoted
  | int value => Text.ofInt value

/-- The payload in a table of tokens, where a token without a payload has an empty cell. -/
def cell : Literal → Text
  | nil => []
  | literal => literal.printed

/-- The payload in the description of a token: numbers always have a point, strings stand as they
are, and the absence of a payload is spelled out. -/
def described : Literal → Text
  | nil => "null"
  | number value =>
    let plain := value.plain
    if plain.contains Byte.dot then plain else plain ++ (".0" : Text)
  | string value => value
  | literal => literal.printed

end Literal

end LoxLang
