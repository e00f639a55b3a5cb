import LoxLang.Text.Lowercase
import LoxLang.Text.Quoted

/-!
# The log

What a session does is recorded for debugging, as records of a message and named fields. A log has a
level, and all records here are of the lowest one, so they are written only by a log of that level.

A record is written on one line as `lvl=dbug msg=… name=…`. A value that holds a space, a control
character, an equals sign or a quote is put in quotes; quotes, backslashes, line ends, carriage
returns and tabs in it are escaped.
-/

namespace LoxLang.Log

/-- The levels, from the most to the least urgent. -/
inductive Level where
  | crit | error | warn | info | debug
deriving DecidableEq, Repr

/-- The names of the levels. -/
def Level.named : List (Text × Level) :=
  [("debug", .debug), ("dbug", .debug), ("info", .info), ("warn", .warn), ("error", .error),
   ("eror", .error), ("crit", .crit)]

/-- The level of a name, in any case. -/
def Level.ofName? (name : Text) : Option Level := Level.named.lookup name.lowercase

/-- The complaint about a name that is no level. -/
def unknownLevel (name : Text) : Text :=
  "log level " ++ name.quoted ++ ": log15: unknown level: " ++ name.lowercase

/-- A record: a message and named fields. -/
structure Record where
  message : Text
  fields : List (Text × Text)
deriving DecidableEq, Repr

/-- Whether a character puts a value in quotes. -/
def needsQuotes (code : Nat) : Bool := code ≤ 0x20 || code = 0x3D || code = 0x22

/-- The letter after the backslash of an escaped character. -/
def escape? (code : Nat) : Option UInt8 :=
  match code with
  | 0x5C => some 0x5C
  | 0x22 => some 0x22
  | 0x0A => some 0x6E
  | 0x0D => some 0x72
  | 0x09 => some 0x74
  | _ => none

/-- A value as it is written in a record. -/
def value (text : Text) : Text :=
  let codes := (Text.Utf8.units text).map (·.code)
  let quotes := codes.any needsQuotes
  let escapes := codes.any fun code => (escape? code).isSome
  if quotes || escapes then
    let body := codes.flatMap fun code =>
      match escape? code with
      | some letter => [Byte.backslash, letter]
      | none => Text.Utf8.encode code
    if quotes then Byte.quote :: (body ++ [Byte.quote]) else body
  else text

/-- The line of a record. -/
def Record.render (record : Record) : Text :=
  let fields := record.fields.flatMap fun (name, text) => Byte.space :: (name ++ 0x3D :: value text)
  "lvl=dbug msg=" ++ value record.message ++ fields ++ [Byte.newline]

end LoxLang.Log
