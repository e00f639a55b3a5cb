import LoxLang.Toml.Document

/-!
# The tables of a document

The statements of a document are entered one by one into numbered tables, of which the first is the
root. A key can be entered into a table once. A header can name a table once, but tables on the way
to it come into being when they are first named and can have a header of their own later; a header
in double brackets adds one more table to those of its name.
-/

namespace LoxLang.Toml

/-- What a key of a table leads to. -/
inductive Node where
  | value (line : Nat) (value : Value)
  | table (line : Nat) (implied : Bool) (number : Nat)
  | tables (line : Nat) (last : Nat)

/-- What can be wrong with a document. -/
inductive Fault where
  | malformed
  | malformedString
  | keyAgain (key : Text) (line : Nat)
  | keyOfTable (key : Text) (sort : Text) (line : Nat)
  | tableOfKey (name : Text) (line : Nat)
  | tableAgain (name : Text) (sort : Text) (line : Nat)
deriving DecidableEq, Repr

/-- The wording of a fault. A key that is there already shows its line in hexadecimal. -/
def Fault.message : Fault → Text
  | malformed => "invalid TOML syntax"
  | malformedString => "invalid syntax"
  | keyAgain key line => "key `" ++ key ++ "' is in conflict with line " ++ Text.ofHex 1 line ++ "d"
  | keyOfTable key sort line =>
    "key `" ++ key ++ "' is in conflict with " ++ sort ++ " table in line " ++ Text.ofNat line
  | tableOfKey name line =>
    "table `" ++ name ++ "' is in conflict with line " ++ Text.ofNat line
  | tableAgain name sort line =>
    "table `" ++ name ++ "' is in conflict with " ++ sort ++ " table in line " ++ Text.ofNat line

/-- A fault on a line. -/
structure LineFault where
  line : Nat
  fault : Fault
deriving DecidableEq, Repr

/-- The tables, by the number of a table and a key in it, in the order in which the keys came. -/
structure Tables where
  nodes : List ((Nat × Text) × Node)
  count : Nat

namespace Tables

/-- The number of the root. -/
def root : Nat := 0

/-- The tables before the first statement. -/
def empty : Tables := ⟨[], 1⟩

/-- What a key of a table leads to. -/
def find? (tables : Tables) (table : Nat) (key : Text) : Option Node :=
  tables.nodes.lookup (table, key)

/-- The tables with a key added that was not there. -/
def add (tables : Tables) (table : Nat) (key : Text) (node : Node) : Tables :=
  { tables with nodes := tables.nodes ++ [((table, key), node)] }

/-- The tables with a key that was there leading elsewhere. -/
def replace (tables : Tables) (table : Nat) (key : Text) (node : Node) : Tables :=
  { tables with nodes := tables.nodes.map fun entry =>
      if entry.1 = (table, key) then (entry.1, node) else entry }

/-- The tables with one more table, and its number. -/
def more (tables : Tables) : Tables × Nat :=
  ({ tables with count := tables.count + 1 }, tables.count)

/-- The text of a string, if it is well formed. -/
def textOf (line : Nat) : Option Text → Except LineFault Text
  | some text => .ok text
  | none => .error ⟨line, .malformedString⟩

/-- Follows names from a table to another, making those on the way that are not there. -/
def follow (tables : Tables) (line : Nat) (table : Nat) :
    List Text → Except LineFault (Tables × Nat)
  | [] => .ok (tables, table)
  | name :: rest =>
    match tables.find? table name with
    | none =>
      let (tables, number) := tables.more
      (tables.add table name (.table line true number)).follow line number rest
    | some (.table _ _ number) => tables.follow line number rest
    | some (.tables _ last) => tables.follow line last rest
    | some (.value valueLine _) => .error ⟨line, .keyAgain name valueLine⟩

/-- Enters a table under a name in another one. -/
def enterTable (tables : Tables) (line : Nat) (table : Nat) (name shown : Text) :
    Except LineFault (Tables × Nat) :=
  match tables.find? table name with
  | none =>
    let (tables, number) := tables.more
    .ok (tables.add table name (.table line false number), number)
  | some (.table _ true number) =>
    .ok (tables.replace table name (.table line false number), number)
  | some (.table tableLine false _) => .error ⟨line, .tableAgain shown "normal" tableLine⟩
  | some (.tables tableLine _) => .error ⟨line, .tableAgain shown "array" tableLine⟩
  | some (.value valueLine _) => .error ⟨line, .tableOfKey shown valueLine⟩

/-- Enters one more table under a name in another one. -/
def enterOneMore (tables : Tables) (line : Nat) (table : Nat) (name shown : Text) :
    Except LineFault (Tables × Nat) :=
  match tables.find? table name with
  | none =>
    let (tables, number) := tables.more
    .ok (tables.add table name (.tables line number), number)
  | some (.tables tableLine _) =>
    let (tables, number) := tables.more
    .ok (tables.replace table name (.tables tableLine number), number)
  | some (.table tableLine _ _) => .error ⟨line, .tableAgain shown "normal" tableLine⟩
  | some (.value valueLine _) => .error ⟨line, .tableOfKey shown valueLine⟩

/-- Enters the table of a header. -/
def enterHeader (tables : Tables) (header : Header) : Except LineFault (Tables × Nat) := do
  let names ← header.names.mapM (textOf header.line)
  let (tables, table) ← tables.follow header.line root names.dropLast
  let name := names.getLast?.getD []
  let shown := Text.join (".") names
  if header.isArray then tables.enterOneMore header.line table name shown
  else tables.enterTable header.line table name shown

/-- Enters a key with a value that is no table. -/
def enterValue (tables : Tables) (line : Nat) (table : Nat) (key : Text) (value : Value) :
    Except LineFault Tables :=
  match tables.find? table key with
  | none => .ok (tables.add table key (.value line value))
  | some (.value valueLine _) => .error ⟨line, .keyAgain key valueLine⟩
  | some (.table tableLine _ _) => .error ⟨line, .keyOfTable key "normal" tableLine⟩
  | some (.tables tableLine _) => .error ⟨line, .keyOfTable key "array" tableLine⟩

mutual

/-- Checks the strings in a value. -/
def checkValue (line : Nat) : Value → Except LineFault Unit
  | .string content => discard (textOf line content)
  | .array values => checkValues line values
  | .table pairs => checkPairs pairs
  | .datetime | .float | .boolean | .integer _ => .ok ()

/-- Checks the strings in values. -/
def checkValues (line : Nat) : List Value → Except LineFault Unit
  | [] => .ok ()
  | value :: rest => do
    checkValue line value
    checkValues line rest

/-- Checks the strings in a pair. -/
def checkPair : Pair → Except LineFault Unit
  | .mk key keyLine value line => do
    discard (textOf keyLine key)
    checkValue line value

/-- Checks the strings in pairs. -/
def checkPairs : List Pair → Except LineFault Unit
  | [] => .ok ()
  | pair :: rest => do
    checkPair pair
    checkPairs rest

end

mutual

/-- Enters a pair into a table. A value in braces is entered as a table. -/
def enterPair (tables : Tables) (table : Nat) : Pair → Except LineFault Tables
  | .mk key keyLine value line => do
    let key ← textOf keyLine key
    match value with
    | .table pairs =>
      let (tables, number) ← tables.enterTable keyLine table key key
      tables.enterPairs number pairs
    | value =>
      checkValue line value
      tables.enterValue line table key value

/-- Enters pairs into a table. -/
def enterPairs (tables : Tables) (table : Nat) : List Pair → Except LineFault Tables
  | [] => .ok tables
  | pair :: rest => do
    let tables ← tables.enterPair table pair
    tables.enterPairs table rest

end

/-- Enters statements, the table at hand being given. -/
def enterAll (tables : Tables) (table : Nat) : List Statement → Except LineFault Tables
  | [] => .ok tables
  | .header header :: rest => do
    let (tables, table) ← tables.enterHeader header
    tables.enterAll table rest
  | .pair pair :: rest => do
    let tables ← tables.enterPair table pair
    tables.enterAll table rest

/-- The keys of the root and what they lead to. -/
def atRoot (tables : Tables) : List (Text × Node) :=
  tables.nodes.filterMap fun ((table, key), node) => if table = root then some (key, node) else none

end Tables

/-- The keys of a document outside of its tables, and what they lead to. -/
def read (document : Text) : Except LineFault (List (Text × Node)) :=
  match statementsOf document with
  | .error line => .error ⟨line, .malformed⟩
  | .ok statements => do
    let tables ← Tables.empty.enterAll Tables.root statements
    return tables.atRoot

end LoxLang.Toml
