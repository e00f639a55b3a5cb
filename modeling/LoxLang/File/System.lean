import LoxLang.File.Path

/-!
# Files

A file system gives, for a path, a file with its content, a directory, or a reason why there is
neither. `FileTree` is one that is laid out in memory: paths are followed name by name from the
working directory or the root, and every name but the last must be that of a directory.
-/

namespace LoxLang

/-- Why a path leads nowhere, or why what it leads to cannot be read. -/
inductive FileFault where
  | notFound
  | notDirectory
  | isDirectory
  | nameTooLong
  | invalid
deriving DecidableEq, Repr

/-- The wording of a fault. -/
def FileFault.message : FileFault → Text
  | notFound => "no such file or directory"
  | notDirectory => "not a directory"
  | isDirectory => "is a directory"
  | nameTooLong => "file name too long"
  | invalid => "invalid argument"

/-- A failed operation on a path. -/
structure FileError where
  operation : Text
  path : Text
  fault : FileFault
deriving DecidableEq, Repr

/-- The wording of a failed operation. -/
def FileError.message (error : FileError) : Text :=
  error.operation ++ Byte.space :: (error.path ++ ": " ++ error.fault.message)

/-- What a path can lead to. -/
inductive FileEntry where
  | file (content : Text)
  | directory
deriving DecidableEq, Repr

/-- A file system with a working directory. -/
structure FileSystem where
  workingDirectory : Text
  find : Text → Except FileFault FileEntry

namespace FileSystem

/-- The clean absolute path of a path. -/
def absolute (files : FileSystem) (path : Text) : Text := Path.absolute files.workingDirectory path

/-- What a path leads to, for an operation named in the error. -/
def findFor (files : FileSystem) (operation path : Text) : Except FileError FileEntry :=
  match files.find path with
  | .ok entry => .ok entry
  | .error fault => .error ⟨operation, path, fault⟩

/-- The content of an entry that a path has led to. -/
def contentOf (path : Text) : FileEntry → Except FileError Text
  | .file content => .ok content
  | .directory => .error ⟨"read", path, .isDirectory⟩

/-- The content of a file. -/
def read (files : FileSystem) (path : Text) : Except FileError Text := do
  contentOf path (← files.findFor "open" path)

end FileSystem

/-- Files and directories in memory, by the names on the way from the root. -/
structure FileTree where
  workingDirectory : List Text
  entries : List (List Text × FileEntry)

namespace FileTree

/-- The names of a path, without empty ones. -/
def namesOf (path : Text) : List Text := (Text.splitOn Byte.slash path).filter (· ≠ [])

/-- The openings of a list of names, shortest first, without the whole list. -/
def openings : List Text → List (List Text)
  | [] => []
  | name :: rest => [] :: (openings rest).map (name :: ·)

/-- The entries that a file in the working directory needs: itself and the directories on the way. A
name that ends in a slash is that of a directory. -/
def entriesOf (workingDirectory : List Text) (name content : Text) : List (List Text × FileEntry) :=
  let names := workingDirectory ++ namesOf name
  let directories := (openings names).map fun names => (names, .directory)
  let entry := if name.getLast? = some Byte.slash then .directory else .file content
  (names, entry) :: directories

/-- The tree of some files in a working directory. -/
def ofFiles (workingDirectory : Text) (files : List (Text × Text)) : FileTree :=
  let names := namesOf workingDirectory
  let own := (names, .directory) :: (openings names).map fun names => (names, .directory)
  ⟨names, files.flatMap (fun (name, content) => entriesOf names name content) ++ own⟩

/-- The longest name that a directory can hold. -/
def longestName : Nat := 255

/-- The length that a path must stay below. -/
def pathLimit : Nat := 4096

/-- Follows names from a place. An empty name or a dot stays there, which only a directory allows.
-/
def follow (tree : FileTree) (place : List Text) : List Text → Except FileFault FileEntry
  | [] =>
    match tree.entries.lookup place with
    | some entry => .ok entry
    | none => .error .notFound
  | name :: rest =>
    match tree.entries.lookup place with
    | none => .error .notFound
    | some (.file _) => .error .notDirectory
    | some .directory =>
      if name = [] || name = (".") then follow tree place rest
      else if name = ("..") then follow tree place.dropLast rest
      else if longestName < name.length then .error .nameTooLong
      else follow tree (place ++ [name]) rest

/-- The file system of a tree. -/
def toFileSystem (tree : FileTree) : FileSystem where
  workingDirectory := Byte.slash :: Text.join [Byte.slash] tree.workingDirectory
  find path :=
    if path = [] then .error .notFound
    else if path.contains 0 then .error .invalid
    else if pathLimit ≤ path.length then .error .nameTooLong
    else
      let start := if Path.isAbsolute path then [] else tree.workingDirectory
      tree.follow start (Text.splitOn Byte.slash path)

end FileTree

end LoxLang
