import LoxLang.Text

/-!
# Paths

Paths are texts with slashes between the names. Cleaning a path looks at its text alone: doubled
slashes and `.` go, and `..` goes together with the name before it, or is dropped at the root.
-/

namespace LoxLang.Path

/-- A path that starts at the root. -/
def isAbsolute (path : Text) : Bool := path.head? = some Byte.slash

/-- One more name on a clean path, which is given last name first. -/
def step (rooted : Bool) (names : List Text) (name : Text) : List Text :=
  if name = [] || name = (".") then names
  else if name = ("..") then
    match names with
    | [] => if rooted then [] else [".."]
    | last :: rest => if last = ("..") then ".." :: names else rest
  else name :: names

/-- The path without what cleaning removes; nothing left is `.` or the root. -/
def clean (path : Text) : Text :=
  let rooted := isAbsolute path
  let names := ((Text.splitOn Byte.slash path).foldl (step rooted) []).reverse
  let joined := Text.join [Byte.slash] names
  if rooted then Byte.slash :: joined else if joined = [] then "." else joined

/-- A clean path from a directory and a path in it; an empty part is left out. -/
def join (directory path : Text) : Text :=
  if directory = [] then (if path = [] then [] else clean path)
  else if path = [] then clean directory
  else clean (directory ++ Byte.slash :: path)

/-- The clean absolute path of a path, seen from a working directory. -/
def absolute (directory path : Text) : Text :=
  if isAbsolute path then clean path else join directory path

/-- The bytes after the last slash. -/
def lastName (path : Text) : Text := (path.reverse.takeWhile (· ≠ Byte.slash)).reverse

/-- The clean path of the directory that holds the last name. -/
def parent (path : Text) : Text :=
  clean (path.reverse.dropWhile (· ≠ Byte.slash)).reverse

/-- The last name from its last dot on, or nothing when it has no dot. -/
def extension (path : Text) : Text :=
  let name := (lastName path).reverse
  let ending := name.takeWhile (· ≠ Byte.dot)
  if ending.length < name.length then Byte.dot :: ending.reverse else []

end LoxLang.Path
