import LoxLang.Config.Locate
import LoxLang.Proofs.File.Paths
import Mathlib.Data.List.Infix

/-!
# The nearest configuration file

A search for a configuration file goes from a directory up to the root. Directories are given here
by the names on the way to them, so those above one are the openings of its names, and the search is
an induction over the names from the last. What it finds is the preferred file of the closest
directory that has one, provided that looking for a file fails only because there is none.
-/

namespace LoxLang.Config

/-- Whether a path leads to something that is no directory. -/
def isFile (files : FileSystem) (path : Text) : Bool :=
  match files.find path with
  | .ok (.file _) => true
  | .ok .directory | .error _ => false

/-- The first of the names of configuration files that is that of a file in the directory. -/
def heldName? (files : FileSystem) (directory : List Text) : Option Text :=
  names.find? fun name => isFile files (Path.rooted (directory ++ [name]))

/-- The names of the directory that a search starts in: those of the absolute path, without the last
if the path leads to a file. -/
def startNames (files : FileSystem) (start : Text) : List Text :=
  let names := FileTree.namesOf (files.absolute start)
  if isFile files (files.absolute start) then names.dropLast else names

/-- Of the directories from one up to the root, the closest that holds a configuration file, and the
preferred name of such a file in it. -/
structure Nearest (files : FileSystem) (origin directory : List Text) (name : Text) : Prop where
  upwards : directory <+: origin
  held : heldName? files directory = some name
  closest : ∀ closer, closer <+: origin → directory.length < closer.length →
    heldName? files closer = none

/-- Looking for configuration files in the directories from one up to the root fails only because
there is nothing. -/
def FailsPlainly (files : FileSystem) (origin : List Text) : Prop :=
  ∀ directory, directory <+: origin → ∀ name ∈ names, ∀ fault,
    files.find (Path.rooted (directory ++ [name])) = .error fault → fault = .notFound

variable {files : FileSystem} {origin directory : List Text}

theorem isName_of_mem_names : ∀ name ∈ names, Path.IsName name := by
  have table : ∀ name ∈ names,
      name ≠ [] ∧ Byte.slash ∉ name ∧ name ≠ (".") ∧ name ≠ ("..") := by decide
  intro name mem
  rcases table name mem with ⟨notEmpty, slashless, notDot, notDots⟩
  exact ⟨notEmpty, slashless, notDot, notDots⟩

theorem FailsPlainly.mono (plainly : FailsPlainly files origin) (upwards : directory <+: origin) :
    FailsPlainly files directory :=
  fun above isAbove => plainly above (isAbove.trans upwards)

section Step

theorem findIn_eq (proper : ∀ name ∈ directory, Path.IsName name) {sought : List Text}
    (soughtProper : ∀ name ∈ sought, Path.IsName name)
    (plainly : ∀ name ∈ sought, ∀ fault,
      files.find (Path.rooted (directory ++ [name])) = .error fault → fault = .notFound) :
    findIn files (Path.rooted directory) sought =
      .ok ((sought.find? fun name => isFile files (Path.rooted (directory ++ [name]))).map
        fun name => Path.rooted (directory ++ [name])) := by
  induction sought with
  | nil => rfl
  | cons name sought ih =>
      rw [List.forall_mem_cons] at soughtProper plainly
      rw [findIn, Path.join_rooted proper soughtProper.1, List.find?_cons]
      cases found : files.find (Path.rooted (directory ++ [name])) with
      | ok entry =>
          cases entry with
          | file content => simp [isFile, found]
          | directory => simpa [isFile, found] using ih soughtProper.2 plainly.2
      | error fault =>
          have nothing := plainly.1 fault found
          subst nothing
          simpa [isFile, found] using ih soughtProper.2 plainly.2

theorem findIn_names (proper : ∀ name ∈ directory, Path.IsName name)
    (plainly : FailsPlainly files directory) :
    findIn files (Path.rooted directory) names =
      .ok ((heldName? files directory).map fun name => Path.rooted (directory ++ [name])) :=
  findIn_eq proper isName_of_mem_names (plainly directory List.prefix_rfl)

theorem nearest_of_held {name : Text} (held : heldName? files directory = some name) :
    Nearest files directory directory name where
  upwards := List.prefix_rfl
  held := held
  closest := by
    intro closer upwards closerLonger
    have := upwards.length_le
    omega

theorem Nearest.concat {last name : Text} (nearest : Nearest files origin directory name)
    (nothing : heldName? files (origin ++ [last]) = none) :
    Nearest files (origin ++ [last]) directory name where
  upwards := nearest.upwards.trans (List.prefix_append _ _)
  held := nearest.held
  closest := by
    intro closer upwards closerLonger
    rcases List.prefix_concat_iff.mp upwards with rfl | upwards
    · exact nothing
    · exact nearest.closest closer upwards closerLonger

end Step

theorem Nearest.unique {other : List Text} {name otherName : Text}
    (nearest : Nearest files origin directory name)
    (otherNearest : Nearest files origin other otherName) :
    directory = other ∧ name = otherName := by
  have sameLength : directory.length = other.length := by
    rcases Nat.lt_trichotomy directory.length other.length with less | same | less
    · have nothing := nearest.closest other otherNearest.upwards less
      rw [otherNearest.held] at nothing
      cases nothing
    · exact same
    · have nothing := otherNearest.closest directory nearest.upwards less
      rw [nearest.held] at nothing
      cases nothing
  have same : directory = other :=
    (List.prefix_of_prefix_length_le nearest.upwards otherNearest.upwards
      (Nat.le_of_eq sameLength)).eq_of_length sameLength
  subst same
  exact ⟨rfl, Option.some.inj (nearest.held.symm.trans otherNearest.held)⟩

/-- What a search from a directory finds: the nearest file, or that there is none. -/
theorem findFrom_cases (proper : ∀ name ∈ origin, Path.IsName name)
    (plainly : FailsPlainly files origin) (start : Text) :
    (∃ directory name, Nearest files origin directory name ∧
      findFrom files start (Path.rooted origin) = .ok (Path.rooted (directory ++ [name]))) ∨
    ((∀ directory, directory <+: origin → heldName? files directory = none) ∧
      findFrom files start (Path.rooted origin) = .error (.nowhere start)) := by
  induction origin using List.reverseRecOn with
  | nil =>
      rw [findFrom, findIn_names proper plainly]
      cases held : heldName? files [] with
      | some name => exact Or.inl ⟨[], name, nearest_of_held held, rfl⟩
      | none =>
          refine Or.inr ⟨fun directory upwards => ?_, ?_⟩
          · rw [List.prefix_nil.mp upwards]
            exact held
          · simp [Path.parent_rooted proper]
  | append_singleton names last ih =>
      rw [findFrom, findIn_names proper plainly]
      cases held : heldName? files (names ++ [last]) with
      | some name => exact Or.inl ⟨_, name, nearest_of_held held, rfl⟩
      | none =>
          rw [List.forall_mem_append, List.forall_mem_singleton] at proper
          have goesOn : Path.rooted names ≠ Path.rooted (names ++ [last]) :=
            Path.rooted_ne_concat proper.2
          simp only [Option.map_none, Path.parent_rooted_concat proper.1 proper.2,
            if_neg goesOn]
          rcases ih proper.1 (plainly.mono (List.prefix_append _ _)) with
            ⟨directory, name, nearest, found⟩ | ⟨nothing, lost⟩
          · exact Or.inl ⟨directory, name, nearest.concat held, found⟩
          · refine Or.inr ⟨fun directory upwards => ?_, lost⟩
            rcases List.prefix_concat_iff.mp upwards with rfl | upwards
            · exact held
            · exact nothing directory upwards

section Start

variable {start : Text}

theorem originOf_eq_ite (files : FileSystem) (start : Text) :
    originOf files start =
      if isFile files (files.absolute start) then Path.parent (files.absolute start)
      else files.absolute start := by
  unfold originOf isFile
  simp only
  cases files.find (files.absolute start) with
  | error fault => rfl
  | ok entry => cases entry <;> rfl

theorem originOf_eq (rooted : Path.isAbsolute files.workingDirectory = true) (start : Text) :
    (∀ name ∈ startNames files start, Path.IsName name) ∧
      originOf files start = Path.rooted (startNames files start) := by
  rcases files.absolute_eq_rooted rooted start with ⟨proper, isRooted⟩
  rw [originOf_eq_ite]
  unfold startNames
  simp only
  split
  · refine ⟨fun name mem => proper name (List.dropLast_subset _ mem), ?_⟩
    rw [← Path.parent_rooted proper, ← isRooted]
  · exact ⟨proper, isRooted⟩

theorem find_cases (rooted : Path.isAbsolute files.workingDirectory = true)
    (plainly : FailsPlainly files (startNames files start)) :
    (∃ directory name, Nearest files (startNames files start) directory name ∧
      find files start = .ok (Path.rooted (directory ++ [name]))) ∨
    ((∀ directory, directory <+: startNames files start → heldName? files directory = none) ∧
      find files start = .error (.nowhere (Path.rooted (startNames files start)))) := by
  rcases originOf_eq rooted start with ⟨proper, isOrigin⟩
  simp only [find, isOrigin]
  exact findFrom_cases proper plainly _

end Start

/-- A search finds the preferred file of the closest directory that has one, from where it starts up
to the root. It fails for want of a file exactly if there is none in any of these directories, and
then the defaults hold. -/
theorem find_nearest (files : FileSystem) (start : Text)
    (rooted : Path.isAbsolute files.workingDirectory = true)
    (plainly : FailsPlainly files (startNames files start)) :
    names = (["lox.yml", "lox.yaml", "lox.toml"] : List Text) ∧
    files.absolute start = Path.rooted (FileTree.namesOf (files.absolute start)) ∧
    (∀ path, find files start = .ok path ↔
      ∃ directory name, Nearest files (startNames files start) directory name ∧
        path = Path.rooted (directory ++ [name])) ∧
    (∀ origin, find files start = .error (.nowhere origin) ↔
      origin = Path.rooted (startNames files start) ∧
        ∀ directory, directory <+: startNames files start → heldName? files directory = none) ∧
    ((∀ directory, directory <+: startNames files start → heldName? files directory = none) →
      resolve files [] start = .ok {}) := by
  refine ⟨rfl, (files.absolute_eq_rooted rooted start).2, ?_⟩
  rcases find_cases rooted plainly with ⟨directory, name, nearest, found⟩ | ⟨nothing, lost⟩
  · have holds : ¬∀ directory, directory <+: startNames files start →
        heldName? files directory = none := by
      intro nothing
      have held := nearest.held
      rw [nothing directory nearest.upwards] at held
      cases held
    refine ⟨fun path => ?_, fun origin => ?_, fun nothing => absurd nothing holds⟩
    · rw [found, Except.ok.injEq]
      constructor
      · rintro rfl
        exact ⟨directory, name, nearest, rfl⟩
      · rintro ⟨other, otherName, otherNearest, rfl⟩
        rcases nearest.unique otherNearest with ⟨rfl, rfl⟩
        rfl
    · rw [found]
      constructor
      · intro failed
        cases failed
      · intro failed
        exact absurd failed.2 holds
  · refine ⟨fun path => ?_, fun origin => ?_, fun _ => by simp [resolve, lost]⟩
    · rw [lost]
      constructor
      · intro found
        cases found
      · rintro ⟨directory, name, nearest, rfl⟩
        have held := nearest.held
        rw [nothing directory nearest.upwards] at held
        cases held
    · rw [lost, Except.error.injEq, Lost.nowhere.injEq]
      exact ⟨fun same => ⟨same.symm, nothing⟩, fun isOrigin => isOrigin.1.symm⟩

/-- From a path that leads nowhere, past a directory that bears a preferred name, to a file that is
closer than one with the most preferred name. -/
theorem find_nearest_toml :
    ∃ files : FileSystem, files.absolute "a/b/../b/c" = "/r/a/b/c" ∧
      files.find "/r/a/b/c" = .error .notFound ∧ files.find "/r/a/lox.yml" = .ok .directory ∧
      files.find "/r/lox.yml" = .ok (.file "") ∧
      find files "a/b/../b/c" = .ok "/r/a/lox.toml" := by
  let files := (FileTree.ofFiles "/r" [("lox.yml", ""), ("a/lox.yml/", ""), ("a/lox.toml", ""),
    ("a/b/", "")]).toFileSystem
  have start : startNames files "a/b/../b/c" = (["r", "a", "b", "c"] : List Text) := by
    decide +kernel
  have table : ∀ directory ∈ List.inits (["r", "a", "b", "c"] : List Text), ∀ name ∈ names,
      (match files.find (Path.rooted (directory ++ [name])) with
        | .error fault => decide (fault = .notFound)
        | .ok _ => true) = true := by decide +kernel
  have plainly : FailsPlainly files (startNames files "a/b/../b/c") := by
    rw [start]
    intro directory upwards name mem fault failed
    have plain := table directory ((List.mem_inits _ _).mpr upwards) name mem
    rw [failed] at plain
    exact of_decide_eq_true plain
  have closest : ∀ closer ∈ List.inits (["r", "a", "b", "c"] : List Text), 2 < closer.length →
      heldName? files closer = none := by decide +kernel
  have nearest : Nearest files ["r", "a", "b", "c"] ["r", "a"] "lox.toml" :=
    ⟨by decide, by decide +kernel,
      fun closer upwards => closest closer ((List.mem_inits _ _).mpr upwards)⟩
  refine ⟨files, by decide +kernel, by decide +kernel, by decide +kernel, by decide +kernel, ?_⟩
  rw [(find_nearest files "a/b/../b/c" rfl plainly).2.2.1, start]
  exact ⟨_, _, nearest, by decide⟩

end LoxLang.Config
