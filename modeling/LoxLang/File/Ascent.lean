import LoxLang.File.Path
import LoxLang.Text.Splitting

/-!
# Going up

The directory of a path is a path again, so one can go up from every path. This ends at the root or
at `.`, which are their own directories: anywhere else `Path.parent` makes a path shorter, or it
gives `.`. What recurses on the directories above a path therefore needs no budget.
-/

namespace LoxLang.Path

/-- What a path has left on the way up: it gets shorter until it is `.` or its own directory. -/
def height (path : Text) : Nat := if path = (".") then 0 else path.length + 1

/-- The bytes of names, with a slash for each. -/
def weight : List Text → Nat
  | [] => 0
  | name :: names => name.length + 1 + weight names

theorem weight_splitOn (path : Text) : weight (Text.splitOn Byte.slash path) = path.length + 1 := by
  induction path with
  | nil => rfl
  | cons byte path ih =>
      rw [Text.splitOn]
      split
      · rw [weight, ih, List.length_nil, List.length_cons]
        omega
      · rcases List.exists_cons_of_ne_nil (Text.splitOn_ne_nil Byte.slash path) with
          ⟨first, others, split⟩
        simp only [split, weight, List.length_cons] at ih ⊢
        omega

theorem weight_step_le (rooted : Bool) (names : List Text) (name : Text) :
    weight (step rooted names name) ≤ weight names + (name.length + 1) := by
  unfold step
  split
  · omega
  · split
    · rename_i isUp
      subst isUp
      cases names with
      | nil => cases rooted <;> simp [weight]
      | cons last rest =>
          simp only
          split <;> simp only [weight] <;> omega
    · rw [weight]
      omega

theorem weight_foldl_step_le (rooted : Bool) (parts names : List Text) :
    weight (parts.foldl (step rooted) names) ≤ weight names + weight parts := by
  induction parts generalizing names with
  | nil => exact Nat.le_refl _
  | cons part parts ih =>
      have stepped := weight_step_le rooted names part
      have rest := ih (step rooted names part)
      rw [List.foldl_cons, weight]
      omega

theorem weight_append (names others : List Text) :
    weight (names ++ others) = weight names + weight others := by
  induction names with
  | nil => exact (Nat.zero_add _).symm
  | cons name names ih =>
      rw [List.cons_append, weight, weight, ih]
      omega

theorem weight_reverse (names : List Text) : weight names.reverse = weight names := by
  induction names with
  | nil => rfl
  | cons name names ih =>
      rw [List.reverse_cons, weight_append, ih, weight, weight, weight]
      omega

theorem length_join_le (names : List Text) :
    (Text.join [Byte.slash] names).length ≤ weight names - 1 := by
  induction names with
  | nil => simp [Text.join]
  | cons name names ih =>
      cases names with
      | nil => simp [Text.join, weight]
      | cons second others =>
          rw [weight] at ih
          rw [Text.join, weight, weight, List.length_append, List.length_append,
            List.length_singleton]
          omega

/-- The clean names of a path have no more bytes than the path. -/
theorem weight_names_le (rooted : Bool) (path : Text) :
    weight ((Text.splitOn Byte.slash path).foldl (step rooted) []).reverse ≤ path.length + 1 := by
  rw [weight_reverse, ← weight_splitOn]
  simpa [weight] using weight_foldl_step_le rooted (Text.splitOn Byte.slash path) []

theorem length_clean_le {path : Text} (notEmpty : path ≠ []) :
    (clean path).length ≤ path.length := by
  rcases List.exists_cons_of_ne_nil notEmpty with ⟨first, rest, rfl⟩
  rw [clean]
  by_cases isSlash : first = Byte.slash
  · -- The empty part before the first slash pays for the slash of the root.
    have weighs := weight_names_le true rest
    have joined := length_join_le ((Text.splitOn Byte.slash rest).foldl (step true) []).reverse
    have parts : (Text.splitOn Byte.slash (first :: rest)).foldl (step true) [] =
        (Text.splitOn Byte.slash rest).foldl (step true) [] := by
      simp [Text.splitOn, isSlash, step]
    have rooted : isAbsolute (first :: rest) = true := by simp [isAbsolute, isSlash]
    simp only [rooted, parts, if_true, List.length_cons]
    omega
  · have weighs := weight_names_le false (first :: rest)
    have joined := length_join_le
      ((Text.splitOn Byte.slash (first :: rest)).foldl (step false) []).reverse
    have rooted : isAbsolute (first :: rest) = false := by simp [isAbsolute, isSlash]
    simp only [rooted, Bool.false_eq_true, if_false]
    split
    · exact Nat.succ_le_succ (Nat.zero_le rest.length)
    · omega

theorem clean_concat_slash {path : Text} (notEmpty : path ≠ []) :
    clean (path ++ [Byte.slash]) = clean path := by
  have rooted : isAbsolute (path ++ [Byte.slash]) = isAbsolute path := by
    rcases List.exists_cons_of_ne_nil notEmpty with ⟨first, rest, rfl⟩
    rfl
  have parts : Text.splitOn Byte.slash (path ++ [Byte.slash]) =
      Text.splitOn Byte.slash path ++ [[]] :=
    Text.splitOn_append_separator path []
  rw [clean, clean, rooted, parts, List.foldl_append]
  rfl

/-- A path without a slash is in `.`, and any other in what stands before its last slash. -/
theorem parent_cases (path : Text) :
    parent path = (".") ∨ ∃ directory name, path = directory ++ Byte.slash :: name ∧
      parent path = clean (directory ++ [Byte.slash]) := by
  have split : path.reverse.takeWhile (· ≠ Byte.slash) ++ path.reverse.dropWhile (· ≠ Byte.slash) =
      path.reverse := List.takeWhile_append_dropWhile
  have stopped := List.head?_dropWhile_not (· ≠ Byte.slash) path.reverse
  rw [parent]
  cases remaining : path.reverse.dropWhile (· ≠ Byte.slash) with
  | nil => exact Or.inl rfl
  | cons byte above =>
      rw [remaining] at split stopped
      have isSlash : byte = Byte.slash := by simpa using stopped
      subst isSlash
      refine Or.inr ⟨above.reverse, (path.reverse.takeWhile (· ≠ Byte.slash)).reverse, ?_, ?_⟩
      · simpa using congrArg List.reverse split.symm
      · rw [List.reverse_cons]

/-- Going up ends. -/
theorem height_parent_lt {path : Text} (further : parent path ≠ path) :
    height (parent path) < height path := by
  rcases parent_cases path with isDot | ⟨directory, name, isPath, isParent⟩
  · rw [isDot] at further ⊢
    simp [height, Ne.symm further]
  · have shorter : (parent path).length < path.length := by
      cases directory with
      | nil =>
          -- Only the root itself has the length of the root.
          cases name with
          | nil => exact absurd (by rw [isParent, isPath]; rfl) further
          | cons byte name =>
              rw [isParent, isPath]
              exact Nat.succ_lt_succ (Nat.succ_pos _)
      | cons byte directory =>
          have notLonger := length_clean_le (List.cons_ne_nil byte directory)
          rw [isParent, clean_concat_slash (List.cons_ne_nil _ _), isPath]
          simp only [List.length_append, List.length_cons] at notLonger ⊢
          omega
    have noDot : path ≠ (".") := by
      intro isDot
      have mem : Byte.slash ∈ path := by simp [isPath]
      rw [isDot] at mem
      exact absurd mem (by decide)
    rw [height, height, if_neg noDot]
    split <;> omega

/-- A directory and those above it, up to the root. -/
def upwards (directory : Text) : List Text :=
  if parent directory = directory then [directory]
  else directory :: upwards (parent directory)
termination_by height directory
decreasing_by exact height_parent_lt ‹_›

end LoxLang.Path
