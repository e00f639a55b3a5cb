import LoxLang.File.System
import LoxLang.Text.Splitting
import Mathlib.Data.List.Induction

/-!
# Paths from the root

A clean absolute path is told by the names on the way from the root. On such paths joining adds a
name, the parent is the path without its last name, and the root is its own parent.
-/

namespace LoxLang.Path

/-- A name that cleaning keeps. -/
structure IsName (name : Text) : Prop where
  notEmpty : name ≠ []
  slashless : Byte.slash ∉ name
  notDot : name ≠ (".")
  notDots : name ≠ ("..")

/-- The path with the given names on the way from the root. -/
def rooted (names : List Text) : Text := Byte.slash :: Text.join [Byte.slash] names

variable {names : List Text} {name path : Text}

theorem step_of_isName (isName : IsName name) (names : List Text) :
    step true names name = name :: names := by
  simp [step, isName.notEmpty, isName.notDot, isName.notDots]

theorem foldl_step (proper : ∀ name ∈ names, IsName name) (before : List Text) :
    names.foldl (step true) before = names.reverse ++ before := by
  induction names generalizing before with
  | nil => rfl
  | cons name names ih =>
      rw [List.forall_mem_cons] at proper
      rw [List.foldl_cons, step_of_isName proper.1, ih proper.2]
      simp

theorem isName_of_mem_step {names : List Text} (proper : ∀ name ∈ names, IsName name)
    (slashless : Byte.slash ∉ name) : ∀ kept ∈ step true names name, IsName kept := by
  intro kept mem
  unfold step at mem
  split at mem
  · exact proper kept mem
  · rename_i plain
    simp only [Bool.or_eq_true, decide_eq_true_eq, not_or] at plain
    split at mem
    · cases names with
      | nil => simp at mem
      | cons last rest =>
          rw [List.forall_mem_cons] at proper
          simp only [if_neg proper.1.notDots] at mem
          exact proper.2 kept mem
    · rename_i notDots
      rcases List.mem_cons.mp mem with rfl | mem
      · exact ⟨plain.1, slashless, plain.2, notDots⟩
      · exact proper kept mem

theorem isName_of_mem_foldl_step {parts before : List Text}
    (proper : ∀ name ∈ before, IsName name) (slashless : ∀ part ∈ parts, Byte.slash ∉ part) :
    ∀ kept ∈ parts.foldl (step true) before, IsName kept := by
  induction parts generalizing before with
  | nil => exact proper
  | cons part parts ih =>
      rw [List.forall_mem_cons] at slashless
      exact ih (isName_of_mem_step proper slashless.1) slashless.2

/-- Cleaning an absolute path gives a path of names from the root. -/
theorem exists_rooted_eq_clean (absolute : isAbsolute path = true) :
    ∃ names, (∀ name ∈ names, IsName name) ∧ clean path = rooted names := by
  refine ⟨((Text.splitOn Byte.slash path).foldl (step true) []).reverse, ?_, ?_⟩
  · intro name mem
    refine isName_of_mem_foldl_step (List.forall_mem_nil _) ?_ name (List.mem_reverse.mp mem)
    exact fun part => Text.not_mem_of_mem_splitOn
  · simp only [clean, absolute, if_true]
    rfl

theorem splitOn_rooted (proper : ∀ name ∈ names, IsName name) :
    Text.splitOn Byte.slash (rooted names) = [] :: (if names = [] then [[]] else names) := by
  have apart : Text.splitOn Byte.slash (rooted names) =
      [] :: Text.splitOn Byte.slash (Text.join [Byte.slash] names) :=
    Text.splitOn_append_separator [] (Text.join [Byte.slash] names)
  rw [apart]
  split
  · rename_i isRoot
    subst isRoot
    rfl
  · rename_i notRoot
    rw [Text.splitOn_join notRoot fun part mem => (proper part mem).slashless]

theorem foldl_splitOn_rooted (proper : ∀ name ∈ names, IsName name) :
    (Text.splitOn Byte.slash (rooted names)).foldl (step true) [] = names.reverse := by
  rw [splitOn_rooted proper]
  split
  · rename_i isRoot
    subst isRoot
    rfl
  · have kept := foldl_step proper []
    rwa [List.append_nil] at kept

/-- Names behind a clean path are added to it one by one. -/
theorem clean_rooted_append (proper : ∀ name ∈ names, IsName name) (more : Text) :
    clean (rooted names ++ Byte.slash :: more) =
      rooted ((Text.splitOn Byte.slash more).foldl (step true) names.reverse).reverse := by
  have absolute : isAbsolute (rooted names ++ Byte.slash :: more) = true := rfl
  simp only [clean, absolute, if_true, Text.splitOn_append_separator, List.foldl_append,
    foldl_splitOn_rooted proper]
  rfl

theorem join_rooted (proper : ∀ name ∈ names, IsName name) (isName : IsName name) :
    join (rooted names) name = rooted (names ++ [name]) := by
  have added := clean_rooted_append proper name
  rw [Text.splitOn_of_not_mem isName.slashless, List.foldl_cons, List.foldl_nil,
    step_of_isName isName, List.reverse_cons, List.reverse_reverse] at added
  simpa [join, isName.notEmpty, show rooted names ≠ [] from List.cons_ne_nil _ _] using added

theorem rooted_concat (names : List Text) (name : Text) :
    rooted (names ++ [name]) =
      (if names = [] then [] else rooted names) ++ Byte.slash :: name := by
  induction names with
  | nil => rfl
  | cons first others ih =>
      cases others with
      | nil => simp [rooted, Text.join]
      | cons second others =>
          simp only [rooted, List.cons_append, List.cons_ne_nil, if_false, Text.join,
            List.cons.injEq, true_and] at ih ⊢
          rw [ih]
          simp

theorem upToSlash_append (before : Text) (slashless : Byte.slash ∉ name) :
    ((before ++ Byte.slash :: name).reverse.dropWhile (· ≠ Byte.slash)).reverse =
      before ++ [Byte.slash] := by
  have inside : ∀ byte ∈ name.reverse, decide (byte ≠ Byte.slash) = true := by
    intro byte mem
    simpa using fun same : byte = Byte.slash => slashless (same ▸ List.mem_reverse.mp mem)
  rw [List.reverse_append, List.reverse_cons, List.append_assoc,
    List.dropWhile_append_of_pos inside]
  simp

theorem parent_rooted_concat (proper : ∀ name ∈ names, IsName name) (isName : IsName name) :
    parent (rooted (names ++ [name])) = rooted names := by
  rw [parent, rooted_concat, upToSlash_append _ isName.slashless]
  split
  · rename_i isRoot
    subst isRoot
    rfl
  · have trailing := clean_rooted_append proper []
    simpa [Text.splitOn, step] using trailing

theorem parent_rooted (proper : ∀ name ∈ names, IsName name) :
    parent (rooted names) = rooted names.dropLast := by
  cases names using List.reverseRecOn with
  | nil => rfl
  | append_singleton names last =>
      rw [List.forall_mem_append, List.forall_mem_singleton] at proper
      rw [List.dropLast_concat, parent_rooted_concat proper.1 proper.2]

theorem rooted_ne_concat (isName : IsName name) :
    rooted names ≠ rooted (names ++ [name]) := by
  rw [rooted_concat]
  intro same
  have lengths := congrArg List.length same
  split at lengths
  · rename_i isRoot
    subst isRoot
    simp only [rooted, Text.join, List.nil_append, List.length_cons, List.length_nil] at lengths
    exact isName.notEmpty (List.eq_nil_of_length_eq_zero (by omega))
  · simp only [List.length_append, List.length_cons] at lengths
    omega

theorem namesOf_rooted (proper : ∀ name ∈ names, IsName name) :
    FileTree.namesOf (rooted names) = names := by
  rw [FileTree.namesOf, splitOn_rooted proper]
  split
  · rename_i isRoot
    subst isRoot
    rfl
  · simpa [List.filter_eq_self] using fun name mem => (proper name mem).notEmpty

end LoxLang.Path

namespace LoxLang.FileSystem

open LoxLang.Path

/-- Seen from an absolute working directory, every path is one of names from the root. -/
theorem absolute_eq_rooted (files : FileSystem)
    (rooted : isAbsolute files.workingDirectory = true) (path : Text) :
    (∀ name ∈ FileTree.namesOf (files.absolute path), IsName name) ∧
      files.absolute path = Path.rooted (FileTree.namesOf (files.absolute path)) := by
  have cleaned : ∃ others, isAbsolute others = true ∧ files.absolute path = clean others := by
    unfold absolute Path.absolute
    split
    · rename_i isAbsolutePath
      exact ⟨path, isAbsolutePath, rfl⟩
    · rcases List.head?_eq_some_iff.mp (of_decide_eq_true rooted) with ⟨rest, directory⟩
      rw [directory, Path.join, if_neg (List.cons_ne_nil _ _)]
      split
      · exact ⟨_, rfl, rfl⟩
      · exact ⟨_, rfl, rfl⟩
  rcases cleaned with ⟨others, isAbsoluteOthers, same⟩
  rcases exists_rooted_eq_clean isAbsoluteOthers with ⟨names, proper, isRooted⟩
  rw [same, isRooted, namesOf_rooted proper]
  exact ⟨proper, rfl⟩

end LoxLang.FileSystem
