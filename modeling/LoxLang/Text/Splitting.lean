import LoxLang.Text

/-!
# Splitting texts

A text is split at the occurrences of one byte, and joining texts with that byte between them is the
inverse. Where the byte stands between two texts, they are split apart.
-/

namespace LoxLang.Text

variable {separator : UInt8} {line : Text}

theorem splitOn_ne_nil (separator : UInt8) (text : Text) : splitOn separator text ≠ [] := by
  cases text with
  | nil => simp [splitOn]
  | cons byte rest =>
      rw [splitOn]
      split
      · simp
      · split <;> simp

theorem splitOn_of_not_mem (unbroken : separator ∉ line) : splitOn separator line = [line] := by
  induction line with
  | nil => rfl
  | cons byte line ih =>
      rw [List.mem_cons, not_or] at unbroken
      simp [splitOn, Ne.symm unbroken.1, ih unbroken.2]

theorem splitOn_append_separator (first second : Text) :
    splitOn separator (first ++ separator :: second) =
      splitOn separator first ++ splitOn separator second := by
  induction first with
  | nil => simp [splitOn]
  | cons byte first ih =>
      rw [List.cons_append, splitOn, splitOn, ih]
      split
      · rfl
      · rcases List.exists_cons_of_ne_nil (splitOn_ne_nil separator first) with
          ⟨part, parts, split⟩
        rw [split]
        rfl

theorem splitOn_append (unbroken : separator ∉ line) (rest : Text) :
    splitOn separator (line ++ separator :: rest) = line :: splitOn separator rest := by
  rw [splitOn_append_separator, splitOn_of_not_mem unbroken, List.singleton_append]

theorem not_mem_of_mem_splitOn {text part : Text} (mem : part ∈ splitOn separator text) :
    separator ∉ part := by
  induction text generalizing part with
  | nil => simp_all [splitOn]
  | cons byte text ih =>
      rw [splitOn] at mem
      split at mem
      · rcases List.mem_cons.mp mem with rfl | mem
        · exact List.not_mem_nil
        · exact ih mem
      · rename_i other
        rcases List.exists_cons_of_ne_nil (splitOn_ne_nil separator text) with
          ⟨first, parts, split⟩
        rw [split] at mem ih
        rcases List.mem_cons.mp mem with rfl | mem
        · exact List.not_mem_cons_of_ne_of_not_mem (Ne.symm other) (ih List.mem_cons_self)
        · exact ih (List.mem_cons_of_mem _ mem)

theorem splitOn_join {parts : List Text} (notEmpty : parts ≠ [])
    (unbroken : ∀ part ∈ parts, separator ∉ part) :
    splitOn separator (join [separator] parts) = parts := by
  induction parts with
  | nil => exact absurd rfl notEmpty
  | cons part parts ih =>
      rw [List.forall_mem_cons] at unbroken
      cases parts with
      | nil => exact splitOn_of_not_mem unbroken.1
      | cons second others =>
          rw [join, List.append_assoc, List.singleton_append, splitOn_append unbroken.1,
            ih (List.cons_ne_nil _ _) unbroken.2]

end LoxLang.Text
