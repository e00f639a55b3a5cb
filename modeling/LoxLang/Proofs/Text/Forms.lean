import LoxLang.Proofs.Text.Quoted

/-!
# Bracketed forms are uniquely readable

A form is a leaf, or a head with operands, written in parentheses with a space before each operand.
Leaves are words, which hold no byte that could end them, or quoted texts. A form can be told from
the text that it starts, whatever follows, as long as that starts with a byte that ends words. The
proof compares two forms at once: heads are words and end alike, and then each text goes on with a
space if there is another operand and with a closing parenthesis if there is none.
-/

namespace LoxLang

/-- A form in prefix notation. -/
inductive Form where
  | leaf (text : Text)
  | node (head : Text) (operands : List Form)

namespace Form

mutual

/-- The form in writing, in front of `rest`. -/
def writtenBefore (rest : Text) : Form → Text
  | leaf text => text ++ rest
  | node head operands => 0x28 :: (head ++ writtenAllBefore (0x29 :: rest) operands)

/-- The forms in writing, each after a space, in front of `rest`. -/
def writtenAllBefore (rest : Text) : List Form → Text
  | [] => rest
  | first :: others => Byte.space :: first.writtenBefore (writtenAllBefore rest others)

end

/-- The bytes that end a word. -/
def breaks : List UInt8 := [0x28, 0x29, Byte.space, Byte.newline, Byte.quote]

/-- A text that does not end within itself. -/
def IsWord (text : Text) : Prop := text ≠ [] ∧ ∀ byte ∈ text, byte ∉ breaks

instance : DecidablePred IsWord := fun text =>
  decidable_of_iff (text ≠ [] ∧ text.all (· ∉ breaks) = true) (by simp [IsWord])

/-- A leaf is a word or a quoted text. -/
def IsLeaf (text : Text) : Prop := IsWord text ∨ ∃ body, text = Text.quoted body

/-- Nothing follows, or a byte that ends words. -/
def Breaks (rest : Text) : Prop := ∀ byte ∈ rest.head?, byte ∈ breaks

/-- The leaves are leaves and the heads are words. -/
inductive Proper : Form → Prop
  | leaf {text : Text} : IsLeaf text → Proper (leaf text)
  | node {head : Text} {operands : List Form} :
    IsWord head → (∀ operand ∈ operands, Proper operand) → Proper (node head operands)

variable {left right form : Form} {rest others : Text}

section Leaves

variable {text other : Text}

theorem takeWhile_word (isWord : IsWord text) (ends : Breaks rest) :
    (text ++ rest).takeWhile (· ∉ breaks) = text := by
  rw [List.takeWhile_append_of_pos (by simpa using isWord.2)]
  cases rest with
  | nil => simp
  | cons byte rest =>
      have isBreak : byte ∈ breaks := ends byte rfl
      simp [isBreak]

theorem word_injective (isWord : IsWord text) (otherWord : IsWord other) (ends : Breaks rest)
    (otherEnds : Breaks others) (same : text ++ rest = other ++ others) :
    text = other ∧ rest = others := by
  have sameWord : text = other := by
    rw [← takeWhile_word isWord ends, same, takeWhile_word otherWord otherEnds]
  exact ⟨sameWord, List.append_cancel_left (sameWord ▸ same)⟩

/-- A word starts with a byte that ends none, so with neither a quote nor a parenthesis. -/
theorem IsWord.head_not_break (isWord : IsWord text) {byte : UInt8} {more : Text}
    (same : text ++ rest = byte :: more) : byte ∉ breaks := by
  cases text with
  | nil => exact absurd rfl isWord.1
  | cons first text =>
      rw [← (List.cons_eq_cons.mp same).1]
      exact isWord.2 first (by simp)

theorem leaf_injective (isLeaf : IsLeaf text) (otherLeaf : IsLeaf other) (ends : Breaks rest)
    (otherEnds : Breaks others) (same : text ++ rest = other ++ others) :
    text = other ∧ rest = others := by
  have isBreak : Byte.quote ∈ breaks := by decide
  rcases isLeaf with isWord | ⟨body, rfl⟩
  · rcases otherLeaf with otherWord | ⟨body, rfl⟩
    · exact word_injective isWord otherWord ends otherEnds same
    · exact absurd isBreak (isWord.head_not_break same)
  · rcases otherLeaf with otherWord | ⟨otherBody, rfl⟩
    · exact absurd isBreak (otherWord.head_not_break same.symm)
    · rcases Text.quoted_append_injective same with ⟨rfl, rfl⟩
      exact ⟨rfl, rfl⟩

theorem leaf_ne_node (isLeaf : IsLeaf text) : text ++ rest ≠ 0x28 :: others := by
  intro same
  rcases isLeaf with isWord | ⟨body, rfl⟩
  · exact isWord.head_not_break same (by decide)
  · exact absurd (List.cons_eq_cons.mp same).1 (by decide)

end Leaves

/-- The form can be told from the text that it starts. -/
def Readable (left : Form) : Prop :=
  ∀ ⦃right rest others⦄, right.Proper → Breaks rest → Breaks others →
    left.writtenBefore rest = right.writtenBefore others → left = right ∧ rest = others

theorem breaks_operands (operands : List Form) :
    Breaks (writtenAllBefore (0x29 :: rest) operands) := by
  cases operands with
  | nil => simp [writtenAllBefore, Breaks, breaks]
  | cons first operands => simp [writtenAllBefore, Breaks, breaks]

theorem operands_injective {lefts rights : List Form} (readable : ∀ left ∈ lefts, left.Readable)
    (proper : ∀ right ∈ rights, right.Proper)
    (same : writtenAllBefore (0x29 :: rest) lefts = writtenAllBefore (0x29 :: others) rights) :
    lefts = rights ∧ rest = others := by
  induction lefts generalizing rights with
  | nil =>
      cases rights with
      | nil => exact ⟨rfl, (List.cons_eq_cons.mp same).2⟩
      | cons right rights => exact absurd (List.cons_eq_cons.mp same).1 (by decide)
  | cons left lefts ih =>
      cases rights with
      | nil => exact absurd (List.cons_eq_cons.mp same).1 (by decide)
      | cons right rights =>
          rw [List.forall_mem_cons] at readable proper
          rcases readable.1 proper.1 (breaks_operands lefts) (breaks_operands rights)
            (List.cons_eq_cons.mp same).2 with ⟨rfl, sameOthers⟩
          rcases ih readable.2 proper.2 sameOthers with ⟨rfl, rfl⟩
          exact ⟨rfl, rfl⟩

theorem Proper.readable (proper : left.Proper) : left.Readable := by
  induction proper with
  | leaf isLeaf =>
      intro right rest others rightProper ends otherEnds same
      cases rightProper with
      | leaf otherLeaf =>
          rcases leaf_injective isLeaf otherLeaf ends otherEnds same with ⟨rfl, rfl⟩
          exact ⟨rfl, rfl⟩
      | node => exact absurd same (leaf_ne_node isLeaf)
  | node isWord _ ih =>
      intro right rest others rightProper ends otherEnds same
      cases rightProper with
      | leaf otherLeaf => exact absurd same.symm (leaf_ne_node otherLeaf)
      | node otherWord operandsProper =>
          rcases word_injective isWord otherWord (breaks_operands _) (breaks_operands _)
            (List.cons_eq_cons.mp same).2 with ⟨rfl, sameOperands⟩
          rcases operands_injective ih operandsProper sameOperands with ⟨rfl, rfl⟩
          exact ⟨rfl, rfl⟩

section Lines

mutual

theorem writtenBefore_append (form : Form) (rest more : Text) :
    form.writtenBefore rest ++ more = form.writtenBefore (rest ++ more) := by
  cases form with
  | leaf text => simp [writtenBefore]
  | node head operands => simp [writtenBefore, writtenAllBefore_append operands]

theorem writtenAllBefore_append (operands : List Form) (rest more : Text) :
    writtenAllBefore rest operands ++ more = writtenAllBefore (rest ++ more) operands := by
  cases operands with
  | nil => rfl
  | cons first operands =>
      simp [writtenAllBefore, writtenBefore_append first, writtenAllBefore_append operands]

end

theorem Proper.writtenBefore_ne_nil (proper : form.Proper) : form.writtenBefore rest ≠ [] := by
  cases proper with
  | leaf isLeaf =>
      rcases isLeaf with isWord | ⟨body, rfl⟩
      · simp [writtenBefore, isWord.1]
      · simp [writtenBefore, Text.quoted]
  | node => simp [writtenBefore]

/-- What follows the first of several lines. -/
def linesAfter (forms : List Form) : Text :=
  match forms with
  | [] => []
  | first :: others =>
    Byte.newline :: Text.join [Byte.newline] ((first :: others).map (writtenBefore []))

theorem tail_linesAfter (forms : List Form) :
    (linesAfter forms).tail = Text.join [Byte.newline] (forms.map (writtenBefore [])) := by
  cases forms <;> rfl

theorem join_cons (first : Form) (others : List Form) :
    Text.join [Byte.newline] ((first :: others).map (writtenBefore [])) =
      first.writtenBefore (linesAfter others) := by
  cases others with
  | nil => rfl
  | cons second others =>
      simp only [List.map_cons, Text.join, linesAfter, List.singleton_append,
        writtenBefore_append, List.nil_append]

theorem breaks_lines (forms : List Form) : Breaks (linesAfter forms) := by
  cases forms with
  | nil => simp [linesAfter, Breaks]
  | cons first forms => simp [linesAfter, Breaks, breaks]

/-- Forms on lines of their own can be told from the text. -/
theorem lines_injective {lefts rights : List Form} (leftsProper : ∀ left ∈ lefts, left.Proper)
    (rightsProper : ∀ right ∈ rights, right.Proper)
    (same : Text.join [Byte.newline] (lefts.map (writtenBefore [])) =
      Text.join [Byte.newline] (rights.map (writtenBefore []))) : lefts = rights := by
  induction lefts generalizing rights with
  | nil =>
      cases rights with
      | nil => rfl
      | cons right rights =>
          rw [join_cons] at same
          exact absurd same.symm (rightsProper right (by simp)).writtenBefore_ne_nil
  | cons left lefts ih =>
      rw [List.forall_mem_cons] at leftsProper
      rw [join_cons] at same
      cases rights with
      | nil => exact absurd same leftsProper.1.writtenBefore_ne_nil
      | cons right rights =>
          rw [List.forall_mem_cons] at rightsProper
          rw [join_cons] at same
          rcases leftsProper.1.readable rightsProper.1 (breaks_lines lefts) (breaks_lines rights)
            same with ⟨rfl, sameLines⟩
          refine congrArg (left :: ·) (ih leftsProper.2 rightsProper.2 ?_)
          rw [← tail_linesAfter, sameLines, tail_linesAfter]

end Lines

end Form

end LoxLang
