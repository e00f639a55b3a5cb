import LoxLang.Proofs.Toml.Reading
import LoxLang.Proofs.Toml.Spelling

/-!
# Reading numbers

The digits of a number, up to the end of their line, are read as that number. They could be the
start of a date, of a time or of a number with a fraction, which are tried first; these fail because
nothing but digits comes before the end of the line.
-/

namespace LoxLang.Toml

open Reader Grammar

variable {next : Char} {digits more : List Char}

/-- Digits, of which the first is a zero only if there is no other. -/
structure IsNumeral (chars : List Char) : Prop where
  areDigits : ∀ char ∈ chars, within '0' '9' char = true
  nonempty : chars ≠ []
  leading : chars.length = 1 ∨ ∀ first, chars.head? = some first → within '1' '9' first = true

theorem isNumeral_toDigits (number : Nat) : IsNumeral (Nat.toDigits 10 number) := by
  refine ⟨?_, Nat.toDigits_ne_nil, ?_⟩
  · intro char mem
    rcases exists_of_mem_toDigits (by omega) mem with ⟨digit, small, rfl⟩
    clear mem
    revert digit
    decide
  · rcases Nat.eq_zero_or_pos number with rfl | positive
    · exact .inl rfl
    · exact .inr fun first => within_of_head?_toDigits positive

/-- The characters are digits up to the end of the line. -/
def DigitsAhead (ahead : List Char) : Prop :=
  ∃ digits more, (∀ char ∈ digits, within '0' '9' char = true) ∧ ahead = digits ++ '\n' :: more

theorem ne_of_within {char other : Char} (isDigit : within '0' '9' char = true)
    (notDigit : within '0' '9' other = false) : char ≠ other := by
  rintro rfl
  cases isDigit.symm.trans notDigit

theorem refuses_symbol_of_digits {ahead : List Char} (digitsAhead : DigitsAhead ahead)
    {wanted : Char} (notDigit : within '0' '9' wanted = false) (sameLine : '\n' ≠ wanted) :
    Refuses (symbol wanted) ahead := by
  rcases digitsAhead with ⟨digits, more, areDigits, rfl⟩
  cases digits with
  | nil => exact refuses_symbol sameLine
  | cons first digits =>
      exact refuses_symbol (ne_of_within (areDigits first (by simp)) notDigit)

theorem reads_digit (isDigit : within '0' '9' next = true) :
    Reads digit (next :: more) (· = next) more :=
  (reads_char isDigit).rule

theorem refuses_digit (notDigit : within '0' '9' next = false) : Refuses digit (next :: more) :=
  (refuses_char notDigit).rule

theorem reads_laterDigits (areDigits : ∀ digit ∈ digits, within '0' '9' digit = true) :
    ReadsMany laterDigit (digits ++ '\n' :: more) (· = digits) ('\n' :: more) := by
  have stop : Refuses laterDigit ('\n' :: more) :=
    (refuses_digit (by decide)).either (refuses_symbol (by decide)).bind
  have reads := @readsMany_items _ _ laterDigit ('\n' :: more) digits (fun digit => [digit]) id
    (fun digit mem rest => (reads_digit (areDigits digit mem)).either) (by simp) stop
  simpa using reads

theorem reads_unsigned (numeral : IsNumeral digits) :
    Reads unsigned (digits ++ '\n' :: more) (· = digits) ('\n' :: more) := by
  rcases numeral with ⟨areDigits, nonempty, leading⟩
  apply Reads.rule
  match digits with
  | [] => exact (nonempty rfl).elim
  | [single] =>
      have refused : Refuses (do
          let first ← char (within '1' '9')
          return first :: (← manyOne laterDigit)) (single :: '\n' :: more) := by
        by_cases positive : within '1' '9' single = true
        · apply (reads_char positive).bind_refuses
          rintro first rfl
          have stop : Refuses laterDigit ('\n' :: more) :=
            (refuses_digit (by decide)).either (refuses_symbol (by decide)).bind
          exact (Refuses.bind stop).bind
        · exact (refuses_char (by simpa using positive)).bind
      apply refused.either_reads
      exact (reads_digit (areDigits single (by simp))).bind fun _ is => .pure (by rw [is])
  | first :: second :: others =>
      have positive : within '1' '9' first = true := by simpa using leading
      simp only [List.forall_mem_cons] at areDigits
      apply Reads.either
      apply (reads_char positive).bind
      rintro _ rfl
      have later : Reads laterDigit (second :: (others ++ '\n' :: more)) (· = second)
          (others ++ '\n' :: more) := (reads_digit areDigits.2.1).either
      have rest : Reads (manyOne laterDigit) (second :: (others ++ '\n' :: more))
          (· = second :: others) ('\n' :: more) := by
        apply ReadsMany.manyOne later
        rintro _ rfl
        exact (reads_laterDigits areDigits.2.2).imp fun _ is => by rw [is]
      exact rest.bind fun _ is => .pure (by rw [is])

theorem reads_integer (numeral : IsNumeral digits) :
    Reads integer (digits ++ '\n' :: more) (· = digits) ('\n' :: more) := by
  have noSign : Refuses sign (digits ++ '\n' :: more) := by
    rcases numeral with ⟨areDigits, nonempty, _⟩
    cases digits with
    | nil => exact (nonempty rfl).elim
    | cons first others =>
        have isDigit := areDigits first (by simp)
        have notMinus : first ≠ '-' := ne_of_within isDigit (by decide)
        have notPlus : first ≠ '+' := ne_of_within isDigit (by decide)
        exact refuses_char (by simp [notMinus, notPlus])
  apply Reads.rule
  apply noSign.optional.bind
  rintro _ rfl
  exact (reads_unsigned numeral).bind fun _ is => .pure is

theorem refuses_float (numeral : IsNumeral digits) : Refuses float (digits ++ '\n' :: more) := by
  have noFraction : Refuses fraction ('\n' :: more) := (refuses_symbol (by decide)).bind.rule
  have noExponent : Refuses exponent ('\n' :: more) :=
    (refuses_char (by decide)).discard.bind.rule
  apply Refuses.rule
  apply (reads_integer numeral).discard.bind_refuses
  intro _ _
  apply noFraction.bind.either
  exact noFraction.optional.discard.bind_refuses fun _ _ => noExponent

theorem digit_keeps : Keeps digit DigitsAhead := by
  apply keeps_of_cases
  rintro ahead ⟨digits, more, areDigits, rfl⟩
  cases digits with
  | nil => exact .inl (refuses_digit (by decide))
  | cons first digits =>
      rw [List.forall_mem_cons] at areDigits
      exact .inr ⟨_, _, reads_digit areDigits.1, digits, more, areDigits.2, rfl⟩

theorem digitPair_keeps : Keeps digitPair DigitsAhead :=
  (digit_keeps.discard.bind fun _ => digit_keeps.discard).rule

theorem digitQuad_keeps : Keeps digitQuad DigitsAhead :=
  (digitPair_keeps.bind fun _ => digitPair_keeps).rule

theorem refuses_datetime {ahead : List Char} (digitsAhead : DigitsAhead ahead) :
    Refuses datetime ahead := by
  have noDate : Refuses date ahead := by
    apply Refuses.rule
    apply digitQuad_keeps.rule.bind_refuses digitsAhead
    intro _ rest restAhead
    exact (refuses_symbol_of_digits restAhead (by decide) (by decide)).bind
  have noTime : Refuses timeOfDay ahead := by
    apply Refuses.rule
    apply digitPair_keeps.rule.bind_refuses digitsAhead
    intro _ rest restAhead
    exact (refuses_symbol_of_digits restAhead (by decide) (by decide)).bind
  exact (noDate.bind.either noTime).rule

theorem reads_number (numeral : IsNumeral digits) (depth : Nat) :
    Reads (value (depth + 1)) (digits ++ '\n' :: more) (· = .integer (textOf digits))
      ('\n' :: more) := by
  apply Reads.rule
  apply (refuses_datetime ⟨digits, more, numeral.areDigits, rfl⟩).map.either_reads
  apply (refuses_float numeral).map.either_reads
  apply Reads.either
  exact Reads.map ((reads_integer numeral).imp fun _ is => by rw [is])

end LoxLang.Toml
