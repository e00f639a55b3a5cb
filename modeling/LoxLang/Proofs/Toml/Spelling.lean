import LoxLang.Proofs.Text.Quoted
import LoxLang.Toml.Document

/-!
# The characters of quoted texts

A document is read as characters, but written as bytes. What is written here is the bytes of
characters that can be told: the characters of a number are its digits, and those of a quoted text
are given by `Unit.spelled`, unit by unit. A document reads as the characters whose bytes it is.

Quoted texts escape more than TOML has escapes for. The units whose quoted form means the same in
TOML are the portable ones.
-/

namespace LoxLang.Toml

open Text Text.Utf8

namespace Grammar

@[simp]
theorem textOf_append (left right : List Char) :
    textOf (left ++ right) = textOf left ++ textOf right :=
  List.flatMap_append

@[simp]
theorem textOf_cons (char : Char) (chars : List Char) :
    textOf (char :: chars) = String.utf8EncodeChar char ++ textOf chars :=
  rfl

theorem utf8EncodeChar_of_lt {char : Char} (ascii : char.toNat < 0x80) :
    String.utf8EncodeChar char = [char.toNat.toUInt8] := by
  have single : Spells char.toNat [char.toNat.toUInt8] := by
    refine ⟨ascii, ?_⟩
    simp only [Nat.toUInt8, UInt8.toNat_ofNat']
    omega
  exact (spells_utf8EncodeChar char).unique single

theorem textOf_ascii {chars : List Char} (ascii : ∀ char ∈ chars, char.toNat < 0x80) :
    textOf chars = chars.map fun char => char.toNat.toUInt8 := by
  induction chars with
  | nil => rfl
  | cons char chars ih =>
      rw [List.forall_mem_cons] at ascii
      rw [textOf_cons, utf8EncodeChar_of_lt ascii.1, ih ascii.2]
      rfl

end Grammar

theorem unitsAfter_append (tail rest : Text) :
    unitsAfter tail.length (tail ++ rest) = unitsAfter 0 rest := by
  induction tail with
  | nil => rfl
  | cons byte tail ih => exact ih

/-- A document is read as the characters whose bytes it is. -/
theorem ahead_start (chars : List Char) : (Place.start (Grammar.textOf chars)).ahead = chars := by
  simp only [Place.start, units]
  induction chars with
  | nil => rfl
  | cons char chars ih =>
      rcases decode?_utf8EncodeChar char (Grammar.textOf chars) with ⟨first, tail, bytes, decoded⟩
      rw [Grammar.textOf_cons, bytes, List.cons_append, unitsAfter]
      simp only [decoded, unitsAfter_append, List.map_cons, ih]
      exact congrArg (· :: chars) (Char.ofNat_toNat char)

section Digits

theorem exists_of_mem_toDigits {base : Nat} (atLeast : 1 < base) {number : Nat} {char : Char}
    (mem : char ∈ Nat.toDigits base number) : ∃ digit < base, char = digit.digitChar := by
  induction number using Nat.strongRecOn with
  | ind number ih =>
      rw [Nat.toDigits_eq_if atLeast] at mem
      split at mem
      · next small => exact ⟨number, small, by simpa using mem⟩
      · next large =>
          rw [List.mem_append, List.mem_singleton] at mem
          rcases mem with mem | rfl
          · exact ih _ (Nat.div_lt_self (by omega) atLeast) mem
          · exact ⟨number % base, Nat.mod_lt _ (by omega), rfl⟩

theorem within_of_head?_toDigits {number : Nat} (positive : 0 < number) {first : Char}
    (isHead : (Nat.toDigits 10 number).head? = some first) :
    Grammar.within '1' '9' first = true := by
  induction number using Nat.strongRecOn with
  | ind number ih =>
      rw [Nat.toDigits_eq_if (by omega)] at isHead
      split at isHead
      · next small =>
          cases isHead
          have single : ∀ digit < 10, 0 < digit →
              Grammar.within '1' '9' digit.digitChar = true := by decide
          exact single number small positive
      · rw [List.head?_append_of_ne_nil _ Nat.toDigits_ne_nil] at isHead
        exact ih (number / 10) (by omega) (by omega) isHead

theorem textOf_toDigits (number : Nat) :
    Grammar.textOf (Nat.toDigits 10 number) = ofNat number := by
  apply Grammar.textOf_ascii
  intro char mem
  rcases exists_of_mem_toDigits (by omega) mem with ⟨digit, small, rfl⟩
  clear mem
  revert digit
  decide

/-- A number in hexadecimal digits. -/
def hexChars (width number : Nat) : List Char :=
  List.replicate (width - (Nat.toDigits 16 number).length) '0' ++ Nat.toDigits 16 number

theorem exists_of_mem_hexChars {width number : Nat} {char : Char}
    (mem : char ∈ hexChars width number) : ∃ digit < 16, char = digit.digitChar := by
  rcases List.mem_append.mp mem with zero | mem
  · exact ⟨0, by omega, List.eq_of_mem_replicate zero⟩
  · exact exists_of_mem_toDigits (by omega) mem

theorem ofHex_eq_map (width number : Nat) :
    ofHex width number = (hexChars width number).map fun char => char.toNat.toUInt8 := by
  simp [ofHex, hexChars]

theorem textOf_hexChars (width number : Nat) :
    Grammar.textOf (hexChars width number) = ofHex width number := by
  rw [ofHex_eq_map]
  apply Grammar.textOf_ascii
  intro char mem
  rcases exists_of_mem_hexChars mem with ⟨digit, small, rfl⟩
  clear mem
  revert digit
  decide

end Digits

end LoxLang.Toml

namespace LoxLang.Text

open Toml Toml.Grammar

/-- The characters of the quoted form of a unit. -/
def Utf8.Unit.spelled : Utf8.Unit → List Char
  | .stray byte => backslash :: 'x' :: hexChars 2 byte.toNat
  | .char code =>
    match escapeLetter? code with
    | some letter => [backslash, Char.ofNat letter.toNat]
    | none =>
      if isPrintable code then [Char.ofNat code]
      else if code < 0x20 || code = 0x7F then backslash :: 'x' :: hexChars 2 code
      else if code < 0x10000 then backslash :: 'u' :: hexChars 4 code
      else backslash :: 'U' :: hexChars 8 code

theorem textOf_hexEscape (letter : Char) (width code : Nat) :
    textOf (backslash :: letter :: hexChars width code) =
      Byte.backslash :: (String.utf8EncodeChar letter ++ ofHex width code) := by
  rw [textOf_cons, textOf_cons, textOf_hexChars]
  rfl

theorem Utf8.Unit.textOf_spelled (unit : Utf8.Unit) : textOf unit.spelled = unit.quoted := by
  cases unit with
  | stray byte => exact textOf_hexEscape 'x' 2 byte.toNat
  | char code =>
      cases escaped : escapeLetter? code with
      | some letter =>
          simp only [Utf8.Unit.spelled, Utf8.Unit.quoted, escaped]
          unfold escapeLetter? at escaped
          split at escaped
          all_goals
            cases escaped
            try decide
      | none =>
          simp only [Utf8.Unit.spelled, Utf8.Unit.quoted, escaped]
          split
          · simp [textOf, Utf8.encode]
          · split
            · exact textOf_hexEscape 'x' 2 code
            · split
              · exact textOf_hexEscape 'u' 4 code
              · exact textOf_hexEscape 'U' 8 code

/-- The unit is a character whose quoted form TOML reads as that character: it is no control
character, or one of five that have an escape of one letter. -/
def Utf8.Unit.IsPortable : Utf8.Unit → Prop
  | .char code => code ∈ [0x08, 0x09, 0x0A, 0x0C, 0x0D] ∨ 0x20 ≤ code ∧ code ≠ 0x7F
  | .stray _ => False

instance : DecidablePred Utf8.Unit.IsPortable
  | .char _ => inferInstanceAs (Decidable (_ ∨ _))
  | .stray _ => inferInstanceAs (Decidable False)

/-- All units of the text are portable. -/
def IsPortable (text : Text) : Prop := ∀ unit ∈ Utf8.units text, unit.IsPortable

instance : DecidablePred IsPortable := fun text =>
  inferInstanceAs (Decidable (∀ unit ∈ Utf8.units text, unit.IsPortable))

/-- The characters of a quoted text. -/
def spelled (text : Text) : List Char :=
  Grammar.quote :: ((Utf8.units text).flatMap Utf8.Unit.spelled ++ [Grammar.quote])

theorem textOf_spelled (text : Text) : textOf text.spelled = text.quoted := by
  have units_spelled : textOf ((Utf8.units text).flatMap Utf8.Unit.spelled) =
      (Utf8.units text).flatMap Utf8.Unit.quoted := by
    simp only [textOf, List.flatMap_assoc]
    congr 1
    funext unit
    exact unit.textOf_spelled
  rw [spelled, textOf_cons, textOf_append, units_spelled]
  rfl

end LoxLang.Text
