import LoxLang.Text.Utf8
import Mathlib.Data.UInt

/-!
# Characters and their bytes

The decoder of a text finds exactly the characters whose UTF-8 encoding stands at hand. Encoder and
decoder are compared through `Spells`, the table of UTF-8: which bytes stand for a code point, by
their values. At most one character stands at the start of a text, so a text has a first unit, which
is that character or else a single byte.
-/

namespace LoxLang.Text.Utf8

/-- The bytes of a code point by their values, for each of the four lengths. -/
def Spells (code : Nat) : Text → Prop
  | [first] => code < 0x80 ∧ first.toNat = code
  | [first, second] =>
    0x80 ≤ code ∧ code < 0x800 ∧ first.toNat = code / 64 + 0xC0 ∧ second.toNat = code % 64 + 0x80
  | [first, second, third] =>
    0x800 ≤ code ∧ code < 0x10000 ∧ first.toNat = code / 4096 + 0xE0 ∧
      second.toNat = code / 64 % 64 + 0x80 ∧ third.toNat = code % 64 + 0x80
  | [first, second, third, fourth] =>
    0x10000 ≤ code ∧ code < 0x110000 ∧ first.toNat = code / 262144 + 0xF0 ∧
      second.toNat = code / 4096 % 64 + 0x80 ∧ third.toNat = code / 64 % 64 + 0x80 ∧
      fourth.toNat = code % 64 + 0x80
  | _ => False

/-- The code points of characters. Surrogates are none. -/
def IsScalar (code : Nat) : Prop := code < 0xD800 ∨ 0xDFFF < code ∧ code < 0x110000

variable {code extra : Nat} {first second : UInt8} {rest tail : Text}

theorem spells_utf8EncodeChar (char : Char) : Spells char.toNat (String.utf8EncodeChar char) := by
  have scalar : IsScalar char.toNat := char.valid
  have same : char.val.toNat = char.toNat := rfl
  simp only [String.utf8EncodeChar, same]
  generalize char.toNat = code at scalar
  unfold IsScalar at scalar
  split
  · simp only [Spells, UInt8.toNat_ofNat']
    omega
  · split
    · simp only [Spells, UInt8.toNat_ofNat']
      omega
    · split
      · simp only [Spells, UInt8.toNat_ofNat']
        omega
      · simp only [Spells, UInt8.toNat_ofNat']
        omega

theorem Spells.unique {bytes others : Text} (spells : Spells code bytes)
    (othersSpell : Spells code others) : bytes = others := by
  unfold Spells at spells othersSpell
  split at spells <;> split at othersSpell <;> grind [UInt8.toNat_inj]

/-- In UTF-8 a line end stands for itself only. -/
theorem Spells.eq_newline {code : Nat} {text : Text} (spells : Spells code text)
    (mem : Byte.newline ∈ text) : text = [Byte.newline] := by
  have value : Byte.newline.toNat = 10 := rfl
  unfold Spells at spells
  split at spells
  · simpa [eq_comm] using mem
  · simp only [List.mem_cons, List.not_mem_nil, or_false] at mem
    rcases mem with rfl | rfl <;> omega
  · simp only [List.mem_cons, List.not_mem_nil, or_false] at mem
    rcases mem with rfl | rfl | rfl <;> omega
  · simp only [List.mem_cons, List.not_mem_nil, or_false] at mem
    rcases mem with rfl | rfl | rfl | rfl <;> omega
  · exact spells.elim

theorem isTail_iff (byte : UInt8) :
    isTail byte = true ↔ 0x80 ≤ byte.toNat ∧ byte.toNat ≤ 0xBF := by
  simp [isTail, UInt8.le_iff_toNat_le]

/-- The range of a second byte, which is narrower after two of the first bytes. -/
theorem second_iff {low high least greatest : UInt8} (least_ge : 0x80 ≤ least.toNat)
    (greatest_le : greatest.toNat ≤ 0xBF) :
    ((if first = low then least else 0x80) ≤ second &&
        second ≤ (if first = high then greatest else 0xBF)) = true ↔
      (0x80 ≤ second.toNat ∧ second.toNat ≤ 0xBF) ∧
        (first.toNat = low.toNat → least.toNat ≤ second.toNat) ∧
          (first.toNat = high.toNat → second.toNat ≤ greatest.toNat) := by
  have bounds : (0x80 : UInt8).toNat = 0x80 ∧ (0xBF : UInt8).toNat = 0xBF := ⟨rfl, rfl⟩
  simp only [Bool.and_eq_true, decide_eq_true_eq, UInt8.le_iff_toNat_le, UInt8.toNat_inj]
  split <;> split <;> grind

theorem second_of_three_iff :
    ((if first = 0xE0 then (0xA0 : UInt8) else 0x80) ≤ second &&
        second ≤ (if first = 0xED then (0x9F : UInt8) else 0xBF)) = true ↔
      (0x80 ≤ second.toNat ∧ second.toNat ≤ 0xBF) ∧
        (first.toNat = 0xE0 → 0xA0 ≤ second.toNat) ∧ (first.toNat = 0xED → second.toNat ≤ 0x9F) :=
  second_iff (by decide) (by decide)

theorem second_of_four_iff :
    ((if first = 0xF0 then (0x90 : UInt8) else 0x80) ≤ second &&
        second ≤ (if first = 0xF4 then (0x8F : UInt8) else 0xBF)) = true ↔
      (0x80 ≤ second.toNat ∧ second.toNat ≤ 0xBF) ∧
        (first.toNat = 0xF0 → 0x90 ≤ second.toNat) ∧ (first.toNat = 0xF4 → second.toNat ≤ 0x8F) :=
  second_iff (by decide) (by decide)

theorem decode?_of_spells (rest : Text) (scalar : IsScalar code)
    (spells : Spells code (first :: tail)) :
    decode? first (tail ++ rest) = some (code, tail.length) := by
  unfold IsScalar at scalar
  simp only [decode?, UInt8.lt_iff_toNat_lt, UInt8.toNat_ofNat, Nat.reducePow, Nat.reduceMod]
  match tail with
  | [] =>
      simp only [Spells] at spells
      rw [if_pos (by omega), spells.2]
      rfl
  | [second] =>
      simp only [Spells] at spells
      rw [if_neg (by omega), if_neg (by omega), if_pos (by omega)]
      simp only [List.cons_append, isTail_iff, tailBits]
      rw [if_pos (by omega)]
      simp only [List.length_cons, List.length_nil, Option.some.injEq, Prod.mk.injEq, and_true]
      omega
  | [second, third] =>
      simp only [Spells] at spells
      rw [if_neg (by omega), if_neg (by omega), if_neg (by omega), if_pos (by omega)]
      simp only [List.cons_append, Bool.and_eq_true (_ && _), second_of_three_iff, isTail_iff,
        tailBits]
      rw [if_pos (by omega)]
      simp only [List.length_cons, List.length_nil, Option.some.injEq, Prod.mk.injEq, and_true]
      omega
  | [second, third, fourth] =>
      simp only [Spells] at spells
      rw [if_neg (by omega), if_neg (by omega), if_neg (by omega), if_neg (by omega),
        if_pos (by omega)]
      simp only [List.cons_append, Bool.and_eq_true (_ && _), second_of_four_iff, isTail_iff,
        tailBits]
      rw [if_pos (by omega)]
      simp only [List.length_cons, List.length_nil, Option.some.injEq, Prod.mk.injEq, and_true]
      omega

theorem spells_of_decode? (decoded : decode? first rest = some (code, extra)) :
    IsScalar code ∧ Spells code (first :: rest.take extra) := by
  have byte := first.toNat_lt
  unfold IsScalar
  simp only [decode?, UInt8.lt_iff_toNat_lt, UInt8.toNat_ofNat, Nat.reducePow, Nat.reduceMod,
    Bool.and_eq_true (_ && _), second_of_three_iff, second_of_four_iff, isTail_iff, tailBits]
    at decoded
  -- The cases are the ranges of the first byte; the bytes behind it may be missing or wrong.
  split at decoded
  · cases decoded
    exact ⟨by omega, by assumption, rfl⟩
  · split at decoded
    · cases decoded
    · split at decoded
      · split at decoded
        · split at decoded
          · cases decoded
            simp only [List.take_succ_cons, List.take_zero, Spells]
            omega
          · cases decoded
        · cases decoded
      · split at decoded
        · split at decoded
          · split at decoded
            · cases decoded
              simp only [List.take_succ_cons, List.take_zero, Spells]
              omega
            · cases decoded
          · cases decoded
        · split at decoded
          · split at decoded
            · split at decoded
              · cases decoded
                simp only [List.take_succ_cons, List.take_zero, Spells]
                omega
              · cases decoded
            · cases decoded
          · cases decoded

theorem decode?_utf8EncodeChar (char : Char) (rest : Text) :
    ∃ first tail, String.utf8EncodeChar char = first :: tail ∧
      decode? first (tail ++ rest) = some (char.toNat, tail.length) := by
  have spells := spells_utf8EncodeChar char
  cases encoded : String.utf8EncodeChar char with
  | nil =>
      rw [encoded] at spells
      exact spells.elim
  | cons first tail =>
      rw [encoded] at spells
      exact ⟨first, tail, rfl, decode?_of_spells rest char.valid spells⟩

theorem exists_char_of_decode? (decoded : decode? first rest = some (code, extra)) :
    ∃ char : Char, first :: rest.take extra = String.utf8EncodeChar char := by
  rcases spells_of_decode? decoded with ⟨scalar, spells⟩
  refine ⟨Char.ofNatAux code scalar, spells.unique ?_⟩
  exact spells_utf8EncodeChar (Char.ofNatAux code scalar)

/-- A character at the start of a text is its first unit. -/
theorem eq_of_utf8EncodeChar_isPrefix {char : Char}
    (starts : String.utf8EncodeChar char <+: first :: rest) :
    String.utf8EncodeChar char = first :: rest.take (extent first rest) := by
  rcases starts with ⟨others, source⟩
  rcases decode?_utf8EncodeChar char others with ⟨lead, tail, encoded, decoded⟩
  rw [encoded, List.cons_append] at source
  rcases List.cons_eq_cons.mp source with ⟨rfl, rfl⟩
  simp only [encoded, extent, decoded, List.take_left]

/-- The first unit of a text is a character, or a single byte at which no character starts. -/
theorem extent_cases (first : UInt8) (rest : Text) :
    (∃ char : Char, first :: rest.take (extent first rest) = String.utf8EncodeChar char) ∨
      extent first rest = 0 ∧ ∀ char : Char, ¬String.utf8EncodeChar char <+: first :: rest := by
  cases decoded : decode? first rest with
  | some found =>
      rcases exists_char_of_decode? decoded with ⟨char, encoded⟩
      exact Or.inl ⟨char, by simpa only [extent, decoded] using encoded⟩
  | none =>
      refine Or.inr ⟨by simp only [extent, decoded], ?_⟩
      rintro char ⟨others, source⟩
      rcases decode?_utf8EncodeChar char others with ⟨lead, tail, encoded, present⟩
      rw [encoded, List.cons_append] at source
      rcases List.cons_eq_cons.mp source with ⟨rfl, rfl⟩
      cases decoded.symm.trans present

/-- The first unit of a text goes past a line end only if it is one. -/
theorem newlines_unit (notNewline : first ≠ Byte.newline) (rest : Text) :
    Text.newlines (first :: rest.take (extent first rest)) = 0 := by
  apply List.count_eq_zero_of_not_mem
  intro mem
  apply notNewline
  rcases extent_cases first rest with ⟨char, encoded⟩ | ⟨single, _⟩
  · have spells := spells_utf8EncodeChar char
    rw [← encoded] at spells
    exact (List.cons_eq_cons.mp (spells.eq_newline mem)).1
  · rw [single, List.take_zero, List.mem_singleton] at mem
    exact mem.symm

end LoxLang.Text.Utf8
