import LoxLang.Proofs.Scan.Characters
import LoxLang.Proofs.Text.Digits
import LoxLang.Text.Quoted

/-!
# Quoted texts are read back

A text is the bytes of its units, and a quoted text shows the units one after the other, up to the
closing quote. The first unit of what stands inside the quotes can be read off (`readUnit?`),
whatever follows it: a backslash announces an escape, whose letter says how many digits there are,
and everything else is a character. So a quoted text determines the text, and where it ends.
-/

namespace LoxLang.Text

namespace Utf8

/-- The unit occurs in a text: it is a character, or a byte that is not one by itself. -/
def Unit.Proper : Unit → Prop
  | char code => IsScalar code
  | stray byte => 0x80 ≤ byte

theorem spells_encode {code : Nat} (scalar : IsScalar code) : Spells code (encode code) := by
  have valid : code.isValidChar := scalar
  have same : Char.ofNat code = Char.ofNatAux code valid := dif_pos valid
  rw [encode, same]
  exact spells_utf8EncodeChar (Char.ofNatAux code valid)

theorem Spells.lead {code : Nat} {first : UInt8} {tail : Text}
    (spells : Spells code (first :: tail)) : first.toNat = code ∨ 0xC0 ≤ first.toNat := by
  match tail with
  | [] => exact .inl spells.2
  | [_] | [_, _] | [_, _, _] =>
      simp only [Spells] at spells
      omega
  | _ :: _ :: _ :: _ :: _ => exact spells.elim

theorem decode?_of_lt {first : UInt8} (low : first < 0x80) (rest : Text) :
    decode? first rest = some (first.toNat, 0) := by
  unfold decode?
  exact if_pos low

theorem unitsAfter_spec (skipped : Nat) (text : Text) :
    (∀ unit ∈ unitsAfter skipped text, unit.Proper) ∧
      (unitsAfter skipped text).flatMap Unit.bytes = text.drop skipped := by
  induction text generalizing skipped with
  | nil => simp [unitsAfter]
  | cons first rest ih =>
      cases skipped with
      | succ skipped => simpa [unitsAfter] using ih skipped
      | zero =>
          rw [unitsAfter]
          cases decoded : decode? first rest with
          | none =>
              have high : 0x80 ≤ first := by
                by_contra low
                cases decoded.symm.trans (decode?_of_lt (UInt8.not_le.mp low) rest)
              simpa [Unit.bytes, Unit.Proper, high] using ih 0
          | some found =>
              rcases found with ⟨code, extra⟩
              rcases spells_of_decode? decoded with ⟨scalar, spells⟩
              rcases ih extra with ⟨proper, bytes⟩
              refine ⟨List.forall_mem_cons.mpr ⟨scalar, proper⟩, ?_⟩
              rw [List.flatMap_cons, bytes, Unit.bytes, (spells_encode scalar).unique spells]
              simp

end Utf8

/-- The code of the character that a letter behind a backslash stands for. -/
def escapeCode? (letter : UInt8) : Option Nat :=
  [0x07, 0x08, 0x09, 0x0A, 0x0B, 0x0C, 0x0D, 0x22, 0x5C].find? (escapeLetter? · = some letter)

/-- The first unit inside quotes, and what follows it. -/
def readUnit? : Text → Option (Utf8.Unit × Text)
  | [] => none
  | first :: rest =>
    if first = Byte.quote then none
    else if first = Byte.backslash then
      match rest with
      | [] => none
      | letter :: rest =>
        if letter = 0x78 then
          let code := fromHex (rest.take 2)
          some (if code < 0x80 then .char code else .stray code.toUInt8, rest.drop 2)
        else if letter = 0x75 then some (.char (fromHex (rest.take 4)), rest.drop 4)
        else if letter = 0x55 then some (.char (fromHex (rest.take 8)), rest.drop 8)
        else (escapeCode? letter).map fun code => (.char code, rest)
    else (Utf8.decode? first rest).map fun (code, extra) => (.char code, rest.drop extra)

theorem readUnit?_byte {code : Nat} (fits : code < 16 ^ 2) (rest : Text) :
    readUnit? (Byte.backslash :: 0x78 :: (ofHex 2 code ++ rest)) =
      some (if code < 0x80 then .char code else .stray code.toUInt8, rest) := by
  have length := length_ofHex (by norm_num) fits
  have apart : Byte.backslash ≠ Byte.quote := by decide
  simp only [readUnit?, apart, if_false, if_true, List.take_left' length, List.drop_left' length,
    fromHex_ofHex]

theorem readUnit?_short {code : Nat} (fits : code < 16 ^ 4) (rest : Text) :
    readUnit? (Byte.backslash :: 0x75 :: (ofHex 4 code ++ rest)) = some (.char code, rest) := by
  have length := length_ofHex (by norm_num) fits
  have apart : Byte.backslash ≠ Byte.quote ∧ (0x75 : UInt8) ≠ 0x78 := by decide
  simp only [readUnit?, apart, if_false, if_true, List.take_left' length, List.drop_left' length,
    fromHex_ofHex]

theorem readUnit?_long {code : Nat} (fits : code < 16 ^ 8) (rest : Text) :
    readUnit? (Byte.backslash :: 0x55 :: (ofHex 8 code ++ rest)) = some (.char code, rest) := by
  have length := length_ofHex (by norm_num) fits
  have apart : Byte.backslash ≠ Byte.quote ∧ (0x55 : UInt8) ≠ 0x78 ∧ (0x55 : UInt8) ≠ 0x75 := by
    decide
  simp only [readUnit?, apart, if_false, if_true, List.take_left' length, List.drop_left' length,
    fromHex_ofHex]

theorem readUnit?_letter {code : Nat} {letter : UInt8} (escaped : escapeLetter? code = some letter)
    (rest : Text) : readUnit? (Byte.backslash :: letter :: rest) = some (.char code, rest) := by
  unfold escapeLetter? at escaped
  split at escaped
  all_goals
    cases escaped
    try rfl

/-- A character that is neither a quote nor a backslash is read as it stands. -/
theorem readUnit?_encode {code : Nat} (scalar : Utf8.IsScalar code)
    (unescaped : escapeLetter? code = none) (rest : Text) :
    readUnit? (Utf8.encode code ++ rest) = some (.char code, rest) := by
  have spells := Utf8.spells_encode scalar
  have notQuote : code ≠ 0x22 := by
    rintro rfl
    cases unescaped
  have notBackslash : code ≠ 0x5C := by
    rintro rfl
    cases unescaped
  cases encoded : Utf8.encode code with
  | nil =>
      rw [encoded] at spells
      exact spells.elim
  | cons first tail =>
      rw [encoded] at spells
      have decoded := Utf8.decode?_of_spells rest scalar spells
      have lead := spells.lead
      have apart : first ≠ Byte.quote ∧ first ≠ Byte.backslash := by
        simp only [ne_eq, ← UInt8.toNat_inj, Byte.quote, Byte.backslash, UInt8.toNat_ofNat]
        omega
      simp only [List.cons_append, readUnit?, apart, if_false, decoded, Option.map_some,
        List.drop_left]

theorem readUnit?_quoted {unit : Utf8.Unit} (proper : unit.Proper) (rest : Text) :
    readUnit? (unit.quoted ++ rest) = some (unit, rest) := by
  cases unit with
  | stray byte =>
      have high : 0x80 ≤ byte.toNat := UInt8.le_iff_toNat_le.mp proper
      rw [Utf8.Unit.quoted, List.cons_append, List.cons_append, readUnit?_byte byte.toNat_lt,
        if_neg (by omega)]
      simp
  | char code =>
      rw [Utf8.Unit.quoted]
      split
      · next escaped => exact readUnit?_letter escaped rest
      · next unescaped =>
          split
          · exact readUnit?_encode proper unescaped rest
          · split
            · next low =>
                have low : code < 0x80 := by
                  rw [Bool.or_eq_true, decide_eq_true_eq, decide_eq_true_eq] at low
                  omega
                rw [List.cons_append, List.cons_append, readUnit?_byte (by omega), if_pos low]
            · split
              · next small => exact readUnit?_short small rest
              · have bounded : code < 0x110000 := by
                  rcases proper with low | ⟨_, high⟩ <;> omega
                exact readUnit?_long (by omega) rest

theorem units_quoted_injective {left right : List Utf8.Unit} {rest others : Text}
    (leftProper : ∀ unit ∈ left, unit.Proper) (rightProper : ∀ unit ∈ right, unit.Proper)
    (same : left.flatMap Utf8.Unit.quoted ++ Byte.quote :: rest =
      right.flatMap Utf8.Unit.quoted ++ Byte.quote :: others) :
    left = right ∧ rest = others := by
  -- Either side is read off the common text, and nothing is read at the closing quote.
  induction left generalizing right with
  | nil =>
      cases right with
      | nil => exact ⟨rfl, (List.cons_eq_cons.mp same).2⟩
      | cons unit right =>
          have read := congrArg readUnit? same
          rw [List.flatMap_cons, List.append_assoc, readUnit?_quoted (rightProper unit (by simp))]
            at read
          cases read
  | cons unit left ih =>
      rw [List.forall_mem_cons] at leftProper
      rw [List.flatMap_cons, List.append_assoc] at same
      have read := congrArg readUnit? same
      rw [readUnit?_quoted leftProper.1] at read
      cases right with
      | nil => cases read
      | cons other right =>
          rw [List.forall_mem_cons] at rightProper
          rw [List.flatMap_cons, List.append_assoc, readUnit?_quoted rightProper.1,
            Option.some.injEq, Prod.mk.injEq] at read
          rcases ih leftProper.2 rightProper.2 read.2 with ⟨rfl, rfl⟩
          exact ⟨by rw [read.1], rfl⟩

/-- A quoted text determines the text, and what follows it. -/
theorem quoted_append_injective {left right rest others : Text}
    (same : quoted left ++ rest = quoted right ++ others) : left = right ∧ rest = others := by
  rcases Utf8.unitsAfter_spec 0 left with ⟨leftProper, leftBytes⟩
  rcases Utf8.unitsAfter_spec 0 right with ⟨rightProper, rightBytes⟩
  simp only [quoted, List.cons_append, List.append_assoc, List.nil_append] at same
  rcases units_quoted_injective leftProper rightProper (List.cons_eq_cons.mp same).2 with
    ⟨sameUnits, rfl⟩
  rw [sameUnits, rightBytes] at leftBytes
  exact ⟨leftBytes.symm, rfl⟩

end LoxLang.Text
