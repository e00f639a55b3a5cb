import LoxLang.Proofs.Toml.Numbers

/-!
# Reading strings

A quoted text, up to the end of its line, is read as that text if all its units are portable.
Otherwise it is no value at all: the characters of the string are read up to an escape that is not
known, where the string would have to end, and nothing else than a string starts with a quote.
-/

namespace LoxLang.Toml

open Reader Grammar

variable {next : Char} {more : List Char}

section Characters

open Text (fromHex fromHex_ofHex length_ofHex)

theorem refuses_plainChar (special : next = quote ∨ next = backslash) :
    Refuses plainChar (next :: more) := by
  apply Refuses.rule
  apply Refuses.map
  rcases special with rfl | rfl <;> exact refuses_char (by decide)

theorem reads_plainChar (printed : ' ' ≤ next) (notQuote : next ≠ quote)
    (notBackslash : next ≠ backslash) : Reads plainChar (next :: more) (· = some next) more := by
  apply Reads.rule
  apply Reads.map
  exact (reads_char (by simp [printed, notQuote, notBackslash])).imp fun _ is => by rw [is]

theorem reads_letter {letter meant : Char} (means : charOfEscape? letter = some meant) :
    Reads quotedChar (backslash :: letter :: more) (· = some meant) more := by
  apply Reads.rule
  apply (refuses_plainChar (.inr rfl)).either_reads
  apply Reads.rule
  apply Reads.bind reads_symbol.rule
  intro _ _
  apply Reads.either
  apply Reads.map
  exact (reads_char (by simp [isEscapeLetter, means])).imp fun _ is => by rw [is, means]

theorem digitValue?_digitChar : ∀ digit < 16,
    (Byte.digitValue? digit.digitChar.toNat.toUInt8).getD 0 = digit := by
  decide

theorem reads_hexDigit {digit : Nat} (small : digit < 16) :
    Reads hexDigit (digit.digitChar :: more) (· = digit) more := by
  have accepted : ∀ digit < 16, (within '0' '9' digit.digitChar ||
      within 'a' 'f' digit.digitChar || within 'A' 'F' digit.digitChar) = true := by decide
  apply Reads.rule
  apply (reads_char (accepted digit small)).bind
  rintro _ rfl
  exact .pure (digitValue?_digitChar digit small)

/-- The number that hexadecimal digits denote. -/
def hexValue (chars : List Char) : Nat := fromHex (chars.map fun char => char.toNat.toUInt8)

theorem reads_hexQuad {chars : List Char}
    (areHex : ∀ char ∈ chars, ∃ digit < 16, char = digit.digitChar)
    (length : chars.length = 4) : Reads hexQuad (chars ++ more) (· = hexValue chars) more := by
  match chars with
  | [_, _, _, _] =>
      simp only [List.forall_mem_cons] at areHex
      rcases areHex with ⟨⟨a, aSmall, rfl⟩, ⟨b, bSmall, rfl⟩, ⟨c, cSmall, rfl⟩, ⟨d, dSmall, rfl⟩, _⟩
      apply Reads.rule
      apply (reads_hexDigit aSmall).bind
      rintro _ rfl
      apply (reads_hexDigit bSmall).bind
      rintro _ rfl
      apply (reads_hexDigit cSmall).bind
      rintro _ rfl
      apply (reads_hexDigit dSmall).bind
      rintro _ rfl
      apply Reads.pure
      simp only [hexValue, fromHex, Text.positional, List.map_cons, List.map_nil, List.foldl_cons,
        List.foldl_nil, digitValue?_digitChar _ aSmall, digitValue?_digitChar _ bSmall,
        digitValue?_digitChar _ cSmall, digitValue?_digitChar _ dSmall]
      omega

theorem length_hexChars {width number : Nat} (positive : 0 < width) (fits : number < 16 ^ width) :
    (hexChars width number).length = width := by
  have length := length_ofHex positive fits
  rwa [ofHex_eq_map, List.length_map] at length

theorem hexValue_hexChars (width number : Nat) : hexValue (hexChars width number) = number := by
  rw [hexValue, ← ofHex_eq_map, fromHex_ofHex]

theorem charOf?_of_isScalar {code : Nat} (scalar : Text.Utf8.IsScalar code) :
    charOf? code = some (Char.ofNat code) :=
  if_pos scalar

theorem reads_shortEscape {code : Nat} (scalar : Text.Utf8.IsScalar code) (fits : code < 0x10000) :
    Reads quotedChar (backslash :: 'u' :: (hexChars 4 code ++ more)) (· = some (Char.ofNat code))
      more := by
  apply Reads.rule
  apply (refuses_plainChar (.inr rfl)).either_reads
  apply Reads.rule
  apply Reads.bind reads_symbol.rule
  intro _ _
  apply (refuses_char (by decide)).map.either_reads
  apply Reads.either
  apply reads_symbol.bind
  intro _ _
  apply (reads_hexQuad (fun _ => exists_of_mem_hexChars) (length_hexChars (by omega) fits)).bind
  rintro _ rfl
  rw [hexValue_hexChars]
  exact .pure (charOf?_of_isScalar scalar)

theorem hexValue_append (left right : List Char) :
    hexValue (left ++ right) = hexValue left * 16 ^ right.length + hexValue right := by
  simp only [hexValue, fromHex, List.map_append, Text.positional_append, List.length_map]

theorem reads_longEscape {code : Nat} (scalar : Text.Utf8.IsScalar code) :
    Reads quotedChar (backslash :: 'U' :: (hexChars 8 code ++ more)) (· = some (Char.ofNat code))
      more := by
  have fits : code < 16 ^ 8 := by
    rcases scalar with low | ⟨_, high⟩ <;> omega
  have length := length_hexChars (by omega) fits
  have areHex : ∀ char ∈ hexChars 8 code, ∃ digit < 16, char = digit.digitChar :=
    fun _ => exists_of_mem_hexChars
  have value := hexValue_hexChars 8 code
  -- The digits are read in two groups of four.
  rw [← List.take_append_drop 4 (hexChars 8 code)] at areHex value ⊢
  rw [List.forall_mem_append] at areHex
  rw [hexValue_append, List.length_drop, length] at value
  rw [List.append_assoc]
  apply Reads.rule
  apply (refuses_plainChar (.inr rfl)).either_reads
  apply Reads.rule
  apply Reads.bind reads_symbol.rule
  intro _ _
  apply (refuses_char (by decide)).map.either_reads
  apply (refuses_symbol (by decide)).bind.either_reads
  apply Reads.either
  apply reads_symbol.bind
  intro _ _
  apply (reads_hexQuad areHex.1 (by simp [length])).bind
  rintro _ rfl
  apply (reads_hexQuad areHex.2 (by simp [length])).bind
  rintro _ rfl
  apply Reads.pure
  rw [← charOf?_of_isScalar scalar]
  exact congrArg charOf? value

/-- Of the escapes that quoted texts have, these are not known. -/
theorem refuses_unknownEscape {letter : Char} (unknown : letter ∈ ['a', 'v', 'x']) :
    Refuses quotedChar (backslash :: letter :: more) := by
  have notLetter : isEscapeLetter letter = false ∧ letter ≠ 'u' ∧ letter ≠ 'U' := by
    simp only [List.mem_cons, List.not_mem_nil, or_false] at unknown
    rcases unknown with rfl | rfl | rfl <;> decide
  apply Refuses.rule
  apply (refuses_plainChar (.inr rfl)).either
  apply Refuses.rule
  apply Reads.bind_refuses reads_symbol.rule
  intro _ _
  apply (refuses_char notLetter.1).map.either
  apply (refuses_symbol notLetter.2.1).bind.either
  exact (refuses_symbol notLetter.2.2).bind.either refuses_fail

theorem refuses_quotedChar_quote : Refuses quotedChar (quote :: more) := by
  have noEscape : Refuses escaped (quote :: more) := (refuses_symbol (by decide)).rule.bind.rule
  exact ((refuses_plainChar (.inl rfl)).either noEscape).rule

end Characters

section Units

open Text.Utf8 (Unit IsScalar)

variable {unit : Text.Utf8.Unit} {text : Text}

theorem toNat_ofNat {code : Nat} (scalar : IsScalar code) : (Char.ofNat code).toNat = code := by
  have valid : code.isValidChar := scalar
  rw [Char.ofNat, dif_pos valid]
  rfl

theorem ofNat_ne {code : Nat} (scalar : IsScalar code) {char : Char} (other : code ≠ char.toNat) :
    Char.ofNat code ≠ char := by
  rintro rfl
  exact other (toNat_ofNat scalar).symm

theorem isPrintable_of_control {code : Nat} (control : code < 0x20 ∨ code = 0x7F) :
    Text.isPrintable code = false := by
  have all : ∀ code < 0x80, code < 0x20 ∨ code = 0x7F → Text.isPrintable code = false := by
    decide +kernel
  exact all code (by omega) control

/-- The quoted form of a portable unit is read as its character. -/
theorem reads_spelled (proper : unit.Proper) (portable : unit.IsPortable) :
    Reads quotedChar (unit.spelled ++ more) (· = some (Char.ofNat unit.code)) more := by
  cases unit with
  | stray byte => exact portable.elim
  | char code =>
      cases escaped : Text.escapeLetter? code with
      | some letter =>
          simp only [Unit.spelled, escaped]
          unfold Text.escapeLetter? at escaped
          split at escaped
          all_goals
            cases escaped
            try exact reads_letter rfl
          -- The two letters that are left stand for characters that are not portable.
          · exact absurd portable (by decide)
          · exact absurd portable (by decide)
      | none =>
          have notQuote : code ≠ 0x22 := by
            rintro rfl
            cases escaped
          have notBackslash : code ≠ 0x5C := by
            rintro rfl
            cases escaped
          have noControl : 0x20 ≤ code ∧ code ≠ 0x7F := by
            rcases portable with letter | noControl
            · simp only [List.mem_cons, List.not_mem_nil, or_false] at letter
              rcases letter with rfl | rfl | rfl | rfl | rfl <;> cases escaped
            · exact noControl
          simp only [Unit.spelled, escaped]
          split
          · have printed : ' ' ≤ Char.ofNat code := by
              rw [Char.le_def, UInt32.le_iff_toNat_le]
              exact noControl.1.trans_eq (toNat_ofNat proper).symm
            apply Reads.rule
            apply Reads.either
            exact reads_plainChar printed (ofNat_ne proper notQuote) (ofNat_ne proper notBackslash)
          · split
            · next control =>
                rw [Bool.or_eq_true, decide_eq_true_eq, decide_eq_true_eq] at control
                omega
            · split
              · next fits => exact reads_shortEscape proper fits
              · exact reads_longEscape proper

/-- The quoted form of another unit has an escape that is not known. -/
theorem exists_unknownEscape (foreign : ¬unit.IsPortable) :
    ∃ letter rest, unit.spelled = backslash :: letter :: rest ∧ letter ∈ ['a', 'v', 'x'] := by
  cases unit with
  | stray byte => exact ⟨'x', _, rfl, by decide⟩
  | char code =>
      rw [Unit.IsPortable, not_or] at foreign
      have control : code < 0x20 ∨ code = 0x7F := by omega
      cases escaped : Text.escapeLetter? code with
      | some letter =>
          simp only [Unit.spelled, escaped]
          unfold Text.escapeLetter? at escaped
          split at escaped
          all_goals
            cases escaped
            try exact absurd (by decide) foreign.1
          · exact ⟨'a', [], rfl, by decide⟩
          · exact ⟨'v', [], rfl, by decide⟩
          · omega
          · omega
      | none =>
          refine ⟨'x', hexChars 2 code, ?_, by decide⟩
          simp [Unit.spelled, escaped, isPrintable_of_control control, control]

theorem refuses_spelled (foreign : ¬unit.IsPortable) :
    Refuses quotedChar (unit.spelled ++ more) := by
  rcases exists_unknownEscape foreign with ⟨letter, rest, spelled, unknown⟩
  rw [spelled]
  exact refuses_unknownEscape unknown

theorem exists_spelled_eq_cons (proper : unit.Proper) :
    ∃ first rest, unit.spelled = first :: rest ∧ first ≠ quote := by
  have escape : backslash ≠ quote := by decide
  cases unit with
  | stray byte => exact ⟨_, _, rfl, escape⟩
  | char code =>
      cases escaped : Text.escapeLetter? code with
      | some letter =>
          exact ⟨backslash, [Char.ofNat letter.toNat], by simp only [Unit.spelled, escaped], escape⟩
      | none =>
          have notQuote : code ≠ 0x22 := by
            rintro rfl
            cases escaped
          simp only [Unit.spelled, escaped]
          split
          · exact ⟨_, _, rfl, ofNat_ne proper notQuote⟩
          · split
            · exact ⟨_, _, rfl, escape⟩
            · split <;> exact ⟨_, _, rfl, escape⟩

theorem proper_of_mem_units (mem : unit ∈ Text.Utf8.units text) : unit.Proper :=
  (Text.Utf8.unitsAfter_spec 0 text).1 unit mem

theorem textOf?_map_some (chars : List Char) : textOf? (chars.map some) = some (textOf chars) := by
  have all : (chars.map some).mapM id = some chars := by
    induction chars with
    | nil => rfl
    | cons char chars ih => simp [ih]
  rw [textOf?, all, Option.map_some]

/-- The characters of portable units are the text again. -/
theorem textOf?_units (portable : text.IsPortable) :
    textOf? ((Text.Utf8.units text).map fun unit => some (Char.ofNat unit.code)) = some text := by
  have bytes : ∀ unit ∈ Text.Utf8.units text,
      String.utf8EncodeChar (Char.ofNat unit.code) = unit.bytes := by
    intro unit mem
    cases unit with
    | char code => rfl
    | stray byte => exact (portable _ mem).elim
  have chars : (Text.Utf8.units text).map (fun unit => some (Char.ofNat unit.code)) =
      ((Text.Utf8.units text).map fun unit => Char.ofNat unit.code).map some := by
    rw [List.map_map]
    rfl
  rw [chars, textOf?_map_some, textOf, List.flatMap_map, List.flatMap_congr bytes]
  exact congrArg some (Text.Utf8.unitsAfter_spec 0 text).2

theorem reads_basicString (portable : text.IsPortable) :
    Reads basicString (text.spelled ++ more) (· = some text) more := by
  have chars := @readsMany_items _ _ quotedChar (quote :: more) (Text.Utf8.units text)
    Unit.spelled (fun unit => some (Char.ofNat unit.code))
    (fun unit mem _ => reads_spelled (proper_of_mem_units mem) (portable unit mem))
    (fun unit mem => by
      rcases exists_spelled_eq_cons (proper_of_mem_units mem) with ⟨first, rest, spelled, _⟩
      simp [spelled])
    refuses_quotedChar_quote
  rw [Text.spelled, List.cons_append, List.append_assoc]
  apply Reads.rule
  apply reads_symbol.bind
  intro _ _
  apply chars.many.bind
  rintro _ rfl
  exact reads_symbol.bind fun _ _ => .pure (textOf?_units portable)

/-- The characters of a string are read up to the escape that is not known. -/
theorem readsMany_foreign {units : List Text.Utf8.Unit} (proper : ∀ unit ∈ units, unit.Proper)
    (foreign : ∃ unit ∈ units, ¬unit.IsPortable) :
    ∃ rest, ReadsMany quotedChar (units.flatMap Unit.spelled ++ more) (fun _ => True)
      (backslash :: rest) := by
  induction units with
  | nil => simp at foreign
  | cons unit units ih =>
      rw [List.forall_mem_cons] at proper
      rw [List.flatMap_cons, List.append_assoc]
      by_cases portable : unit.IsPortable
      · rcases ih proper.2 (by simpa [portable] using foreign) with ⟨rest, reads⟩
        rcases exists_spelled_eq_cons proper.1 with ⟨first, others, spelled, _⟩
        have shorter : (units.flatMap Unit.spelled ++ more).length <
            (unit.spelled ++ (units.flatMap Unit.spelled ++ more)).length := by
          simp only [spelled, List.length_append, List.length_cons]
          omega
        exact ⟨rest, .step (reads_spelled proper.1 portable) shorter
          fun _ _ => reads.imp fun _ _ => trivial⟩
      · have refuses := @refuses_spelled (units.flatMap Unit.spelled ++ more) unit portable
        rcases exists_unknownEscape portable with ⟨letter, others, spelled, _⟩
        rw [spelled] at refuses ⊢
        exact ⟨_, .stop refuses trivial⟩

theorem refuses_basicString (foreign : ¬text.IsPortable) :
    Refuses basicString (text.spelled ++ more) := by
  have foreign : ∃ unit ∈ Text.Utf8.units text, ¬unit.IsPortable := by
    simpa [Text.IsPortable] using foreign
  rcases @readsMany_foreign (quote :: more) _ (fun _ => proper_of_mem_units) foreign with
    ⟨rest, chars⟩
  rw [Text.spelled, List.cons_append, List.append_assoc]
  apply Refuses.rule
  apply reads_symbol.bind_refuses
  intro _ _
  apply chars.many.bind_refuses
  intro _ _
  exact (refuses_symbol (by decide)).bind

/-- A string that ends its line does not start with three quotes. -/
theorem refuses_longBasicString (text : Text) :
    Refuses longBasicString (text.spelled ++ '\n' :: more) := by
  have proper : ∀ unit ∈ Text.Utf8.units text, unit.Proper := fun _ => proper_of_mem_units
  rw [Text.spelled]
  generalize Text.Utf8.units text = units at proper
  apply Refuses.rule
  apply Refuses.bind
  apply reads_symbol.bind_refuses
  intro _ _
  cases units with
  | nil =>
      apply reads_symbol.bind_refuses
      intro _ _
      exact refuses_symbols (by decide)
  | cons unit units =>
      rcases exists_spelled_eq_cons (proper unit (by simp)) with ⟨first, rest, spelled, notQuote⟩
      rw [List.flatMap_cons, spelled]
      exact refuses_symbols notQuote

/-- What starts with a quote is nothing but a string. -/
theorem refuses_others :
    Refuses datetime (quote :: more) ∧ Refuses float (quote :: more) ∧
      Refuses integer (quote :: more) ∧ Refuses boolean (quote :: more) := by
  have noDigit : Refuses digit (quote :: more) := refuses_digit (by decide)
  have noPair : Refuses digitPair (quote :: more) := noDigit.discard.bind.rule
  have noQuad : Refuses digitQuad (quote :: more) := noPair.bind.rule
  have noDate : Refuses date (quote :: more) := noQuad.rule.bind.rule
  have noTime : Refuses timeOfDay (quote :: more) := noPair.rule.bind.rule
  have noUnsigned : Refuses unsigned (quote :: more) :=
    ((refuses_char (by decide)).bind.either noDigit.bind).rule
  have noInteger : Refuses integer (quote :: more) := by
    apply Refuses.rule
    apply (Refuses.optional (refuses_char (by decide))).bind_refuses
    exact fun _ _ => noUnsigned.bind
  have noBoolean : Refuses boolean (quote :: more) :=
    ((refuses_symbols (by decide)).either (refuses_symbols (by decide))).rule
  exact ⟨(noDate.bind.either noTime).rule, noInteger.discard.bind.rule, noInteger, noBoolean⟩

theorem refuses_literalStrings :
    Refuses longLiteralString (quote :: more) ∧ Refuses literalString (quote :: more) :=
  ⟨(refuses_symbols (by decide)).bind.rule, (refuses_symbol (by decide)).bind.rule⟩

theorem reads_string (portable : text.IsPortable) (depth : Nat) :
    Reads (value (depth + 1)) (text.spelled ++ '\n' :: more) (· = .string (some text))
      ('\n' :: more) := by
  have others := @refuses_others
  have literals := @refuses_literalStrings
  have isString : Reads Grammar.string (text.spelled ++ '\n' :: more) (· = some text)
      ('\n' :: more) := by
    apply Reads.rule
    apply literals.1.either_reads
    apply literals.2.either_reads
    apply (refuses_longBasicString text).either_reads
    exact (reads_basicString portable).either
  apply Reads.rule
  apply others.1.map.either_reads
  apply others.2.1.map.either_reads
  apply others.2.2.1.map.either_reads
  apply others.2.2.2.map.either_reads
  exact (Reads.map (isString.imp fun _ is => by rw [is])).either

theorem refuses_string (foreign : ¬text.IsPortable) (depth : Nat) :
    Refuses (value depth) (text.spelled ++ '\n' :: more) := by
  have others := @refuses_others
  have literals := @refuses_literalStrings
  have noString : Refuses Grammar.string (text.spelled ++ '\n' :: more) := by
    apply Refuses.rule
    apply literals.1.either
    apply literals.2.either
    apply (refuses_longBasicString text).either
    exact (refuses_basicString foreign).either refuses_fail
  cases depth with
  | zero => exact refuses_fail
  | succ depth =>
      apply Refuses.rule
      apply others.1.map.either
      apply others.2.1.map.either
      apply others.2.2.1.map.either
      apply others.2.2.2.map.either
      apply noString.map.either
      have noArray : Refuses (array (value depth)) (text.spelled ++ '\n' :: more) :=
        (refuses_symbol (by decide)).bind.rule
      have noTable : Refuses (inlineTable (value depth)) (text.spelled ++ '\n' :: more) :=
        (refuses_symbol (by decide)).bind.rule
      exact noArray.either (noTable.either refuses_fail)

end Units

end LoxLang.Toml
