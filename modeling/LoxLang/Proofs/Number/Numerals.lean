import LoxLang.Proofs.Number.Plain

/-!
# Numerals with an exponent

A decimal numeral is digits, a point and digits behind it, and an exponent: the letter `e`, a sign
and digits. All but the first digits may be missing, and a minus sign may stand in front. Sources
have no exponents, but what is shown for a number may have one. `Numeral.read?` takes a text apart,
and `Numeral.rounded` is the number that it denotes.

Both layouts of a decimal are numerals that stand for it, the plain one without an exponent and the
other one with an exponent.
-/

namespace LoxLang

instance : DecidablePred Token.IsDigits := fun text =>
  inferInstanceAs (Decidable (text ≠ [] ∧ ∀ byte ∈ text, Byte.isDigit byte = true))

/-- A numeral taken apart: whether it is negative, the digits before and behind the point, and the
exponent, if it has one, by its sign and its digits. -/
structure Numeral where
  negative : Bool
  whole : Text
  part : Text
  exponent : Option (Bool × Text)
deriving DecidableEq, Repr

namespace Numeral

section Reading

/-- The digits behind a point in front of a text, and what follows them. Without the point there are
no such digits, and with it there must be some. -/
def readPart? : Text → Option (Text × Text)
  | [] => some ([], [])
  | first :: rest =>
    if first ≠ Byte.dot then some ([], first :: rest)
    else if rest.takeWhile Byte.isDigit = [] then none
    else some (rest.takeWhile Byte.isDigit, rest.dropWhile Byte.isDigit)

/-- The exponent that a text is, or none if there is no text left. -/
def readExponent? : Text → Option (Option (Bool × Text))
  | [] => some none
  | [_] => none
  | letter :: sign :: digits =>
    if letter = 0x65 ∧ (sign = 0x2B ∨ sign = 0x2D) ∧ Token.IsDigits digits then
      some (some (sign = 0x2D, digits))
    else none

/-- The numeral that a text without a sign in front is. -/
def readUnsigned? (negative : Bool) (text : Text) : Option Numeral :=
  if text.takeWhile Byte.isDigit = [] then none
  else do
    let (part, rest) ← readPart? (text.dropWhile Byte.isDigit)
    let exponent ← readExponent? rest
    return ⟨negative, text.takeWhile Byte.isDigit, part, exponent⟩

/-- The numeral that a text is. -/
def read? (text : Text) : Option Numeral :=
  if text.head? = some 0x2D then readUnsigned? true text.tail else readUnsigned? false text

end Reading

section Writing

/-- The digits in front and behind, where they belong. -/
structure WellFormed (numeral : Numeral) : Prop where
  whole : Token.IsDigits numeral.whole
  part : ∀ byte ∈ numeral.part, Byte.isDigit byte = true
  exponent : ∀ sign digits, numeral.exponent = some (sign, digits) → Token.IsDigits digits

/-- The text of an exponent. -/
def exponentText : Option (Bool × Text) → Text
  | none => []
  | some (negative, digits) => 0x65 :: (if negative then 0x2D else 0x2B) :: digits

/-- The text of a numeral without its sign. -/
def unsignedText (numeral : Numeral) : Text :=
  numeral.whole ++ ((if numeral.part = [] then [] else Byte.dot :: numeral.part) ++
    exponentText numeral.exponent)

/-- The text of a numeral. -/
def text (numeral : Numeral) : Text :=
  if numeral.negative then 0x2D :: numeral.unsignedText else numeral.unsignedText

variable {numeral : Numeral} {digits rest : Text}

theorem digits_before (inside : ∀ byte ∈ digits, Byte.isDigit byte = true)
    (stops : ∀ byte, rest.head? = some byte → Byte.isDigit byte = false) :
    (digits ++ rest).takeWhile Byte.isDigit = digits ∧
      (digits ++ rest).dropWhile Byte.isDigit = rest := by
  rw [List.takeWhile_append_of_pos inside, List.dropWhile_append_of_pos inside]
  cases rest with
  | nil => simp
  | cons byte others => simp [stops byte rfl]

theorem exponentText_head? {exponent : Option (Bool × Text)} {byte : UInt8}
    (first : (exponentText exponent).head? = some byte) :
    byte ≠ Byte.dot ∧ Byte.isDigit byte = false := by
  cases exponent with
  | none => cases first
  | some exponent =>
      cases first
      decide

theorem readExponent?_exponentText {exponent : Option (Bool × Text)}
    (formed : ∀ sign digits, exponent = some (sign, digits) → Token.IsDigits digits) :
    readExponent? (exponentText exponent) = some exponent := by
  cases exponent with
  | none => rfl
  | some exponent =>
      rcases exponent with ⟨negative, digits⟩
      have isDigits := formed negative digits rfl
      cases negative <;> simp [exponentText, readExponent?, isDigits]

/-- The text of the digits behind the point, with the point. -/
theorem readPart?_append {part : Text} (inside : ∀ byte ∈ part, Byte.isDigit byte = true)
    (exponent : Option (Bool × Text)) :
    readPart? ((if part = [] then [] else Byte.dot :: part) ++ exponentText exponent) =
      some (part, exponentText exponent) := by
  split
  · next none =>
      rw [none]
      cases exponent <;> rfl
  · next some =>
      rcases digits_before inside fun byte first => (exponentText_head? first).2 with
        ⟨taken, dropped⟩
      rw [List.cons_append, readPart?, if_neg (not_not.mpr rfl), taken, dropped, if_neg some]

theorem readUnsigned?_unsignedText (formed : numeral.WellFormed) (negative : Bool) :
    readUnsigned? negative numeral.unsignedText = some { numeral with negative } := by
  have stops : ∀ byte, ((if numeral.part = [] then [] else Byte.dot :: numeral.part) ++
      exponentText numeral.exponent).head? = some byte → Byte.isDigit byte = false := by
    intro byte first
    split at first
    · exact (exponentText_head? first).2
    · cases first
      decide
  rcases digits_before formed.whole.2 stops with ⟨taken, dropped⟩
  rw [readUnsigned?, unsignedText, taken, dropped, if_neg formed.whole.1,
    readPart?_append formed.part, Option.bind_eq_bind, Option.bind_some]
  dsimp only
  rw [readExponent?_exponentText formed.exponent]
  rfl

/-- A numeral is read back from its text. -/
theorem read?_text (formed : numeral.WellFormed) : read? numeral.text = some numeral := by
  rcases formed.whole.exists_digit with ⟨first, others, whole, isDigit⟩
  have unsigned : numeral.unsignedText.head? ≠ some 0x2D := by
    rw [unsignedText, whole]
    rintro minus
    cases minus
    exact absurd isDigit (by decide)
  have reads := readUnsigned?_unsignedText formed
  rcases numeral with ⟨negative, _, _, _⟩
  cases negative with
  | true => exact reads true
  | false =>
      rw [read?, text, if_neg Bool.false_ne_true, if_neg unsigned]
      exact reads false

end Writing

/-- The power of ten of a numeral. -/
def power (numeral : Numeral) : Int :=
  match numeral.exponent with
  | none => 0
  | some (true, digits) => -Text.toNat digits
  | some (false, digits) => Text.toNat digits

/-- The decimal that a numeral stands for, apart from its sign. -/
def decimal (numeral : Numeral) : Decimal :=
  ⟨Text.toNat (numeral.whole ++ numeral.part), numeral.power - numeral.part.length⟩

/-- The number that a numeral denotes: the nearest to its decimal, with its sign. -/
def rounded (numeral : Numeral) : Number :=
  let fraction := Fraction.ofDecimal numeral.decimal
  let magnitude := (Number.ofRatio fraction.numerator fraction.denominator).magnitude
  ⟨((if numeral.negative then 2 ^ 63 else 0) + magnitude).toUInt64⟩

/-- The numeral has the decimal and the sign, and it has an exponent or not. -/
structure Denotes (numeral : Numeral) (decimal : Decimal) (negative plain : Bool) : Prop where
  formed : numeral.WellFormed
  value : numeral.decimal.toRat = decimal.toRat
  sign : numeral.negative = negative
  isPlain : numeral.exponent = none ↔ plain = true

end Numeral

namespace Decimal

/-- The plain layout is a numeral without an exponent. -/
theorem exists_plain (decimal : Decimal) (negative : Bool) :
    ∃ numeral : Numeral, numeral.Denotes decimal negative true ∧
      numeral.unsignedText = decimal.plain := by
  rcases decimal.plain_parts with ⟨whole, part, wholeDigits, partDigits, layout, value⟩
  refine ⟨⟨negative, whole, part, none⟩, ⟨⟨wholeDigits, partDigits, by simp⟩, ?_, rfl, by simp⟩, ?_⟩
  · rw [← value, toRat, Numeral.decimal, Numeral.power, zero_sub, zpow_neg, zpow_natCast,
      div_eq_mul_inv]
  · rw [layout, Numeral.unsignedText]
    simp [Numeral.exponentText]

/-- The digits of an exponent, of which there are at least two. -/
theorem exists_exponentDigits (number : Nat) :
    ∃ digits : Text, List.replicate (2 - (Text.ofNat number).length) 0x30 ++ Text.ofNat number =
      digits ∧ Token.IsDigits digits ∧ Text.toNat digits = number := by
  have digits := Text.isDigits_ofNat number
  refine ⟨_, rfl, ⟨by simp [digits.1], ?_⟩, ?_⟩
  · rw [List.forall_mem_append]
    refine ⟨fun byte mem => ?_, digits.2⟩
    rw [List.eq_of_mem_replicate mem]
    decide
  · rw [Text.toNat_append, Text.toNat_zeros, Text.toNat_ofNat, Nat.zero_mul, Nat.zero_add]

/-- The other layout is a numeral with an exponent. -/
theorem exists_scientific (decimal : Decimal) (negative : Bool) :
    ∃ numeral : Numeral, numeral.Denotes decimal negative false ∧
      numeral.unsignedText = decimal.scientific := by
  have value := Text.toNat_ofNat decimal.digits
  have point : decimal.point = (Text.ofNat decimal.digits).length + decimal.scale := rfl
  have isDigits := Text.isDigits_ofNat decimal.digits
  rcases exists_exponentDigits (decimal.point - 1).natAbs with
    ⟨exponentDigits, written, areDigits, exponentValue⟩
  rcases isDigits.exists_digit with ⟨first, others, digits, firstDigit⟩
  rw [scientific, written]
  rw [digits] at value point isDigits ⊢
  let numeral : Numeral :=
    ⟨negative, [first], others, some (decide (decimal.point - 1 < 0), exponentDigits)⟩
  have power : numeral.power = decimal.point - 1 := by
    simp only [numeral, Numeral.power]
    by_cases below : decimal.point - 1 < 0
    · simp only [below, decide_true, exponentValue]
      omega
    · simp only [below, decide_false, exponentValue]
      omega
  refine ⟨numeral, ⟨⟨⟨by simp [numeral], ?_⟩, ?_, ?_⟩, ?_, rfl, by simp [numeral]⟩, ?_⟩
  · simpa [numeral] using firstDigit
  · exact fun byte mem => isDigits.2 byte (List.mem_cons_of_mem _ mem)
  · intro sign behind same
    cases same
    exact areDigits
  · rw [List.length_cons] at point
    have scale : numeral.decimal.scale = decimal.scale := by
      change numeral.power - others.length = decimal.scale
      omega
    have same : numeral.decimal.digits = decimal.digits := value
    rw [toRat, toRat, same, scale]
  · cases others <;> simp [Numeral.unsignedText, Numeral.exponentText, numeral]

end Decimal

end LoxLang
