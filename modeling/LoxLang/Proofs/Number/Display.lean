import LoxLang.Proofs.Number.Fewest
import LoxLang.Proofs.Number.Numerals
import LoxLang.Proofs.Number.Sign
import LoxLang.Tree.Printed
import LoxLang.Value

/-!
# The texts of numbers determine them

A number has two texts: its printed form, which is plain, and what is shown for it, which may have
an exponent. Both write the shortest decimal that rounds to the number without its sign, in front of
which stands a minus sign if the number has one. The printed form is scanned as the number again.
What is shown is read as a numeral, and the numeral rounds to the number; infinity is shown as a
word that is no numeral. Either way the number can be told from the text.
-/

namespace LoxLang

namespace Number

variable {number left right : Number}

/-- The number without its sign. -/
def unsigned (number : Number) : Number := ofMagnitude number.magnitude

/-- The decimal that is shown for a finite number, apart from its sign. -/
def shown (number : Number) : Decimal := if number.isZero then ⟨0, 0⟩ else number.shortest

section Signs

theorem bits_toNat_eq (number : Number) :
    number.bits.toNat = (if number.isNegative then 2 ^ 63 else 0) + number.magnitude := by
  have small : number.bits.toNat < 2 ^ 64 := number.bits.toNat_lt
  rw [magnitude, Nat.pow_eq]
  cases sign : number.isNegative with
  | true =>
      have large : 2 ^ 63 ≤ number.bits.toNat := of_decide_eq_true sign
      rw [if_pos rfl]
      omega
  | false =>
      have less : ¬ 2 ^ 63 ≤ number.bits.toNat := of_decide_eq_false sign
      rw [if_neg Bool.false_ne_true]
      omega

theorem ofBits_sign_magnitude (number : Number) :
    (⟨((if number.isNegative then 2 ^ 63 else 0) + number.magnitude).toUInt64⟩ : Number) =
      number := by
  rw [← bits_toNat_eq]
  exact congrArg Number.mk UInt64.ofNat_toNat

theorem eq_of_sign_of_magnitude (sameSign : left.isNegative = right.isNegative)
    (same : left.magnitude = right.magnitude) : left = right := by
  rw [← left.ofBits_sign_magnitude, sameSign, same, right.ofBits_sign_magnitude]

theorem unsigned_spec (finite : number.magnitude < infinite) :
    number.unsigned.IsUnsigned ∧ number.unsigned.magnitude = number.magnitude :=
  ofMagnitude_spec finite.le

theorem isPositive_unsigned (finite : number.magnitude < infinite)
    (nonzero : number.unsigned.isZero = false) : number.unsigned.IsPositive := by
  rcases unsigned_spec finite with ⟨unsigned, same⟩
  exact ⟨unsigned.nonnegative, by rwa [same], nonzero⟩

theorem neg_eq_unsigned (finite : number.magnitude < infinite)
    (negative : number.isNegative = true) : number.neg = number.unsigned := by
  rcases neg_spec finite with ⟨sign, magnitude⟩
  rcases unsigned_spec finite with ⟨unsigned, sameMagnitude⟩
  apply eq_of_sign_of_magnitude
  · rw [sign, negative, unsigned.nonnegative]
    rfl
  · rw [magnitude, sameMagnitude]

theorem shown_of_magnitude (same : left.magnitude = right.magnitude) :
    left.shown = right.shown := by
  have field : left.exponentField = right.exponentField := congrArg (· / Nat.pow 2 52) same
  have fraction : left.fractionField = right.fractionField := congrArg (· % Nat.pow 2 52) same
  have significand : left.significand = right.significand := by
    rw [Number.significand, Number.significand, field, fraction]
  have exponent : left.exponent = right.exponent := by
    rw [Number.exponent, Number.exponent, field]
  have rounding : left.rounding = right.rounding := by
    rw [Number.rounding, Number.rounding, significand, exponent, field, fraction]
  have isZero : left.isZero = right.isZero := by rw [Number.isZero, Number.isZero, same]
  rw [shown, shown, isZero, shortest, shortest, rounding, significand]

end Signs

section Layouts

variable (finite : number.magnitude < infinite)
include finite

theorem plain_eq_shown : number.plain = number.signed number.shown.plain := by
  rcases ordinary_of_finite finite with ⟨notNaN, notInfinite⟩
  rw [plain, notNaN, notInfinite, shown]
  simp only [Bool.false_eq_true, if_false]
  split <;> rfl

theorem display_eq_shown :
    number.display = number.signed
      (if number.isShownPlain then number.shown.plain else number.shown.scientific) := by
  rcases ordinary_of_finite finite with ⟨notNaN, notInfinite⟩
  rw [display, notNaN, notInfinite]
  simp only [Bool.false_eq_true, if_false]
  split
  · exact plain_eq_shown finite
  · next notPlain =>
      have nonzero : number.isZero = false := by
        rw [isShownPlain, Bool.or_eq_true, not_or] at notPlain
        simpa using notPlain.1
      rw [shown, nonzero]
      rfl

/-- The decimal that is shown rounds to the number. -/
theorem isNearest_shown : number.unsigned.IsNearest number.shown.toRat := by
  rcases unsigned_spec finite with ⟨unsigned, same⟩
  rw [← shown_of_magnitude same, shown]
  cases isZero : number.unsigned.isZero with
  | true =>
      have zero : ofRatio 0 1 = number.unsigned :=
        (isUnsigned_ofRatio 0 1).eq_of_magnitude unsigned (of_decide_eq_true isZero).symm
      have nearest := isNearest_ofRatio 0 Nat.one_pos
      rw [zero] at nearest
      simpa [Decimal.toRat] using nearest
  | false =>
      have isPositive := isPositive_unsigned finite isZero
      rcases Fraction.ofDecimal_spec number.unsigned.shortest with ⟨positive, value⟩
      have attracts := isPositive.attracts_shortest
      rw [← value] at attracts
      have rounded := isPositive.ofRatio_eq_of_attracts positive attracts
      rw [if_neg Bool.false_ne_true, ← value]
      exact (ofRatio_eq_iff positive).mp rounded

/-- No decimal that rounds to the number has fewer digits than the one that is shown. -/
theorem digitCount_shown_le {decimal : Decimal}
    (nearest : number.unsigned.IsNearest decimal.toRat) :
    Fraction.digitCount number.shown.digits ≤ Fraction.digitCount decimal.digits := by
  rcases unsigned_spec finite with ⟨unsigned, same⟩
  rw [← shown_of_magnitude same, shown]
  cases isZero : number.unsigned.isZero with
  | true => exact Nat.zero_le _
  | false =>
      have isPositive := isPositive_unsigned finite isZero
      exact isPositive.digitCount_shortest_le (isPositive.attracts_of_isNearest nearest)

/-- What is shown is a numeral that stands for the shown decimal. -/
theorem exists_display_numeral :
    ∃ numeral : Numeral, numeral.Denotes number.shown number.isNegative number.isShownPlain ∧
      Numeral.read? number.display = some numeral := by
  have layout := display_eq_shown finite
  obtain ⟨numeral, denotes, text⟩ : ∃ numeral : Numeral,
      numeral.Denotes number.shown number.isNegative number.isShownPlain ∧
        numeral.unsignedText =
          if number.isShownPlain then number.shown.plain else number.shown.scientific := by
    cases number.isShownPlain with
    | true => exact number.shown.exists_plain number.isNegative
    | false => exact number.shown.exists_scientific number.isNegative
  refine ⟨numeral, denotes, ?_⟩
  have same : number.display = numeral.text := by
    rw [layout, ← text, signed, Numeral.text, denotes.sign]
  rw [same]
  exact Numeral.read?_text denotes.formed

/-- A numeral that stands for the shown decimal denotes the number. -/
theorem rounded_of_denotes {numeral : Numeral} {plain : Bool}
    (denotes : numeral.Denotes number.shown number.isNegative plain) :
    numeral.rounded = number := by
  rcases unsigned_spec finite with ⟨_, same⟩
  rcases Fraction.ofDecimal_spec numeral.decimal with ⟨positive, value⟩
  have nearest := isNearest_shown finite
  rw [← denotes.value, ← value] at nearest
  have rounds := (ofRatio_eq_iff positive).mpr nearest
  simp only [Numeral.rounded]
  rw [rounds, same, denotes.sign]
  exact number.ofBits_sign_magnitude

end Layouts

section Bounds

theorem value_le_iff : left.value ≤ right.value ↔ left.magnitude ≤ right.magnitude := by
  constructor
  · intro le
    by_contra greater
    exact absurd (value_lt_value (Nat.lt_of_not_le greater)) (not_lt.mpr le)
  · exact value_le_value

theorem value_beyondPlain : beyondPlain.value = 10 ^ 21 := by
  have significand : beyondPlain.significand = 7629394531250000 := by decide +kernel
  have exponent : beyondPlain.exponent = 17 := by decide +kernel
  rw [value, significand, exponent]
  norm_num

/-- The bounds of the plain layout, as bounds of values. -/
theorem isShownPlain_iff (number : Number) :
    number.isShownPlain = true ↔ number.isZero = true ∨
      leastPlain.value ≤ number.value ∧ number.value < 10 ^ 21 := by
  rw [isShownPlain, Bool.or_eq_true, Bool.and_eq_true, decide_eq_true_eq, decide_eq_true_eq,
    ← value_beyondPlain, value_le_iff, ← not_le, ← not_le, value_le_iff]

end Bounds

end Number

section Scanning

variable {text : Text}

theorem Token.IsDigits.newlines_eq (digits : Token.IsDigits text) : text.newlines = 0 := by
  rw [Text.newlines, List.count_eq_zero]
  intro mem
  exact absurd (digits.2 _ mem) (by decide)

theorem Token.IsNumeral.newlines_eq (isNumeral : Token.IsNumeral text) : text.newlines = 0 := by
  rcases isNumeral with digits | ⟨whole, part, wholeDigits, partDigits, rfl⟩
  · exact digits.newlines_eq
  · have behind : Text.newlines (Byte.dot :: part) = part.newlines :=
      List.count_cons_of_ne (by decide)
    rw [Text.newlines_append, behind, wholeDigits.newlines_eq, partDigits.newlines_eq]

theorem pieces_numeral (isNumeral : Token.IsNumeral text) : pieces text = [⟨.number, text⟩] := by
  have cut := (Piece.cut_of_isNumeral isNumeral).pieces_append (.inl rfl)
  rwa [List.append_nil] at cut

theorem pieces_minus (text : Text) :
    pieces (0x2D :: text) = ⟨.symbol .minus, [0x2D]⟩ :: pieces text := by
  have longest : Piece.longest 0x2D text = ⟨.symbol .minus, [0x2D]⟩ := rfl
  have first := @pieces_append 0x2D [] text (congrArg Piece.text longest)
  rwa [List.nil_append, longest] at first

/-- A numeral is scanned as one token. -/
theorem scan_numeral (isNumeral : Token.IsNumeral text) :
    scan text = ⟨[⟨.number, text, .number (.ofNumeral text), 1⟩, .endOfInput 1], []⟩ := by
  rw [scan_eq, pieces_numeral isNumeral]
  simp [placed, isNumeral.newlines_eq, Piece.token?, Piece.diagnostic?, Piece.fault?]

/-- A numeral with a minus sign in front is scanned as two tokens. -/
theorem scan_minus_numeral (isNumeral : Token.IsNumeral text) :
    scan (0x2D :: text) = ⟨[⟨.minus, "-", .nil, 1⟩,
      ⟨.number, text, .number (.ofNumeral text), 1⟩, .endOfInput 1], []⟩ := by
  have before : Text.newlines [0x2D] = 0 := by decide
  have whole : Text.newlines (0x2D :: text) = 0 := by
    rw [← isNumeral.newlines_eq]
    exact List.count_cons_of_ne (by decide)
  rw [scan_eq, pieces_minus, pieces_numeral isNumeral, whole]
  simp [placed, before, isNumeral.newlines_eq, Piece.token?, Piece.diagnostic?, Piece.fault?]
  rfl

end Scanning

namespace Number

variable {number left right : Number}

theorem printed_literal (number : Number) :
    (Expr.literal (.number number)).printed = number.plain :=
  List.append_nil _

/-- The printed form of a number is scanned as the number. -/
theorem scan_printed (finite : number.magnitude < infinite) (positive : number.isNegative = false) :
    scan (Expr.literal (.number number)).printed =
      ⟨[⟨.number, number.plain, .number number, 1⟩, .endOfInput 1], []⟩ := by
  have unsigned : number.IsUnsigned := ⟨positive, finite.le⟩
  rcases unsigned.plain_reads finite with ⟨isNumeral, reads⟩
  rw [printed_literal, scan_numeral isNumeral, reads]

/-- The printed form of a number with a sign is scanned as a minus and the number without it. -/
theorem scan_printed_negative (finite : number.magnitude < infinite)
    (negative : number.isNegative = true) :
    scan (Expr.literal (.number number)).printed = ⟨[⟨.minus, "-", .nil, 1⟩,
      ⟨.number, number.neg.plain, .number number.neg, 1⟩, .endOfInput 1], []⟩ := by
  rcases unsigned_spec finite with ⟨unsigned, same⟩
  have unsignedFinite : number.unsigned.magnitude < infinite := by rwa [same]
  rcases unsigned.plain_reads unsignedFinite with ⟨isNumeral, reads⟩
  have plain : number.plain = 0x2D :: number.unsigned.plain := by
    rw [plain_eq_shown finite, plain_eq_shown unsignedFinite, shown_of_magnitude same, signed,
      signed, negative, unsigned.nonnegative]
    rfl
  rw [printed_literal, plain, scan_minus_numeral isNumeral, reads, neg_eq_unsigned finite negative]

theorem display_of_infinite (endless : number.magnitude = infinite) :
    number.display = number.signed "Infinity" := by
  have notNaN : number.isNaN = false := by simp [isNaN, endless]
  have isInfinite : number.isInfinite = true := by simp [Number.isInfinite, endless]
  rw [display, notNaN, isInfinite]
  rfl

theorem read?_infinity (number : Number) : Numeral.read? (number.signed "Infinity") = none := by
  rw [signed]
  cases number.isNegative <;> decide

theorem isNegative_of_signed (same : left.signed "Infinity" = right.signed "Infinity") :
    left.isNegative = right.isNegative := by
  rw [signed, signed] at same
  cases leftSign : left.isNegative <;> cases rightSign : right.isNegative
  · rfl
  · rw [leftSign, rightSign] at same
    exact absurd same (by decide)
  · rw [leftSign, rightSign] at same
    exact absurd same (by decide)
  · rfl

/-- Numbers that are shown alike are the same. -/
theorem display_injective (leftNumber : left.isNaN = false) (rightNumber : right.isNaN = false)
    (same : left.display = right.display) : left = right := by
  have reads : ∀ {number : Number}, number.magnitude < infinite →
      ∃ numeral, Numeral.read? number.display = some numeral ∧ numeral.rounded = number := by
    intro number finite
    rcases exists_display_numeral finite with ⟨numeral, denotes, read⟩
    exact ⟨numeral, read, rounded_of_denotes finite denotes⟩
  have bounded : ∀ {number : Number}, number.isNaN = false → number.magnitude ≤ infinite :=
    fun isNumber => not_lt.mp (of_decide_eq_false isNumber)
  rcases (bounded leftNumber).lt_or_eq with leftFinite | leftInfinite
  · rcases reads leftFinite with ⟨numeral, read, rounded⟩
    rcases (bounded rightNumber).lt_or_eq with rightFinite | rightInfinite
    · rcases reads rightFinite with ⟨other, otherRead, otherRounded⟩
      rw [same, otherRead] at read
      cases read
      rw [← rounded, otherRounded]
    · rw [same, display_of_infinite rightInfinite, read?_infinity] at read
      cases read
  · rcases (bounded rightNumber).lt_or_eq with rightFinite | rightInfinite
    · rcases reads rightFinite with ⟨numeral, read, _⟩
      rw [← same, display_of_infinite leftInfinite, read?_infinity] at read
      cases read
    · rw [display_of_infinite leftInfinite, display_of_infinite rightInfinite] at same
      exact eq_of_sign_of_magnitude (isNegative_of_signed same)
        (leftInfinite.trans rightInfinite.symm)

end Number

/-- The texts of numbers determine them. Rounding is correct. A finite number is scanned from its
printed form, with its sign as a token of its own. What is shown for it is a numeral that rounds to
it, with as few digits as any such numeral has, and it is a numeral without an exponent within the
bounds of the plain layout. So no two numbers are shown alike. -/
theorem texts_determine_numbers :
    (∀ (numerator denominator : Nat) (number : Number), 0 < denominator →
      (Number.ofRatio numerator denominator = number ↔
        number.IsNearest (numerator / denominator))) ∧
    (∀ number : Number, number.magnitude < Number.infinite →
      (number.isNegative = false →
        scan (Expr.literal (.number number)).printed =
          ⟨[⟨.number, number.plain, .number number, 1⟩, .endOfInput 1], []⟩) ∧
      (number.isNegative = true →
        scan (Expr.literal (.number number)).printed = ⟨[⟨.minus, "-", .nil, 1⟩,
          ⟨.number, number.neg.plain, .number number.neg, 1⟩, .endOfInput 1], []⟩) ∧
      (number.neg.isNegative = !number.isNegative ∧ number.neg.magnitude = number.magnitude) ∧
      ∃ numeral : Numeral, Numeral.read? (Value.number number).display = some numeral ∧
        numeral.rounded = number ∧
        (numeral.exponent = none ↔ number.isZero = true ∨
          (Number.ofRatio 1 (10 ^ 6)).value ≤ number.value ∧ number.value < 10 ^ 21) ∧
        numeral.decimal.toRat = number.shown.toRat ∧
        ∀ decimal : Decimal, number.unsigned.IsNearest decimal.toRat →
          Fraction.digitCount number.shown.digits ≤ Fraction.digitCount decimal.digits) ∧
    ∀ left right : Number, left.isNaN = false → right.isNaN = false →
      (Value.number left).display = (Value.number right).display → left = right := by
  refine ⟨fun numerator denominator number positive => Number.ofRatio_eq_iff positive,
    fun number finite => ?_, fun left right leftNumber rightNumber same =>
      Number.display_injective leftNumber rightNumber same⟩
  rcases Number.exists_display_numeral finite with ⟨numeral, denotes, read⟩
  exact ⟨Number.scan_printed finite, Number.scan_printed_negative finite, Number.neg_spec finite,
    numeral, read, Number.rounded_of_denotes finite denotes,
    denotes.isPlain.trans number.isShownPlain_iff, denotes.value,
    fun decimal nearest => Number.digitCount_shown_le finite nearest⟩

/-- The negative number that is just beyond the plain layout. -/
theorem texts_determine_numbers_beyond :
    let number : Number := ⟨0xC44B1AE4D6E2EF50⟩
    number.magnitude < Number.infinite ∧ number.isNegative = true ∧
      (Value.number number).display = ("-1e+21" : Text) ∧
      scan (Expr.literal (.number number)).printed = ⟨[⟨.minus, "-", .nil, 1⟩,
        ⟨.number, "1000000000000000000000", .number ⟨0x444B1AE4D6E2EF50⟩, 1⟩,
        .endOfInput 1], []⟩ ∧
      Numeral.read? ("-1e+21" : Text) = some ⟨true, "1", [], some (false, "21")⟩ ∧
      Numeral.rounded ⟨true, "1", [], some (false, "21")⟩ = number := by
  intro number
  have finite : number.magnitude < Number.infinite := by decide
  have shown : (Value.number number).display = ("-1e+21" : Text) := by decide +kernel
  have negated : number.neg = ⟨0x444B1AE4D6E2EF50⟩ := by decide +kernel
  have plain : number.neg.plain = ("1000000000000000000000" : Text) := by decide +kernel
  rcases texts_determine_numbers.2.1 number finite with
    ⟨_, scans, _, numeral, read, rounded, _⟩
  have scanned := scans (by decide)
  rw [plain, negated] at scanned
  have parts : Numeral.read? ("-1e+21" : Text) = some ⟨true, "1", [], some (false, "21")⟩ := by
    decide +kernel
  rw [shown, parts] at read
  cases read
  exact ⟨finite, by decide, shown, scanned, parts, rounded⟩

end LoxLang
