import LoxLang.Proofs.Number.Shortest
import LoxLang.Proofs.Scan.LongestMatch
import LoxLang.Proofs.Text.Digits

/-!
# Plain numbers are numerals

The plain layout of a finite number without a sign is a numeral, and reading it gives the number
back. All four ways to place the point write the same digits, so it suffices to see where the
numeral has its point. As infinity is no numeral, numbers without a sign that are printed alike are
the same.
-/

namespace LoxLang

namespace Text

theorem isDigits_ofNat (number : Nat) : Token.IsDigits (ofNat number) := by
  refine ⟨by simp [ofNat, Nat.toDigits_ne_nil], fun byte mem => ?_⟩
  rcases List.mem_map.mp mem with ⟨digit, isDigit, rfl⟩
  have range := Nat.isDigit_of_mem_toDigits (by norm_num) le_rfl isDigit
  rw [Char.isDigit, Bool.and_eq_true, decide_eq_true_eq, decide_eq_true_eq] at range
  have bounds : 0x30 ≤ digit.toNat ∧ digit.toNat ≤ 0x39 := range
  have value : digit.toNat.toUInt8.toNat = digit.toNat := by
    rw [Nat.toUInt8_eq, UInt8.toNat_ofNat', Nat.mod_eq_of_lt (by omega)]
  simpa [Byte.isDigit, UInt8.le_iff_toNat_le, value] using bounds

end Text

theorem Token.IsDigits.exists_digit {text : Text} (digits : IsDigits text) :
    ∃ first rest, text = first :: rest ∧ Byte.isDigit first = true := by
  cases text with
  | nil => exact absurd rfl digits.1
  | cons first rest => exact ⟨first, rest, rfl, digits.2 first (by simp)⟩

theorem Token.IsNumeral.exists_digit {text : Text} (isNumeral : IsNumeral text) :
    ∃ first rest, text = first :: rest ∧ Byte.isDigit first = true := by
  rcases isNumeral with digits | ⟨whole, part, digits, _, rfl⟩
  · exact digits.exists_digit
  · rcases digits.exists_digit with ⟨first, rest, rfl, isDigit⟩
    exact ⟨first, _, rfl, isDigit⟩

/-- A numeral is read as all its digits, over a power of ten for those after the dot. -/
theorem Number.ofNumeral_of_parts {whole : Text} (wholeDigits : Token.IsDigits whole)
    (part : Text) :
    ofNumeral (whole ++ if part = [] then [] else Byte.dot :: part) =
      ofRatio (Text.toNat (whole ++ part)) (10 ^ part.length) := by
  split
  · next none =>
      have taken : whole.takeWhile Byte.isDigit = whole :=
        List.takeWhile_eq_self_iff.mpr wholeDigits.2
      have dropped : whole.dropWhile Byte.isDigit = [] :=
        List.dropWhile_eq_nil_iff.mpr wholeDigits.2
      simp only [ofNumeral, ofDecimal, List.append_nil, taken, dropped, none, List.drop_nil]
      rfl
  · rcases Piece.digits_before_dot wholeDigits.2 part with ⟨taken, dropped⟩
    simp only [ofNumeral, ofDecimal, taken, dropped, List.drop_one, List.tail_cons]
    rfl

namespace Decimal

/-- The layout is a numeral whose digits stand for the decimal. -/
theorem plain_parts (decimal : Decimal) :
    ∃ whole part : Text, Token.IsDigits whole ∧ (∀ byte ∈ part, Byte.isDigit byte = true) ∧
      decimal.plain = (whole ++ if part = [] then [] else Byte.dot :: part) ∧
      (Text.toNat (whole ++ part) : ℚ) / 10 ^ part.length = decimal.toRat := by
  have digits := Text.isDigits_ofNat decimal.digits
  have value := Text.toNat_ofNat decimal.digits
  have point : decimal.point = (Text.ofNat decimal.digits).length + decimal.scale := rfl
  have zero : Token.IsDigits [0x30] := ⟨by simp, List.all_eq_true.mp rfl⟩
  have zeros : ∀ count, ∀ byte ∈ List.replicate count (0x30 : UInt8), Byte.isDigit byte = true :=
    fun count byte mem => zero.2 byte (by rw [List.eq_of_mem_replicate mem]; simp)
  rw [plain, toRat]
  generalize Text.ofNat decimal.digits = text at *
  -- Zeros in front of the digits leave their value, and the scale is the number of places.
  have fraction : ∀ {all : Text} {places : Nat}, all.toNat = text.toNat →
      (places : Int) = -decimal.scale →
      (all.toNat : ℚ) / 10 ^ places = decimal.digits * 10 ^ decimal.scale := by
    intro all places same scale
    rw [same, value, show decimal.scale = -(places : Int) by omega, zpow_neg, zpow_natCast,
      div_eq_mul_inv]
  split
  · next place here =>
      rw [here] at point
      replace point : (place : Int) = text.length + decimal.scale := point
      split
      · next first =>
          refine ⟨[0x30], text, zero, digits.2, by simp [digits.1], fraction ?_ (by omega)⟩
          rw [Text.toNat_append]
          simp [Text.toNat, Byte.digitValue]
      · next later =>
          split
          · next whole =>
              refine ⟨text ++ List.replicate (place - text.length) 0x30, [], ?_, by simp, by simp,
                ?_⟩
              · exact ⟨by simp [digits.1], List.forall_mem_append.mpr ⟨digits.2, zeros _⟩⟩
              · have scale : decimal.scale = ((place - text.length : Nat) : Int) := by omega
                rw [List.append_nil, Text.toNat_append, Text.toNat_zeros, value, scale]
                simp
          · next inner =>
              have behind : text.drop place ≠ [] := by
                rw [ne_eq, List.drop_eq_nil_iff]
                omega
              have lead : Token.IsDigits (text.take place) := by
                refine ⟨?_, fun byte mem => digits.2 byte (List.mem_of_mem_take mem)⟩
                simp [List.take_eq_nil_iff, later, digits.1]
              refine ⟨text.take place, text.drop place, lead,
                fun byte mem => digits.2 byte (List.mem_of_mem_drop mem), by rw [if_neg behind], ?_⟩
              refine fraction (by rw [List.take_append_drop]) ?_
              rw [List.length_drop]
              omega
  · next place here =>
      rw [here] at point
      refine ⟨[0x30], List.replicate (place + 1) 0x30 ++ text, zero,
        List.forall_mem_append.mpr ⟨zeros _, digits.2⟩, by simp [digits.1], fraction ?_ ?_⟩
      · rw [Text.toNat_append, Text.toNat_append, Text.toNat_zeros]
        simp [Text.toNat, Byte.digitValue]
      · rw [List.length_append, List.length_replicate]
        omega

end Decimal

namespace Number

variable {number : Number}

/-- A number without a sign: finite or infinite, as numerals denote. -/
structure IsUnsigned (number : Number) : Prop where
  nonnegative : number.isNegative = false
  bounded : number.magnitude ≤ infinite

theorem isUnsigned_ofRatio (numerator denominator : Nat) :
    (ofRatio numerator denominator).IsUnsigned := by
  by_cases zero : numerator = 0
  · rw [zero]
    exact ⟨rfl, Nat.zero_le _⟩
  · obtain ⟨magnitude, rounded⟩ : ∃ magnitude : Nat,
        ofRatio numerator denominator = ⟨(min infinite magnitude).toUInt64⟩ := by
      rcases pair : scaled numerator denominator (exponentOf numerator denominator) with ⟨_, _⟩
      exact ⟨_, ofRatio_eq zero rfl pair rfl⟩
    have small : min infinite magnitude < 2 ^ 63 :=
      lt_of_le_of_lt (Nat.min_le_left _ _) (by decide)
    have bits : (min infinite magnitude).toUInt64.toNat = min infinite magnitude := by
      rw [Nat.toUInt64_eq, UInt64.toNat_ofNat', Nat.mod_eq_of_lt (by omega)]
    rw [rounded]
    constructor
    · simpa only [isNegative, bits, Nat.pow_eq, decide_eq_false_iff_not, not_le] using small
    · rw [Number.magnitude, bits, Nat.pow_eq, Nat.mod_eq_of_lt small]
      exact Nat.min_le_left _ _

theorem isUnsigned_ofNumeral (numeral : Text) : (ofNumeral numeral).IsUnsigned :=
  isUnsigned_ofRatio _ _

theorem IsUnsigned.eq_of_magnitude {left right : Number} (leftUnsigned : left.IsUnsigned)
    (rightUnsigned : right.IsUnsigned) (same : left.magnitude = right.magnitude) :
    left = right := by
  have bits : left.bits = right.bits := by
    rw [← toUInt64_magnitude leftUnsigned.nonnegative, same,
      toUInt64_magnitude rightUnsigned.nonnegative]
  cases left
  cases right
  exact congrArg Number.mk bits

theorem ordinary_of_finite (finite : number.magnitude < infinite) :
    number.isNaN = false ∧ number.isInfinite = false :=
  ⟨by simpa [isNaN] using finite.le, by simpa [isInfinite] using finite.ne⟩

/-- The layout of a finite number is a numeral that denotes the number. -/
theorem IsUnsigned.plain_reads (isUnsigned : number.IsUnsigned)
    (finite : number.magnitude < infinite) :
    Token.IsNumeral number.plain ∧ ofNumeral number.plain = number := by
  rcases ordinary_of_finite finite with ⟨notNaN, notInfinite⟩
  rw [plain, notNaN, notInfinite, signed, isUnsigned.nonnegative]
  simp only [Bool.false_eq_true, if_false]
  cases isZero : number.isZero with
  | true =>
      rw [if_pos rfl]
      refine ⟨.inl ⟨by decide, List.all_eq_true.mp rfl⟩, ?_⟩
      exact eq_of_magnitude (isUnsigned_ofNumeral _) isUnsigned
        (Eq.trans (by decide) (of_decide_eq_true isZero).symm)
  | false =>
      have isPositive : number.IsPositive := ⟨isUnsigned.nonnegative, finite, isZero⟩
      rcases number.shortest.plain_parts with ⟨whole, part, wholeDigits, partDigits, layout, value⟩
      rw [if_neg (by simp), layout]
      constructor
      · by_cases none : part = []
        · exact .inl (by simpa [none] using wholeDigits)
        · exact .inr ⟨whole, part, wholeDigits, ⟨none, partDigits⟩, by rw [if_neg none]⟩
      · rw [ofNumeral_of_parts wholeDigits]
        refine isPositive.ofRatio_eq_of_attracts (by positivity) ?_
        rw [Nat.cast_pow, Nat.cast_ofNat, value]
        exact isPositive.attracts_shortest

theorem IsUnsigned.plain_of_infinite (isUnsigned : number.IsUnsigned)
    (endless : number.magnitude = infinite) : number.plain = ("+Inf" : Text) := by
  simp [plain, isNaN, isInfinite, endless, isUnsigned.nonnegative]

theorem not_isNumeral_infinity : ¬ Token.IsNumeral ("+Inf" : Text) := by
  intro isNumeral
  rcases isNumeral.exists_digit with ⟨first, rest, text, isDigit⟩
  rw [← (List.cons_eq_cons.mp text).1] at isDigit
  exact absurd isDigit (by decide)

/-- Numbers without a sign that are printed alike are the same. -/
theorem IsUnsigned.plain_injective {left right : Number} (leftUnsigned : left.IsUnsigned)
    (rightUnsigned : right.IsUnsigned) (same : left.plain = right.plain) : left = right := by
  rcases leftUnsigned.bounded.lt_or_eq with leftFinite | leftInfinite
  · rcases leftUnsigned.plain_reads leftFinite with ⟨leftNumeral, leftReads⟩
    rcases rightUnsigned.bounded.lt_or_eq with rightFinite | rightInfinite
    · rw [← leftReads, same, (rightUnsigned.plain_reads rightFinite).2]
    · rw [same, rightUnsigned.plain_of_infinite rightInfinite] at leftNumeral
      exact absurd leftNumeral not_isNumeral_infinity
  · rcases rightUnsigned.bounded.lt_or_eq with rightFinite | rightInfinite
    · have rightNumeral := (rightUnsigned.plain_reads rightFinite).1
      rw [← same, leftUnsigned.plain_of_infinite leftInfinite] at rightNumeral
      exact absurd rightNumeral not_isNumeral_infinity
    · exact leftUnsigned.eq_of_magnitude rightUnsigned (leftInfinite.trans rightInfinite.symm)

end Number

end LoxLang
