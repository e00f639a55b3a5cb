import LoxLang.Proofs.Number.Nearest

/-!
# The number with the other sign

Negation is computed on doubles that are taken apart into sign, exponent and mantissa and put
together again. For a finite number this comes back to the same exponent and mantissa with the other
sign, so that negation changes the sign bit and nothing else (`Number.neg_spec`).
-/

namespace LoxLang

open Float.Model Float.Model.UnpackedFloat

namespace Number

variable {number : Number}

section Fields

variable {sign : Sign} {exponent : BitVec 11} {mantissa : BitVec 52}
  {bits : BitVec Format.binary64.numBits}

theorem toNat_packComponents (sign : Sign) (exponent : BitVec 11) (mantissa : BitVec 52) :
    (packComponents .binary64 sign exponent mantissa).toNat =
      sign.toBitVec.toNat * 2 ^ 63 + exponent.toNat * 2 ^ 52 + mantissa.toNat := by
  change (sign.toBitVec ++ exponent ++ mantissa).toNat = _
  rw [BitVec.toNat_append, BitVec.toNat_append, ← Nat.shiftLeft_add_eq_or_of_lt mantissa.isLt,
    ← Nat.shiftLeft_add_eq_or_of_lt exponent.isLt, Nat.shiftLeft_eq, Nat.shiftLeft_eq]
  omega

theorem toNat_unpackMantissa (bits : BitVec Format.binary64.numBits) :
    (unpackMantissa bits).toNat = bits.toNat % 2 ^ 52 := by
  change (bits.extractLsb 51 0).toNat = _
  rw [BitVec.extractLsb_toNat, Nat.shiftRight_zero]

theorem toNat_unpackExponent (bits : BitVec Format.binary64.numBits) :
    (unpackExponent bits).toNat = bits.toNat / 2 ^ 52 % 2 ^ 11 := by
  change (bits.extractLsb 62 52).toNat = _
  rw [BitVec.extractLsb_toNat, Nat.shiftRight_eq_div_pow]

theorem toNat_unpackSign (bits : BitVec Format.binary64.numBits) :
    (unpackSign bits).toNat = bits.toNat / 2 ^ 63 % 2 := by
  change (bits.extractLsb 63 63).toNat = _
  rw [BitVec.extractLsb_toNat, Nat.shiftRight_eq_div_pow]

theorem packComponents_unpacked (bits : BitVec Format.binary64.numBits) :
    packComponents .binary64 (Sign.ofBitVec (unpackSign bits)) (unpackExponent bits)
      (unpackMantissa bits) = bits := by
  have sign : ∀ bit : BitVec 1, (Sign.ofBitVec bit).toBitVec = bit := by decide
  have small : bits.toNat < 2 ^ 64 := bits.isLt
  rw [← BitVec.toNat_inj, toNat_packComponents, sign, toNat_unpackSign, toNat_unpackExponent,
    toNat_unpackMantissa]
  omega

/-- How a finite double is put together. -/
theorem pack_finite {significand : Nat} (exponent : Int) (positive : 0 < significand) :
    UnpackedFloat.pack .binary64 (.finite sign significand exponent positive) =
      if 2 ^ 11 ≤ (exponent + (1023 : Nat) + (52 : Nat)).toNat + 1 then
        packedInfinity .binary64 sign
      else if significand.log2 + 1 = 53 then
        packComponents .binary64 sign (BitVec.ofNat 11 (exponent + (1023 : Nat) + (52 : Nat)).toNat)
          (BitVec.ofNat 52 significand)
      else packComponents .binary64 sign 0#11 (BitVec.ofNat 52 significand) :=
  rfl

theorem pack_subnormal (positive : 0 < mantissa.toNat) :
    UnpackedFloat.pack .binary64 (.finite sign mantissa.toNat (-1074) positive) =
      packComponents .binary64 sign 0#11 mantissa := by
  have short : ¬ mantissa.toNat.log2 + 1 = 53 := by
    have := (Nat.log2_lt (Nat.ne_of_gt positive)).mpr mantissa.isLt
    omega
  rw [pack_finite, if_neg (by decide), if_neg short, BitVec.ofNat_toNat, BitVec.setWidth_eq]

theorem pack_normal (nonzero : exponent ≠ 0#11) (finite : exponent ≠ -1#11)
    (positive : 0 < (1#1 ++ mantissa).toNat) :
    UnpackedFloat.pack .binary64
        (.finite sign (1#1 ++ mantissa).toNat (exponent.toNat - 1075) positive) =
      packComponents .binary64 sign exponent mantissa := by
  have field : 0 < exponent.toNat ∧ exponent.toNat < 2047 := by
    have := exponent.isLt
    rw [ne_eq, ← BitVec.toNat_inj] at nonzero finite
    rw [BitVec.toNat_ofNat] at nonzero
    have : exponent.toNat ≠ 2047 := finite
    omega
  have value : (1#1 ++ mantissa).toNat = 2 ^ 52 + mantissa.toNat := by
    rw [BitVec.toNat_append, ← Nat.shiftLeft_add_eq_or_of_lt mantissa.isLt]
    rfl
  have long : (1#1 ++ mantissa).toNat.log2 = 52 := by
    have := mantissa.isLt
    exact (Nat.log2_eq_iff (Nat.ne_of_gt positive)).mpr (by omega)
  have biased : ((exponent.toNat : Int) - 1075 + (1023 : Nat) + (52 : Nat)).toNat =
      exponent.toNat := by
    omega
  have stored : BitVec.ofNat 52 (1#1 ++ mantissa).toNat = mantissa := by
    rw [← BitVec.toNat_inj, BitVec.toNat_ofNat, value, Nat.add_mod_left,
      Nat.mod_eq_of_lt mantissa.isLt]
  rw [pack_finite, biased, if_neg (by omega), long, if_pos rfl, stored, BitVec.ofNat_toNat,
    BitVec.setWidth_eq]

/-- A finite double, taken apart, is a form that takes either sign and is put together from the same
exponent and mantissa with both. -/
theorem exists_form (finite : unpackExponent bits ≠ -1#11) :
    ∃ form : Sign → UnpackedFloat, unpack .binary64 bits = form (Sign.ofBitVec (unpackSign bits)) ∧
      ∀ sign, (form sign).neg = form (-sign) ∧
        UnpackedFloat.pack .binary64 (form sign) =
          packComponents .binary64 sign (unpackExponent bits) (unpackMantissa bits) := by
  by_cases least : unpackExponent bits = 0#11
  · by_cases zero : unpackMantissa bits = 0#52
    · refine ⟨.zero, (if_neg finite).trans ((if_pos least).trans (dif_pos zero)),
        fun sign => ⟨rfl, ?_⟩⟩
      rw [least, zero]
      rfl
    · refine ⟨fun sign => .finite sign _ _ _,
        (if_neg finite).trans ((if_pos least).trans (dif_neg zero)), fun sign => ⟨rfl, ?_⟩⟩
      rw [least]
      exact pack_subnormal _
  · refine ⟨fun sign => .finite sign _ _ _, (if_neg finite).trans (if_neg least),
      fun sign => ⟨rfl, ?_⟩⟩
    exact pack_normal least finite _

end Fields

/-- The bits of the number, as the format of doubles has them. -/
def packed (number : Number) : BitVec Format.binary64.numBits := number.bits.toBitVec

theorem bits_toNat (number : Number) :
    number.bits.toNat = (Sign.ofBitVec (unpackSign number.packed)).toBitVec.toNat * 2 ^ 63 +
      (unpackExponent number.packed).toNat * 2 ^ 52 + (unpackMantissa number.packed).toNat := by
  rw [← toNat_packComponents, packComponents_unpacked]
  rfl

theorem packed_neg (finite : unpackExponent number.packed ≠ -1#11) :
    number.neg.packed = packComponents .binary64 (-Sign.ofBitVec (unpackSign number.packed))
      (unpackExponent number.packed) (unpackMantissa number.packed) := by
  have model : number.neg.packed = UnpackedFloat.pack .binary64 (unpack .binary64
      (UnpackedFloat.pack .binary64 (unpack .binary64 number.packed))).neg := rfl
  rcases exists_form finite with ⟨form, unpacked, forms⟩
  rw [model, unpacked, (forms _).2, packComponents_unpacked, unpacked, (forms _).1, (forms _).2]

/-- Negation changes the sign bit of a finite number and nothing else. -/
theorem neg_spec (finite : number.magnitude < infinite) :
    number.neg.isNegative = !number.isNegative ∧ number.neg.magnitude = number.magnitude := by
  have whole := number.bits_toNat
  have exponentSmall : (unpackExponent number.packed).toNat < 2 ^ 11 :=
    (unpackExponent number.packed).isLt
  have mantissaSmall : (unpackMantissa number.packed).toNat < 2 ^ 52 :=
    (unpackMantissa number.packed).isLt
  have notLargest : unpackExponent number.packed ≠ -1#11 := by
    intro largest
    rw [largest] at whole
    have : (-1#11).toNat = 2047 := rfl
    simp only [magnitude, infinite, Nat.pow_eq] at finite
    omega
  have negated : number.neg.bits.toNat = (packComponents .binary64
      (-Sign.ofBitVec (unpackSign number.packed)) (unpackExponent number.packed)
      (unpackMantissa number.packed)).toNat := congrArg BitVec.toNat (packed_neg notLargest)
  rw [toNat_packComponents] at negated
  simp only [isNegative, magnitude, Nat.pow_eq]
  generalize Sign.ofBitVec (unpackSign number.packed) = sign at *
  have flipped : sign.toBitVec.toNat + (-sign).toBitVec.toNat = 1 := by cases sign <;> rfl
  constructor
  · rw [← decide_not, decide_eq_decide]
    omega
  · omega

end Number

end LoxLang
