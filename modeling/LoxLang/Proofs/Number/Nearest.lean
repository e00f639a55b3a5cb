import LoxLang.Number.Shortest
import Mathlib.Algebra.Order.Field.Power
import Mathlib.Data.Rat.Cast.Order
import Mathlib.Tactic.FieldSimp
import Mathlib.Tactic.Linarith
import Mathlib.Tactic.Positivity
import Mathlib.Tactic.Ring

/-!
# The double nearest to a fraction

A finite double other than zero is `m * 2 ^ q` with its significand `m` and its exponent `q`. It
*attracts* the rationals that are nearer to it than to any other double, and those half-way to a
neighbour if `m` is even. Half-way is half a step, except below a power of two, where the doubles
are twice as dense and it is a quarter of one.

Rounding a fraction gives the double that attracts it. The exponent that is chosen for a fraction is
that of the double, or the one before if the fraction lies just below a power of two; the
significand then rounds up into it.
-/

namespace LoxLang

namespace Number

variable {number : Number} {numerator denominator : Nat} {x : ℚ}

/-- A finite number other than zero, without a sign. -/
structure IsPositive (number : Number) : Prop where
  unsigned : number.isNegative = false
  finite : number.magnitude < infinite
  nonzero : number.isZero = false

/-- Half the distance to the next smaller double, in quarters of the step of the number. -/
def reach (number : Number) : Nat :=
  if number.fractionField = 0 && 1 < number.exponentField then 1 else 2

/-- The middle between the number and the next smaller double. -/
def lowerEnd (number : Number) : ℚ :=
  (number.significand - number.reach / 4) * 2 ^ number.exponent

/-- The middle between the number and the next larger double. -/
def upperEnd (number : Number) : ℚ := (number.significand + 1 / 2) * 2 ^ number.exponent

/-- The number is the one that a rational rounds to. -/
def Attracts (number : Number) (x : ℚ) : Prop :=
  if number.significand % 2 = 0 then number.lowerEnd ≤ x ∧ x ≤ number.upperEnd
  else number.lowerEnd < x ∧ x < number.upperEnd

section Fields

theorem magnitude_eq_fields (number : Number) :
    number.magnitude = number.exponentField * 2 ^ 52 + number.fractionField := by
  simp only [exponentField, fractionField, Nat.pow_eq]
  omega

theorem fractionField_lt (number : Number) : number.fractionField < 2 ^ 52 :=
  Nat.mod_lt _ (by simp)

theorem magnitude_eq (number : Number) :
    number.magnitude = (number.exponent + 1074).toNat * 2 ^ 52 + number.significand := by
  rw [magnitude_eq_fields, exponent, significand]
  split
  · next least => simp [least]
  · simp only [Nat.pow_eq]
    omega

theorem exponent_ge (number : Number) : -1074 ≤ number.exponent := by
  rw [exponent]
  split <;> omega

theorem significand_lt (number : Number) : number.significand < 2 ^ 53 := by
  have := number.fractionField_lt
  rw [significand]
  split
  · omega
  · rw [Nat.pow_eq]
    omega

theorem significand_ge_of_exponent (above : -1074 < number.exponent) :
    2 ^ 52 ≤ number.significand ∧ 1 < number.exponentField := by
  rw [exponent] at above
  rw [significand]
  split at above
  · omega
  · next normal =>
      rw [if_neg normal, Nat.pow_eq]
      omega

theorem IsPositive.significand_pos (positive : number.IsPositive) : 0 < number.significand := by
  have nonzero : number.magnitude ≠ 0 := by simpa [isZero] using positive.nonzero
  rw [magnitude_eq_fields] at nonzero
  rw [significand]
  split
  · next least => simpa [least, Nat.pos_iff_ne_zero] using nonzero
  · simp

theorem reach_le (number : Number) : number.reach ≤ 2 := by
  rw [reach]
  split <;> omega

theorem one_le_reach (number : Number) : 1 ≤ number.reach := by
  rw [reach]
  split <;> omega

theorem reach_eq_two (apart : number.significand ≠ 2 ^ 52) : number.reach = 2 := by
  rw [reach, if_neg]
  intro narrow
  rw [Bool.and_eq_true, decide_eq_true_eq, decide_eq_true_eq] at narrow
  rw [significand, if_neg (by omega), narrow.1, Nat.zero_add] at apart
  exact apart rfl

theorem reach_eq_two_of_least (least : number.exponent = -1074) : number.reach = 2 := by
  rw [reach, if_neg]
  intro narrow
  rw [Bool.and_eq_true, decide_eq_true_eq, decide_eq_true_eq] at narrow
  rw [exponent, if_neg (by omega)] at least
  omega

theorem reach_eq_one (power : number.significand = 2 ^ 52) (field : 1 < number.exponentField) :
    number.reach = 1 := by
  rw [significand, if_neg (by omega), Nat.pow_eq, Nat.add_eq_right] at power
  simp [reach, power, field]

theorem toUInt64_magnitude (unsigned : number.isNegative = false) :
    number.magnitude.toUInt64 = number.bits := by
  have clear : number.bits.toNat < 2 ^ 63 := by simpa [isNegative] using unsigned
  rw [magnitude, Nat.pow_eq, Nat.mod_eq_of_lt clear]
  exact UInt64.ofNat_toNat

end Fields

section Rounding

theorem roundDiv_of_bounds {nearest : Nat} (positive : 0 < denominator)
    (lower : 2 * (nearest * denominator) ≤ 2 * numerator + denominator)
    (upper : 2 * numerator ≤ 2 * (nearest * denominator) + denominator)
    (tie : 2 * (nearest * denominator) = 2 * numerator + denominator ∨
      2 * numerator = 2 * (nearest * denominator) + denominator → nearest % 2 = 0) :
    roundDiv numerator denominator = nearest := by
  have parts : numerator = numerator / denominator * denominator + numerator % denominator := by
    rw [Nat.mul_comm, Nat.div_add_mod]
  have small := Nat.mod_lt numerator positive
  simp only [roundDiv]
  generalize numerator / denominator = quotient at *
  generalize numerator % denominator = rest at *
  have neighbour : nearest = quotient ∨ nearest = quotient + 1 := by
    rcases Nat.lt_trichotomy nearest quotient with less | same | greater
    · have := Nat.mul_le_mul_right denominator less
      rw [Nat.succ_mul] at this
      omega
    · exact .inl same
    · rcases Nat.lt_or_ge (quotient + 1) nearest with more | less
      · have := Nat.mul_le_mul_right denominator more
        rw [Nat.succ_mul, Nat.succ_mul] at this
        omega
      · exact .inr (by omega)
  rcases neighbour with rfl | rfl
  · split <;> grind
  · rw [Nat.succ_mul] at *
    split <;> grind

theorem roundDiv_eq {nearest : Nat} (positive : 0 < denominator)
    (lower : (nearest : ℚ) - 1 / 2 ≤ numerator / denominator)
    (upper : (numerator / denominator : ℚ) ≤ nearest + 1 / 2)
    (tie : nearest % 2 = 0 ∨
      (nearest : ℚ) - 1 / 2 < numerator / denominator ∧
        (numerator / denominator : ℚ) < nearest + 1 / 2) :
    roundDiv numerator denominator = nearest := by
  have positive' : (0 : ℚ) < denominator := by exact_mod_cast positive
  rw [le_div_iff₀ positive'] at lower
  rw [div_le_iff₀ positive'] at upper
  rw [lt_div_iff₀ positive', div_lt_iff₀ positive'] at tie
  refine roundDiv_of_bounds positive ?_ ?_ fun equal => ?_
  · have : (2 * (nearest * denominator) : ℚ) ≤ 2 * numerator + denominator := by linarith
    exact_mod_cast this
  · have : (2 * numerator : ℚ) ≤ 2 * (nearest * denominator) + denominator := by linarith
    exact_mod_cast this
  · refine tie.resolve_right fun ⟨less, greater⟩ => ?_
    rcases equal with equal | equal
    · have : (2 * (nearest * denominator) : ℚ) = 2 * numerator + denominator := by
        exact_mod_cast equal
      linarith
    · have : (2 * numerator : ℚ) = 2 * (nearest * denominator) + denominator := by
        exact_mod_cast equal
      linarith

theorem scaled_div (numerator denominator : Nat) (exponent : Int) :
    ((scaled numerator denominator exponent).1 / (scaled numerator denominator exponent).2 : ℚ) =
      numerator / denominator / 2 ^ exponent := by
  cases exponent with
  | ofNat exponent => simp [scaled, div_div]
  | negSucc exponent => simp [scaled, zpow_negSucc]; ring

theorem scaled_pos (numerator : Nat) (exponent : Int) (positive : 0 < denominator) :
    0 < (scaled numerator denominator exponent).2 := by
  cases exponent with
  | ofNat exponent => simpa [scaled] using positive
  | negSucc exponent => exact positive

theorem two_zpow_pos (exponent : Int) : (0 : ℚ) < 2 ^ exponent := by positivity

/-- A positive fraction between powers of two, by the lengths of its parts. -/
theorem ratio_bounds (numeratorPositive : 0 < numerator) (positive : 0 < denominator) :
    (2 : ℚ) ^ ((numerator.log2 : Int) - denominator.log2 - 1) < numerator / denominator ∧
      (numerator / denominator : ℚ) < 2 ^ ((numerator.log2 : Int) - denominator.log2 + 1) := by
  have numeratorLow : (2 : ℚ) ^ (numerator.log2 : Int) ≤ numerator := by
    exact_mod_cast Nat.log2_self_le numeratorPositive.ne'
  have numeratorHigh : (numerator : ℚ) < 2 ^ ((numerator.log2 : Int) + 1) := by
    exact_mod_cast Nat.lt_log2_self
  have denominatorLow : (2 : ℚ) ^ (denominator.log2 : Int) ≤ denominator := by
    exact_mod_cast Nat.log2_self_le positive.ne'
  have denominatorHigh : (denominator : ℚ) < 2 ^ ((denominator.log2 : Int) + 1) := by
    exact_mod_cast Nat.lt_log2_self
  have below : (0 : ℚ) < denominator := by exact_mod_cast positive
  constructor
  · rw [lt_div_iff₀ below]
    calc (2 : ℚ) ^ ((numerator.log2 : Int) - denominator.log2 - 1) * denominator
      _ < 2 ^ ((numerator.log2 : Int) - denominator.log2 - 1) *
            2 ^ ((denominator.log2 : Int) + 1) := by gcongr
      _ = 2 ^ (numerator.log2 : Int) := by
            rw [← zpow_add₀ (by norm_num)]
            congr 1
            omega
      _ ≤ numerator := numeratorLow
  · rw [div_lt_iff₀ below]
    calc (numerator : ℚ)
      _ < 2 ^ ((numerator.log2 : Int) + 1) := numeratorHigh
      _ = 2 ^ ((numerator.log2 : Int) - denominator.log2 + 1) * 2 ^ (denominator.log2 : Int) := by
            rw [← zpow_add₀ (by norm_num)]
            congr 1
            omega
      _ ≤ 2 ^ ((numerator.log2 : Int) - denominator.log2 + 1) * denominator := by gcongr

/-- The exponent of a positive fraction leaves it below `2 ^ 53`, and not below `2 ^ 52` unless it
is the least one. -/
theorem exponentOf_spec (numeratorPositive : 0 < numerator) (positive : 0 < denominator) :
    -1074 ≤ exponentOf numerator denominator ∧
      (numerator / denominator : ℚ) < 2 ^ (exponentOf numerator denominator + 53) ∧
      (exponentOf numerator denominator = -1074 ∨
        (2 : ℚ) ^ (exponentOf numerator denominator + 52) ≤ numerator / denominator) := by
  rcases ratio_bounds numeratorPositive positive with ⟨above, below⟩
  rw [exponentOf]
  generalize numerator.log2 = high at *
  generalize denominator.log2 = low at *
  generalize guessed : (high : Int) - low - 53 = guess
  rw [show (high : Int) - low - 1 = guess + 52 by omega] at above
  rw [show (high : Int) - low + 1 = guess + 54 by omega] at below
  have ratio := scaled_div numerator denominator guess
  have lowerPositive := scaled_pos numerator guess positive
  simp only
  generalize (scaled numerator denominator guess).1 = upper at ratio ⊢
  generalize (scaled numerator denominator guess).2 = lower at ratio lowerPositive ⊢
  have lowerPositive' : (0 : ℚ) < lower := by exact_mod_cast lowerPositive
  have fits : upper < lower * Nat.pow 2 53 ↔ (numerator / denominator : ℚ) < 2 ^ (guess + 53) := by
    rw [zpow_add₀ (by norm_num), ← div_lt_iff₀' (two_zpow_pos guess), ← ratio,
      div_lt_iff₀' lowerPositive', Nat.pow_eq]
    norm_cast
  generalize (numerator / denominator : ℚ) = x at *
  have step : ∀ exponent : Int, x < 2 ^ (exponent + 53) → (2 : ℚ) ^ (exponent + 52) ≤ x →
      -1074 ≤ max (-1074) exponent ∧ x < 2 ^ (max (-1074) exponent + 53) ∧
        (max (-1074) exponent = -1074 ∨ (2 : ℚ) ^ (max (-1074) exponent + 52) ≤ x) := by
    intro exponent under atLeast
    refine ⟨le_max_left _ _, under.trans_le ?_, ?_⟩
    · exact zpow_le_zpow_right₀ (by norm_num) (by omega)
    · rcases le_total exponent (-1074) with least | more
      · exact .inl (max_eq_left least)
      · rw [max_eq_right more]
        exact .inr atLeast
  split
  · next small => exact step guess (fits.mp small) above.le
  · next large =>
      rw [fits, not_lt] at large
      exact step (guess + 1) (by rwa [show guess + 1 + 53 = guess + 54 by omega])
        (by rwa [show guess + 1 + 52 = guess + 53 by omega])

theorem ofRatio_of_ne_zero (nonzero : numerator ≠ 0) :
    ofRatio numerator denominator =
      match scaled numerator denominator (exponentOf numerator denominator) with
      | (upper, lower) =>
        let significand := roundDiv upper lower
        let magnitude :=
          (exponentOf numerator denominator + 1074).toNat * Nat.pow 2 52 + significand
        ⟨(min infinite magnitude).toUInt64⟩ :=
  if_neg nonzero

theorem ofRatio_eq {exponent : Int} {upper lower magnitude : Nat} (nonzero : numerator ≠ 0)
    (chosen : exponentOf numerator denominator = exponent)
    (pair : scaled numerator denominator exponent = (upper, lower))
    (rounded : (exponent + 1074).toNat * 2 ^ 52 + roundDiv upper lower = magnitude) :
    ofRatio numerator denominator = ⟨(min infinite magnitude).toUInt64⟩ := by
  rw [ofRatio_of_ne_zero nonzero, chosen, pair]
  dsimp only
  rw [Nat.pow_eq, rounded]

theorem Attracts.bounds (attracts : number.Attracts x) :
    number.lowerEnd ≤ x ∧ x ≤ number.upperEnd := by
  unfold Attracts at attracts
  split at attracts
  · exact attracts
  · exact ⟨attracts.1.le, attracts.2.le⟩

theorem IsPositive.lowerEnd_pos (isPositive : number.IsPositive) : 0 < number.lowerEnd := by
  have significandPositive : (1 : ℚ) ≤ number.significand := by
    exact_mod_cast isPositive.significand_pos
  have reach : (number.reach : ℚ) ≤ 2 := by exact_mod_cast number.reach_le
  exact mul_pos (by linarith) (two_zpow_pos _)

theorem zpow_add_natCast (exponent : Int) (places : Nat) :
    (2 : ℚ) ^ (exponent + places) = 2 ^ places * 2 ^ exponent := by
  rw [zpow_add₀ (by norm_num), zpow_natCast, mul_comm]

/-- The exponent that is chosen for an attracted rational is that of the number, or the one before
if the number is a power of two. -/
theorem Attracts.exponent_cases {exponent : Int} (attracts : number.Attracts x)
    (least : -1074 ≤ exponent) (under : x < 2 ^ (exponent + 53))
    (atLeast : exponent = -1074 ∨ (2 : ℚ) ^ (exponent + 52) ≤ x) :
    exponent = number.exponent ∨
      exponent = number.exponent - 1 ∧ number.significand = 2 ^ 52 ∧ number.reach = 1 := by
  rcases attracts.bounds with ⟨lower, upper⟩
  rw [lowerEnd] at lower
  rw [upperEnd] at upper
  have step := two_zpow_pos number.exponent
  have reach : (number.reach : ℚ) ≤ 2 := by exact_mod_cast number.reach_le
  rcases lt_trichotomy exponent number.exponent with less | same | greater
  · rcases significand_ge_of_exponent (lt_of_le_of_lt least less) with ⟨normal, field⟩
    have low : x < 2 ^ 52 * 2 ^ number.exponent := by
      rw [← zpow_add_natCast]
      exact under.trans_le (zpow_le_zpow_right₀ (by norm_num) (by omega))
    have power : number.significand = 2 ^ 52 := by
      by_contra apart
      have more : (2 ^ 52 + 1 : ℚ) ≤ number.significand := by
        exact_mod_cast Nat.lt_of_le_of_ne normal (Ne.symm apart)
      have : (2 ^ 52 : ℚ) * 2 ^ number.exponent ≤
          (number.significand - number.reach / 4) * 2 ^ number.exponent :=
        mul_le_mul_of_nonneg_right (by linarith) step.le
      linarith
    refine .inr ⟨?_, power, ?_⟩
    · by_contra farther
      have lower' : (2 ^ 51 : ℚ) * 2 ^ number.exponent ≤ x := by
        refine le_trans (mul_le_mul_of_nonneg_right ?_ step.le) lower
        rw [power]
        push_cast
        linarith
      rw [← zpow_add_natCast] at lower'
      have : (2 : ℚ) ^ (exponent + 53) ≤ 2 ^ (number.exponent + (51 : Nat)) :=
        zpow_le_zpow_right₀ (by norm_num) (by omega)
      linarith
    · exact reach_eq_one power field
  · exact .inl same
  · have high : (2 : ℚ) ^ (exponent + 52) ≤ x :=
      atLeast.resolve_left (by have := number.exponent_ge; omega)
    have small : (number.significand : ℚ) + 1 ≤ 2 ^ 53 := by
      exact_mod_cast number.significand_lt
    have : x < 2 ^ 53 * 2 ^ number.exponent :=
      lt_of_le_of_lt upper (mul_lt_mul_of_pos_right (by linarith) step)
    rw [← zpow_add_natCast] at this
    have : (2 : ℚ) ^ (number.exponent + (53 : Nat)) ≤ 2 ^ (exponent + 52) :=
      zpow_le_zpow_right₀ (by norm_num) (by omega)
    linarith

theorem Attracts.roundDiv_eq {upper lower : Nat} (attracts : number.Attracts x)
    (positive : 0 < lower) (ratio : (upper / lower : ℚ) = x / 2 ^ number.exponent) :
    roundDiv upper lower = number.significand := by
  have step := two_zpow_pos number.exponent
  have reach : (number.reach : ℚ) ≤ 2 := by exact_mod_cast number.reach_le
  have bounds := attracts.bounds
  rw [lowerEnd, upperEnd, ← le_div_iff₀ step, ← div_le_iff₀ step, ← ratio] at bounds
  refine Number.roundDiv_eq positive (by linarith) bounds.2 ?_
  unfold Attracts at attracts
  split at attracts
  · next even => exact .inl even
  · rw [lowerEnd, upperEnd, ← lt_div_iff₀ step, ← div_lt_iff₀ step, ← ratio] at attracts
    exact .inr ⟨by linarith, attracts.2⟩

theorem Attracts.roundDiv_eq_of_power {upper lower : Nat} (attracts : number.Attracts x)
    (power : number.significand = 2 ^ 52) (narrow : number.reach = 1)
    (under : x < 2 ^ 52 * 2 ^ number.exponent) (positive : 0 < lower)
    (ratio : (upper / lower : ℚ) = x / 2 ^ (number.exponent - 1)) :
    roundDiv upper lower = 2 ^ 53 := by
  have step := two_zpow_pos number.exponent
  have half : x / 2 ^ (number.exponent - 1) = 2 * (x / 2 ^ number.exponent) := by
    rw [zpow_sub₀ (by norm_num)]
    field_simp
  have bounds := attracts.bounds
  rw [lowerEnd, ← le_div_iff₀ step, power, narrow] at bounds
  rw [← div_lt_iff₀ step] at under
  rw [half] at ratio
  push_cast at bounds
  refine Number.roundDiv_eq positive ?_ ?_ (.inl (by norm_num))
  · push_cast
    linarith
  · push_cast
    linarith

/-- Rounding a fraction gives the double that attracts it. -/
theorem IsPositive.ofRatio_eq_of_attracts (isPositive : number.IsPositive)
    (positive : 0 < denominator) (attracts : number.Attracts (numerator / denominator)) :
    ofRatio numerator denominator = number := by
  have numeratorPositive : 0 < numerator := by
    rw [Nat.pos_iff_ne_zero]
    rintro rfl
    have lower := attracts.bounds.1
    rw [Nat.cast_zero, zero_div] at lower
    exact absurd lower (not_le.mpr isPositive.lowerEnd_pos)
  rcases exponentOf_spec numeratorPositive positive with ⟨least, under, atLeast⟩
  have cases := attracts.exponent_cases least under atLeast
  generalize chosen : exponentOf numerator denominator = exponent at least under atLeast cases
  have ratio := scaled_div numerator denominator exponent
  have lowerPositive := scaled_pos numerator exponent positive
  rcases pair : scaled numerator denominator exponent with ⟨upper, lower⟩
  rw [pair] at ratio lowerPositive
  have rounded : (exponent + 1074).toNat * 2 ^ 52 + roundDiv upper lower = number.magnitude := by
    rw [magnitude_eq]
    rcases cases with rfl | ⟨rfl, power, narrow⟩
    · rw [attracts.roundDiv_eq lowerPositive ratio]
    · rw [attracts.roundDiv_eq_of_power power narrow ?_ lowerPositive ratio, power]
      · omega
      · rw [← zpow_add_natCast]
        rwa [show number.exponent - 1 + 53 = number.exponent + (52 : Nat) by omega] at under
  rw [ofRatio_eq numeratorPositive.ne' chosen pair rounded,
    Nat.min_eq_right isPositive.finite.le, toUInt64_magnitude isPositive.unsigned]

end Rounding

end Number

end LoxLang
