import LoxLang.Proofs.Number.Nearest

/-!
# Shortest decimals round back

The shortest decimal of a positive finite double is attracted by it. Whatever the search finds has
been tested, so what remains is that the search ends with a hit. Of a grid with seventeen digits the
two neighbours of the double are less than the length of its interval apart, so one of them is
inside.
-/

namespace LoxLang

namespace Fraction

variable {left right fraction : Fraction}

/-- The rational that a fraction stands for. -/
def toRat (fraction : Fraction) : ℚ := fraction.numerator / fraction.denominator

theorem lessEqual_iff (leftPositive : 0 < left.denominator)
    (rightPositive : 0 < right.denominator) :
    left.lessEqual right = true ↔ left.toRat ≤ right.toRat := by
  have leftPositive' : (0 : ℚ) < left.denominator := by exact_mod_cast leftPositive
  have rightPositive' : (0 : ℚ) < right.denominator := by exact_mod_cast rightPositive
  rw [lessEqual, decide_eq_true_iff, toRat, toRat, div_le_div_iff₀ leftPositive' rightPositive']
  norm_cast

theorem less_iff (leftPositive : 0 < left.denominator) (rightPositive : 0 < right.denominator) :
    left.less right = true ↔ left.toRat < right.toRat := by
  have leftPositive' : (0 : ℚ) < left.denominator := by exact_mod_cast leftPositive
  have rightPositive' : (0 : ℚ) < right.denominator := by exact_mod_cast rightPositive
  rw [less, decide_eq_true_iff, toRat, toRat, div_lt_div_iff₀ leftPositive' rightPositive']
  norm_cast

theorem ofBinary_spec (number : Nat) (exponent : Int) :
    0 < (ofBinary number exponent).denominator ∧
      (ofBinary number exponent).toRat = number * 2 ^ exponent := by
  cases exponent with
  | ofNat exponent => simp [ofBinary, toRat]
  | negSucc exponent => simp [ofBinary, toRat, zpow_negSucc, div_eq_mul_inv]

theorem shift_spec (positive : 0 < fraction.denominator) (scale : Int) :
    0 < (fraction.shift scale).denominator ∧
      (fraction.shift scale).toRat = fraction.toRat / 10 ^ scale := by
  cases scale with
  | ofNat scale => simp [shift, toRat, div_div, positive]
  | negSucc scale => simp [shift, toRat, zpow_negSucc, positive]; ring

end Fraction

/-- The rational that a decimal stands for. -/
def Decimal.toRat (decimal : Decimal) : ℚ := decimal.digits * 10 ^ decimal.scale

theorem Decimal.toRat_trimmed (decimal : Decimal) : decimal.trimmed.toRat = decimal.toRat := by
  rw [trimmed]
  split
  · next whole =>
      have digits : decimal.digits = decimal.digits / 10 * 10 := by omega
      rw [toRat, toRat, zpow_add₀ (by norm_num), zpow_one]
      nth_rewrite 2 [digits]
      push_cast
      ring
  · rfl

theorem Fraction.ofDecimal_spec (decimal : Decimal) :
    0 < (Fraction.ofDecimal decimal).denominator ∧
      (Fraction.ofDecimal decimal).toRat = decimal.toRat := by
  rcases decimal with ⟨digits, scale⟩
  cases scale with
  | ofNat scale => simp [ofDecimal, toRat, Decimal.toRat]
  | negSucc scale => simp [ofDecimal, toRat, Decimal.toRat, zpow_negSucc, div_eq_mul_inv]

section Position

theorem digitCount_bounds (number : Nat) :
    number < 10 ^ Fraction.digitCount number ∧
      (0 < number → 10 ^ (Fraction.digitCount number - 1) ≤ number) := by
  rw [Fraction.digitCount]
  split
  · next zero => simp [zero]
  · next nonzero =>
      have atMost : ∀ {count}, 0 < count →
          ((Nat.toDigits 10 number).length ≤ count ↔ number < 10 ^ count) :=
        Nat.length_toDigits_le_iff (by norm_num)
      have some : 0 < (Nat.toDigits 10 number).length := Nat.length_toDigits_pos
      refine ⟨(atMost some).mp le_rfl, fun positive => ?_⟩
      by_contra few
      have shorter : 0 < (Nat.toDigits 10 number).length - 1 := by
        rw [Nat.pos_iff_ne_zero]
        intro single
        simp only [single, pow_zero] at few
        omega
      have := (atMost shorter).mpr (Nat.lt_of_not_le few)
      omega

/-- A fraction is not below the power of ten of its first digit. -/
theorem Fraction.decimalPosition_spec {fraction : Fraction} (positive : 0 < fraction.denominator)
    (numeratorPositive : 0 < fraction.numerator) :
    (10 : ℚ) ^ (fraction.decimalPosition - 1) ≤ fraction.toRat := by
  have positive' : (0 : ℚ) < fraction.denominator := by exact_mod_cast positive
  have numeratorPositive' : (0 : ℚ) < fraction.numerator := by exact_mod_cast numeratorPositive
  rw [decimalPosition, toRat, le_div_iff₀ positive']
  split
  · next whole =>
      have quotient := Nat.div_pos whole positive
      rcases digitCount_bounds (fraction.numerator / fraction.denominator) with ⟨_, atLeast⟩
      have counted : 0 < digitCount (fraction.numerator / fraction.denominator) := by
        rw [digitCount, if_neg quotient.ne']
        exact Nat.length_toDigits_pos
      have scaled := (Nat.le_div_iff_mul_le positive).mp (atLeast quotient)
      generalize digitCount (fraction.numerator / fraction.denominator) = count at scaled counted ⊢
      rw [show (count : Int) - 1 = ((count - 1 : Nat) : Int) by omega, zpow_natCast]
      exact_mod_cast scaled
  · rcases digitCount_bounds ((fraction.denominator - 1) / fraction.numerator) with ⟨below, _⟩
    have scaled := (Nat.div_lt_iff_lt_mul numeratorPositive).mp below
    generalize digitCount ((fraction.denominator - 1) / fraction.numerator) = count at scaled ⊢
    rw [show (1 - (count : Int) - 1) = -(count : Int) by omega, zpow_neg, zpow_natCast,
      inv_mul_le_iff₀ (by positivity)]
    have : fraction.denominator ≤ 10 ^ count * fraction.numerator := by omega
    exact_mod_cast this

end Position

namespace Number

variable {number : Number}

/-- The magnitude of a finite number. -/
def value (number : Number) : ℚ := number.significand * 2 ^ number.exponent

theorem rounding_value_spec (number : Number) :
    0 < number.rounding.value.denominator ∧ number.rounding.value.toRat = number.value := by
  refine ⟨(Fraction.ofBinary_spec _ _).1, (Fraction.ofBinary_spec _ _).2.trans ?_⟩
  rw [value, zpow_sub₀ (by norm_num)]
  push_cast
  ring

theorem IsPositive.contains_iff (isPositive : number.IsPositive) {fraction : Fraction}
    (positive : 0 < fraction.denominator) :
    number.rounding.contains fraction = true ↔ number.Attracts fraction.toRat := by
  have significandPositive := isPositive.significand_pos
  have reach := number.reach_le
  have lowerSpec : 0 < number.rounding.lower.denominator ∧
      number.rounding.lower.toRat = number.lowerEnd := by
    refine ⟨(Fraction.ofBinary_spec _ _).1, (Fraction.ofBinary_spec _ _).2.trans ?_⟩
    change ((4 * number.significand - number.reach : Nat) : ℚ) * 2 ^ (number.exponent - 2) = _
    rw [lowerEnd, zpow_sub₀ (by norm_num), Nat.cast_sub (by omega)]
    push_cast
    ring
  have upperSpec : 0 < number.rounding.upper.denominator ∧
      number.rounding.upper.toRat = number.upperEnd := by
    refine ⟨(Fraction.ofBinary_spec _ _).1, (Fraction.ofBinary_spec _ _).2.trans ?_⟩
    rw [upperEnd, zpow_sub₀ (by norm_num)]
    push_cast
    ring
  have closed : number.rounding.closed = decide (number.significand % 2 = 0) := rfl
  rw [Rounding.contains, Attracts, closed]
  by_cases even : number.significand % 2 = 0
  · simp only [even, decide_true, if_true, Bool.and_eq_true]
    rw [Fraction.lessEqual_iff lowerSpec.1 positive, Fraction.lessEqual_iff positive upperSpec.1,
      lowerSpec.2, upperSpec.2]
  · simp only [even, decide_false, Bool.false_eq_true, if_false, Bool.and_eq_true]
    rw [Fraction.less_iff lowerSpec.1 positive, Fraction.less_iff positive upperSpec.1,
      lowerSpec.2, upperSpec.2]

namespace Rounding

variable {interval : Rounding} {decimal : Decimal}

theorem contains_of_onGrid? {scale : Int} (found : interval.onGrid? scale = some decimal) :
    interval.contains (.ofDecimal decimal) = true := by
  simp only [onGrid?] at found
  split at found
  · next below above =>
      repeat' split at found
      all_goals
        cases found
        assumption
  · cases found
    assumption
  · cases found
    assumption
  · cases found

theorem contains_of_search {position : Int} {tries count : Nat}
    (found : interval.search position tries count = some decimal) :
    interval.contains (.ofDecimal decimal) = true := by
  induction tries generalizing count with
  | zero => cases found
  | succ tries ih =>
      rw [search] at found
      split at found
      · next hit =>
          cases found
          exact contains_of_onGrid? hit
      · exact ih found

theorem search_ne_none {position : Int} {tries count : Nat} (extra : Nat) (within : extra < tries)
    (hit : interval.onGrid? (position - (count + extra : Nat)) ≠ none) :
    interval.search position tries count ≠ none := by
  induction tries generalizing count extra with
  | zero => omega
  | succ tries ih =>
      rw [search]
      cases found : interval.onGrid? (position - count) with
      | some decimal => simp
      | none =>
          cases extra with
          | zero => exact absurd found hit
          | succ extra =>
              refine ih extra (by omega) ?_
              rwa [Nat.add_right_comm, Nat.add_assoc]

theorem onGrid?_ne_none {scale : Int} {steps : Nat}
    (here : steps =
      (interval.value.shift scale).numerator / (interval.value.shift scale).denominator)
    (hit : interval.contains (.ofDecimal ⟨steps, scale⟩) = true ∨
      interval.contains (.ofDecimal ⟨steps + 1, scale⟩) = true) :
    interval.onGrid? scale ≠ none := by
  simp only [onGrid?, ← here]
  rcases hit with hit | hit
  all_goals
    rw [hit]
    repeat' split
    all_goals simp_all

end Rounding

theorem attracts_of_between {x : ℚ} (lower : number.lowerEnd < x) (upper : x < number.upperEnd) :
    number.Attracts x := by
  rw [Attracts]
  split
  · exact ⟨lower.le, upper.le⟩
  · exact ⟨lower, upper⟩

/-- A grid whose step is at most the number divided by `10 ^ 16` is finer than the interval. -/
theorem finer_of_le {step : ℚ} (fine : step * 10 ^ 16 ≤ number.value) :
    step < (number.reach / 4 + 1 / 2) * 2 ^ number.exponent := by
  have scalePositive := two_zpow_pos number.exponent
  have bound : (number.significand : ℚ) < (number.reach / 4 + 1 / 2) * 10 ^ 16 := by
    by_cases power : number.significand = 2 ^ 52
    · have : (1 : ℚ) ≤ number.reach := by exact_mod_cast number.one_le_reach
      rw [power]
      push_cast
      linarith
    · have : (number.significand : ℚ) < 2 ^ 53 := by exact_mod_cast number.significand_lt
      rw [reach_eq_two power]
      norm_num at this ⊢
      linarith
  have := mul_lt_mul_of_pos_right bound scalePositive
  rw [value] at fine
  nlinarith

/-- The multiple of the step at or below a number on a grid. -/
def gridFloor (number : Number) (scale : Int) : Nat :=
  (number.rounding.value.shift scale).numerator / (number.rounding.value.shift scale).denominator

theorem gridFloor_spec (number : Number) (scale : Int) :
    number.gridFloor scale * 10 ^ scale ≤ number.value ∧
      number.value < (number.gridFloor scale + 1) * 10 ^ scale := by
  rcases number.rounding_value_spec with ⟨valuePositive, valued⟩
  rcases Fraction.shift_spec valuePositive scale with ⟨positive, shifted⟩
  have stepPositive : (0 : ℚ) < 10 ^ scale := by positivity
  have positive' : (0 : ℚ) < (number.rounding.value.shift scale).denominator := by
    exact_mod_cast positive
  constructor
  · rw [← valued, ← le_div_iff₀ stepPositive, ← shifted, Fraction.toRat, le_div_iff₀ positive']
    exact_mod_cast (Nat.le_div_iff_mul_le positive).mp le_rfl
  · rw [← valued, ← div_lt_iff₀ stepPositive, ← shifted, Fraction.toRat, div_lt_iff₀ positive']
    exact_mod_cast (Nat.div_lt_iff_lt_mul positive).mp (Nat.lt_succ_self _)

theorem IsPositive.contains_ofDecimal_iff (isPositive : number.IsPositive) (decimal : Decimal) :
    number.rounding.contains (.ofDecimal decimal) = true ↔ number.Attracts decimal.toRat := by
  rcases Fraction.ofDecimal_spec decimal with ⟨decimalPositive, same⟩
  rw [isPositive.contains_iff decimalPositive, same]

/-- One of the two neighbours on a grid that is finer than the interval is inside it. -/
theorem IsPositive.onGrid?_of_finer (isPositive : number.IsPositive) {scale : Int}
    (finer : (10 : ℚ) ^ scale < (number.reach / 4 + 1 / 2) * 2 ^ number.exponent) :
    number.rounding.onGrid? scale ≠ none := by
  rcases number.gridFloor_spec scale with ⟨below, above⟩
  have binaryPositive := two_zpow_pos number.exponent
  have reachPositive : (0 : ℚ) ≤ number.reach := by positivity
  have inside : ∀ decimal : Decimal, number.lowerEnd < decimal.toRat →
      decimal.toRat < number.upperEnd →
      number.rounding.contains (.ofDecimal decimal) = true := by
    intro decimal lower upper
    exact (isPositive.contains_ofDecimal_iff decimal).mpr (attracts_of_between lower upper)
  refine Rounding.onGrid?_ne_none rfl ?_
  change number.rounding.contains (.ofDecimal ⟨number.gridFloor scale, scale⟩) = true ∨
    number.rounding.contains (.ofDecimal ⟨number.gridFloor scale + 1, scale⟩) = true
  generalize number.gridFloor scale = steps at *
  rw [value] at below above
  -- Were both neighbours outside, the step would be at least as long as the interval.
  by_cases near : number.lowerEnd < steps * 10 ^ scale
  · refine .inl (inside _ near ?_)
    rw [Decimal.toRat, upperEnd]
    linarith
  · refine .inr (inside _ ?_ ?_)
    · rw [Decimal.toRat, lowerEnd]
      push_cast
      nlinarith
    · rw [lowerEnd, not_lt] at near
      rw [Decimal.toRat, upperEnd]
      push_cast
      linarith

theorem IsPositive.value_pos (isPositive : number.IsPositive) : 0 < number.value :=
  mul_pos (by exact_mod_cast isPositive.significand_pos) (two_zpow_pos _)

theorem IsPositive.rounding_numerator_pos (isPositive : number.IsPositive) :
    0 < number.rounding.value.numerator := by
  have positive := isPositive.value_pos
  rw [← number.rounding_value_spec.2, Fraction.toRat] at positive
  rw [Nat.pos_iff_ne_zero]
  intro zero
  simp [zero] at positive

/-- The position of the first digit of a number. -/
def position (number : Number) : Int := number.rounding.value.decimalPosition

/-- The search for the shortest decimal succeeds. -/
theorem IsPositive.exists_search (isPositive : number.IsPositive) :
    ∃ decimal, number.rounding.search number.position 17 1 = some decimal ∧
      number.shortest = decimal.trimmed := by
  have fine : (10 : ℚ) ^ (number.position - 17) * 10 ^ 16 ≤ number.value := by
    have lower := Fraction.decimalPosition_spec number.rounding_value_spec.1
      isPositive.rounding_numerator_pos
    rw [number.rounding_value_spec.2] at lower
    rwa [← zpow_natCast, ← zpow_add₀ (by norm_num), sub_add_eq_add_sub, add_sub_assoc,
      show (((16 : Nat) : Int) - 17) = -1 by norm_num]
  have hit := isPositive.onGrid?_of_finer (finer_of_le fine)
  have found : number.rounding.search number.position 17 1 ≠ none :=
    Rounding.search_ne_none 16 (by norm_num) hit
  cases outcome : number.rounding.search number.position 17 1 with
  | none => exact absurd outcome found
  | some decimal =>
      rw [position] at outcome
      exact ⟨decimal, rfl, by simp only [shortest, outcome]⟩

/-- The shortest decimal of a number rounds to it. -/
theorem IsPositive.attracts_shortest (isPositive : number.IsPositive) :
    number.Attracts number.shortest.toRat := by
  rcases isPositive.exists_search with ⟨decimal, found, same⟩
  rw [same, Decimal.toRat_trimmed, ← isPositive.contains_ofDecimal_iff]
  exact Rounding.contains_of_search found

end Number

end LoxLang
