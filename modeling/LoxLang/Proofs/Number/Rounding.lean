import LoxLang.Proofs.Number.Plain

/-!
# Rounding is correct

Rounding a fraction gives the nearest number, and of two that are equally near the one whose
significand is even (`Number.ofRatio_eq_iff`). Infinity takes part as if it were the power of two
that follows the largest double. This says when a fraction is too large for a double: from half-way
between the largest double and that power.

The doubles that are multiples of the step of the result are compared with it as whole numbers. All
others are smaller than the fraction and farther away than the least of those.
-/

namespace LoxLang

namespace Number

variable {number other : Number} {exponent : Int} {significand numerator denominator : Nat} {x : ℚ}

/-- The number nearest to a rational that is not negative, where infinity counts as the power of two
after the largest double. If another number is as near, its own significand is even. -/
structure IsNearest (number : Number) (x : ℚ) : Prop where
  unsigned : number.IsUnsigned
  nearest : ∀ other : Number, other.IsUnsigned → |x - number.value| ≤ |x - other.value|
  even : ∀ other : Number, other.IsUnsigned → other ≠ number →
    |x - number.value| = |x - other.value| → number.significand % 2 = 0

/-- The number without a sign that has the magnitude. -/
def ofMagnitude (magnitude : Nat) : Number := ⟨magnitude.toUInt64⟩

section Magnitudes

theorem ofMagnitude_spec {magnitude : Nat} (bounded : magnitude ≤ infinite) :
    (ofMagnitude magnitude).IsUnsigned ∧ (ofMagnitude magnitude).magnitude = magnitude := by
  have small : magnitude < 2 ^ 63 := lt_of_le_of_lt bounded (by decide)
  have bits : magnitude.toUInt64.toNat = magnitude := by
    rw [Nat.toUInt64_eq, UInt64.toNat_ofNat', Nat.mod_eq_of_lt (by omega)]
  have same : (ofMagnitude magnitude).magnitude = magnitude := by
    rw [ofMagnitude, Number.magnitude, bits, Nat.pow_eq, Nat.mod_eq_of_lt small]
  refine ⟨⟨?_, by rwa [same]⟩, same⟩
  simpa only [ofMagnitude, isNegative, bits, Nat.pow_eq, decide_eq_false_iff_not, not_le]
    using small

theorem significand_mod_two (number : Number) :
    number.significand % 2 = number.magnitude % 2 := by
  rw [magnitude_eq]
  omega

theorem exponent_eq_or (number : Number) :
    number.exponent = -1074 ∨ 2 ^ 52 ≤ number.significand := by
  rcases number.exponent_ge.eq_or_lt with least | above
  · exact .inl least.symm
  · exact .inr (significand_ge_of_exponent above).1

/-- A significand of `2 ^ 53` carries into the exponent. -/
theorem value_of_parts (least : -1074 ≤ exponent) (small : significand ≤ 2 ^ 53)
    (normal : exponent = -1074 ∨ 2 ^ 52 ≤ significand)
    (parts : number.magnitude = (exponent + 1074).toNat * 2 ^ 52 + significand) :
    number.value = significand * 2 ^ exponent := by
  rw [magnitude_eq] at parts
  have := number.exponent_ge
  have := number.significand_lt
  have := number.exponent_eq_or
  rw [value]
  rcases small.lt_or_eq with less | rfl
  · obtain ⟨sameExponent, same⟩ :
        number.exponent = exponent ∧ number.significand = significand := by omega
    rw [sameExponent, same]
  · obtain ⟨next, power⟩ :
        number.exponent = exponent + 1 ∧ number.significand = 2 ^ 52 := by omega
    rw [next, power, zpow_add_one₀ (by norm_num)]
    push_cast
    ring

/-- Magnitudes are ordered as the values are. -/
theorem value_lt_value (less : number.magnitude < other.magnitude) :
    number.value < other.value := by
  rw [magnitude_eq, magnitude_eq] at less
  have step := two_zpow_pos number.exponent
  have := number.exponent_ge
  have := other.exponent_ge
  have small := number.significand_lt
  have := other.significand_lt
  rw [value, value]
  rcases lt_trichotomy number.exponent other.exponent with below | same | above
  · have normal : 2 ^ 52 ≤ other.significand := other.exponent_eq_or.resolve_left (by omega)
    calc (number.significand : ℚ) * 2 ^ number.exponent
      _ < 2 ^ 53 * 2 ^ number.exponent := by
            gcongr
            exact_mod_cast small
      _ = 2 ^ (number.exponent + (53 : Nat)) := (zpow_add_natCast _ _).symm
      _ ≤ 2 ^ (other.exponent + (52 : Nat)) := zpow_le_zpow_right₀ (by norm_num) (by omega)
      _ = 2 ^ 52 * 2 ^ other.exponent := zpow_add_natCast _ _
      _ ≤ other.significand * 2 ^ other.exponent := by
            gcongr
            exact_mod_cast normal
  · have : number.significand < other.significand := by
      rw [same] at less
      omega
    rw [same]
    gcongr
  · have normal : 2 ^ 52 ≤ number.significand := number.exponent_eq_or.resolve_left (by omega)
    omega

theorem value_le_value (le : number.magnitude ≤ other.magnitude) : number.value ≤ other.value := by
  rcases le.lt_or_eq with less | same
  · exact (value_lt_value less).le
  · apply le_of_eq
    apply value_of_parts other.exponent_ge other.significand_lt.le other.exponent_eq_or
    rw [same, magnitude_eq]

theorem IsUnsigned.eq_of_value (unsigned : number.IsUnsigned) (otherUnsigned : other.IsUnsigned)
    (same : number.value = other.value) : number = other := by
  apply unsigned.eq_of_magnitude otherUnsigned
  rcases lt_trichotomy number.magnitude other.magnitude with less | equal | greater
  · exact absurd same (value_lt_value less).ne
  · exact equal
  · exact absurd same (value_lt_value greater).ne'

theorem value_ofMagnitude_infinite : (ofMagnitude infinite).value = 2 ^ (1024 : Int) := by
  have parts : (ofMagnitude infinite).value = (2 ^ 52 : Nat) * 2 ^ (972 : Int) := by
    refine value_of_parts (by norm_num) (by norm_num) (.inr le_rfl) ?_
    rw [(ofMagnitude_spec le_rfl).2]
    decide
  rw [parts, Nat.cast_pow, Nat.cast_ofNat, ← zpow_add_natCast]
  rfl

end Magnitudes

section Quotients

theorem roundDiv_bounds (numerator : Nat) (positive : 0 < denominator) :
    2 * (roundDiv numerator denominator * denominator) ≤ 2 * numerator + denominator ∧
      2 * numerator ≤ 2 * (roundDiv numerator denominator * denominator) + denominator ∧
      (2 * (roundDiv numerator denominator * denominator) = 2 * numerator + denominator ∨
          2 * numerator = 2 * (roundDiv numerator denominator * denominator) + denominator →
        roundDiv numerator denominator % 2 = 0) := by
  have parts : numerator = numerator / denominator * denominator + numerator % denominator := by
    rw [Nat.mul_comm, Nat.div_add_mod]
  have small := Nat.mod_lt numerator positive
  simp only [roundDiv]
  generalize numerator / denominator = quotient at *
  generalize numerator % denominator = rest at *
  rcases Nat.mod_two_eq_zero_or_one quotient with even | odd
  · split
    · grind
    · split <;> grind
  · split
    · grind
    · split <;> grind

/-- A quotient is rounded by at most one half, and by one half only to an even number. -/
theorem roundDiv_near (numerator : Nat) (positive : 0 < denominator) :
    |(numerator / denominator : ℚ) - roundDiv numerator denominator| ≤ 1 / 2 ∧
      (|(numerator / denominator : ℚ) - roundDiv numerator denominator| = 1 / 2 →
        roundDiv numerator denominator % 2 = 0) := by
  have positive' : (0 : ℚ) < denominator := by exact_mod_cast positive
  rcases roundDiv_bounds numerator positive with ⟨lower, upper, even⟩
  generalize roundDiv numerator denominator = rounded at *
  have difference : (numerator / denominator : ℚ) - rounded =
      (numerator - rounded * denominator) / denominator := by
    field_simp
  have lower' : (2 * (rounded * denominator) : ℚ) ≤ 2 * numerator + denominator := by
    exact_mod_cast lower
  have upper' : (2 * numerator : ℚ) ≤ 2 * (rounded * denominator) + denominator := by
    exact_mod_cast upper
  rw [difference, abs_div, abs_of_pos positive', div_le_iff₀ positive', div_eq_iff positive'.ne']
  constructor
  · rw [abs_le]
    constructor <;> linarith
  · intro half
    apply even
    rcases abs_cases ((numerator : ℚ) - rounded * denominator) with ⟨same, _⟩ | ⟨same, _⟩
    · have : (2 * numerator : ℚ) = 2 * (rounded * denominator) + denominator := by linarith
      exact .inr (by exact_mod_cast this)
    · have : (2 * (rounded * denominator) : ℚ) = 2 * numerator + denominator := by linarith
      exact .inl (by exact_mod_cast this)

theorem half_le_of_ne {rounded : Nat} (near : |x - rounded| ≤ 1 / 2) {whole : Nat}
    (apart : whole ≠ rounded) : 1 / 2 ≤ |x - whole| := by
  have one : (1 : ℚ) ≤ |(rounded : ℚ) - whole| := by
    have : (1 : Int) ≤ |(rounded : Int) - whole| := Int.one_le_abs (by omega)
    exact_mod_cast this
  have triangle := abs_sub_le (rounded : ℚ) x whole
  rw [abs_sub_comm (rounded : ℚ) x] at triangle
  linarith

end Quotients

/-- What makes a number of whole steps the nearest to a rational. -/
structure Chosen (exponent : Int) (significand : Nat) (x : ℚ) : Prop where
  least : -1074 ≤ exponent
  reached : exponent = -1074 ∨ (2 : ℚ) ^ (exponent + 52) ≤ x
  near : |x / 2 ^ exponent - significand| ≤ 1 / 2
  tie : |x / 2 ^ exponent - significand| = 1 / 2 → significand % 2 = 0

namespace Chosen

theorem distance (x : ℚ) (exponent : Int) (steps : ℚ) :
    |x - steps * 2 ^ exponent| = |x / 2 ^ exponent - steps| * 2 ^ exponent := by
  have step := two_zpow_pos exponent
  rw [← abs_of_pos step, ← abs_mul, abs_of_pos step, sub_mul, div_mul_cancel₀ _ step.ne']

theorem le_of_whole (chosen : Chosen exponent significand x) (whole : Nat) :
    |x - significand * 2 ^ exponent| ≤ |x - whole * 2 ^ exponent| := by
  rw [distance, distance]
  by_cases same : whole = significand
  · rw [same]
  · have half := half_le_of_ne chosen.near same
    exact mul_le_mul_of_nonneg_right (chosen.near.trans half) (two_zpow_pos _).le

theorem even_of_whole (chosen : Chosen exponent significand x) {whole : Nat}
    (apart : whole ≠ significand)
    (equal : |x - significand * 2 ^ exponent| = |x - whole * 2 ^ exponent|) :
    significand % 2 = 0 := by
  rw [distance, distance] at equal
  have same := mul_right_cancel₀ (two_zpow_pos exponent).ne' equal
  have half := half_le_of_ne chosen.near apart
  exact chosen.tie (le_antisymm chosen.near (by rwa [same]))

/-- A double is a multiple of the step, or farther away than one that is. -/
theorem whole_or_farther (chosen : Chosen exponent significand x) (other : Number) :
    (∃ whole : Nat, other.value = whole * 2 ^ exponent) ∨
      |x - significand * 2 ^ exponent| < |x - other.value| := by
  rcases le_or_gt exponent other.exponent with coarse | fine
  · refine .inl ⟨other.significand * 2 ^ (other.exponent - exponent).toNat, ?_⟩
    rw [value]
    push_cast
    rw [mul_assoc, ← zpow_natCast, ← zpow_add₀ (by norm_num)]
    congr 2
    omega
  · right
    have reached : (2 : ℚ) ^ 52 * 2 ^ exponent ≤ x := by
      rw [← zpow_add_natCast]
      exact chosen.reached.resolve_left (by have := other.exponent_ge; omega)
    have below : other.value < 2 ^ 52 * 2 ^ exponent := by
      calc other.value
        _ < 2 ^ 53 * 2 ^ other.exponent := by
              rw [value]
              gcongr
              exact_mod_cast other.significand_lt
        _ = 2 ^ (other.exponent + (53 : Nat)) := (zpow_add_natCast _ _).symm
        _ ≤ 2 ^ (exponent + (52 : Nat)) := zpow_le_zpow_right₀ (by norm_num) (by omega)
        _ = 2 ^ 52 * 2 ^ exponent := zpow_add_natCast _ _
    calc |x - significand * 2 ^ exponent|
      _ ≤ |x - (2 ^ 52 : Nat) * 2 ^ exponent| := chosen.le_of_whole _
      _ = x - 2 ^ 52 * 2 ^ exponent := by
            rw [Nat.cast_pow, Nat.cast_ofNat]
            exact abs_of_nonneg (by linarith)
      _ < x - other.value := by linarith
      _ ≤ |x - other.value| := le_abs_self _

theorem normal (chosen : Chosen exponent significand x) :
    exponent = -1074 ∨ 2 ^ 52 ≤ significand := by
  refine chosen.reached.imp_right fun reached => ?_
  have step := two_zpow_pos exponent
  have many : (2 : ℚ) ^ 52 ≤ x / 2 ^ exponent := by
    rw [le_div_iff₀ step, ← zpow_add_natCast]
    exact reached
  have near := (abs_le.mp chosen.near).2
  have : (2 ^ 52 : ℚ) < significand + 1 := by linarith
  have : 2 ^ 52 < significand + 1 := by exact_mod_cast this
  omega

theorem isNearest (chosen : Chosen exponent significand x) (small : significand ≤ 2 ^ 53)
    (bounded : (exponent + 1074).toNat * 2 ^ 52 + significand ≤ infinite) :
    (ofMagnitude ((exponent + 1074).toNat * 2 ^ 52 + significand)).IsNearest x := by
  rcases ofMagnitude_spec bounded with ⟨unsigned, magnitude⟩
  have value := value_of_parts chosen.least small chosen.normal magnitude
  refine ⟨unsigned, fun other _ => ?_, fun other otherUnsigned apart equal => ?_⟩
  · rw [value]
    rcases chosen.whole_or_farther other with ⟨whole, multiple⟩ | farther
    · rw [multiple]
      exact chosen.le_of_whole whole
    · exact farther.le
  · rw [value] at equal
    rcases chosen.whole_or_farther other with ⟨whole, multiple⟩ | farther
    · rw [multiple] at equal
      have even := chosen.even_of_whole ?_ equal
      · rw [significand_mod_two, magnitude]
        omega
      · rintro rfl
        exact apart (otherUnsigned.eq_of_value unsigned (multiple.trans value.symm))
    · exact absurd equal farther.ne

end Chosen

theorem isNearest_infinite (exceeds : 2 ^ (1024 : Int) ≤ x) :
    (ofMagnitude infinite).IsNearest x := by
  rcases ofMagnitude_spec (le_refl infinite) with ⟨infiniteUnsigned, magnitude⟩
  refine ⟨infiniteUnsigned, fun other unsigned => ?_, fun _ _ _ _ => by decide⟩
  rw [← value_ofMagnitude_infinite] at exceeds
  have le : other.value ≤ (ofMagnitude infinite).value :=
    value_le_value (unsigned.bounded.trans_eq magnitude.symm)
  rw [abs_of_nonneg (by linarith), abs_of_nonneg (by linarith)]
  linarith

theorem chosen_of_ratio (nonzero : numerator ≠ 0) (positive : 0 < denominator) {upper lower : Nat}
    (pair : scaled numerator denominator (exponentOf numerator denominator) = (upper, lower)) :
    Chosen (exponentOf numerator denominator) (roundDiv upper lower) (numerator / denominator) ∧
      roundDiv upper lower ≤ 2 ^ 53 := by
  rcases exponentOf_spec (Nat.pos_of_ne_zero nonzero) positive with ⟨least, under, reached⟩
  have ratio := scaled_div numerator denominator (exponentOf numerator denominator)
  have lowerPositive := scaled_pos numerator (exponentOf numerator denominator) positive
  rw [pair] at ratio lowerPositive
  rcases roundDiv_near upper lowerPositive with ⟨near, tie⟩
  rw [ratio] at near tie
  refine ⟨⟨least, reached, near, tie⟩, ?_⟩
  have few : (numerator / denominator : ℚ) / 2 ^ exponentOf numerator denominator < 2 ^ 53 := by
    rw [div_lt_iff₀ (two_zpow_pos _), ← zpow_add_natCast]
    exact under
  have : (roundDiv upper lower : ℚ) < 2 ^ 53 + 1 := by linarith [(abs_le.mp near).1]
  have : roundDiv upper lower < 2 ^ 53 + 1 := by exact_mod_cast this
  omega

/-- Rounding gives the nearest number. -/
theorem isNearest_ofRatio (numerator : Nat) (positive : 0 < denominator) :
    (ofRatio numerator denominator).IsNearest (numerator / denominator) := by
  by_cases zero : numerator = 0
  · have significand : (ofMagnitude 0).significand = 0 := by decide
    have value : (ofMagnitude 0).value = 0 := by rw [value, significand, Nat.cast_zero, zero_mul]
    rw [zero, Nat.cast_zero, zero_div]
    refine ⟨isUnsigned_ofRatio 0 denominator, fun other _ => ?_, fun _ _ _ _ => ?_⟩
    · change |0 - (ofMagnitude 0).value| ≤ _
      rw [value, sub_zero, abs_zero]
      exact abs_nonneg _
    · exact congrArg (· % 2) significand
  · rcases pair : scaled numerator denominator (exponentOf numerator denominator) with
      ⟨upper, lower⟩
    rcases chosen_of_ratio zero positive pair with ⟨chosen, small⟩
    rw [ofRatio_eq zero rfl pair rfl]
    rcases Nat.lt_or_ge infinite ((exponentOf numerator denominator + 1074).toNat * 2 ^ 52 +
      roundDiv upper lower) with exceeds | bounded
    · rw [Nat.min_eq_left exceeds.le]
      apply isNearest_infinite
      have large : 972 ≤ exponentOf numerator denominator := by
        simp only [infinite, Nat.pow_eq] at exceeds
        omega
      refine le_trans ?_ (chosen.reached.resolve_left (by omega))
      exact zpow_le_zpow_right₀ (by norm_num) (by omega)
    · rw [Nat.min_eq_right bounded]
      exact chosen.isNearest small bounded

theorem nearer_of_between {low middle high : ℚ} (above : low < middle) (below : middle < high)
    (equal : |x - low| = |x - high|) : |x - middle| < |x - low| := by
  have centre : x = (low + high) / 2 := by
    rcases abs_eq_abs.mp equal with same | opposite <;> linarith
  rw [centre, abs_lt, abs_of_pos (by linarith)]
  constructor <;> linarith

/-- There is one nearest number: of two neighbours one has an odd significand. -/
theorem IsNearest.unique (nearest : number.IsNearest x) (otherNearest : other.IsNearest x) :
    number = other := by
  wlog le : number.magnitude ≤ other.magnitude
  · exact (this otherNearest nearest (by omega)).symm
  by_contra apart
  have less : number.magnitude < other.magnitude := by
    refine le.lt_of_ne fun same => apart ?_
    exact nearest.unsigned.eq_of_magnitude otherNearest.unsigned same
  have equal : |x - number.value| = |x - other.value| :=
    le_antisymm (nearest.nearest other otherNearest.unsigned)
      (otherNearest.nearest number nearest.unsigned)
  have even := nearest.even other otherNearest.unsigned (Ne.symm apart) equal
  have otherEven := otherNearest.even number nearest.unsigned apart equal.symm
  rw [significand_mod_two] at even otherEven
  have bounded : number.magnitude + 1 ≤ infinite := by
    have := otherNearest.unsigned.bounded
    omega
  rcases ofMagnitude_spec bounded with ⟨unsigned, magnitude⟩
  have above : number.value < (ofMagnitude (number.magnitude + 1)).value :=
    value_lt_value (by omega)
  have below : (ofMagnitude (number.magnitude + 1)).value < other.value :=
    value_lt_value (by omega)
  -- A double between two that are equally near is nearer than both.
  exact absurd (nearest.nearest _ unsigned) (not_le.mpr (nearer_of_between above below equal))

section Neighbours

/-- A rational lies on the near side of the middle to another number, and off the middle if the
significand is odd. -/
theorem IsNearest.sides (nearest : number.IsNearest x) (unsigned : other.IsUnsigned) :
    (number.value < other.value → x ≤ (number.value + other.value) / 2 ∧
      (number.significand % 2 ≠ 0 → x < (number.value + other.value) / 2)) ∧
    (other.value < number.value → (other.value + number.value) / 2 ≤ x ∧
      (number.significand % 2 ≠ 0 → (other.value + number.value) / 2 < x)) := by
  have near := nearest.nearest other unsigned
  have strict : other.value ≠ number.value → number.significand % 2 ≠ 0 →
      |x - number.value| < |x - other.value| := by
    intro apart odd
    refine near.lt_of_ne fun equal => odd (nearest.even other unsigned ?_ equal)
    rintro rfl
    exact apart rfl
  rcases abs_cases (x - number.value) with ⟨here, _⟩ | ⟨here, _⟩ <;>
    rcases abs_cases (x - other.value) with ⟨there, _⟩ | ⟨there, _⟩ <;>
      rw [here, there] at near strict <;>
      refine ⟨fun less => ⟨by linarith, fun odd => ?_⟩, fun less => ⟨by linarith, fun odd => ?_⟩⟩
  all_goals
    have := strict (by linarith) odd
    linarith

variable (isPositive : number.IsPositive)
include isPositive

theorem IsPositive.exists_next :
    ∃ next : Number, next.IsUnsigned ∧
      next.value = (number.significand + 1) * 2 ^ number.exponent := by
  rcases ofMagnitude_spec (Nat.succ_le_of_lt isPositive.finite) with ⟨unsigned, magnitude⟩
  have small := number.significand_lt
  have value : (ofMagnitude (number.magnitude + 1)).value =
      (number.significand + 1 : Nat) * 2 ^ number.exponent := by
    refine value_of_parts number.exponent_ge small (number.exponent_eq_or.imp_right (by omega)) ?_
    rw [magnitude, number.magnitude_eq]
    omega
  exact ⟨_, unsigned, by rw [value, Nat.cast_succ]⟩

theorem IsPositive.exists_previous :
    ∃ previous : Number, previous.IsUnsigned ∧
      previous.value = (number.significand - number.reach / 2) * 2 ^ number.exponent := by
  have bounded : number.magnitude - 1 ≤ infinite := (Nat.sub_le _ _).trans isPositive.finite.le
  rcases ofMagnitude_spec bounded with ⟨unsigned, magnitude⟩
  refine ⟨_, unsigned, ?_⟩
  have significandPositive := isPositive.significand_pos
  have small := number.significand_lt
  have parts := number.magnitude_eq
  have least := number.exponent_ge
  have normal := number.exponent_eq_or
  by_cases power : number.significand = 2 ^ 52 ∧ -1074 < number.exponent
  · -- Below a power of two the step is half as long.
    have value : (ofMagnitude (number.magnitude - 1)).value =
        (2 ^ 53 - 1 : Nat) * 2 ^ (number.exponent - 1) :=
      value_of_parts (by omega) (by omega) (.inr (by norm_num)) (by omega)
    rw [value, power.1, reach_eq_one power.1 (significand_ge_of_exponent power.2).2,
      zpow_sub_one₀ (by norm_num)]
    norm_num
    ring
  · have value : (ofMagnitude (number.magnitude - 1)).value =
        (number.significand - 1 : Nat) * 2 ^ number.exponent :=
      value_of_parts least (by omega) (by omega) (by omega)
    have reach : number.reach = 2 := by
      by_cases apart : number.significand = 2 ^ 52
      · exact reach_eq_two_of_least (by omega)
      · exact reach_eq_two apart
    rw [value, reach, Nat.cast_sub significandPositive]
    norm_num

theorem IsPositive.attracts_of_isNearest (nearest : number.IsNearest x) : number.Attracts x := by
  have step := two_zpow_pos number.exponent
  rcases isPositive.exists_next with ⟨next, nextUnsigned, nextValue⟩
  rcases isPositive.exists_previous with ⟨previous, previousUnsigned, previousValue⟩
  have reachPositive : (1 : ℚ) ≤ number.reach := by exact_mod_cast number.one_le_reach
  have above : number.value < next.value := by
    rw [nextValue, value]
    gcongr
    linarith
  have below : previous.value < number.value := by
    rw [previousValue, value]
    gcongr
    linarith
  have upper : (number.value + next.value) / 2 = number.upperEnd := by
    rw [nextValue, value, upperEnd]
    ring
  have lower : (previous.value + number.value) / 2 = number.lowerEnd := by
    rw [previousValue, value, lowerEnd]
    ring
  have upperSide := (nearest.sides nextUnsigned).1 above
  have lowerSide := (nearest.sides previousUnsigned).2 below
  rw [upper] at upperSide
  rw [lower] at lowerSide
  rw [Attracts]
  split
  · exact ⟨lowerSide.1, upperSide.1⟩
  · next odd => exact ⟨lowerSide.2 odd, upperSide.2 odd⟩

end Neighbours

theorem ofRatio_eq_iff (positive : 0 < denominator) :
    ofRatio numerator denominator = number ↔ number.IsNearest (numerator / denominator) := by
  constructor
  · rintro rfl
    exact isNearest_ofRatio numerator positive
  · intro nearest
    exact (isNearest_ofRatio numerator positive).unique nearest

end Number

end LoxLang
