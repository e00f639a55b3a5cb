import LoxLang.Proofs.Number.Rounding

/-!
# Shortest decimals have the fewest digits

No decimal that rounds to a number has fewer digits than its shortest decimal. If such a decimal
lies in the decade of the number, it is on one of the grids that are searched, and then so is a
neighbour of the number that rounds to it as well. If it lies in another decade, a power of ten is
in between, and this has one digit.
-/

namespace LoxLang

namespace Fraction

theorem digitCount_le_iff {number count : Nat} :
    digitCount number ≤ count ↔ number < 10 ^ count := by
  rcases digitCount_bounds number with ⟨below, atLeast⟩
  constructor
  · intro le
    exact below.trans_le (Nat.pow_le_pow_right (by norm_num) le)
  · intro small
    by_contra more
    rcases Nat.eq_zero_or_pos number with rfl | positive
    · exact more (Nat.zero_le count)
    · have : 10 ^ count ≤ 10 ^ (digitCount number - 1) :=
        Nat.pow_le_pow_right (by norm_num) (by omega)
      have := atLeast positive
      omega

theorem digitCount_pos {number : Nat} (positive : 0 < number) : 0 < digitCount number := by
  rw [Nat.pos_iff_ne_zero]
  intro zero
  have : number < 10 ^ 0 := digitCount_le_iff.mp zero.le
  omega

/-- A fraction is below the power of ten after its first digit. -/
theorem lt_decimalPosition {fraction : Fraction} (positive : 0 < fraction.denominator)
    (numeratorPositive : 0 < fraction.numerator) :
    fraction.toRat < (10 : ℚ) ^ fraction.decimalPosition := by
  have positive' : (0 : ℚ) < fraction.denominator := by exact_mod_cast positive
  rw [decimalPosition, toRat, div_lt_iff₀ positive']
  split
  · rcases digitCount_bounds (fraction.numerator / fraction.denominator) with ⟨below, _⟩
    rw [zpow_natCast]
    exact_mod_cast (Nat.div_lt_iff_lt_mul positive).mp below
  · next proper =>
      have quotient : 0 < (fraction.denominator - 1) / fraction.numerator :=
        Nat.div_pos (by omega) numeratorPositive
      have counted := digitCount_pos quotient
      have atLeast := (digitCount_bounds _).2 quotient
      have scaled := (Nat.le_div_iff_mul_le numeratorPositive).mp atLeast
      generalize digitCount ((fraction.denominator - 1) / fraction.numerator) = count at *
      rw [show 1 - (count : Int) = -((count - 1 : Nat) : Int) by omega, zpow_neg, zpow_natCast,
        lt_inv_mul_iff₀ (by positivity)]
      have : 10 ^ (count - 1) * fraction.numerator < fraction.denominator := by omega
      exact_mod_cast this

end Fraction

theorem Decimal.digitCount_trimmed {decimal : Decimal} {count : Nat} (positive : 0 < count)
    (bounded : decimal.digits ≤ 10 ^ count) :
    Fraction.digitCount decimal.trimmed.digits ≤ count := by
  obtain ⟨fewer, rfl⟩ : ∃ fewer, count = fewer + 1 := ⟨count - 1, by omega⟩
  rw [Fraction.digitCount_le_iff, trimmed]
  have tens : 10 ^ (fewer + 1) = 10 * 10 ^ fewer := by ring
  have : 0 < 10 ^ fewer := by positivity
  split
  · change decimal.digits / 10 < _
    omega
  · omega

/-- The decade of a decimal, by the number of its digits. -/
theorem Decimal.decade {decimal : Decimal} (positive : 0 < decimal.digits) :
    (10 : ℚ) ^ (Fraction.digitCount decimal.digits + decimal.scale - 1) ≤ decimal.toRat ∧
      decimal.toRat < 10 ^ (Fraction.digitCount decimal.digits + decimal.scale) := by
  have scalePositive : (0 : ℚ) < 10 ^ decimal.scale := by positivity
  have counted := Fraction.digitCount_pos positive
  rcases digitCount_bounds decimal.digits with ⟨below, atLeast⟩
  rw [toRat]
  generalize Fraction.digitCount decimal.digits = count at *
  constructor
  · rw [show (count : Int) + decimal.scale - 1 = ((count - 1 : Nat) : Int) + decimal.scale by omega,
      zpow_add₀ (by norm_num), zpow_natCast]
    gcongr
    exact_mod_cast atLeast positive
  · rw [zpow_add₀ (by norm_num), zpow_natCast]
    gcongr
    exact_mod_cast below

namespace Number

namespace Rounding

variable {interval : Rounding} {decimal : Decimal} {position : Int} {tries count : Nat}

/-- The search ends at the first grid with a hit. -/
theorem exists_first_of_search (found : interval.search position tries count = some decimal) :
    ∃ first, count ≤ first ∧ interval.onGrid? (position - first) = some decimal ∧
      ∀ earlier, count ≤ earlier → earlier < first →
        interval.onGrid? (position - earlier) = none := by
  induction tries generalizing count with
  | zero => cases found
  | succ tries ih =>
      rw [search] at found
      split at found
      · next hit =>
          cases found
          exact ⟨count, le_rfl, hit, fun earlier atLeast less => by omega⟩
      · next miss =>
          rcases ih found with ⟨first, atLeast, hit, misses⟩
          refine ⟨first, by omega, hit, fun earlier above less => ?_⟩
          rcases above.eq_or_lt with rfl | later
          · exact miss
          · exact misses earlier later less

end Rounding

variable {number : Number} {decimal : Decimal}

theorem digits_of_onGrid? {scale : Int} (found : number.rounding.onGrid? scale = some decimal) :
    decimal.digits ≤ number.gridFloor scale + 1 := by
  simp only [Rounding.onGrid?] at found
  repeat' split at found
  all_goals cases found
  all_goals simp [gridFloor]

theorem Attracts.between {x y z : ℚ} (low : number.Attracts x) (high : number.Attracts z)
    (above : x ≤ y) (below : y ≤ z) : number.Attracts y := by
  rw [Attracts] at *
  split at low
  · next even =>
      rw [if_pos even] at high ⊢
      exact ⟨low.1.trans above, below.trans high.2⟩
  · next odd =>
      rw [if_neg odd] at high ⊢
      exact ⟨low.1.trans_le above, below.trans_lt high.2⟩

theorem attracts_value (number : Number) : number.Attracts number.value := by
  have step := two_zpow_pos number.exponent
  have reachPositive : (1 : ℚ) ≤ number.reach := by exact_mod_cast number.one_le_reach
  apply attracts_of_between
  · rw [lowerEnd, value]
    gcongr
    linarith
  · rw [upperEnd, value]
    gcongr
    linarith

section Positive

variable (isPositive : number.IsPositive)
include isPositive

/-- A grid with any point that rounds to the number has a neighbour of the number that does. -/
theorem IsPositive.onGrid?_of_attracts {steps : Nat} {scale : Int}
    (attracts : number.Attracts (steps * 10 ^ scale)) : number.rounding.onGrid? scale ≠ none := by
  rcases number.gridFloor_spec scale with ⟨below, above⟩
  have stepPositive : (0 : ℚ) < 10 ^ scale := by positivity
  refine Rounding.onGrid?_ne_none rfl ?_
  change number.rounding.contains (.ofDecimal ⟨number.gridFloor scale, scale⟩) = true ∨
    number.rounding.contains (.ofDecimal ⟨number.gridFloor scale + 1, scale⟩) = true
  rw [isPositive.contains_ofDecimal_iff, isPositive.contains_ofDecimal_iff]
  rcases le_or_gt steps (number.gridFloor scale) with le | greater
  · have : (steps : ℚ) ≤ number.gridFloor scale := by exact_mod_cast le
    refine .inl (attracts.between number.attracts_value ?_ below)
    exact mul_le_mul_of_nonneg_right this stepPositive.le
  · have : (number.gridFloor scale + 1 : ℚ) ≤ steps := by exact_mod_cast greater
    refine .inr (number.attracts_value.between attracts ?_ ?_)
    · rw [Decimal.toRat, Nat.cast_succ]
      exact above.le
    · rw [Decimal.toRat, Nat.cast_succ]
      exact mul_le_mul_of_nonneg_right this stepPositive.le

theorem IsPositive.position_spec :
    (10 : ℚ) ^ (number.position - 1) ≤ number.value ∧ number.value < 10 ^ number.position := by
  rcases number.rounding_value_spec with ⟨positive, valued⟩
  have numeratorPositive := isPositive.rounding_numerator_pos
  rw [← valued]
  exact ⟨Fraction.decimalPosition_spec positive numeratorPositive,
    Fraction.lt_decimalPosition positive numeratorPositive⟩

/-- The grid on which a decimal that rounds to the number has a point with no more digits. -/
theorem IsPositive.exists_grid (attracts : number.Attracts decimal.toRat) :
    ∃ count, 1 ≤ count ∧ count ≤ Fraction.digitCount decimal.digits ∧
      number.rounding.onGrid? (number.position - count) ≠ none := by
  rcases isPositive.position_spec with ⟨first, next⟩
  have digitsPositive : 0 < decimal.digits := by
    rw [Nat.pos_iff_ne_zero]
    intro zero
    have lower := isPositive.lowerEnd_pos.trans_le attracts.bounds.1
    simp [Decimal.toRat, zero] at lower
  have counted := Fraction.digitCount_pos digitsPositive
  rcases lt_or_ge decimal.toRat (10 ^ (number.position - 1)) with before | atLeast
  · refine ⟨1, le_rfl, counted, ?_⟩
    have power : number.Attracts ((1 : Nat) * 10 ^ (number.position - 1)) := by
      rw [Nat.cast_one, one_mul]
      exact attracts.between number.attracts_value before.le first
    exact isPositive.onGrid?_of_attracts power
  · rcases lt_or_ge decimal.toRat (10 ^ number.position) with within | beyond
    · refine ⟨_, counted, le_rfl, ?_⟩
      have scale : number.position - Fraction.digitCount decimal.digits = decimal.scale := by
        rcases Decimal.decade digitsPositive with ⟨lower, upper⟩
        have ten : (1 : ℚ) < 10 := by norm_num
        have := (zpow_lt_zpow_iff_right₀ ten).mp (lower.trans_lt within)
        have := (zpow_lt_zpow_iff_right₀ ten).mp (atLeast.trans_lt upper)
        omega
      rw [scale]
      exact isPositive.onGrid?_of_attracts attracts
    · refine ⟨1, le_rfl, counted, ?_⟩
      have power : number.Attracts ((10 : Nat) * 10 ^ (number.position - 1)) := by
        rw [Nat.cast_ofNat, ← zpow_one_add₀ (by norm_num), add_sub_cancel]
        exact number.attracts_value.between attracts next.le beyond
      exact isPositive.onGrid?_of_attracts power

/-- No decimal that rounds to the number has fewer digits. -/
theorem IsPositive.digitCount_shortest_le (attracts : number.Attracts decimal.toRat) :
    Fraction.digitCount number.shortest.digits ≤ Fraction.digitCount decimal.digits := by
  rcases isPositive.exists_search with ⟨found, outcome, same⟩
  rcases isPositive.exists_grid attracts with ⟨count, atLeast, fewer, hit⟩
  rcases Rounding.exists_first_of_search outcome with ⟨least, positive, hitLeast, misses⟩
  have le : least ≤ count := by
    by_contra later
    exact hit (misses count atLeast (by omega))
  have bounded : number.gridFloor (number.position - least) < 10 ^ least := by
    have below := (number.gridFloor_spec (number.position - least)).1.trans_lt
      isPositive.position_spec.2
    rw [zpow_sub₀ (by norm_num), zpow_natCast, mul_div_assoc', div_lt_iff₀ (by positivity),
      mul_comm, mul_lt_mul_iff_right₀ (by positivity)] at below
    exact_mod_cast below
  rw [same]
  have digits := digits_of_onGrid? hitLeast
  exact (Decimal.digitCount_trimmed positive (by omega)).trans (le.trans fewer)

end Positive

end Number

end LoxLang
