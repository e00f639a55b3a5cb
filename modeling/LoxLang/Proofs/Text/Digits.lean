import LoxLang.Text
import Mathlib.Algebra.Order.Ring.Nat
import Mathlib.Data.List.Induction
import Mathlib.Tactic.Ring

/-!
# Digits are read back

The digits of a natural number, most significant first, denote the number again. This is stated for
any base and any reading of single digits, and used for decimal and hexadecimal numerals.
-/

namespace LoxLang.Text

/-- The number that a text of digits denotes, given the values of the digits. -/
def positional (base : Nat) (value : UInt8 → Nat) (digits : Text) : Nat :=
  digits.foldl (fun number digit => base * number + value digit) 0

variable {base : Nat} {value : UInt8 → Nat}

theorem positional_append (left right : Text) :
    positional base value (left ++ right) =
      positional base value left * base ^ right.length + positional base value right := by
  induction right using List.reverseRecOn with
  | nil => simp [positional]
  | append_singleton right digit ih =>
      rw [← List.append_assoc]
      simp only [positional, List.foldl_append, List.foldl_cons, List.foldl_nil] at ih ⊢
      rw [ih, List.length_append, List.length_singleton, pow_succ]
      ring

theorem positional_zeros (isZero : value 0x30 = 0) (count : Nat) :
    positional base value (List.replicate count 0x30) = 0 := by
  induction count with
  | zero => rfl
  | succ count ih =>
      rw [List.replicate_succ', positional_append, ih, Nat.zero_mul]
      simp [positional, isZero]

theorem positional_toDigits (atLeast : 1 < base)
    (values : ∀ digit < base, value digit.digitChar.toNat.toUInt8 = digit) (number : Nat) :
    positional base value ((Nat.toDigits base number).map fun digit => digit.toNat.toUInt8) =
      number := by
  have single : ∀ digit < base, positional base value [digit.digitChar.toNat.toUInt8] = digit :=
    fun digit small => by simp [positional, values digit small]
  induction number using Nat.strongRecOn with
  | ind number ih =>
      rw [Nat.toDigits_eq_if atLeast]
      split
      · next small => exact single number small
      · next large =>
          have shrinks : number / base < number := Nat.div_lt_self (by omega) atLeast
          rw [List.map_append, positional_append, ih _ shrinks, List.map_singleton,
            single _ (Nat.mod_lt _ (by omega)), List.length_singleton, pow_one]
          exact Nat.div_add_mod' number base

theorem toNat_append (left right : Text) :
    toNat (left ++ right) = toNat left * 10 ^ right.length + toNat right :=
  positional_append left right

theorem toNat_zeros (count : Nat) : toNat (List.replicate count 0x30) = 0 :=
  positional_zeros rfl count

theorem toNat_ofNat (number : Nat) : toNat (ofNat number) = number :=
  positional_toDigits (by norm_num) (by decide) number

/-- The number that hexadecimal digits denote. -/
def fromHex : Text → Nat := positional 16 fun digit => (Byte.digitValue? digit).getD 0

theorem fromHex_ofHex (width number : Nat) : fromHex (ofHex width number) = number := by
  rw [ofHex, fromHex, positional_append, positional_zeros rfl,
    positional_toDigits (by norm_num) (by decide), Nat.zero_mul, Nat.zero_add]

theorem length_ofHex {width number : Nat} (positive : 0 < width) (fits : number < 16 ^ width) :
    (ofHex width number).length = width := by
  have short := (Nat.length_toDigits_le_iff (by norm_num) positive).mpr fits
  rw [ofHex, List.length_append, List.length_replicate, List.length_map]
  omega

end LoxLang.Text
