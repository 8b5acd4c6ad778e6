import Mathlib.Data.Int.Log
import Mathlib.Data.Rat.Floor
import Mathlib.Tactic

/-!
# Rounding to binary64

`roundDouble x` is the finite double nearest to a rational number, ties to even,
or `none` where rounding overflows. A finite double is kept as the rational that
it denotes.

Results:
* `roundDouble_int`: integers of at most 2^53 are doubles.
-/

namespace CryptoPay.Data

/-- The nearest integer; of two, the even one. -/
def roundHalfEven (x : ℚ) : ℤ :=
  if x - ⌊x⌋ < 1 / 2 then ⌊x⌋
  else if 1 / 2 < x - ⌊x⌋ then ⌊x⌋ + 1
  else if ⌊x⌋ % 2 = 0 then ⌊x⌋ else ⌊x⌋ + 1

/-- The exponent of the last place of the doubles near `x`: 53 significant bits, and none below
    2^-1074. -/
def lastPlace (x : ℚ) : ℤ := max (Int.log 2 |x| - 52) (-1074)

/-- See the module text. -/
def roundDouble (x : ℚ) : Option ℚ :=
  let rounded : ℚ := roundHalfEven (x / (2 : ℚ) ^ lastPlace x) * (2 : ℚ) ^ lastPlace x
  if |rounded| < 2 ^ 1024 then some rounded else none

theorem roundHalfEven_int (n : ℤ) : roundHalfEven n = n := by
  simp [roundHalfEven]

/-- A multiple of its own last place is a double. -/
theorem roundDouble_multiple {x : ℚ} {m : ℤ} (hx : x = m * (2 : ℚ) ^ lastPlace x)
    (hsmall : |x| < 2 ^ 1024) : roundDouble x = some x := by
  have hpos : (2 : ℚ) ^ lastPlace x ≠ 0 := by positivity
  have hquotient : x / (2 : ℚ) ^ lastPlace x = m := by
    rw [div_eq_iff hpos]
    exact hx
  unfold roundDouble
  rw [hquotient, roundHalfEven_int, ← hx]
  exact if_pos hsmall

/-- Integers of at most 2^53 are doubles. -/
theorem roundDouble_int {n : ℤ} (hn : |n| ≤ 2 ^ 53) : roundDouble n = some (n : ℚ) := by
  have habs : |(n : ℚ)| ≤ 2 ^ 53 := by
    rw [← Int.cast_abs]
    exact_mod_cast hn
  have hsmall : |(n : ℚ)| < 2 ^ 1024 :=
    lt_of_le_of_lt habs (pow_lt_pow_right₀ one_lt_two (by omega))
  by_cases hlog : Int.log 2 |(n : ℚ)| ≤ 52
  · -- the last place is a fraction, and the integer has all of its places
    have hplace : lastPlace n ≤ 0 := by
      unfold lastPlace
      omega
    obtain ⟨k, hk⟩ := Int.eq_ofNat_of_zero_le (neg_nonneg.mpr hplace)
    refine roundDouble_multiple (m := n * 2 ^ k) ?_ hsmall
    have hplace : lastPlace n = -(k : ℤ) := by omega
    rw [hplace, zpow_neg, zpow_natCast]
    push_cast
    field_simp
  · -- only 2^53 itself has 54 bits
    have hpos : 0 < |(n : ℚ)| := by
      by_contra hzero
      have hlog0 := Int.log_of_right_le_zero 2 (not_lt.mp hzero)
      omega
    have hlow : (2 : ℚ) ^ (53 : ℤ) ≤ |(n : ℚ)| := by
      refine le_trans ?_ (Int.zpow_log_le_self (b := 2) one_lt_two hpos)
      exact zpow_le_zpow_right₀ one_le_two (by omega)
    have heq : |(n : ℚ)| = 2 ^ (53 : ℤ) := le_antisymm (by exact_mod_cast habs) hlow
    have hplace : lastPlace n = 1 := by
      unfold lastPlace
      rw [heq, show ((2 : ℚ) ^ (53 : ℤ)) = ((2 : ℕ) : ℚ) ^ (53 : ℤ) by norm_num,
        Int.log_zpow one_lt_two]
      norm_num
    rcases abs_choice (n : ℚ) with habs | habs
    · refine roundDouble_multiple (m := 2 ^ 52) ?_ hsmall
      rw [hplace, ← habs, heq]
      norm_num
    · refine roundDouble_multiple (m := -2 ^ 52) ?_ hsmall
      rw [hplace, ← neg_neg (n : ℚ), ← habs, heq]
      norm_num

end CryptoPay.Data
