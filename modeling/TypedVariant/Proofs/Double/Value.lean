import Mathlib.Algebra.Order.Field.Rat
import Mathlib.Tactic.Ring
import TypedVariant.Double.Basic

/-!
# The numbers that doubles are

A finite double is a rational number: its significand, times a power of two that its
exponent field tells. Counting in units of the least positive double says the same
without fractions, so a double is equal to an integer exactly if it is that number.
-/

namespace TypedVariant.Double

theorem unitsPerOne_pos : 0 < unitsPerOne := by
  unfold unitsPerOne
  generalize 1074 = n
  exact Nat.two_pow_pos n

theorem unitsPerOne_ne_zero : (unitsPerOne : Int) ≠ 0 :=
  Int.natCast_ne_zero_iff_pos.mpr unitsPerOne_pos

theorem whole?_eq_some_iff {value : Double} {z : Int} :
    value.whole? = some z ↔ value.units? = some (z * unitsPerOne) := by
  rw [whole?]
  cases value.units? with
  | none => exact iff_of_false (Option.some_ne_none _).symm (Option.some_ne_none _).symm
  | some units =>
      simp only [Option.ite_none_right_eq_some, Option.some.injEq]
      constructor
      · rintro ⟨hdivides, rfl⟩
        rw [Int.ediv_mul_cancel (Int.dvd_of_emod_eq_zero hdivides)]
      · rintro rfl
        exact ⟨Int.mul_emod_left _ _, Int.mul_ediv_cancel _ unitsPerOne_ne_zero⟩

/-- The number that a finite double is. The exponent is biased by 1023, and the significand counts
the 52 bits behind the point; the exponent fields zero and one mean the same exponent. -/
def value? : Double → Option ℚ
  | finite negative exponent fraction =>
      some ((if negative then -1 else 1) * significand exponent fraction *
        2 ^ ((max exponent.val 1 : ℤ) - 1023 - 52))
  | _ => none

theorem two_zpow_sub_bias (exponent : Nat) :
    (2 : ℚ) ^ ((max exponent 1 : ℤ) - 1023 - 52) = (2 ^ (exponent - 1) : Nat) / unitsPerOne := by
  have hexponent : (max exponent 1 : ℤ) - 1023 - 52 = ((exponent - 1 : Nat) : ℤ) - (1074 : Nat) := by
    omega
  rw [hexponent, zpow_sub₀ two_ne_zero, zpow_natCast, zpow_natCast]
  unfold unitsPerOne
  generalize 1074 = n
  rw [Nat.pow_eq]
  push_cast
  rfl

/-- A double is the quotient of its units and those of one. -/
theorem value?_eq_map (d : Double) :
    d.value? = d.units?.map fun units : Int => (units : ℚ) / unitsPerOne := by
  cases d with
  | finite negative exponent fraction =>
      rw [value?, two_zpow_sub_bias, units?, Option.map_some, magnitude, Nat.pow_eq]
      generalize unitsPerOne = n
      cases negative <;> push_cast <;> simp <;> ring
  | _ => rfl

/-- A double is an integer as a number exactly if it is equal to it. -/
theorem value?_eq_intCast_iff {d : Double} {z : Int} :
    d.value? = some (z : ℚ) ↔ d.whole? = some z := by
  have hne : (unitsPerOne : ℚ) ≠ 0 := Nat.cast_ne_zero.mpr unitsPerOne_pos.ne'
  rw [value?_eq_map, whole?_eq_some_iff, Option.map_eq_some_iff]
  constructor
  · rintro ⟨units, hunits, hvalue⟩
    rw [div_eq_iff hne] at hvalue
    rw [hunits]
    exact congrArg some (by exact_mod_cast hvalue)
  · intro hunits
    refine ⟨_, hunits, ?_⟩
    rw [div_eq_iff hne]
    push_cast
    rfl

/-- The fraction that a conversion to an integer drops is none where there is none. -/
theorem truncate?_of_whole? {d : Double} {z : Int} (hwhole : d.whole? = some z) :
    d.truncate? = some z := by
  rw [truncate?, whole?_eq_some_iff.mp hwhole, Option.map_some,
    Int.mul_tdiv_cancel _ unitsPerOne_ne_zero]

end TypedVariant.Double
