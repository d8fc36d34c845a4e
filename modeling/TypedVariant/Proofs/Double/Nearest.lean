import TypedVariant.Double.Basic
import TypedVariant.Proofs.Double.Value

/-!
# Rounding integers to doubles

A finite double is its own rounding, so an integer that is a double is rounded to it and
to nothing else. Integers are rounded to infinity from half a step beyond the greatest
finite double on, since a tie goes to the even significand and that is the one beyond.
-/

namespace TypedVariant.Double

variable {negative : Bool} {num den significand shift : Nat}

/-! ## Quotients -/

/-- A quotient is rounded down or up to the whole number that is at most half a step away. -/
theorem roundDiv_cases (num den : Nat) :
    (roundDiv num den = num / den ∧ 2 * (num % den) ≤ den) ∨
      (roundDiv num den = num / den + 1 ∧ den ≤ 2 * (num % den)) := by
  unfold roundDiv
  dsimp only
  split_ifs
  · omega
  · omega
  · rcases Nat.mod_two_eq_zero_or_one (num / den) with heven | hodd <;> omega

/-- Between an odd whole number and the next, the tie goes up. -/
theorem roundDiv_of_odd (hodd : num / den % 2 = 1) :
    roundDiv num den = num / den + 1 ↔ den ≤ 2 * (num % den) := by
  unfold roundDiv
  dsimp only
  split_ifs <;> omega

theorem roundDiv_mul (quotient : Nat) (hden : 0 < den) :
    roundDiv (quotient * den) den = quotient := by
  unfold roundDiv
  dsimp only
  rw [Nat.mul_mod_left, Nat.mul_div_cancel _ hden, if_pos (by omega)]

/-! ## Doubles from their parts -/

/-- A significand of all 53 bits is scaled beyond the finite doubles from the shift 2046 on. -/
theorem finite?_ofScaled_eq_none_iff (hbits : 2 ^ 52 ≤ significand) :
    (ofScaled negative significand shift).finite? = none ↔ 2046 ≤ shift := by
  rw [ofScaled, dif_neg (by omega)]
  split_ifs with hshift
  · exact iff_of_false (by simp [finite?]) (by omega)
  · exact iff_of_true rfl (by omega)

/-- A whole number is counted in units, of which as many are dropped as leave 53 bits. -/
theorem ofRatio_one {units : Nat} (hunits : num * unitsPerOne = units) :
    ofRatio negative num 1 =
      let shift := units.log2 - 52
      let significand := roundDiv units (2 ^ shift)
      if significand < 2 ^ 53 then ofScaled negative significand shift
      else ofScaled negative (2 ^ 52) (shift + 1) := by
  subst hunits
  rw [ofRatio, Nat.div_one]
  dsimp only
  rw [Nat.one_mul]
  rfl

variable {exponent : Fin 2047} {fraction : Fin 4503599627370496}

theorem units?_finite : (finite negative exponent fraction).units? =
    some (if negative then -(magnitude exponent fraction : Int) else magnitude exponent fraction) :=
  rfl

theorem significand_lt : Double.significand exponent fraction < 2 ^ 53 := by
  have hfraction := fraction.isLt
  rw [Double.significand]
  split_ifs <;> omega

/-- The parts of a finite double make the double again. -/
theorem ofScaled_significand :
    ofScaled negative (Double.significand exponent fraction) (exponent.val - 1) =
      finite negative exponent fraction := by
  have hexponent := exponent.isLt
  have hfraction := fraction.isLt
  rw [Double.significand]
  split_ifs with hleast
  · rw [ofScaled, dif_pos hfraction]
    exact congrArg (finite negative · fraction) (Fin.ext hleast.symm)
  · rw [ofScaled, dif_neg (by omega), dif_pos (by omega)]
    refine congrArg₂ (finite negative) (Fin.ext ?_) (Fin.ext ?_)
    · change exponent.val - 1 + 1 = exponent.val
      omega
    · change (4503599627370496 + fraction.val - 4503599627370496) % 4503599627370496 = fraction.val
      omega

/-- No bits are dropped of a finite double. -/
theorem log2_magnitude : (magnitude exponent fraction).log2 - 52 = exponent.val - 1 := by
  have hfraction := fraction.isLt
  rw [magnitude, Double.significand]
  split_ifs with hleast
  · rw [hleast, Nat.zero_sub, Nat.pow_eq, Nat.pow_zero, Nat.mul_one]
    by_cases hzero : fraction.val = 0
    · rw [hzero, Nat.log2_zero]
    · have hlog := (Nat.log2_lt hzero (k := 52)).mpr (by omega)
      omega
  · have hpos := Nat.two_pow_pos (exponent.val - 1)
    have hlog : ((4503599627370496 + fraction.val) * 2 ^ (exponent.val - 1)).log2 =
        52 + (exponent.val - 1) := by
      rw [Nat.log2_eq_iff (Nat.mul_pos (by omega) hpos).ne', Nat.pow_add, Nat.add_right_comm,
        Nat.pow_add]
      exact ⟨Nat.mul_le_mul_right _ (by omega), Nat.mul_lt_mul_of_pos_right (by omega) hpos⟩
    rw [Nat.pow_eq, hlog, Nat.add_sub_cancel_left]

/-- A finite double is its own rounding. -/
theorem ofRatio_of_magnitude (hnum : num * unitsPerOne = magnitude exponent fraction) :
    ofRatio negative num 1 = finite negative exponent fraction := by
  rw [ofRatio_one hnum]
  dsimp only
  rw [log2_magnitude, magnitude, Nat.pow_eq, roundDiv_mul _ (Nat.two_pow_pos _),
    if_pos significand_lt, ofScaled_significand]

theorem whole?_zero : zero.whole? = some 0 := by
  rw [whole?_eq_some_iff, zero, units?_finite, Int.zero_mul]
  rfl

variable {z : Int}

theorem natAbs_mul_unitsPerOne
    (hunits : (finite negative exponent fraction).units? = some (z * unitsPerOne)) :
    z.natAbs * unitsPerOne = magnitude exponent fraction := by
  rw [units?_finite, Option.some_inj] at hunits
  have habs := congrArg Int.natAbs hunits
  rw [Int.natAbs_mul, Int.natAbs_natCast] at habs
  rw [← habs]
  cases negative <;> simp

/-- An integer other than zero has the sign of the double that it is. -/
theorem decide_neg_eq (hunits : (finite negative exponent fraction).units? = some (z * unitsPerOne))
    (hz : z ≠ 0) : decide (z < 0) = negative := by
  rw [units?_finite, Option.some_inj] at hunits
  have hpos : (0 : Int) < unitsPerOne := Int.natCast_pos.mpr unitsPerOne_pos
  have hle (h : z * unitsPerOne ≤ 0 * unitsPerOne) : z ≤ 0 := Int.le_of_mul_le_mul_right h hpos
  have hge (h : 0 * unitsPerOne ≤ z * unitsPerOne) : 0 ≤ z := Int.le_of_mul_le_mul_right h hpos
  cases negative with
  | true =>
      rw [if_pos rfl] at hunits
      exact decide_eq_true (by omega)
  | false =>
      rw [if_neg Bool.false_ne_true] at hunits
      exact decide_eq_false (by omega)

/-- An integer that is a double is rounded to it. Of the two zeros it is the positive one. -/
theorem ofInt?_of_whole? {d : Double} (hwhole : d.whole? = some z) (hzero : z = 0 → d = zero) :
    ofInt? z = some d := by
  rw [whole?_eq_some_iff] at hwhole
  cases d with
  | finite negative exponent fraction =>
      have hsign : decide (z < 0) = negative := by
        by_cases hz : z = 0
        · obtain ⟨rfl, -, -⟩ := finite.inj (hzero hz)
          simp [hz]
        · exact decide_neg_eq hwhole hz
      rw [ofInt?, hsign, ofRatio_of_magnitude (natAbs_mul_unitsPerOne hwhole), finite?]
  | _ => exact ((Option.some_ne_none _).symm hwhole).elim

/-! ## Where integers are rounded to infinity -/

/-- Half a step beyond the greatest finite double. That one has a significand of 53 ones, and the
half is one more. -/
def overflowBound : Nat := (2 ^ 54 - 1) * 2 ^ 970

theorem overflowBound_pos : 0 < overflowBound := by
  unfold overflowBound
  generalize 970 = n
  exact Nat.mul_pos (by decide) (Nat.two_pow_pos n)

theorem overflowBound_mul_unitsPerOne :
    overflowBound * unitsPerOne = (2 ^ 54 - 1) * 2 ^ (970 + 1074) := by
  unfold overflowBound unitsPerOne
  generalize 970 = n, 1074 = m
  rw [Nat.pow_eq, Nat.mul_assoc, ← Nat.pow_add]

/-- Where 53 bits of a number are kept, it lies between the least and the greatest such number. -/
theorem bounds_of_kept_bits {units : Nat} (hbits : 2 ^ 52 ≤ units) :
    2 ^ 52 * 2 ^ (units.log2 - 52) ≤ units ∧ units < 2 ^ 53 * 2 ^ (units.log2 - 52) := by
  have hne : units ≠ 0 := by omega
  have hlog : 52 ≤ units.log2 := (Nat.le_log2 hne).mpr hbits
  rw [← Nat.pow_add, ← Nat.pow_add, Nat.add_sub_cancel' hlog,
    show 53 + (units.log2 - 52) = units.log2 + 1 by omega]
  exact ⟨Nat.log2_self_le hne, Nat.lt_log2_self⟩

/-- Rounded to 53 bits, a number reaches a power of two as soon as its first 54 bits are ones. -/
theorem rounding_reaches_iff {units limit : Nat} (hbits : 2 ^ 52 ≤ units) :
    (limit + 2 ≤ units.log2 - 52 ∨
      units.log2 - 52 = limit + 1 ∧ 2 ^ 53 ≤ roundDiv units (2 ^ (units.log2 - 52))) ↔
      (2 ^ 54 - 1) * 2 ^ limit ≤ units := by
  obtain ⟨hlow, hhigh⟩ := bounds_of_kept_bits hbits
  generalize units.log2 - 52 = shift at *
  rcases Nat.lt_trichotomy shift (limit + 1) with hless | rfl | hmore
  · have hpow : 2 ^ shift ≤ 2 ^ limit := Nat.pow_le_pow_right (by decide) (by omega)
    exact iff_of_false (by omega) (by omega)
  · have hsteps : 2 ^ (limit + 1) = 2 * 2 ^ limit := Nat.pow_succ'
    have hpos := Nat.two_pow_pos limit
    have hdivision := Nat.div_add_mod' units (2 ^ (limit + 1))
    have hremainder := Nat.mod_lt units (Nat.two_pow_pos (limit + 1))
    have hquotient : units / 2 ^ (limit + 1) < 2 ^ 53 :=
      (Nat.div_lt_iff_lt_mul (Nat.two_pow_pos _)).mpr hhigh
    have hround := roundDiv_cases units (2 ^ (limit + 1))
    -- Only the greatest significand, which is odd, can be rounded up to the power.
    by_cases hgreatest : units / 2 ^ (limit + 1) = 2 ^ 53 - 1
    · have hodd : roundDiv units (2 ^ (limit + 1)) = units / 2 ^ (limit + 1) + 1 ↔
          2 ^ (limit + 1) ≤ 2 * (units % 2 ^ (limit + 1)) := roundDiv_of_odd (by omega)
      rw [hgreatest] at hdivision hodd hround
      omega
    · have hstep := Nat.mul_le_mul_right (2 ^ (limit + 1))
        (show units / 2 ^ (limit + 1) ≤ 2 ^ 53 - 2 by omega)
      exact iff_of_false (by omega) (by omega)
  · have hpow : 2 ^ (limit + 2) ≤ 2 ^ shift := Nat.pow_le_pow_right (by decide) hmore
    rw [Nat.pow_add] at hpow
    exact iff_of_true (.inl hmore) (by omega)

theorem finite?_ofRatio_eq_none_iff {units : Nat} (limit : Nat)
    (hunits : num * unitsPerOne = units) (hbits : 2 ^ 52 ≤ units) (hlimit : limit + 2 = 2046) :
    (ofRatio negative num 1).finite? = none ↔ (2 ^ 54 - 1) * 2 ^ limit ≤ units := by
  have hpos := Nat.two_pow_pos (units.log2 - 52)
  have hquotient : 2 ^ 52 ≤ units / 2 ^ (units.log2 - 52) :=
    (Nat.le_div_iff_mul_le hpos).mpr (bounds_of_kept_bits hbits).1
  have hround := roundDiv_cases units (2 ^ (units.log2 - 52))
  rw [← rounding_reaches_iff hbits, ofRatio_one hunits]
  dsimp only
  split_ifs with hsignificand
  · rw [finite?_ofScaled_eq_none_iff (by omega)]
    omega
  · rw [finite?_ofScaled_eq_none_iff (Nat.le_refl _)]
    omega

/-- Integers are rounded to infinity from the bound on. -/
theorem ofInt?_eq_none_iff : ofInt? z = none ↔ overflowBound ≤ z.natAbs := by
  by_cases hz : z = 0
  · have hzero : ofInt? z = some zero := ofInt?_of_whole? (by rw [hz, whole?_zero]) (fun _ => rfl)
    have hpos := overflowBound_pos
    rw [hzero]
    exact iff_of_false (Option.some_ne_none _) (by omega)
  · have hbits : 2 ^ 52 ≤ z.natAbs * unitsPerOne := by
      have hunits : 2 ^ 52 ≤ unitsPerOne := by
        have hexponent : 52 ≤ 1074 := by decide
        unfold unitsPerOne
        generalize 1074 = n at *
        exact Nat.pow_le_pow_right (by decide) hexponent
      exact hunits.trans (Nat.le_mul_of_pos_left _ (Int.natAbs_pos.mpr hz))
    rw [ofInt?, finite?_ofRatio_eq_none_iff (970 + 1074) rfl hbits (by decide),
      ← overflowBound_mul_unitsPerOne, Nat.mul_le_mul_right_iff unitsPerOne_pos]

end TypedVariant.Double
