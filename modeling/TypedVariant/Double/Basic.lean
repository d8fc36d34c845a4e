/-! # Binary floating-point numbers of 64 bits

A double is its fields: a sign, a biased exponent and a fraction. The values that
are not a number carry a mark, as the format leaves them bits for; it tells them
apart but takes part in no number. Every finite double is a whole multiple of
the least positive one, which makes comparisons exact integer comparisons.

A non-negative ratio is rounded to the nearest double, a tie to the one with an
even significand. From half a step beyond the greatest finite double on, the
result is infinite.
-/

namespace TypedVariant

/-- A double. The exponent field of a finite one is below 2047, its fraction below 2^52. -/
inductive Double
  | nan (mark : Nat)
  | infinity (negative : Bool)
  | finite (negative : Bool) (exponent : Fin 2047) (fraction : Fin 4503599627370496)
  deriving DecidableEq, Repr

namespace Double

/-- How many of the least positive double make one. -/
def unitsPerOne : Nat := Nat.pow 2 1074

/-- The significand; a zero exponent field lacks the leading bit. -/
def significand (exponent : Fin 2047) (fraction : Fin 4503599627370496) : Nat :=
  if exponent.val = 0 then fraction.val else 4503599627370496 + fraction.val

def magnitude (exponent : Fin 2047) (fraction : Fin 4503599627370496) : Nat :=
  significand exponent fraction * Nat.pow 2 (exponent.val - 1)

/-- A finite double as a multiple of the least positive one. -/
def units? : Double → Option Int
  | finite negative exponent fraction =>
      let m : Int := magnitude exponent fraction
      some (if negative then -m else m)
  | _ => none

def isNaN : Double → Bool
  | nan _ => true
  | _ => false

def truncate? (x : Double) : Option Int :=
  x.units?.map (fun units => units.tdiv unitsPerOne)

/-- The integer a double is equal to, if there is one. -/
def whole? (x : Double) : Option Int :=
  match x.units? with
  | some units => if units % unitsPerOne = 0 then some (units / unitsPerOne) else none
  | none => none

def zero : Double := finite false 0 0

end Double

/-- The whole number nearest to a quotient; a tie goes to the even one. -/
def roundDiv (num den : Nat) : Nat :=
  let quotient := num / den
  let twice := 2 * (num % den)
  if twice < den then quotient
  else if den < twice then quotient + 1
  else quotient + quotient % 2

namespace Double

/-- The double of a significand of at most 53 bits, scaled up by a power of two from the least
positive double. -/
def ofScaled (negative : Bool) (significand shift : Nat) : Double :=
  if h : significand < 4503599627370496 then finite negative ⟨0, by decide⟩ ⟨significand, h⟩
  else if hs : shift + 1 < 2047 then
    finite negative ⟨shift + 1, hs⟩
      ⟨(significand - 4503599627370496) % 4503599627370496, Nat.mod_lt _ (by decide)⟩
  else infinity negative

/-- The double nearest to `num / den`, with the given sign. -/
def ofRatio (negative : Bool) (num den : Nat) : Double :=
  let scaled := num * unitsPerOne
  let shift := (scaled / den).log2 - 52
  let significand := roundDiv scaled (den * Nat.pow 2 shift)
  -- Rounding up may carry into a bit more than a significand has.
  if significand < 9007199254740992 then ofScaled negative significand shift
  else ofScaled negative 4503599627370496 (shift + 1)

/-- A double itself, if it is finite. -/
def finite? : Double → Option Double
  | finite negative exponent fraction => some (finite negative exponent fraction)
  | nan _ | infinity _ => none

/-- The double nearest to an integer, unless the integer is beyond the finite doubles. -/
def ofInt? (z : Int) : Option Double :=
  (ofRatio (decide (z < 0)) z.natAbs 1).finite?

/-- The double nearest to `digits * 10 ^ exponent`. Exponents far outside the range of doubles
are answered without forming the power. -/
def ofDecimal (negative : Bool) (digits : Nat) (exponent : Int) : Double :=
  if digits = 0 then finite negative ⟨0, by decide⟩ ⟨0, by decide⟩
  else if 400 < exponent then infinity negative
  else if exponent < -(401 + (digits.log2 : Int)) then finite negative ⟨0, by decide⟩ ⟨0, by decide⟩
  else if 0 ≤ exponent then ofRatio negative (digits * Nat.pow 10 exponent.toNat) 1
  else ofRatio negative digits (Nat.pow 10 (-exponent).toNat)

end Double

end TypedVariant
