import TypedVariant.Double.Basic

/-! # The written form of doubles

Among the decimals that read back as a given double, the shortest are wanted,
and of those the nearest to the double. For one digit after the other the two
neighbours of the double on the decimal grid are tried; the first grid on which
one of them lies in the interval that rounds to the double decides. Seventeen
digits always suffice. Decimal exponents from -4 up to 15 are written
positionally, with at least one digit on either side of the point; others with
one digit before the point and a signed exponent of two digits or more.
-/

namespace TypedVariant

/-- The number `coefficient * 10 ^ exponent`. -/
structure Decimal where
  coefficient : Nat
  exponent : Int
  deriving DecidableEq, Repr

/-- A range of positive rationals over a common denominator, with a point inside. -/
structure RoundingInterval where
  low : Nat
  point : Nat
  high : Nat
  den : Nat
  closed : Bool

namespace RoundingInterval

/-- The grid factor of a decimal exponent, for numerators. -/
def up (exponent : Int) : Nat := Nat.pow 10 (-exponent).toNat

/-- The grid factor of a decimal exponent, for the denominator. -/
def down (exponent : Int) : Nat := Nat.pow 10 exponent.toNat

def contains (r : RoundingInterval) (coefficient : Nat) (exponent : Int) : Bool :=
  let value := coefficient * (r.den * down exponent)
  let low := r.low * up exponent
  let high := r.high * up exponent
  if r.closed then decide (low ≤ value ∧ value ≤ high) else decide (low < value ∧ value < high)

/-- The coefficient of the grid point at or below the point. -/
def below (r : RoundingInterval) (exponent : Int) : Nat :=
  r.point * up exponent / (r.den * down exponent)

/-- Whether the grid point above is nearer to the point than the one below; of two equally near
ones the even is taken as the nearer. -/
def nearerAbove (r : RoundingInterval) (exponent : Int) : Bool :=
  let step := r.den * down exponent
  let twice := 2 * (r.point * up exponent % step)
  decide (step < twice) || (twice == step && r.below exponent % 2 == 1)

/-- The grid point in the range nearest to the point, if one of its two neighbours is. -/
def hit? (r : RoundingInterval) (exponent : Int) : Option Decimal :=
  let c := r.below exponent
  match r.contains c exponent, r.contains (c + 1) exponent with
  | true, true => some ⟨if r.nearerAbove exponent then c + 1 else c, exponent⟩
  | true, false => some ⟨c, exponent⟩
  | false, true => some ⟨c + 1, exponent⟩
  | false, false => none

/-- The exponent of the leading decimal digit of the point, from an estimate by binary length
that is at most one off. -/
def leading (r : RoundingInterval) : Int :=
  let estimate := ((r.point.log2 : Int) - (r.den.log2 : Int)) * 30103 / 100000
  if r.below estimate = 0 then estimate - 1
  else if 10 ≤ r.below estimate then estimate + 1
  else estimate

/-- The shortest decimal in the range, and of those the nearest to the point. -/
def shortest (r : RoundingInterval) : Decimal :=
  let lead := r.leading
  match (List.range 17).findSome? (fun (n : Nat) => r.hit? (lead - n)) with
  | some decimal => decimal
  | none => ⟨r.below (lead - 16), lead - 16⟩

end RoundingInterval

namespace Double

/-- The numbers that round to a finite positive double: half a step to either side, where the
step below a power of two is half the one above. -/
def roundingInterval (exponent : Fin 2047) (fraction : Fin 4503599627370496) : RoundingInterval :=
  let step := Nat.pow 2 (exponent.val - 1)
  let point := 4 * magnitude exponent fraction
  let gap := if fraction.val = 0 ∧ 1 < exponent.val then step else 2 * step
  { low := point - gap
    point := point
    high := point + 2 * step
    den := 4 * unitsPerOne
    closed := fraction.val % 2 == 0 }

/-- The decimal digits of a number, without the zeros at its end. -/
def significantDigits (n : Nat) : List Char :=
  ((Nat.toDigits 10 n).reverse.dropWhile (· == '0')).reverse

/-- The exponents that are written positionally. -/
def isPositional (exponent : Int) : Bool :=
  decide (-4 ≤ exponent) && decide (exponent < 16)

/-- Digits with the decimal point after the first `point` of them. -/
def positional (digits : List Char) (point : Int) : List Char :=
  if point ≤ 0 then ['0', '.'] ++ List.replicate (-point).toNat '0' ++ digits
  else if digits.length ≤ point.toNat then
    digits ++ List.replicate (point.toNat - digits.length) '0' ++ ['.', '0']
  else digits.take point.toNat ++ ['.'] ++ digits.drop point.toNat

def scientific (digits : List Char) (exponent : Int) : List Char :=
  let tail := digits.drop 1
  let power := Nat.toDigits 10 exponent.natAbs
  digits.take 1 ++ (if tail.isEmpty then [] else '.' :: tail) ++
    ['e', if exponent < 0 then '-' else '+'] ++ List.replicate (2 - power.length) '0' ++ power

def writeDecimal (d : Decimal) : List Char :=
  let digits := significantDigits d.coefficient
  let point := (Nat.toDigits 10 d.coefficient).length + d.exponent
  if isPositional (point - 1) then positional digits point else scientific digits (point - 1)

def written : Double → String
  | nan _ => "nan"
  | infinity negative => if negative then "-inf" else "inf"
  | finite negative exponent fraction =>
      let digits :=
        if magnitude exponent fraction = 0 then ['0', '.', '0']
        else writeDecimal (roundingInterval exponent fraction).shortest
      String.ofList (if negative then '-' :: digits else digits)

end Double

end TypedVariant
