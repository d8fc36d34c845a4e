import TypedVariant.Double.Basic

/-! # The layout of text and numbers in a line

A layout says how wide a text is at least and on which side it stands, and how a
number is written: as an integer in one of three bases, or as a decimal with a
fixed number of places, with an exponent, or in the shorter of these two forms.
-/

namespace TypedVariant.Log

structure Layout where
  alignLeft : Bool
  zeroFill : Bool
  /-- What stands in front of a number that is not negative. -/
  sign : List Char
  /-- Whether numbers of other bases tell their base. -/
  showBase : Bool
  width : Nat
  precision : Option Nat
  conversion : Char
  deriving DecidableEq, Repr

def isIntegerConversion (c : Char) : Bool :=
  ['d', 'i', 'u', 'x', 'X', 'o'].contains c

def isDecimalConversion (c : Char) : Bool :=
  ['e', 'E', 'f', 'F', 'g', 'G'].contains c

namespace Layout

/-- A number in the base of a conversion letter, with the mark of the base. -/
def digitsIn (conversion : Char) (n : Nat) : List Char × List Char :=
  match conversion with
  | 'x' => (['0', 'x'], Nat.toDigits 16 n)
  | 'X' => (['0', 'X'], (Nat.toDigits 16 n).map Char.toUpper)
  | 'o' => (['0', 'o'], Nat.toDigits 8 n)
  | _ => ([], Nat.toDigits 10 n)

/-- A text, or a sign and digits, widened with blanks or with zeros between the two. -/
def widen (layout : Layout) (front body : List Char) : List Char :=
  let missing := layout.width - (front.length + body.length)
  if layout.alignLeft then front ++ body ++ List.replicate missing ' '
  else if layout.zeroFill ∧ layout.conversion ∉ ['s', 'r', 'a', 'c'] then
    front ++ List.replicate missing '0' ++ body
  else List.replicate missing ' ' ++ front ++ body

def integerText (layout : Layout) (z : Int) : List Char :=
  let (base, digits) := digitsIn layout.conversion z.natAbs
  let front := (if z < 0 then ['-'] else layout.sign) ++ (if layout.showBase then base else [])
  let zeros := List.replicate (layout.precision.getD 0 - digits.length) '0'
  widen layout front (zeros ++ digits)

/-- Digits with a point in front of their last places. In front of none the point is left out,
unless it is to be kept. -/
def withPoint (digits : List Char) (places : Nat) (keepsPoint : Bool) : List Char :=
  let whole := digits.length - places
  let point := if places = 0 ∧ !keepsPoint then [] else ['.']
  digits.take whole ++ point ++ digits.drop whole

/-- Digits without the zeros at the end of their decimals. -/
def dropZeros (digits : List Char) (places : Nat) : List Char × Nat :=
  let zeros := ((digits.drop (digits.length - places)).reverse.takeWhile (· == '0')).length
  (digits.take (digits.length - zeros), places - zeros)

/-- The digits of a number up to some places behind the first, and the power of ten of the first. -/
def leadingDigits (n places : Nat) : List Char × Nat :=
  let power := (Nat.toDigits 10 n).length - 1
  let digits := Nat.toDigits 10 (roundDiv (n * Nat.pow 10 places) (Nat.pow 10 power))
  if digits.length = places + 2 then (digits.dropLast, power + 1) else (digits, power)

def exponentText (power : Nat) : List Char :=
  let digits := Nat.toDigits 10 power
  'e' :: '+' :: (List.replicate (2 - digits.length) '0' ++ digits)

def scientific (n places : Nat) (keepsPoint keepsZeros : Bool) : List Char :=
  let (digits, power) := leadingDigits n places
  let (digits, places) := if keepsZeros then (digits, places) else dropZeros digits places
  withPoint digits places keepsPoint ++ exponentText power

def decimal (layout : Layout) (n : Nat) : List Char :=
  let places := layout.precision.getD 6
  let positional (places : Nat) : List Char := Nat.toDigits 10 n ++ List.replicate places '0'
  match layout.conversion.toLower with
  | 'f' => withPoint (positional places) places layout.showBase
  | 'e' => scientific n places layout.showBase true
  | _ =>
    let wanted := max places 1
    let power := (leadingDigits n (wanted - 1)).2
    if power < wanted then
      let places := wanted - 1 - power
      let (digits, places) :=
        if layout.showBase then (positional places, places)
        else dropZeros (positional places) places
      withPoint digits places layout.showBase
    else scientific n (wanted - 1) layout.showBase layout.showBase

/-- The text of an integer as a decimal, unless it is beyond the doubles. -/
def decimalText? (layout : Layout) (z : Int) : Option (List Char) :=
  ((Double.ofInt? z).bind Double.whole?).map (fun whole =>
    let text := layout.decimal whole.natAbs
    widen layout (if z < 0 then ['-'] else layout.sign)
      (if layout.conversion.isUpper then text.map Char.toUpper else text))

end Layout

end TypedVariant.Log
