import TypedVariant.Double.Basic
import TypedVariant.Text.Character

/-! # Numerals

Numerals are decimal, may carry a sign, and may have single underscores between
digits. Blanks around a numeral do not count. An integer of more than 4300 digits
is neither read from a numeral nor written as one.
-/

namespace TypedVariant.Numeral

/-- The most digits of an integer that is read from a numeral or written as one. -/
def digitLimit : Nat := 4300

/-- How many digits the numeral of an integer has. -/
def digitCount (z : Int) : Nat :=
  (Nat.toDigits 10 z.natAbs).length

/-- Whether an integer has too many digits for a numeral. -/
def isOverlong (z : Int) : Bool :=
  decide (digitLimit < digitCount z)

/-- What is said of an integer of too many digits; they are counted where it is read. -/
def overlongMessage (digits : Option Nat) : String :=
  let counted :=
    match digits with
    | some n => ": value has " ++ toString n ++ " digits"
    | none => ""
  "Exceeds the limit (" ++ toString digitLimit ++ " digits) for integer string conversion" ++
    counted ++ "; use sys.set_int_max_str_digits() to increase the limit"

/-- Removes the underscores of a numeral; each must stand between two digits. -/
def joinDigits : List Char → Option (List Char)
  | [] => some []
  | '_' :: _ => none
  | c :: '_' :: d :: rest =>
    if c.isDigit && d.isDigit then (joinDigits (d :: rest)).map (c :: ·) else none
  | c :: rest => (joinDigits rest).map (c :: ·)

/-- The sign of a numeral, whether it is negative, and what follows. -/
def takeSign : List Char → Bool × List Char
  | '-' :: rest => (true, rest)
  | '+' :: rest => (false, rest)
  | rest => (false, rest)

def ofDigits (digits : List Char) : Nat :=
  digits.foldl (fun n c => 10 * n + (c.toNat - 48)) 0

/-- The integer of a numeral; zeros in front of it count as digits. -/
def int? (cs : List Char) : Option Int := do
  let (negative, digits) := takeSign (← joinDigits (Text.strip Text.isAsciiBlank cs))
  if digits.isEmpty || !digits.all Char.isDigit || digitLimit < digits.length then none
  else
    let n : Int := ofDigits digits
    return if negative then -n else n

/-- A character of a numeral in ASCII: digits of every script stand for their value, and blanks
beyond ASCII for the space. -/
def toAscii? (c : Char) : Option Char :=
  if c.toNat < 127 then some c
  else if Text.isBlank c then some ' '
  else (Text.digitValue? c).map (fun n => Char.ofNat (48 + n))

def intOfText? (s : String) : Option Int := do
  int? (← s.toList.mapM toAscii?)

/-- A decimal fraction without sign: digits, point and digits, exponent. The digits before or
after the point may be missing, not both. -/
def fraction? (negative : Bool) (cs : List Char) : Option Double :=
  let whole := cs.takeWhile Char.isDigit
  let afterWhole := cs.dropWhile Char.isDigit
  let (decimals, rest) :=
    match afterWhole with
    | '.' :: r => (r.takeWhile Char.isDigit, r.dropWhile Char.isDigit)
    | r => ([], r)
  let digits := whole ++ decimals
  if digits.isEmpty then none
  else
    let value (exponent : Int) : Double :=
      Double.ofDecimal negative (ofDigits digits) (exponent - decimals.length)
    match rest with
    | [] => some (value 0)
    | e :: r =>
      let (down, power) := takeSign r
      if (e == 'e' || e == 'E') && !power.isEmpty && power.all Char.isDigit then
        let n : Int := ofDigits power
        some (value (if down then -n else n))
      else none

/-- A double: a decimal fraction, an infinity, or the value that is no number. -/
def double? (cs : List Char) : Option Double := do
  let (negative, body) := takeSign (← joinDigits (Text.strip Text.isAsciiBlank cs))
  let name := String.ofList (body.map Char.toLower)
  if name = "nan" then return .nan 0
  else if name = "inf" ∨ name = "infinity" then return .infinity negative
  else fraction? negative body

end TypedVariant.Numeral
