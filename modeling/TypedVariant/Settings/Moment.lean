/-! # Dates and times in configuration files

A date has four digits for the year and two each for the month and the day, with
dashes between. A time of day may follow, with or without its distance from
universal time, or stand alone. Nothing is done with a moment but to see that
its date exists.
-/

namespace TypedVariant.Moment

/-- A day of the calendar, which need not exist. -/
structure Date where
  year : Nat
  month : Nat
  day : Nat
  deriving DecidableEq, Repr

def isLeapYear (year : Nat) : Bool :=
  year % 4 == 0 && (year % 100 != 0 || year % 400 == 0)

def daysInMonth (year month : Nat) : Nat :=
  if month = 2 then (if isLeapYear year then 29 else 28)
  else if month = 4 ∨ month = 6 ∨ month = 9 ∨ month = 11 then 30
  else 31

/-- Whether the day is in the calendar, which begins with the year one. -/
def Date.isInCalendar (d : Date) : Bool :=
  decide (1 ≤ d.year) && decide (d.day ≤ daysInMonth d.year d.month)

/-- A number of two digits between bounds, and what follows it. -/
def twoDigits? (low high : Nat) : List Char → Option (Nat × List Char)
  | a :: b :: rest =>
    let n := 10 * (a.toNat - 48) + (b.toNat - 48)
    if a.isDigit && b.isDigit && decide (low ≤ n) && decide (n ≤ high) then some (n, rest) else none
  | _ => none

/-- What follows a given character. -/
def expect? (wanted : Char) : List Char → Option (List Char)
  | c :: rest => if c = wanted then some rest else none
  | [] => none

def date? (text : List Char) : Option (Date × List Char) := do
  let (century, rest) ← twoDigits? 0 99 text
  let (year, rest) ← twoDigits? 0 99 rest
  let (month, rest) ← twoDigits? 1 12 (← expect? '-' rest)
  let (day, rest) ← twoDigits? 1 31 (← expect? '-' rest)
  return (⟨100 * century + year, month, day⟩, rest)

/-- What follows a time of day with seconds, which may have a fraction. -/
def time? (text : List Char) : Option (List Char) := do
  let (_, rest) ← twoDigits? 0 23 text
  let (_, rest) ← twoDigits? 0 59 (← expect? ':' rest)
  let (_, rest) ← twoDigits? 0 59 (← expect? ':' rest)
  match rest with
  | '.' :: c :: left => return if c.isDigit then left.dropWhile Char.isDigit else rest
  | _ => return rest

/-- What follows a distance from universal time, or the text itself. -/
def dropOffset (text : List Char) : List Char :=
  match text with
  | 'Z' :: rest | 'z' :: rest => rest
  | '+' :: rest | '-' :: rest =>
    let left? := do
      let (_, left) ← twoDigits? 0 23 rest
      let (_, left) ← twoDigits? 0 59 (← expect? ':' left)
      return left
    left?.getD text
  | _ => text

/-- What follows a time of day that belongs to the date in front of it, or the text itself. -/
def dropTime (text : List Char) : List Char :=
  match text with
  | c :: rest =>
    if c = 'T' ∨ c = 't' ∨ c = ' ' then ((time? rest).map dropOffset).getD text else text
  | [] => []

/-- Whether a moment stands at the front of a text and its date exists, and what follows it. -/
def moment? (text : List Char) : Option (Bool × List Char) :=
  match date? text with
  | some (d, rest) => some (d.isInCalendar, dropTime rest)
  | none => (time? text).map (fun rest => (true, rest))

end TypedVariant.Moment
