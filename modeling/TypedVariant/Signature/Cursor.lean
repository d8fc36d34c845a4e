import TypedVariant.Signature.Parse

/-! # Cursors

A cursor is a position in a signature, from which types are taken one by one. A
position may lie behind the end, where nothing is left, or be negative, where it
counts from the end and reading goes on at the start once the end is reached.
-/

namespace TypedVariant.Signature

/-- A position in the text of a signature. -/
structure Cursor where
  text : String
  position : Int
  deriving DecidableEq, Repr

namespace Cursor

/-- A cursor on a value given as a signature. -/
def of (signature : Native) (position : Int) : Except Error Cursor :=
  (textOf signature).map (fun text => ⟨text, position⟩)

/-- How many letters lie between the position and the end of the text. -/
def distance (c : Cursor) : Int :=
  c.text.length - c.position

def exhausted (c : Cursor) : Bool :=
  decide (c.distance ≤ 0)

/-- The letters from the position to the end of the text. -/
def remaining (c : Cursor) : List Char :=
  let letters := c.text.toList
  if c.position < 0 then letters.drop (letters.length - c.position.natAbs)
  else letters.drop c.position.toNat

/-- The letters that reading takes, one after the other. -/
def upcoming (c : Cursor) : List Char :=
  if c.position < 0 then c.remaining ++ c.text.toList else c.remaining

/-- Whether the position lies before the start of the text. -/
def isOutside (c : Cursor) : Bool :=
  decide (c.position < -(c.text.length : Int))

/-- The number of letters left; there is none behind the end. -/
def size (c : Cursor) : Except Error Nat :=
  if c.distance < 0 then .error .negativeLength else .ok c.distance.toNat

/-- The cursor after reading has left `rest` of the upcoming letters. -/
def advance (c : Cursor) (rest : List Char) : Cursor :=
  { c with position := c.position + ((c.upcoming.length : Int) - rest.length) }

def peek (c : Cursor) : Except Error (Option Char) :=
  if c.isOutside then .error .positionIndex else .ok c.upcoming.head?

def pop (c : Cursor) : Except Error Char × Cursor :=
  if c.isOutside then (.error .positionIndex, c)
  else
    match c.upcoming with
    | [] => (.error (.malformed c.text .unexpectedEnd), c)
    | letter :: rest => (.ok letter, c.advance rest)

/-- Takes one complete type. -/
def read (rules : Rules) (depth : Int) (simple : Bool) (c : Cursor) :
    Except Error SigType × Cursor :=
  if rules.maxDepth < depth then (.error (.tooDeep rules.maxDepth), c)
  else if c.isOutside then (.error .positionIndex, c)
  else
    let (outcome, rest) := readOne rules depth simple c.upcoming
    (outcome.mapError (Refusal.error rules.maxDepth c.text), c.advance rest)

def shown (c : Cursor) : Except Error String :=
  if Numeral.isOverlong c.position then .error .overlongInteger
  else .ok ("SignatureCursor(" ++ Text.shown c.text ++ ", position=" ++ toString c.position ++ ")")

end Cursor

end TypedVariant.Signature
