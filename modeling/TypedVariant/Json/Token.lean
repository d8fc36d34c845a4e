import TypedVariant.Text.Character
import TypedVariant.Text.Numeral

/-! # Tokens of JSON text

The text is cut into tokens with their positions, counted in characters. A token
that is not well formed is kept as such and ends the text, since whether and how
it is refused depends on what was expected in its place. Besides the words of
JSON there are three for doubles that are not finite.
-/

namespace TypedVariant.Json

inductive Reason
  | byteOrderMark
  | valueExpected
  | keyExpected
  | colonExpected
  | commaExpected
  | extraData
  | unterminatedString
  | controlCharacter
  | badEscape
  | badUnicodeEscape
  | overlongInteger (digits : Nat)
  deriving DecidableEq, Repr

def Reason.message : Reason → String
  | byteOrderMark => "Unexpected UTF-8 BOM (decode using utf-8-sig)"
  | valueExpected => "Expecting value"
  | keyExpected => "Expecting property name enclosed in double quotes"
  | colonExpected => "Expecting \x27:\x27 delimiter"
  | commaExpected => "Expecting \x27,\x27 delimiter"
  | extraData => "Extra data"
  | unterminatedString => "Unterminated string starting at"
  | controlCharacter => "Invalid control character at"
  | badEscape => "Invalid \\escape"
  | badUnicodeEscape => "Invalid \\uXXXX escape"
  | overlongInteger digits => Numeral.overlongMessage (some digits)

structure Fault where
  reason : Reason
  position : Nat
  deriving DecidableEq, Repr

inductive Word
  | null | yes | no | nan | infinity | minusInfinity
  deriving DecidableEq, Repr

inductive Mark
  | openArray | closeArray | openObject | closeObject | comma | colon
  deriving DecidableEq, Repr

inductive Token
  | mark (mark : Mark)
  | word (word : Word)
  | integer (value : Int)
  | double (value : Double)
  | string (value : List Char)
  | badString (fault : Fault)
  | bad
  deriving DecidableEq, Repr

def isBlank (c : Char) : Bool :=
  c == ' ' || c == '\t' || c == '\n' || c == '\r'

def unit? (a b c d : Char) : Option Nat := do
  return (((← Text.hexValue? a) * 16 + (← Text.hexValue? b)) * 16 + (← Text.hexValue? c)) * 16 +
    (← Text.hexValue? d)

/-- The character that a letter behind a backslash stands for. -/
def escaped? : Char → Option Char
  | '"' => some '"'
  | '\\' => some '\\'
  | '/' => some '/'
  | 'b' => some '\x08'
  | 'f' => some '\x0c'
  | 'n' => some '\n'
  | 'r' => some '\r'
  | 't' => some '\t'
  | _ => none

/-- The character of two surrogate units. -/
def joinSurrogates (high low : Nat) : Char :=
  Char.ofNat (0x10000 + (high - 0xD800) * 0x400 + (low - 0xDC00))

/-- The character of a unit; a surrogate without its partner is replaced. -/
def unitChar (n : Nat) : Char :=
  if 0xD800 ≤ n ∧ n < 0xE000 then '\uFFFD' else Char.ofNat n

/-- What follows the escape of a unit that may be the first of two surrogates. -/
inductive Partner
  | missing
  | malformed
  | found (low : Nat)
  deriving DecidableEq, Repr

/-- The second of two surrogates, if the unit is a first one; the text must go on behind it. -/
def partnerOf (high : Nat) : List Char → Partner
  | '\\' :: 'u' :: a :: b :: c :: d :: _ :: _ =>
    if 0xD800 ≤ high ∧ high < 0xDC00 then
      match unit? a b c d with
      | none => .malformed
      | some low => if 0xDC00 ≤ low ∧ low < 0xE000 then .found low else .missing
    else .missing
  | _ => .missing

/-- Puts a character in front of a string that was read behind it. -/
def consChar (c : Char) :
    Except Fault (List Char × List Char) → Except Fault (List Char × List Char)
  | .ok (value, rest) => .ok (c :: value, rest)
  | .error fault => .error fault

/-- The string up to its closing quote, and what follows it. The opening quote is at `start`, the
text at `position`. -/
def scanString (start : Nat) : (position : Nat) → List Char →
    Except Fault (List Char × List Char)
  | _, [] => .error ⟨.unterminatedString, start⟩
  | _, '"' :: rest => .ok ([], rest)
  | _, ['\\'] => .error ⟨.unterminatedString, start⟩
  | position, '\\' :: 'u' :: a :: b :: c :: d :: e :: rest =>
    match unit? a b c d with
    | none => .error ⟨.badUnicodeEscape, position + 1⟩
    | some high =>
      match partnerOf high (e :: rest) with
      | .malformed => .error ⟨.badUnicodeEscape, position + 7⟩
      | .found low =>
        consChar (joinSurrogates high low) (scanString start (position + 12) ((e :: rest).drop 6))
      | .missing => consChar (unitChar high) (scanString start (position + 6) (e :: rest))
  | position, '\\' :: 'u' :: _ => .error ⟨.badUnicodeEscape, position + 1⟩
  | position, '\\' :: c :: rest =>
    match escaped? c with
    | some d => consChar d (scanString start (position + 2) rest)
    | none => .error ⟨.badEscape, position⟩
  | position, c :: rest =>
    if c.toNat < 0x20 then .error ⟨.controlCharacter, position⟩
    else consChar c (scanString start (position + 1) rest)
termination_by _ text => text.length

/-- A number at the front of a text, and what follows it: an integer without leading zeros, then
a fraction and an exponent if they are complete. -/
def scanNumber? (text : List Char) : Option (Token × List Char) :=
  let (negative, unsigned) :=
    match text with
    | '-' :: rest => (true, rest)
    | rest => (false, rest)
  let whole :=
    match unsigned with
    | '0' :: _ => ['0']
    | rest => rest.takeWhile Char.isDigit
  if whole.isEmpty then none
  else
    let afterWhole := unsigned.drop whole.length
    let decimals :=
      match afterWhole with
      | '.' :: rest => rest.takeWhile Char.isDigit
      | _ => []
    let afterDecimals :=
      if decimals.isEmpty then afterWhole else afterWhole.drop (decimals.length + 1)
    let power? : Option (Int × List Char) :=
      match afterDecimals with
      | e :: rest =>
        if e == 'e' || e == 'E' then
          let (down, digits) := Numeral.takeSign rest
          let power := digits.takeWhile Char.isDigit
          if power.isEmpty then none
          else
            let n : Int := Numeral.ofDigits power
            some (if down then -n else n, digits.drop power.length)
        else none
      | [] => none
    if decimals.isEmpty && power?.isNone then
      let n : Int := Numeral.ofDigits whole
      some (.integer (if negative then -n else n), afterWhole)
    else
      let (power, rest) := power?.getD (0, afterDecimals)
      some (.double (Double.ofDecimal negative (Numeral.ofDigits (whole ++ decimals))
        (power - decimals.length)), rest)

/-- The text behind a word, if the text begins with it. -/
def behind? (word text : List Char) : Option (List Char) :=
  if word.isPrefixOf text then some (text.drop word.length) else none

/-- The words that may begin with a letter or a minus sign. -/
def words : List (Word × List Char) :=
  [(.null, "null".toList), (.yes, "true".toList), (.no, "false".toList), (.nan, "NaN".toList),
    (.infinity, "Infinity".toList), (.minusInfinity, "-Infinity".toList)]

/-- A word at the front of a text, and what follows it. -/
def scanWord? (text : List Char) : Option (Token × List Char) :=
  words.findSome? (fun (word, letters) => (behind? letters text).map (Token.word word, ·))

def markOf? : Char → Option Mark
  | '[' => some .openArray
  | ']' => some .closeArray
  | '{' => some .openObject
  | '}' => some .closeObject
  | ',' => some .comma
  | ':' => some .colon
  | _ => none

/-- The token that begins with a character at `position`, and what follows it. -/
def scanToken (position : Nat) (c : Char) (rest : List Char) : Token × List Char :=
  match markOf? c with
  | some m => (.mark m, rest)
  | none =>
    if c = '"' then
      match scanString position (position + 1) rest with
      | .ok (value, left) => (.string value, left)
      | .error fault => (.badString fault, [])
    else
      match scanWord? (c :: rest) with
      | some found => found
      | none => (scanNumber? (c :: rest)).getD (.bad, [])

/-- The tokens of a text that begins at `position`, each with its position. The fuel bounds their
number. -/
def tokensWithin : (fuel : Nat) → (position : Nat) → List Char → List (Token × Nat)
  | 0, _, _ => []
  | fuel + 1, position, text =>
    match text with
    | [] => []
    | c :: rest =>
      if isBlank c then tokensWithin fuel (position + 1) rest
      else
        let (token, left) := scanToken position c rest
        (token, position) :: tokensWithin fuel (position + ((c :: rest).length - left.length)) left

/-- The tokens of a text; a text has no more tokens than characters. -/
def tokens (text : List Char) : List (Token × Nat) :=
  tokensWithin text.length 0 text

end TypedVariant.Json
