import TypedVariant.Text.Character
import TypedVariant.Text.Printable

/-! # Text between quotes

Messages show text between quotes, so that its ends are visible, and escape
whatever would not show: the backslash and the quote in use, line breaks, tabs,
and unprintable characters by their number. Bytes are shown alike, with a
leading `b` and every byte outside printable ASCII by its number.

The printed form of variants has quotes of its own: there the seven control
characters with a name are written by it, the other control characters of ASCII
by their number, and everything else as it is.
-/

namespace TypedVariant.Text

/-- Double quotes serve only where single quotes occur and double quotes do not. -/
def quoteFor (hasSingle hasDouble : Bool) : Char :=
  if hasSingle && !hasDouble then '"' else '\x27'

/-- An unprintable character by its number, in the shortest of three widths. -/
def showCode (n : Nat) : List Char :=
  if n < 0x100 then '\\' :: 'x' :: hex 2 n
  else if n < 0x10000 then '\\' :: 'u' :: hex 4 n
  else '\\' :: 'U' :: hex 8 n

def showChar (quote c : Char) : List Char :=
  if c == quote || c == '\\' then ['\\', c]
  else if c == '\t' then ['\\', 't']
  else if c == '\n' then ['\\', 'n']
  else if c == '\r' then ['\\', 'r']
  else if isPrintable c then [c]
  else showCode c.toNat

def shown (s : String) : String :=
  let cs := s.toList
  let quote := quoteFor (cs.contains '\x27') (cs.contains '"')
  String.ofList (quote :: (cs.flatMap (showChar quote) ++ [quote]))

/-- A byte where the given characters are escaped beside the backslash. -/
def showByte (escaped : List Char) (b : UInt8) : List Char :=
  let c := Char.ofNat b.toNat
  if escaped.contains c || c == '\\' then ['\\', c]
  else if c == '\t' then ['\\', 't']
  else if c == '\n' then ['\\', 'n']
  else if c == '\r' then ['\\', 'r']
  else if 0x20 ≤ b.toNat ∧ b.toNat < 0x7F then [c]
  else '\\' :: 'x' :: hex 2 b.toNat

def quoteForBytes (bytes : List UInt8) : Char :=
  quoteFor (bytes.contains 0x27) (bytes.contains 0x22)

def shownBytes (bytes : List UInt8) : String :=
  let quote := quoteForBytes bytes
  String.ofList ('b' :: quote :: (bytes.flatMap (showByte [quote]) ++ [quote]))

/-- A buffer of bytes as a diagnostic shows it: single quotes are escaped between double quotes
too. -/
def shownBuffer (bytes : List UInt8) : String :=
  let quote := quoteForBytes bytes
  "bytearray(" ++
    String.ofList ('b' :: quote :: (bytes.flatMap (showByte [quote, '\x27']) ++ [quote])) ++ ")"

namespace Quoted

/-- The escape letter of a character that has one. -/
def escapeLetter? : Char → Option Char
  | '\\' => some '\\'
  | '\x07' => some 'a'
  | '\x08' => some 'b'
  | '\x0c' => some 'f'
  | '\n' => some 'n'
  | '\r' => some 'r'
  | '\t' => some 't'
  | '\x0b' => some 'v'
  | _ => none

def quoteOf (text : List Char) : Char :=
  if text.contains '\x27' && !text.contains '"' then '"' else '\x27'

def encodeChar (quote c : Char) : List Char :=
  if c = quote then ['\\', c]
  else
    match escapeLetter? c with
    | some letter => ['\\', letter]
    | none => if c.toNat < 0x20 ∨ c.toNat = 0x7F then '\\' :: 'u' :: hex 4 c.toNat else [c]

def encode (text : List Char) : List Char :=
  let quote := quoteOf text
  quote :: (text.flatMap (encodeChar quote) ++ [quote])

end Quoted

/-- Text as it stands in the printed form of a variant. -/
def quoted (s : String) : String :=
  String.ofList (Quoted.encode s.toList)

end TypedVariant.Text
