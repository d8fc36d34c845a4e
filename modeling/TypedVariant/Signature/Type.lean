/-! # Types of the signature alphabet

A signature is text in which every character is a type code or a bracket. This
module holds the types such text stands for: thirteen basic codes, the boxed
variant, four containers, and the three wildcards that only patterns may hold.
`SigType.letters` writes a type back as text.
-/

namespace TypedVariant

/-- Codes whose values are integers of a fixed range. -/
inductive IntegerCode
  | byte | int16 | uint16 | int32 | uint32 | int64 | uint64 | handle
  deriving DecidableEq, Repr

namespace IntegerCode

def letter : IntegerCode → Char
  | byte => 'y'
  | int16 => 'n'
  | uint16 => 'q'
  | int32 => 'i'
  | uint32 => 'u'
  | int64 => 'x'
  | uint64 => 't'
  | handle => 'h'

/-- The word that messages and annotations use for the code. -/
def word : IntegerCode → String
  | byte => "byte"
  | int16 => "int16"
  | uint16 => "uint16"
  | int32 => "int32"
  | uint32 => "uint32"
  | int64 => "int64"
  | uint64 => "uint64"
  | handle => "handle"

/-- Least value of the code; handles are signed 32-bit indexes. -/
def low : IntegerCode → Int
  | byte => 0
  | int16 => -0x8000
  | uint16 => 0
  | int32 => -0x80000000
  | uint32 => 0
  | int64 => -0x8000000000000000
  | uint64 => 0
  | handle => -0x80000000

def high : IntegerCode → Int
  | byte => 0xFF
  | int16 => 0x7FFF
  | uint16 => 0xFFFF
  | int32 => 0x7FFFFFFF
  | uint32 => 0xFFFFFFFF
  | int64 => 0x7FFFFFFFFFFFFFFF
  | uint64 => 0xFFFFFFFFFFFFFFFF
  | handle => 0x7FFFFFFF

def all : List IntegerCode :=
  [byte, int16, uint16, int32, uint32, int64, uint64, handle]

end IntegerCode

/-- Codes whose values are text. -/
inductive TextCode
  | string | objectPath | signature
  deriving DecidableEq, Repr

namespace TextCode

def letter : TextCode → Char
  | string => 's'
  | objectPath => 'o'
  | signature => 'g'

/-- The word that messages use for the code. -/
def word : TextCode → String
  | string => "string"
  | objectPath => "object path"
  | signature => "signature"

end TextCode

/-- The codes of values without children. -/
inductive BasicCode
  | boolean
  | integer (code : IntegerCode)
  | double
  | text (code : TextCode)
  deriving DecidableEq, Repr

namespace BasicCode

def letter : BasicCode → Char
  | boolean => 'b'
  | integer code => code.letter
  | double => 'd'
  | text code => code.letter

/-- The basic code a letter stands for, if it is one. -/
def ofLetter? : Char → Option BasicCode
  | 'b' => some boolean
  | 'y' => some (integer .byte)
  | 'n' => some (integer .int16)
  | 'q' => some (integer .uint16)
  | 'i' => some (integer .int32)
  | 'u' => some (integer .uint32)
  | 'x' => some (integer .int64)
  | 't' => some (integer .uint64)
  | 'h' => some (integer .handle)
  | 'd' => some double
  | 's' => some (text .string)
  | 'o' => some (text .objectPath)
  | 'g' => some (text .signature)
  | _ => none

/-- Every basic code, in the order in which they are usually listed. -/
def all : List BasicCode :=
  [boolean, integer .byte, integer .int16, integer .uint16, integer .int32, integer .uint32,
    integer .int64, integer .uint64, integer .handle, double, text .string, text .objectPath,
    text .signature]

theorem ofLetter?_letter (code : BasicCode) : ofLetter? code.letter = some code := by
  rcases code with _ | (_ | _) | _ | (_ | _) <;> rfl

theorem letter_of_ofLetter? {c : Char} {code : BasicCode} (h : ofLetter? c = some code) :
    code.letter = c := by
  unfold ofLetter? at h
  split at h <;> simp_all <;> subst h <;> rfl

end BasicCode

/-- Letters that stand for a set of types in a pattern. -/
inductive Wildcard
  | anyType | anyBasic | anyTuple
  deriving DecidableEq, Repr

def Wildcard.letter : Wildcard → Char
  | anyType => '*'
  | anyBasic => '?'
  | anyTuple => 'r'

/-- A type, or a pattern when it holds wildcards. Reading text never gives an unlisted leaf, nor a
dictionary key that is a container; both exist only in types assembled by hand. -/
inductive SigType
  | basic (code : BasicCode)
  | variant
  | maybe (element : SigType)
  | array (element : SigType)
  | tuple (members : List SigType)
  | dictEntry (key value : SigType)
  | wildcard (kind : Wildcard)
  /-- A basic type whose code is in no list. -/
  | unlisted (letters : String)
  /-- A wildcard whose letter is in no list; it stands for any tuple. -/
  | unlistedWildcard (letters : String)
  deriving Repr, Inhabited

namespace SigType

mutual

/-- The text of a type. -/
def letters : SigType → List Char
  | basic code => [code.letter]
  | variant => ['v']
  | maybe element => 'm' :: element.letters
  | array element => 'a' :: element.letters
  | tuple members => '(' :: (lettersAll members ++ [')'])
  | dictEntry key value => '{' :: (key.letters ++ (value.letters ++ ['}']))
  | wildcard kind => [kind.letter]
  | unlisted text | unlistedWildcard text => text.toList

def lettersAll : List SigType → List Char
  | [] => []
  | type :: rest => type.letters ++ lettersAll rest

end

def text (type : SigType) : String :=
  String.ofList type.letters

def isBasic : SigType → Bool
  | basic _ | unlisted _ => true
  | wildcard .anyBasic => true
  | _ => false

mutual

/-- Whether a type is free of wildcards, so that values can have it. -/
def isDefinite : SigType → Bool
  | maybe element => element.isDefinite
  | array element => element.isDefinite
  | tuple members => allDefinite members
  | dictEntry key value => key.isDefinite && value.isDefinite
  | wildcard _ | unlistedWildcard _ => false
  | basic _ | variant | unlisted _ => true

def allDefinite : List SigType → Bool
  | [] => true
  | type :: rest => type.isDefinite && allDefinite rest

end

mutual

/-- Whether every position of a type is covered by the pattern. -/
def covers : (pattern type : SigType) → Bool
  | wildcard .anyType, _ => true
  | wildcard .anyBasic, basic _ | wildcard .anyBasic, unlisted _ => true
  | wildcard .anyTuple, tuple _ | unlistedWildcard _, tuple _ => true
  | basic p, basic t => p == t
  | unlisted p, unlisted t => p == t
  | variant, variant => true
  | maybe p, maybe t => p.covers t
  | array p, array t => p.covers t
  | tuple ps, tuple ts => coversAll ps ts
  | dictEntry pk pv, dictEntry tk tv => pk.covers tk && pv.covers tv
  | _, _ => false

/-- Whether the patterns cover the types one by one, and there are as many. -/
def coversAll : (patterns types : List SigType) → Bool
  | [], [] => true
  | p :: ps, t :: ts => p.covers t && coversAll ps ts
  | _, _ => false

end

/-- What kind of type stands at the root, as diagnostics name it. -/
def rootName : SigType → String
  | basic _ | unlisted _ => "BasicType"
  | variant => "VariantType"
  | maybe _ => "MaybeType"
  | array _ => "ArrayType"
  | tuple _ => "TupleType"
  | dictEntry _ _ => "DictEntryType"
  | wildcard _ | unlistedWildcard _ => "WildcardType"

def headline (indent : Nat) (type : SigType) : String :=
  String.ofList (List.replicate (2 * indent) ' ') ++ type.rootName ++ " " ++ type.text

mutual

/-- The type as an indented tree, one line for each node. -/
def outline (indent : Nat) : SigType → List String
  | maybe element => headline indent (maybe element) :: element.outline (indent + 1)
  | array element => headline indent (array element) :: element.outline (indent + 1)
  | tuple members => headline indent (tuple members) :: outlineAll (indent + 1) members
  | dictEntry key value =>
      headline indent (dictEntry key value) ::
        (key.outline (indent + 1) ++ value.outline (indent + 1))
  | basic code => [headline indent (basic code)]
  | variant => [headline indent variant]
  | wildcard kind => [headline indent (wildcard kind)]
  | unlisted text => [headline indent (unlisted text)]
  | unlistedWildcard text => [headline indent (unlistedWildcard text)]

def outlineAll (indent : Nat) : List SigType → List String
  | [] => []
  | type :: rest => type.outline indent ++ outlineAll indent rest

end

end SigType

end TypedVariant
