import TypedVariant.Value

/-! # The types and parts of variants

The type string of a variant is put together from its parts. The runtime tag is
its first letter, which a variant of an unknown type may lack.
-/

namespace TypedVariant

namespace Variant

mutual

/-- The letters of a variant's type. -/
def typeLetters : Variant → List Char
  | boolean _ => ['b']
  | integer code _ => [code.letter]
  | double _ => ['d']
  | text code _ => [code.letter]
  | box _ | foreignBox _ => ['v']
  | nothing element => 'm' :: element.toList
  | just content => 'm' :: content.typeLetters
  | bytes _ => ['a', 'y']
  | array element _ => 'a' :: element.toList
  | tuple members => '(' :: (typeLettersAll members ++ [')'])
  | entry key value => '{' :: (key.typeLetters ++ (value.typeLetters ++ ['}']))
  | unknown typeString _ => typeString.toList
termination_by structural v => v

def typeLettersAll : List Variant → List Char
  | [] => []
  | v :: rest => v.typeLetters ++ typeLettersAll rest
termination_by structural items => items

end

/-- The type of a variant, as a signature. -/
def typeString (v : Variant) : String :=
  String.ofList v.typeLetters

/-- The runtime tag: the first letter of the type string, if there is one. -/
def tag? (v : Variant) : Option Char :=
  v.typeLetters.head?

/-- Whether the type is a single basic code. -/
def isBasic (v : Variant) : Bool :=
  match v.typeLetters with
  | [c] => (BasicCode.ofLetter? c).isSome
  | _ => false

def isContainer (v : Variant) : Bool :=
  !v.isBasic

/-- The byte variants that stand for the bytes of a blob. -/
def ofByte (b : UInt8) : Variant :=
  integer .byte b.toNat

/-- The children of a container. Basic values and unknown containers have none to show, and what is
in a foreign box is no variant. -/
def children? : Variant → Option (List Variant)
  | box content | just content => some [content]
  | nothing _ => some []
  | bytes blob => some (blob.map ofByte)
  | array _ items => some items
  | tuple members => some members
  | entry key value => some [key, value]
  | boolean _ | integer _ _ | double _ | text _ _ | foreignBox _ | unknown _ _ => none

/-- Whether the type string is that of an array of dictionary entries. -/
def isDictionaryLike (v : Variant) : Bool :=
  v.typeLetters.take 2 == ['a', '{']

end Variant

end TypedVariant
