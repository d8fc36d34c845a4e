import TypedVariant.Double.Basic
import TypedVariant.Signature.Type

/-! # Variants and native values

A variant is an immutable value that knows its own type. Its type string is
written from its content alone, so it always describes what is stored. Two
constructors stand for what other programs may hand over: a box whose content is
a foreign container, and a container whose tag is not in the alphabet.

Native values are what callers pack and what unpacking gives back. Besides the
data that types describe there are values that only arrive as arguments: sets,
streams, ranges, types, and objects about which nothing is known. Values without
content to compare carry a mark, and are the same only if their marks are.
-/

namespace TypedVariant

/-- How a block of bytes is held: as a fixed value, as a growable buffer, or as a view. -/
inductive BlobKind
  | fixed | growable | view
  deriving DecidableEq, Repr

/-- A container of another program, of which nothing is known but the tag it gives itself. -/
structure Foreign where
  tag : String
  mark : Nat
  deriving DecidableEq, Repr

mutual

/-- A self-describing value. An array stores the type string of its elements, since it may have
none; an array of bytes is stored as a blob. -/
inductive Variant
  | boolean (value : Bool)
  | integer (code : IntegerCode) (value : Int)
  | double (value : Double)
  | text (code : TextCode) (value : String)
  | box (content : Variant)
  | foreignBox (content : Foreign)
  | nothing (element : String)
  | just (content : Variant)
  | bytes (blob : List UInt8)
  | array (element : String) (items : List Variant)
  | tuple (members : List Variant)
  | entry (key value : Variant)
  | unknown (typeString : String) (content : Native)

/-- A native value. A map lists its entries in insertion order, and no two of its keys are
equal; a stream stands for values that can be taken once. -/
inductive Native
  | null
  | bool (value : Bool)
  | int (value : Int)
  | double (value : Double)
  | text (value : String)
  | blob (kind : BlobKind) (data : List UInt8)
  | list (items : List Native)
  | tuple (items : List Native)
  | map (entries : List (Native × Native))
  | set (items : List Native)
  | stream (items : List Native) (mark : Nat)
  | range (start stop step : Int)
  | object (mark : Nat)
  | sigType (type : SigType)
  | variant (value : Variant)
  | dictionary (value : Variant) (mark : Nat)
  | foreign (container : Foreign)

end

end TypedVariant
