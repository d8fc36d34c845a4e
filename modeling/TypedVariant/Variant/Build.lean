import TypedVariant.Native.Coercion
import TypedVariant.Native.Traversal
import TypedVariant.Signature.Parse

/-! # Building variants

There is one constructor for each kind of variant, and each checks what it is
given: basic ones that the native value is one of the type, containers that
their children are variants of the right types. An object path is a single
slash, or a sequence of segments, each a slash and one or more letters, digits or
underscores of ASCII; one line feed behind a path is tolerated.
-/

namespace TypedVariant.ObjectPath

/-- Whether a character may occur in a segment. -/
def isWordChar (c : Char) : Bool :=
  c.isAlphanum || c == '_'

/-- Whether the text behind the slash of a segment completes it, and the segments after it. -/
def isSegments : (started : Bool) → List Char → Bool
  | started, [] => started
  | started, c :: rest =>
    if c = '/' then started && isSegments false rest
    else isWordChar c && isSegments true rest

/-- Whether a text is a path, without any line feed behind it. -/
def isStrict : List Char → Bool
  | ['/'] => true
  | '/' :: rest => isSegments false rest
  | _ => false

def isValid (text : String) : Bool :=
  let letters := text.toList
  isStrict letters || (letters.getLast? == some '\n' && isStrict letters.dropLast)

end TypedVariant.ObjectPath

namespace TypedVariant.Variant

def maxSignatureLength : Nat := 255

/-- Whether a text free of NUL is a value of the code. -/
def checkText (code : TextCode) (value : String) : Except Error Unit :=
  match code with
  | .string => .ok ()
  | .objectPath =>
    if ObjectPath.isValid value then .ok () else .error (.invalidObjectPath value)
  | .signature =>
    if value.length ≤ maxSignatureLength && Signature.isValidSequence value then .ok ()
    else .error (.invalidSignatureText value)

def ofText (code : TextCode) : Native → Except Error Variant
  | .text value => do
    if value.toList.contains '\x00' then throw (.nulInText code)
    checkText code value
    return text code value
  | x => .error (.notEncodable x.kindName code.word)

def ofBoolean (x : Native) : Variant :=
  boolean x.isTruthy

def ofInteger (code : IntegerCode) (x : Native) : Except Error Variant :=
  (x.asInteger code).map (integer code)

def ofDouble (x : Native) : Except Error Variant :=
  x.asDouble.map double

/-- The variant of a basic type that a native value makes. -/
def ofBasic : BasicCode → Native → Except Error Variant
  | .boolean, x => .ok (ofBoolean x)
  | .integer code, x => ofInteger code x
  | .double, x => ofDouble x
  | .text code, x => ofText code x

/-- The variant in a native value; `what` names its place. -/
def require (what : String) : Native → Except Error Variant
  | .variant v => .ok v
  | x => .error (.variantRequired what x.kindName)

def ofContent (x : Native) : Except Error Variant :=
  (require "variant content" x).map box

/-- A maybe of the given element type, which may be left open when a child is present. -/
def ofMaybe (element : Option TypeSource) : Native → Except Error Variant
  | .null =>
    match element with
    | none => .error .maybeTypeMissing
    | some source => (elementTypeString source).map nothing
  | x => do
    let child ← require "maybe content" x
    if let some source := element then
      let expected ← elementTypeString source
      if expected ≠ child.typeString then throw (.maybeContent child.typeString expected)
    return just child

/-- The bytes of variants of the byte type. -/
def byteValues (items : List Variant) : List UInt8 :=
  items.filterMap fun
    | integer .byte value => some (UInt8.ofNat value.toNat)
    | _ => none

/-- The array of variants that all have the given type string; bytes become a blob. -/
def arrayOf (element : String) (items : List Variant) : Except Error Variant :=
  match items.find? (fun item => item.typeString != element) with
  | some item => .error (.arrayElement item.typeString element)
  | none => .ok (if element = "y" then bytes (byteValues items) else array element items)

/-- An array of the given element type, which may be left open when there are children. -/
def ofArray (element : Option TypeSource) (children : Native) : Except Error Variant := do
  let items ← (← children.iterate).mapM (require "array element")
  match element, items with
  | some source, _ => arrayOf (← elementTypeString source) items
  | none, first :: _ => arrayOf first.typeString items
  | none, [] => throw .arrayTypeMissing

def ofStrings (strings : List Native) : Except Error Variant :=
  (strings.mapM (ofText .string)).map (array "s")

/-- An array of strings from anything that can be gone through, except text and bytes. -/
def ofStringVector (strings : Native) : Except Error Variant :=
  match strings with
  | .text _ | .blob .fixed _ => .error (.notAStringVector strings.kindName)
  | x =>
    match x.iterate with
    | .ok items => ofStrings items
    | .error (.notIterable kind) => .error (.notAStringVector kind)
    | .error e => .error e

def ofTuple (children : Native) : Except Error Variant := do
  let members ← (← children.iterate).mapM (require "tuple element")
  return tuple members

def ofEntry (key value : Native) : Except Error Variant := do
  let k ← require "dictionary key" key
  let v ← require "dictionary value" value
  if !k.isBasic then throw (.containerKey k.typeString)
  return entry k v

/-- A container from raw bytes; only arrays of bytes have a layout of their own. -/
def ofRawBytes (type : TypeSource) (data : Native) : Except Error Variant := do
  let typeString ← elementTypeString type
  if typeString ≠ "ay" then throw (.notBuiltFromBytes typeString)
  match data.toBytes with
  | .ok blob => return bytes blob
  | .error .count => throw .hugeCount
  | .error .rangeCount => throw .overlongRange
  | .error .length => throw .overlongBlob
  | .error .memory => throw .outOfMemory
  | .error .kind | .error .range => throw (.notBytes data.kindName)

/-- The dictionary of boxed values under string keys. -/
def ofMap (entries : List (Native × Native)) : Except Error Variant := do
  let items ← entries.mapM fun (key, value) => do
    ofEntry (.variant (← ofText .string key)) (.variant (← ofContent value))
  ofArray (some (.text "\x7bsv\x7d")) (.list (items.map .variant))

end TypedVariant.Variant
