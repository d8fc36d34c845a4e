import TypedVariant.Native.Traversal
import TypedVariant.Signature.Parse
import TypedVariant.Unpack

/-! # Taking variants apart

Accessors are asked for by type and refuse variants of another type. A lookup in
a dictionary goes through the entries in order, and opens the box around a value
unless a boxed value is asked for. A view looks values up in a container whose
entries have string keys, and gives them back unpacked.
-/

namespace TypedVariant.Variant

def childCount (v : Variant) : Except Error Nat :=
  v.children.map List.length

/-- What is said of an index that leads to no child; one that cannot be printed is refused for
that. -/
def outsideError (index : Native) (count : Nat) : Error :=
  match index.printFault? with
  | some fault => fault.error
  | none => .childIndex index count

/-- The child at a place, counted from zero. -/
def childAtPlace (v : Variant) (index : Native) (place : Int) : Except Error Native := do
  let items ← v.children
  if 0 ≤ place then
    match items[place.toNat]? with
    | some child => return child
    | none => throw (outsideError index items.length)
  else throw (outsideError index items.length)

/-- Whether a double lies between the first place and the end of so many children. -/
def isWithin (count : Nat) (x : Double) : Bool :=
  match x.units? with
  | some units => decide (0 ≤ units ∧ units < (count * Double.unitsPerOne : Nat))
  | none => false

/-- The child at an index, counted from zero. A truth value counts as zero or one. Only a box or a
maybe, whose child needs no counting, takes a number with a decimal point. -/
def childAt (v : Variant) (index : Native) : Except Error Native :=
  match index with
  | .int place => v.childAtPlace index place
  | .bool value => v.childAtPlace index (if value then 1 else 0)
  | .double x => do
    let items ← v.children
    if !isWithin items.length x then throw (.childIndex index items.length)
    match v, items with
    | box _, child :: _ | foreignBox _, child :: _ | just _, child :: _
    | unknown _ _, child :: _ => return child
    | bytes _, _ => throw (.decimalIndex "byte")
    | _, _ => throw (.decimalIndex "tuple")
  | x => do
    let _ ← v.children
    throw (.unorderedIndex x.kindName)

/-- The stored content as a native value: the value of a basic variant, the content of a box or
maybe, the bytes of a blob, and the children of other containers. -/
def payload : Variant → Native
  | boolean value => .bool value
  | integer _ value => .int value
  | double value => .double value
  | text _ value => .text value
  | box content | just content => .variant content
  | foreignBox content => .foreign content
  | nothing _ => .null
  | unknown _ content => content
  | bytes blob => .bytes blob
  | array _ items | tuple items => .tuple (items.map .variant)
  | entry key value => .tuple [.variant key, .variant value]

def refuse {α : Type} (accessor : String) (v : Variant) : Except Error α :=
  .error (.wrongAccessor accessor v.typeString)

def getBoolean : Variant → Except Error Bool
  | boolean value => .ok value
  | v => refuse "get_boolean" v

def getInteger (code : IntegerCode) (v : Variant) : Except Error Int :=
  let refusal : Except Error Int := refuse ("get_" ++ code.word) v
  match v with
  | integer found value => if found = code then .ok value else refusal
  | _ => refusal

def getDouble : Variant → Except Error Double
  | double value => .ok value
  | v => refuse "get_double" v

def getText : Variant → Except Error String
  | text _ value => .ok value
  | v => refuse "get_string" v

/-- The content of a box, which may be foreign. -/
def getContent : Variant → Except Error Native
  | box content => .ok (.variant content)
  | foreignBox content => .ok (.foreign content)
  | unknown "v" content => .ok content
  | v => refuse "get_variant" v

def getMaybe : Variant → Except Error (Option Variant)
  | nothing _ => .ok none
  | just content => .ok (some content)
  | v => refuse "get_maybe" v

def getBytes : Variant → Except Error (List UInt8)
  | bytes blob => .ok blob
  | v => .error (.rawDataUnavailable v.typeString)

def getStrings : Variant → Except Error (List String)
  | array "s" items => .ok (items.filterMap fun
      | text .string value => some value
      | _ => none)
  | v => refuse "get_strv" v

/-- Whether a lookup asks for boxed values as they are. -/
def keepsBox : Option TypeSource → Bool
  | some (.text pattern) => pattern == "v"
  | _ => false

/-- The value that a lookup makes of a stored one: the content of a box unless boxes are wanted. -/
def opened (expected : Option TypeSource) (v : Variant) : Native :=
  match v with
  | box content => if keepsBox expected then .variant v else .variant content
  | foreignBox content => if keepsBox expected then .variant v else .foreign content
  | unknown "v" content => if keepsBox expected then .variant v else content
  | _ => .variant v

/-- Whether what a lookup has found is of a type, which only variants can tell. -/
def foundOfType (pattern : TypeSource) : Native → Except Error Bool
  | .variant v => v.isOfType pattern
  | x => .error (.missingOperation x.kindName "is_of_type")

def findEntry? (key : Native) : List Variant → Option Variant
  | [] => none
  | entry k value :: rest =>
    if k.payload.equal key then some value else findEntry? key rest
  | _ :: rest => findEntry? key rest

/-- The value stored under a key, if there is one and it is of the expected type. -/
def lookup (v : Variant) (key : Native) (expected : Option TypeSource) :
    Except Error (Option Native) := do
  if !(← v.isOfType (.text "a\x7b?*\x7d")) then
    throw (.wrongAccessor "lookup_value" v.typeString)
  match findEntry? key (v.children?.getD []) with
  | none => return none
  | some stored =>
    let value := opened expected stored
    match expected with
    | none => return some value
    | some pattern => return if ← foundOfType pattern value then some value else none

end TypedVariant.Variant

namespace TypedVariant

/-- A variant seen as a dictionary with string keys. -/
structure Dictionary where
  variant : Variant

namespace Dictionary

/-- The view of a container of dictionary entries with string keys. -/
def of : Native → Except Error Dictionary
  | .variant v => do
      if ← v.isOfType (.text "a\x7bs*\x7d") then return ⟨v⟩ else throw .notADictionary
  | _ => .error .notADictionary

def lookupValue (d : Dictionary) (key : Native) (expected : Option TypeSource) :
    Except Error (Option Native) :=
  d.variant.lookup key expected

/-- The unpacked value stored under a key, or `null`. -/
def lookup (d : Dictionary) (key : Native) (expected : Option TypeSource) (deep : Bool) :
    Except Error Native := do
  match ← d.lookupValue key expected with
  | none => return .null
  | some x => x.unpackContainer {} (.ofFlags deep false) 0

def contains (d : Dictionary) (key : Native) : Except Error Bool :=
  (d.lookupValue key none).map Option.isSome

def keys (d : Dictionary) : List Native :=
  Native.dictionaryKeys d.variant

def size (d : Dictionary) : Nat :=
  (d.variant.children?.getD []).length

end Dictionary

end TypedVariant
