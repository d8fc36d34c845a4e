import TypedVariant.Variant.Basic

/-! # Native values

What can be told of a native value without looking beyond it: the name of its
kind, the parts that it is gone through by, and whether it counts as true. Kind
names are those that diagnostics use.
-/

namespace TypedVariant

namespace Native

/-- The name by which diagnostics call the kind of a value. -/
def kindName : Native → String
  | null => "NoneType"
  | bool _ => "bool"
  | int _ => "int"
  | double _ => "float"
  | text _ => "str"
  | blob .fixed _ => "bytes"
  | blob .growable _ => "bytearray"
  | blob .view _ => "memoryview"
  | list _ => "list"
  | tuple _ => "tuple"
  | map _ => "dict"
  | set _ => "set"
  | stream _ _ => "list_iterator"
  | range _ _ _ => "range"
  | object _ => "object"
  | sigType type => type.rootName
  | variant _ => "Variant"
  | dictionary _ _ => "VariantDict"
  | foreign _ => "Foreign"

abbrev bytes (data : List UInt8) : Native := blob .fixed data

/-- The variant a value is, if it is one. -/
def asVariant? : Native → Option Variant
  | variant v => some v
  | _ => none

def isNull : Native → Bool
  | null => true
  | _ => false

/-- The children of a variant as native values; the content of a foreign box is one of them. -/
def childrenOf? : Variant → Option (List Native)
  | .foreignBox container => some [foreign container]
  | v => v.children?.map (fun items => items.map variant)

def rangeSize (start stop step : Int) : Nat :=
  if 0 < step then ((stop - start + step - 1) / step).toNat
  else if step < 0 then ((start - stop + (-step) - 1) / (-step)).toNat
  else 0

def rangeItems (start stop step : Int) : List Native :=
  (List.range (rangeSize start stop step)).map (fun (n : Nat) => int (start + step * n))

def dictionaryKeys (v : Variant) : List Native :=
  (v.children?.getD []).filterMap fun
    | .entry (.text _ key) _ => some (text key)
    | _ => none

/-- The least number that a machine word cannot count up to. -/
def wordLimit : Nat := Nat.pow 2 63

/-- A number of items whose list is beyond all memory. -/
def listLimit : Nat := Nat.pow 2 37

/-- The values that stand for an ordered sequence of children. Text, blocks of bytes, maps and
variants can be gone through as well, but never stand for their parts; the items of a range have
to fit a list. -/
def sequence? : Native → Option (List Native)
  | list items | tuple items | set items | stream items _ => some items
  | range start stop step =>
    if rangeSize start stop step < listLimit then some (rangeItems start stop step) else none
  | dictionary v _ => some (dictionaryKeys v)
  | _ => none

/-- Whether a value counts as true: numbers unless zero, collections unless empty, and
everything else except `null`. -/
def isTruthy : Native → Bool
  | null => false
  | bool value => value
  | int value => value != 0
  | double value => value.units? != some 0
  | text value => !value.isEmpty
  | blob _ data => !data.isEmpty
  | list items | tuple items | set items => !items.isEmpty
  | map entries => !entries.isEmpty
  | range start stop step => rangeSize start stop step != 0
  | dictionary v _ => !(v.children?.getD []).isEmpty
  | stream _ _ | object _ | sigType _ | variant _ | foreign _ => true

end Native

end TypedVariant
