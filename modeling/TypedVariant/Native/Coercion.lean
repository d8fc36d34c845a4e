import TypedVariant.Error
import TypedVariant.Native.Equality
import TypedVariant.Text.Numeral

/-! # What native values can be taken for

Leniency is decided in two steps: a value is first converted, in whatever way its
kind allows, and then refused if the result is not equal to it. So a numeral in
text converts to a number and is refused, while a double without a fraction
passes for an integer.

A native value that is boxed without being packed first gets the type its kind
implies. Integers are signed unless they are too large for that; the parts of
collections are boxed in turn, so that they may be of different types.
-/

namespace TypedVariant.Native

/-- The characters of the same numbers as the bytes of a blob. -/
def charsOf (data : List UInt8) : List Char :=
  data.map (fun b => Char.ofNat b.toNat)

/-- The integer a value converts to: a truth value counts as zero or one, a double loses its
fraction, and text or a block of bytes is read as a numeral. -/
def toInt? : Native → Option Int
  | bool value => some (if value then 1 else 0)
  | int value => some value
  | double value => value.truncate?
  | text value => Numeral.intOfText? value
  | blob _ data => Numeral.int? (charsOf data)
  | _ => none

/-- Whether a value is a number equal to the given integer. -/
def isNumber (z : Int) (x : Native) : Bool :=
  match x.number? with
  | some n => Number.equal (.whole z) n
  | none => false

/-- The integer of the given code that a value is taken for. -/
def asInteger (code : IntegerCode) (x : Native) : Except Error Int :=
  match x.toInt? with
  | none => .error (.notEncodable x.kindName code.word)
  | some z =>
    -- A value that lost something in the conversion is refused before the range counts.
    if !x.isNumber z then .error (.notWhole x)
    else if z < code.low ∨ code.high < z then .error (.integerRange code)
    else .ok z

/-- The mark of the value that is no number where a block of bytes spells it. Blocks of different
bytes spell different ones. -/
def spelledMark (data : List UInt8) : Nat :=
  data.foldr (fun b mark => 256 * mark + b.toNat + 1) 0

/-- The double that a value is taken for. Integers must be doubles exactly. Of the blocks of
bytes, only a buffer or view that spells the value that is no number passes. -/
def asDouble : Native → Except Error Double
  | double value => .ok value
  | blob .growable data => ofNumeral (blob .growable data) data
  | blob .view data => ofNumeral (blob .view data) data
  | bool value => ofInt (bool value) (if value then 1 else 0)
  | int value => ofInt (int value) value
  | x => .error (.notEncodable x.kindName "double")
where
  ofInt (x : Native) (z : Int) : Except Error Double :=
    ofNearest x z (Double.ofInt? z)
  ofNearest (x : Native) (z : Int) : Option Double → Except Error Double
    | none => .error .doubleRange
    | some value => if value.whole? = some z then .ok value else .error (.notExactDouble x)
  ofNumeral (x : Native) (data : List UInt8) : Except Error Double :=
    match Numeral.double? (charsOf data) with
    | none => .error (.notEncodable x.kindName "double")
    | some value =>
      if value.isNaN then .ok (.nan (spelledMark data)) else .error (.notExactDouble x)

/-- Why a value cannot be taken for bytes: its kind, a number outside the range of bytes, or a
count of zeros or of a range's items that no machine word holds, that no block of bytes reaches, or
that no memory holds. -/
inductive BytesFault
  | kind | range | count | rangeCount | length | memory
  deriving DecidableEq, Repr

/-- The most bytes that a block can have beside its own header. -/
def longestBlob : Int := Int.pow 2 63 - 34

/-- A number of bytes that is beyond all memory. -/
def memoryLimit : Int := Int.pow 2 40

def toByte (x : Native) : Except BytesFault UInt8 :=
  match x with
  | bool value => .ok (if value then 1 else 0)
  | int value =>
    if 0 ≤ value ∧ value < 256 then .ok (UInt8.ofNat value.toNat) else .error .range
  | _ => .error .kind

/-- A value as bytes: a block of bytes as it is, an integer as so many zeros, and a collection
through its items, of which the first that is no byte decides the fault. For a range the space is
set aside first. -/
def toBytes : Native → Except BytesFault (List UInt8)
  | blob _ data => .ok data
  | bool value => .ok (if value then [0] else [])
  | int value =>
    if value < IntegerCode.int64.low ∨ IntegerCode.int64.high < value then .error .count
    else if value < 0 then .error .range
    else if longestBlob < value then .error .length
    else if memoryLimit ≤ value then .error .memory
    else .ok (List.replicate value.toNat 0)
  | list items | tuple items | set items | stream items _ => items.mapM toByte
  | map entries => entries.mapM (fun entry => entry.1.toByte)
  | range start stop step =>
    let size := rangeSize start stop step
    if wordLimit ≤ size then .error .rangeCount
    else if longestBlob < size then .error .length
    else if memoryLimit ≤ size then .error .memory
    else (rangeItems start stop step).mapM toByte
  | dictionary v _ => (dictionaryKeys v).mapM toByte
  | variant v =>
    match childrenOf? v with
    | some [] => .ok []
    | _ => .error .kind
  | null | double _ | text _ | object _ | sigType _ | foreign _ => .error .kind

/-- The type a value is boxed as, for values that are not variants already. -/
def intrinsicType? : Native → Option SigType
  | bool _ => some (.basic .boolean)
  | int value =>
      some (.basic (.integer (if IntegerCode.int64.high < value then .uint64 else .int64)))
  | double _ => some (.basic .double)
  | text _ => some (.basic (.text .string))
  | blob _ _ => some (.array (.basic (.integer .byte)))
  | map _ => some (.array (.dictEntry (.basic (.text .string)) .variant))
  | list _ | tuple _ => some (.array .variant)
  | null | set _ | stream _ _ | range _ _ _ | object _ | sigType _ | variant _ | dictionary _ _
  | foreign _ => none

/-- The signature under which a value is boxed. -/
def inferSignature : Native → Except Error String
  | variant v => .ok v.typeString
  | x =>
    match x.intrinsicType? with
    | some type => .ok type.text
    | none => .error (.noIntrinsicType x.kindName)

end TypedVariant.Native
