import TypedVariant.Native.Coercion
import TypedVariant.Native.Height
import TypedVariant.Settings.Basic
import TypedVariant.Variant.Build

/-! # What an array is packed from

The element type of an array decides what its value may be and how it is gone
through. Strings and bytes have short ways of their own: an array of bytes is made
of one native value as a whole, of text by its encoding and a final NUL, and of
anything else that can be taken for bytes unchanged. A map is packed entry by
entry, and everything else item by item.
-/

namespace TypedVariant

def Codec.Refusal.error (encoding : String) : Codec.Refusal → Error
  | unencodable message => .unencodable encoding message
  | failed message => .encodingFailed message

/-- The bytes of a text by the codec of a name. No name holds the null character. -/
def encodeText [Codecs] (encoding : String) (text : List Char) : Except Error (List UInt8) :=
  if encoding.toList.contains '\x00' then .error .nulInEncoding
  else
    match Codecs.find? encoding with
    | none => .error (.unknownEncoding encoding)
    | some .other => .error (.notATextEncoding encoding)
    | some (.text encode) => (encode text).mapError (Codec.Refusal.error encoding)

/-- The bytes that stand for a value in an array of bytes. Text is encoded and ends in a NUL,
which is added unless its encoding has one at the end already. -/
def byteBlob [Codecs] (encoding : String) : Native → Except Error (List UInt8)
  | .text value =>
    (encodeText encoding value.toList).map (fun data =>
      if data.getLast? = some 0 then data else data ++ [0])
  | .null => .error (.notBytes Native.null.kindName)
  | .bool value => .error (.notBytes (Native.bool value).kindName)
  | .int value => .error (.notBytes (Native.int value).kindName)
  | .map entries => .error (.notBytes (Native.map entries).kindName)
  | .variant v => .error (.notBytes (Native.variant v).kindName)
  | x =>
    match x.toBytes with
    | .ok data => .ok data
    | .error .range => .error .byteRange
    | .error .kind => .error (.notBytes x.kindName)
    | .error .count => .error .hugeCount
    | .error .rangeCount => .error .overlongRange
    | .error .length => .error .overlongBlob
    | .error .memory => .error .outOfMemory

/-- The bytes that stand for a value, with the encoding of text given as a native value. -/
def byteBlobOf [Codecs] (encoding x : Native) : Except Error (List UInt8) :=
  match encoding, x with
  | .text name, _ => byteBlob name x
  | .null, .text _ => .error (.encodingKind "None")
  | _, .text _ => .error (.encodingKind encoding.kindName)
  | _, _ => byteBlob defaultTextEncoding x

namespace Pack

/-- Whether a text asks for a box, possibly inside maybes. -/
def leadsToBox : List Char → Bool
  | 'm' :: rest => leadsToBox rest
  | 'v' :: _ => true
  | _ => false

theorem leadsToBox_intrinsicType? {x : Native} {type : SigType} (h : x.intrinsicType? = some type) :
    leadsToBox type.letters = false := by
  cases x <;> simp only [Native.intrinsicType?, Option.some.injEq, reduceCtorEq] at h <;>
    subst h <;> first | rfl | (split <;> rfl)

/-- Why a value does not stand for an ordered sequence: a range is too long, and anything else is of
another kind. -/
def sequenceError (use : SequenceUse) : Native → Error
  | .range start stop step =>
    if Native.wordLimit ≤ Native.rangeSize start stop step then .overlongRange else .outOfMemory
  | x => .notASequence use x.kindName

/-- The values that are packed as the elements of an array: the entries of a map where entries
are wanted, and the items of a sequence elsewhere. -/
def elementsOf (element : SigType) (x : Native) : Except Error (List Native) :=
  match element with
  | .dictEntry _ _ =>
    match x with
    | .map entries => .ok (Native.entryPairs entries)
    | _ => .error (.notAMap (SigType.array element).text x.kindName)
  | _ =>
    match x.sequence? with
    | some items => .ok items
    | none => .error (sequenceError .array x)

theorem heightAll_lt_of_elementsOf {element : SigType} {x : Native} {items : List Native}
    (h : elementsOf element x = .ok items) : Native.heightAll items < x.height := by
  unfold elementsOf at h
  split at h
  · split at h
    · simp only [Except.ok.injEq] at h
      subst h
      exact Native.heightAll_entryPairs_lt _
    · simp at h
  · split at h
    · next items' hs =>
        simp only [Except.ok.injEq] at h
        subst h
        exact Native.heightAll_lt_of_sequence? hs
    · simp at h

/-- An array whose elements have a form of their own: strings, or bytes. -/
def packFlat? [Codecs] (settings : Settings) (element : SigType) (x : Native) :
    Option (Except Error Variant) :=
  match element with
  | .basic (.text .string) =>
    some (match x.sequence? with
      | some items => Variant.ofStrings items
      | none => .error (sequenceError .stringArray x))
  | .basic (.integer .byte) => some ((byteBlob settings.textEncoding x).map .bytes)
  | _ => none

/-- How many types the text holds up to the bracket that closes a tuple. -/
def missingMembers (settings : Settings) (signature : String) (depth : Int) (text : List Char) :
    Except Error Nat :=
  match (Signature.readWithin ⟨false, settings.maxDepth⟩ (depth - 1) false
      (.type [.tuple []]) text).1 with
  | .ok (.tuple members) => .ok members.length
  | .ok _ => .ok 0
  | .error refusal => .error (refusal.error settings.maxDepth signature)

end Pack

end TypedVariant
