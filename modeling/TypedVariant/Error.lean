import TypedVariant.Native.Shown
import TypedVariant.Signature.Reader
import TypedVariant.Text.Encoding

/-! # Errors of the codec

An error is a cause: what was wrong, with the values that a message needs. Its
kind says which rule of the codec was broken, and its message is its only text.
-/

namespace TypedVariant

/-- The rules an input can break. -/
inductive ErrorKind
  | grammar
  | variantType
  | unsupportedValue
  | valueRange
  | depthLimit
  | internalConsistency
  | index
  /-- A value of the right kind that an operation cannot use. -/
  | value
  /-- A value of a kind that an operation cannot use. -/
  | operand
  | missingOperation
  | overflow
  | memory
  | encodingLookup
  /-- A failure of an encoding that is not for want of a character. -/
  | textCoding
  deriving DecidableEq, Repr

/-- Whether the kind is one of the codec's own, for which its callers are prepared. -/
def ErrorKind.isRecoverable : ErrorKind → Bool
  | grammar | variantType | unsupportedValue | valueRange | depthLimit => true
  | internalConsistency | index | value | operand | missingOperation | overflow | memory
  | encodingLookup | textCoding => false

inductive SequenceUse
  | stringArray | array | tuple | dictEntry
  deriving DecidableEq, Repr

def SequenceUse.words : SequenceUse → String
  | stringArray => "a string array"
  | array => "an array"
  | tuple => "a tuple"
  | dictEntry => "a dictionary entry"

inductive Error
  | emptySignature
  | emptyPattern
  | signatureKind (kind : String)
  | malformed (signature : String) (fault : Signature.Fault)
  | signatureTail (signature : String)
  | patternTail (pattern : String)
  /-- Packing reached the end of the signature. -/
  | typeExpected (signature : String)
  | unexpectedLetter (signature : String) (found : Char)
  /-- An absent maybe of a variant, which would leave its type open. -/
  | untypedNothing (signature : String)
  | tooDeep (maxDepth : Int)
  | notASequence (use : SequenceUse) (kind : String)
  | notAMap (type : String) (kind : String)
  | tupleSize (expected given : Nat)
  | entrySize (given : Nat)
  | indefiniteType (type : String)
  | maybeContent (found expected : String)
  | arrayElement (found expected : String)
  | maybeTypeMissing
  | arrayTypeMissing
  | notAStringVector (kind : String)
  | containerKey (type : String)
  | noChildren (type : String)
  | wrongAccessor (accessor type : String)
  | notADictionary
  | notEncodable (kind what : String)
  | notWhole (value : Native)
  | notExactDouble (value : Native)
  | variantRequired (what kind : String)
  | notBytes (kind : String)
  /-- A variant met a basic type, where only a box takes variants. -/
  | unboxedVariant (code : BasicCode)
  | noIntrinsicType (kind : String)
  | rawDataUnavailable (type : String)
  | notBuiltFromBytes (type : String)
  | unsupportedField (value : Native)
  | integerRange (code : IntegerCode)
  | doubleRange
  | nulInText (code : TextCode)
  | invalidObjectPath (text : String)
  | invalidSignatureText (text : String)
  | unencodable (encoding message : String)
  | byteRange
  | unknownTag (tag : String)
  | childIndex (index : Native) (count : Nat)
  /-- A number with a decimal point where a place among items, or bytes, is wanted. -/
  | decimalIndex (sequence : String)
  | unorderedIndex (kind : String)
  | unorderedDepth (kind : String)
  | positionIndex
  /-- A position behind the end of the text, where no length is left. -/
  | negativeLength
  | notIterable (kind : String)
  | noSize (kind : String)
  /-- An item that should be a pair of key and value has no parts. -/
  | indivisiblePair (index : Nat)
  | pairSize (index size : Nat)
  | unusableKey (kind : String)
  | notSearchable (kind : String)
  | textOperand (kind : String)
  | bytesOperand (kind : String)
  | byteOperand
  /-- A value is asked for something that no value of its kind can do. -/
  | missingOperation (kind operation : String)
  | hugeCount
  /-- A range of more items than a machine word counts. -/
  | overlongRange
  | overlongBlob
  | outOfMemory
  | unknownEncoding (name : String)
  | notATextEncoding (name : String)
  | encodingFailed (message : String)
  | nulInEncoding
  | encodingKind (kind : String)
  /-- An integer has too many digits to be written. -/
  | overlongInteger

namespace Error

def kind : Error → ErrorKind
  | emptySignature | emptyPattern | signatureKind _ | malformed _ _ | signatureTail _
  | patternTail _ | typeExpected _ | unexpectedLetter _ _ | untypedNothing _ => .grammar
  | tooDeep _ => .depthLimit
  | notASequence _ _ | notAMap _ _ | tupleSize _ _ | entrySize _ | indefiniteType _
  | maybeContent _ _ | arrayElement _ _ | maybeTypeMissing | arrayTypeMissing
  | notAStringVector _ | containerKey _ | noChildren _ | wrongAccessor _ _
  | notADictionary => .variantType
  | notEncodable _ _ | notWhole _ | notExactDouble _ | variantRequired _ _ | notBytes _
  | unboxedVariant _ | noIntrinsicType _ | rawDataUnavailable _ | notBuiltFromBytes _
  | unsupportedField _ => .unsupportedValue
  | integerRange _ | doubleRange | nulInText _ | invalidObjectPath _ | invalidSignatureText _
  | unencodable _ _ | byteRange => .valueRange
  | unknownTag _ => .internalConsistency
  | childIndex _ _ | positionIndex => .index
  | negativeLength | pairSize _ _ | byteOperand | nulInEncoding | overlongInteger => .value
  | notIterable _ | noSize _ | indivisiblePair _ | unusableKey _ | decimalIndex _
  | unorderedIndex _ | unorderedDepth _ | notSearchable _ | textOperand _ | bytesOperand _
  | encodingKind _ => .operand
  | missingOperation _ _ => .missingOperation
  | hugeCount | overlongRange | overlongBlob => .overflow
  | outOfMemory => .memory
  | unknownEncoding _ | notATextEncoding _ => .encodingLookup
  | encodingFailed _ => .textCoding

def shownLetter (c : Char) : String :=
  Text.shown (String.singleton c)

/-- What is said of a malformed signature behind its text. -/
def faultMessage : Signature.Fault → String
  | .unexpectedEnd => ": unexpected end of signature"
  | .simpleExpected found => ": a simple type was expected (got " ++ shownLetter found ++ ")"
  | .elementMissing container =>
      ": " ++ shownLetter container ++ " must be followed by a complete type"
  | .keyMissing => " for type DICT_ENTRY (expected a key type)"
  | .valueMissing => " for type DICT_ENTRY (expected a value type)"
  | .entryUnclosed => " for type DICT_ENTRY (expected \"\x7d\")"
  | .tupleUnclosed => " for type TUPLE (expected \")\")"
  | .notAType found => ": " ++ shownLetter found ++ " is not a valid type"

def inSignature (signature rest : String) : String :=
  "invalid signature " ++ Text.shown signature ++ rest

def noOrder (relation left right : String) : String :=
  "\x27" ++ relation ++ "\x27 not supported between instances of \x27" ++ left ++ "\x27 and \x27" ++
    right ++ "\x27"

def gotKind (subject kind : String) : String :=
  subject ++ " (got " ++ kind ++ ")"

def message : Error → String
  | emptySignature => "signature cannot be empty"
  | emptyPattern => "type pattern cannot be empty"
  | signatureKind kind => gotKind "signature must be a str" kind
  | malformed signature fault => inSignature signature (faultMessage fault)
  | signatureTail signature => inSignature signature " (more than one single complete type)"
  | patternTail pattern =>
      "invalid type pattern " ++ Text.shown pattern ++ " (more than one single complete type)"
  | typeExpected signature => inSignature signature ": expected a complete type"
  | unexpectedLetter signature found =>
      inSignature signature (" (unexpected character " ++ shownLetter found ++ ")")
  | untypedNothing signature =>
      inSignature signature
        (": an absent maybe of variant carries no type information; pass a value or " ++
          "specify a concrete type")
  | tooDeep maxDepth => "nesting depth exceeds the maximum of " ++ toString maxDepth
  | notASequence use kind => gotKind (use.words ++ " needs an ordered sequence") kind
  | notAMap type kind => gotKind ("a dictionary " ++ Text.shown type ++ " needs a mapping") kind
  | tupleSize expected given =>
      "tuple takes " ++ toString expected ++ " values, got " ++ toString given
  | entrySize given =>
      "a dictionary entry needs exactly two values (key, value), got " ++ toString given
  | indefiniteType type => gotKind "container type must be definite" (Text.shown type)
  | maybeContent found expected =>
      "maybe child has type " ++ Text.shown found ++ ", expected " ++ Text.shown expected
  | arrayElement found expected =>
      "array element has type " ++ Text.shown found ++ ", expected " ++ Text.shown expected
  | maybeTypeMissing => "an absent maybe needs an explicit child type"
  | arrayTypeMissing => "an empty array needs an explicit child type"
  | notAStringVector kind => gotKind "a string vector needs a sequence of str" kind
  | containerKey type => gotKind "dictionary key must be a basic type" (Text.shown type)
  | noChildren type => "a value of type " ++ Text.shown type ++ " has no children"
  | wrongAccessor accessor type =>
      accessor ++ "() called on a value of type " ++ Text.shown type
  | notADictionary => "VariantDict needs a container of type \x27a\x7bs*\x7d\x27"
  | notEncodable kind what => "cannot encode " ++ kind ++ " as " ++ what
  | notWhole value => value.shown ++ " must be coercible to int without loss of information"
  | notExactDouble value =>
      value.shown ++ " must be coercible to float without loss of information"
  | variantRequired what kind => gotKind (what ++ " must be a Variant") kind
  | notBytes kind => "cannot use " ++ kind ++ " as a byte sequence"
  | unboxedVariant code =>
      "a Variant can only be packed against \x27v\x27 (signature code " ++
        shownLetter code.letter ++ ")"
  | noIntrinsicType kind =>
      "cannot infer a type for " ++ kind ++ "; pack it explicitly or pass a Variant"
  | rawDataUnavailable type =>
      gotKind "raw data is only available for \x27ay\x27" (Text.shown type)
  | notBuiltFromBytes type => "cannot build " ++ Text.shown type ++ " from raw bytes"
  | unsupportedField value =>
      "Unsupported value " ++ value.shown ++
        "; structured fields support Variant, bytes, and str values"
  | integerRange code =>
      "value is out of range for " ++ code.word ++ " (" ++ toString code.low ++ ".." ++
        toString code.high ++ ")"
  | doubleRange => "integer is out of range for double"
  | nulInText code => code.word ++ " must not contain NUL characters"
  | invalidObjectPath text => Text.shown text ++ " is not a valid object path"
  | invalidSignatureText text => Text.shown text ++ " is not a valid signature"
  | unencodable encoding message => "text cannot be encoded as " ++ encoding ++ ": " ++ message
  | byteRange => "byte values must be in range(0, 256): bytes must be in range(0, 256)"
  | unknownTag tag =>
      "assertion failure: classify() returned " ++ Text.shown tag ++
        ", which is not a known type tag"
  | childIndex index count =>
      "child index " ++ index.asText ++ " out of range for " ++ toString count ++ " children"
  | decimalIndex sequence => sequence ++ " indices must be integers or slices, not float"
  | unorderedIndex kind => noOrder "<=" "int" kind
  | unorderedDepth kind => noOrder ">" kind "int"
  | positionIndex => "string index out of range"
  | negativeLength => "__len__() should return >= 0"
  | notIterable kind => "\x27" ++ kind ++ "\x27 object is not iterable"
  | noSize kind => "object of type \x27" ++ kind ++ "\x27 has no len()"
  | indivisiblePair index =>
      "cannot convert dictionary update sequence element #" ++ toString index ++ " to a sequence"
  | pairSize index size =>
      "dictionary update sequence element #" ++ toString index ++ " has length " ++
        toString size ++ "; 2 is required"
  | unusableKey kind => "unhashable type: \x27" ++ kind ++ "\x27"
  | notSearchable kind => "argument of type \x27" ++ kind ++ "\x27 is not iterable"
  | textOperand kind => "\x27in <string>\x27 requires string as left operand, not " ++ kind
  | bytesOperand kind => "a bytes-like object is required, not \x27" ++ kind ++ "\x27"
  | byteOperand => "byte must be in range(0, 256)"
  | missingOperation kind operation =>
      "\x27" ++ kind ++ "\x27 object has no attribute \x27" ++ operation ++ "\x27"
  | hugeCount => "cannot fit \x27int\x27 into an index-sized integer"
  | overlongRange => "Python int too large to convert to C ssize_t"
  | overlongBlob => "byte string is too large"
  | outOfMemory => ""
  | unknownEncoding name => "unknown encoding: " ++ name
  | notATextEncoding name =>
      "\x27" ++ name ++
        "\x27 is not a text encoding; use codecs.encode() to handle arbitrary codecs"
  | encodingFailed message => message
  | nulInEncoding => "embedded null character"
  | encodingKind kind => "encode() argument \x27encoding\x27 must be str, not " ++ kind
  | overlongInteger => Numeral.overlongMessage none

end Error

/-- Why a value cannot be printed, as an error. -/
def PrintFault.error : PrintFault → Error
  | .foreign operation => .missingOperation (Native.foreign ⟨"", 0⟩).kindName operation
  | .untagged => .positionIndex
  | .wrongTag accessor type => .wrongAccessor accessor type
  | .notAContainer kind => .missingOperation kind "classify"
  | .partless kind => .noSize kind
  | .overlongInteger => .overlongInteger

/-! The text of a value is there unless the value holds what cannot be printed. In that case the
first such part, in the order of printing, is the cause. -/

def Variant.display (v : Variant) (annotate : Bool) : Except Error String :=
  match v.printFault? with
  | some fault => .error fault.error
  | none => .ok (v.printed annotate)

namespace Native

/-- How a diagnostic shows a value. -/
def displayShown (x : Native) : Except Error String :=
  match x.printFault? with
  | some fault => .error fault.error
  | none => .ok x.shown

def display (x : Native) : Except Error String :=
  match x.printFault? with
  | some fault => .error fault.error
  | none => .ok x.asText

/-- The printed form of a container, which may be foreign. -/
def printContainer (annotate : Bool) : Native → Except Error String
  | variant v => v.display annotate
  | foreign container =>
    match container.printRequest? with
    | some operation => .error (PrintFault.foreign operation).error
    | none => .ok (String.ofList (Variant.unprintable container.tag))
  | x => .error (.missingOperation x.kindName "classify")

end Native

end TypedVariant
