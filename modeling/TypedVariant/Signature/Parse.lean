import TypedVariant.Error

/-! # Signatures and patterns as whole texts

A signature holds exactly one complete type, a pattern one that may contain
wildcards, and the text of a signature value any number of complete types. Here
refusals of the reader become errors that quote the text. Whether a variant is of
a type is asked of its type string, which is read as a signature within the
greatest depth that settings may allow.
-/

namespace TypedVariant

/-- What is given where a type is wanted: text, a type, or a value that is neither. -/
inductive TypeSource
  | text (text : String)
  | type (type : SigType)
  | other (kind : String)

def TypeSource.ofNative : Native → TypeSource
  | Native.text given => .text given
  | Native.sigType given => .type given
  | x => .other x.kindName

namespace Signature

def Refusal.error (maxDepth : Int) (text : String) : Refusal → Error
  | .fault cause => .malformed text cause
  | .tooDeep => .tooDeep maxDepth

def textOf : Native → Except Error String
  | .text text => .ok text
  | x => .error (.signatureKind x.kindName)

/-- Reads a text that is exactly one type; what is left over is refused as `tail`. -/
def readWhole (rules : Rules) (tail : Error) (text : String) : Except Error SigType :=
  match readOne rules 0 false text.toList with
  | (.ok type, []) => .ok type
  | (.ok _, _ :: _) => .error tail
  | (.error refusal, _) => .error (refusal.error rules.maxDepth text)

def parse (maxDepth : Int) (text : String) : Except Error SigType :=
  if text.isEmpty then .error .emptySignature
  else readWhole ⟨false, maxDepth⟩ (.signatureTail text) text

def parsePattern (maxDepth : Int) (text : String) : Except Error SigType :=
  if text.isEmpty then .error .emptyPattern
  else readWhole ⟨true, maxDepth⟩ (.patternTail text) text

def parseAll (maxDepth : Int) (text : String) : Except Error (List SigType) :=
  (readAll ⟨false, maxDepth⟩ 0 text.toList).mapError (Refusal.error maxDepth text)

/-- Whether a text is a signature within the default depth. -/
def isValid (text : String) : Bool :=
  (parse defaultMaxDepth text).isOk

/-- Whether a text is any number of types within the default depth. -/
def isValidSequence (text : String) : Bool :=
  (parseAll defaultMaxDepth text).isOk

/-- A type, or the kind of the value in its place. -/
abbrev Subject := Except String SigType

/-- What a source stands for as a definite type. -/
def typeOf (maxDepth : Int) : TypeSource → Except Error Subject
  | .text text => (parse maxDepth text).map .ok
  | .type type => .ok (.ok type)
  | .other kind => .ok (.error kind)

/-- What a source stands for as a pattern. -/
def patternOf (maxDepth : Int) : TypeSource → Except Error Subject
  | .text text => (parsePattern maxDepth text).map .ok
  | .type type => .ok (.ok type)
  | .other kind => .ok (.error kind)

/-- Whether a subject is covered by a pattern. What is no type is covered by the wildcard for any
type alone, and covers what is of its own kind. -/
def subjectMatches : (pattern subject : Subject) → Bool
  | .ok p, .ok t => p.covers t
  | .ok (.wildcard .anyType), .error _ => true
  | .error j, .error k => j == k
  | _, _ => false

/-- Whether a type is covered by a pattern; the depth limits what is given as text. -/
def typeMatches (maxDepth : Int) (type pattern : TypeSource) : Except Error Bool := do
  let t ← typeOf maxDepth type
  let p ← patternOf maxDepth pattern
  return subjectMatches p t

end Signature

end TypedVariant

namespace TypedVariant.Variant

/-- Whether the type of a variant is covered by a pattern. -/
def isOfType (v : Variant) (pattern : TypeSource) : Except Error Bool :=
  Signature.typeMatches maxDepthLimit (.text v.typeString) pattern

/-- The type string of a type under which a container may be built; it must be definite. -/
def elementTypeString (source : TypeSource) : Except Error String := do
  match ← Signature.typeOf maxDepthLimit source with
  | .ok type => if type.isDefinite then return type.text else throw (.indefiniteType type.text)
  | .error kind => throw (.missingOperation kind "is_definite")

end TypedVariant.Variant
