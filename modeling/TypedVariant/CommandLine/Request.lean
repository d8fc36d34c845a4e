import TypedVariant.CommandLine.Arguments
import TypedVariant.Json.Reader
import TypedVariant.Json.Writer
import TypedVariant.Log.Record
import TypedVariant.Settings.Load
import TypedVariant.Variant.Printer

/-! # What the program is asked for and what it answers

A request is one command with its arguments. A run ends with an answer on one
side, or with a refusal that says whether it was the usage, the value's JSON, the
settings, or the codec that did not fit.
-/

namespace TypedVariant.CommandLine

inductive Request
  | parse (signature : String)
  | pack (signature : String) (value : Given String) (annotate : Bool)
  | roundtrip (signature : String) (value : Given String) (recursive : Bool)
  deriving DecidableEq, Repr

/-- A request, and what bears on its settings. -/
structure Invocation where
  request : Request
  config : Option (Given String)
  maxDepth : Option (Given Int)
  deriving DecidableEq, Repr

def Arguments.request? (command : Command) (a : Arguments) : Option Request :=
  match command, a.places with
  | .parse, [.value signature] => some (.parse signature)
  | .pack, [.value signature, value] => some (.pack signature value a.annotate)
  | .roundtrip, [.value signature, value] => some (.roundtrip signature value a.recursive)
  | _, _ => none

def invocation (command : Command) (texts : List String) : Except Interruption Invocation := do
  let a ← readArguments command texts
  match a.request? command with
  | some request => return ⟨request, a.config, a.maxDepth⟩
  | none => throw .usage

inductive Failure
  | codec (cause : Error)
  | settings (cause : Settings.LoadError)
  | json (cause : Json.WriteError)
  /-- The value is not JSON; the message says where. -/
  | notJson (message : String)
  | blankValue
  | blankPath

def Failure.message : Failure → String
  | codec cause => cause.message
  | settings cause => cause.message
  | json cause => cause.message
  | notJson message => "VALUE must be JSON: " ++ message
  | blankValue => "the JSON object must be str, bytes or bytearray, not list"
  | blankPath => "expected str, bytes or os.PathLike object, not list"

def Failure.isExpected : Failure → Bool
  | codec cause => cause.kind.isRecoverable
  | settings cause => cause.isExpected
  | notJson _ => true
  | json _ | blankValue | blankPath => false

def configPath : Option (Given String) → Except Failure (Option String)
  | none => .ok none
  | some (.value path) => .ok (some path)
  | some .blank => .error .blankPath

/-- The native value of what is given for the nesting limit; what is blank is not a number. -/
def Given.limit : Given Int → Native
  | blank => .list []
  | value n => .int n

def Invocation.settings [Codecs] [Coercion] (environment : Settings.Environment)
    (files : Settings.Files) (i : Invocation) : Except Failure Settings := do
  let path ← configPath i.config
  let loaded ← (Settings.load environment files path).mapError .settings
  match i.maxDepth with
  | none => return loaded
  | some given => (loaded.override [(Settings.maxDepthName, given.limit)]).mapError .settings

def readValue : Given String → Except Failure Native
  | .blank => .error .blankValue
  | .value text => (Json.read text).mapError (fun fault => .notJson (fault.message text))

def packedNote (signature : String) : String :=
  ":".intercalate [Log.levelName 10, "varcodec.codec.pack",
    "packed value against " ++ Text.shown signature]

/-- An answer, or the failure in its place, with the notes taken on the way. -/
structure Answer where
  notes : List String
  result : Except Failure String

namespace Answer

def ofFailure (cause : Failure) : Answer :=
  ⟨[], .error cause⟩

/-- Packs a value and answers with what is made of the variant. -/
def ofPacked [Codecs] (settings : Settings) (signature : String) (x : Native)
    (next : Variant → Except Failure String) : Answer :=
  match packText settings signature x with
  | .error cause => ofFailure (.codec cause)
  | .ok v => ⟨[packedNote signature], next v⟩

end Answer

def unpackedJson (settings : Settings) (recursive : Bool) (v : Variant) :
    Except Failure String := do
  let x ← (v.unpack settings (.ofFlags true recursive)).mapError .codec
  (Json.write x).mapError .json

/-- The answer to an invocation. A value is read before the settings where it is only packed, and
after them where it is unpacked again. -/
def Invocation.answer [Codecs] [Coercion] (environment : Settings.Environment)
    (files : Settings.Files) (i : Invocation) : Answer :=
  match i.request with
  | .parse signature =>
    match i.settings environment files with
    | .error cause => .ofFailure cause
    | .ok settings =>
      match Signature.parse settings.maxDepth signature with
      | .error cause => .ofFailure (.codec cause)
      | .ok type => ⟨[], .ok (String.intercalate "\n" (type.outline 0))⟩
  | .pack signature value annotate =>
    match readValue value with
    | .error cause => .ofFailure cause
    | .ok x =>
      match i.settings environment files with
      | .error cause => .ofFailure cause
      | .ok settings => .ofPacked settings signature x (fun v => .ok (v.printed annotate))
  | .roundtrip signature value recursive =>
    match i.settings environment files with
    | .error cause => .ofFailure cause
    | .ok settings =>
      match readValue value with
      | .error cause => .ofFailure cause
      | .ok x => .ofPacked settings signature x (unpackedJson settings recursive)

end TypedVariant.CommandLine
