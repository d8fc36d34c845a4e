import TypedVariant.Error
import TypedVariant.Json.Writer
import TypedVariant.Log.Template
import TypedVariant.Native.Traversal
import TypedVariant.Pack.Value
import TypedVariant.Unpack

/-! # Log records and loggers

The fields of a record travel as one dictionary of boxed values under string
keys. A field is text, a block of bytes or a variant, and comes back as text,
bytes or what the variant unpacks to through all its boxes. A record has a level,
a message, and possibly fields. Its line is that of a template, followed by the
fields, each as its key and its canonical JSON, in the order of the keys. The
field that holds the message is not repeated.

A logger passes a record on if its level is high enough: first to a writer, which
receives the fields and may have a threshold of its own, then to the lines. A
failure of the writer is noted and does not keep the line from being made.
-/

namespace TypedVariant.Log

def fieldsSignature : String := "a\x7bsv\x7d"

def packField : Native → Except Error Variant
  | .blob _ data => .ok (.bytes data)
  | .text value => Variant.ofText .string (.text value)
  | .variant v => .ok v
  | x =>
    match x.printFault? with
    | some fault => .error fault.error
    | none => .error (.unsupportedField x)

/-- Packs fields. Every field is looked at before any key. -/
def packFields [Codecs] (fields : List (Native × Native)) : Except Error Variant := do
  let packed ← fields.mapM fun (key, field) => do
    return (key, Native.variant (← packField field))
  packText {} fieldsSignature (.map packed)

def unpackFields (packed : Native) : Except Error Native := do
  (← packed.unpackContainer {} .recursive 0).toMap

def messageField : String := "MESSAGE"

structure Record where
  level : Int
  message : String
  fields : Option Variant

inductive Failure
  | codec (cause : Error)
  | json (cause : Json.WriteError)
  | template (cause : TemplateFault)
  | writer (message : String)

def Failure.message : Failure → String
  | codec cause => cause.message
  | json cause => cause.message
  | template cause => cause.message
  | writer message => message

def levelName (level : Int) : String :=
  if level = 10 then "DEBUG"
  else if level = 20 then "INFO"
  else if level = 30 then "WARNING"
  else if level = 40 then "ERROR"
  else if level = 50 then "CRITICAL"
  else "Level " ++ toString level

namespace Record

def plain (level : Int) (message : String) : Record :=
  ⟨level, message, none⟩

/-- A record with fields. Its message is that of the field for it unless one is given. -/
def structured [Codecs] (level : Int) (fields : List (Native × Native))
    (message : Option String) : Except Error Record := do
  let packed ← packFields fields
  match message, Native.lookup? (.text messageField) fields with
  | some said, _ => return ⟨level, said, some packed⟩
  | none, some x => return ⟨level, ← x.display, some packed⟩
  | none, none => return ⟨level, "", some packed⟩

/-- The unpacked fields of a record. -/
def unpacked (r : Record) : Except Error (Option (List (Native × Native))) :=
  match r.fields with
  | none => .ok none
  | some packed => do
    match ← unpackFields (.variant packed) with
    | .map entries => return some entries
    | _ => return some []

/-- The part of a record that a template names. Records have no arguments, tell of no failure, and
come from the main thread of the main process. -/
def part? (logger : String) (r : Record) (name : List Char) : Option Native :=
  match String.ofList name with
  | "levelname" => some (.text (levelName r.level))
  | "levelno" => some (.int r.level)
  | "name" => some (.text logger)
  | "message" | "msg" => some (.text r.message)
  | "varcodec_fields" => r.fields.map .variant
  | "args" => some (.tuple [])
  | "exc_info" | "exc_text" | "stack_info" => some .null
  | "processName" => some (.text "MainProcess")
  | "threadName" => some (.text "MainThread")
  | _ => none

def shownField (entry : Native × Native) : Except Json.WriteError (List Char) :=
  (Json.writeChars entry.2).map (fun value => entry.1.asText.toList ++ '=' :: value)

/-- The fields that stand behind a line, in the order of their keys. -/
def shownFields (fields : List (Native × Native)) : Except Json.WriteError (List (List Char)) :=
  let sorted := fields.mergeSort (fun a b => decide (a.1.asText ≤ b.1.asText))
  (sorted.filter (fun entry => !entry.1.equal (.text messageField))).mapM shownField

/-- The line of a record. -/
def line (template : List Piece) (logger : String) (r : Record) : Except Failure String := do
  let base ← (fill template (r.part? logger)).mapError .template
  let fields ← r.unpacked.mapError .codec
  let shown ← (shownFields (fields.getD [])).mapError .json
  return String.ofList ([' '].intercalate (base :: shown))

/-- What a writer of fields receives: a record without fields is passed on by its message. -/
def forwarded (r : Record) : Except Error (List (Native × Native)) := do
  return (← r.unpacked).getD [(.text messageField, .text r.message)]

end Record

/-- Receives the level and the fields of a record, or fails with a message. -/
abbrev Writer := Int → List (Native × Native) → Except String Unit

structure Logger where
  name : String
  threshold : Int
  writerThreshold : Int
  writer : Writer
  template : List Piece

inductive Event
  | written (level : Int) (fields : List (Native × Native))
  | notWritten (failure : Failure)
  | line (outcome : Except Failure String)

namespace Logger

/-- The level from which on records are passed where no logger says otherwise. -/
def defaultThreshold : Int := 30

/-- The level from which on records are passed on; zero leaves it open. -/
def effectiveThreshold (logger : Logger) : Int :=
  if logger.threshold = 0 then defaultThreshold else logger.threshold

def write (logger : Logger) (r : Record) : Event :=
  match r.forwarded with
  | .error cause => .notWritten (.codec cause)
  | .ok fields =>
    match logger.writer r.level fields with
    | .ok () => .written r.level fields
    | .error message => .notWritten (.writer message)

/-- What a record leads to, in order. Only records with a positive level are passed on. -/
def emit (logger : Logger) (r : Record) : List Event :=
  if r.level ≤ 0 ∨ r.level < logger.effectiveThreshold then []
  else
    (if r.level < logger.writerThreshold then [] else [logger.write r]) ++
      [.line (r.line logger.template logger.name)]

end Logger

end TypedVariant.Log
