import TypedVariant.Settings.Basic
import TypedVariant.Settings.Toml

/-! # Where settings come from

Each field is taken from the environment if it is set there, else from a
configuration file, else from the defaults. Two files are looked for, and the
first table in them that is not empty counts. Only known fields are read from
either source.
-/

namespace TypedVariant.Settings

inductive LoadError
  | notAnInteger (name value : String)
  | invalid (fields : List String)
  | unreadable (file : String)
  /-- A path holds a name that no file can have. -/
  | overlongName (path : String)
  /-- A file holds an integer of too many digits. -/
  | overlongInteger (digits : Nat)
  deriving DecidableEq, Repr

def LoadError.message : LoadError → String
  | notAnInteger name value => name ++ " must be an integer (got " ++ Text.shown value ++ ")"
  | invalid _ => "invalid codec settings"
  | unreadable file => "cannot read " ++ file
  | overlongName path => "[Errno 36] File name too long: " ++ Text.shown path
  | overlongInteger digits => Numeral.overlongMessage (some digits)

/-- Whether loading is prepared for the failure. -/
def LoadError.isExpected : LoadError → Bool
  | notAnInteger _ _ | invalid _ | unreadable _ => true
  | overlongName _ | overlongInteger _ => false

abbrev Environment := List (String × String)

inductive FileState
  | missing
  | directory
  | file (content : String)
  /-- The path is refused, for a name in it or as a whole is too long. -/
  | overlong
  deriving DecidableEq, Repr

abbrev Files := String → FileState

/-- Changes the known fields among named values. -/
def override [Codecs] [Coercion] (base : Settings) (values : List (String × Native)) :
    Except LoadError Settings :=
  (update base values).mapError .invalid

/-- A variable of the environment, if it is set and not empty. -/
def setVariable? (environment : Environment) (name : String) : Option String :=
  ((environment.find? (·.1 == name)).map Prod.snd).filter (!·.isEmpty)

def defaultVariableStart : String := "VARCODEC_"

def depthVariable (start : String) : String :=
  start ++ "MAX_DEPTH"

def encodingVariable (start : String) : String :=
  start ++ "TEXT_ENCODING"

def fromEnvironment [Codecs] [Coercion] (environment : Environment) (start : String)
    (base : Settings) : Except LoadError Settings := do
  let depth ←
    -- A limit that is no integer is refused before any field is checked.
    match setVariable? environment (depthVariable start) with
    | none => pure []
    | some value =>
      match Numeral.intOfText? value with
      | some n => pure [(maxDepthName, Native.int n)]
      | none => throw (.notAnInteger (depthVariable start) value)
  let encoding :=
    match setVariable? environment (encodingVariable start) with
    | none => []
    | some value => [(textEncodingName, Native.text value)]
  base.override (depth ++ encoding)

def memberOf (name : String) : Native → Option Native
  | .map entries => Native.lookup? (.text name) entries
  | _ => none

def ownFile : String := "varcodec.toml"

def projectFile : String := "pyproject.toml"

/-- The table of a file that holds settings: a project file keeps it among its tools, another file
under a name of its own or as a whole. -/
def tableOf (file : String) (content : Toml.Table) : Native :=
  if file = projectFile then
    (((memberOf "tool" (.map content)).bind (memberOf "varcodec"))).getD .null
  else
    match memberOf "codec" (.map content) with
    | some (.map entries) => .map entries
    | _ => .map content

def fileName (path : String) : String :=
  String.ofList ((path.toList.reverse.takeWhile (· != '/')).reverse)

/-- The directory in which relative paths start. -/
def currentDirectory : String := "."

/-- The parts of a path that lead anywhere: those that are not empty and do not stay where they
are. -/
def pathParts (path : String) : List String :=
  (path.splitOn "/").filter (fun part => !part.isEmpty && part != currentDirectory)

/-- A path of the parts alone that lead anywhere. -/
def cleanPath (path : String) : String :=
  let parts := pathParts path
  if path.startsWith "/" then "/" ++ "/".intercalate parts
  else if parts.isEmpty then currentDirectory
  else "/".intercalate parts

/-- Goes through files, in order, up to the first whose table is not empty. A table that is empty
gives way to that of a later file that exists. -/
def selectTable (files : Files) : (paths : List String) → (found : Native) →
    Except LoadError Native
  | [], found => .ok found
  | path :: rest, found =>
    match files path with
    | .missing => selectTable files rest found
    | .directory => .error (.unreadable (fileName path))
    | .overlong => .error (.overlongName path)
    | .file content =>
      match Toml.read content with
      | .error .malformed => .error (.unreadable (fileName path))
      | .error (.overlongInteger digits) => .error (.overlongInteger digits)
      | .ok table =>
        let found := tableOf (fileName path) table
        if found.isTruthy then .ok found else selectTable files rest found

def namedValues : Native → List (String × Native)
  | .map entries => entries.filterMap (fun entry =>
      match entry.1 with
      | .text name => some (name, entry.2)
      | _ => none)
  | _ => []

/-- The files that are looked for: the given one, or else the usual two. -/
def candidates : (path : Option String) → List String
  | some path => [cleanPath path]
  | none => [ownFile, projectFile]

/-- The settings of the configuration files, or of the one that is given. -/
def fromFiles [Codecs] [Coercion] (files : Files) (path : Option String) :
    Except LoadError Settings := do
  let table ← selectTable files (candidates path) .null
  ({} : Settings).override (namedValues table)

/-- The settings of the environment on top of those of the configuration files. -/
def load [Codecs] [Coercion] (environment : Environment) (files : Files) (path : Option String) :
    Except LoadError Settings := do
  fromEnvironment environment defaultVariableStart (← fromFiles files path)

end TypedVariant.Settings
