import TypedVariant.Text.Character
import TypedVariant.Text.Numeral

/-! # Arguments of the command line

Options and positional arguments may come in any order. An option may be
shortened as far as it stays unambiguous, and has its value behind an equals sign
or in the next argument. Two dashes end the options, and an argument that looks
like a negative number, or holds a space, is none. Where two dashes stand as a
value themselves, the value is blank. A request for help is granted as soon as it
is met; everything else that does not fit is a matter of usage.
-/

namespace TypedVariant.CommandLine

inductive Command
  | parse | pack | roundtrip
  deriving DecidableEq, Repr

inductive Flag
  | help | annotate | recursive | config | maxDepth
  deriving DecidableEq, Repr

namespace Command

def all : List Command :=
  [parse, pack, roundtrip]

def name : Command → String
  | parse => "parse"
  | pack => "pack"
  | roundtrip => "roundtrip"

def ofName? (name : String) : Option Command :=
  all.find? (·.name == name)

/-- The names of the positional arguments, all of which are required. -/
def places : Command → List String
  | parse => ["signature"]
  | pack | roundtrip => ["signature", "value"]

def longFlags (command : Command) : List (String × Flag) :=
  let own :=
    match command with
    | parse => []
    | pack => [("--annotate", .annotate)]
    | roundtrip => [("--recursive", .recursive)]
  ("--help", .help) :: (own ++ [("--config", .config), ("--max-depth", .maxDepth)])

def shortHelp : String := "-h"

def flags (command : Command) : List (String × Flag) :=
  (shortHelp, .help) :: command.longFlags

def flag? (command : Command) (name : List Char) : Option Flag :=
  (command.flags.find? (fun entry => entry.1.toList == name)).map Prod.snd

end Command

/-- Why the arguments of a command lead to nothing. -/
inductive Interruption
  | help | usage
  deriving DecidableEq, Repr

/-- What an argument gives where a value is wanted. -/
inductive Given (α : Type)
  /-- Two dashes stand in the place of the value. -/
  | blank
  | value (content : α)
  deriving DecidableEq, Repr

def separatorText : String := "--"

def Given.read {α : Type} (reader : String → Option α) (text : String) : Option (Given α) :=
  if text = separatorText then some .blank else (reader text).map .value

/-- What stands behind the name of an option in the same argument. -/
inductive Attached
  | nothing
  /-- A value behind an equals sign. -/
  | value (text : String)
  /-- More letters behind a single letter, with or without an equals sign between. -/
  | letters (text : List Char)
  deriving DecidableEq, Repr

/-- What stands behind a name, which counts as letters if the name is the short one. -/
def Attached.behind (name : List Char) : Attached → Attached
  | value text =>
    if name = Command.shortHelp.toList then letters text.toList else value text
  | other => other

inductive Argument
  | plain (text : String)
  | option (flag : Flag) (attached : Attached)
  | unknownOption
  | separator
  deriving DecidableEq, Repr

/-- Whether a text is a minus sign with digits, or with digits around a point. One line feed behind
it is tolerated. -/
def looksNegative (text : List Char) : Bool :=
  let isDigit (c : Char) : Bool := (Text.digitValue? c).isSome || c.isDigit
  let body := if text.getLast? == some '\n' then text.dropLast else text
  match body with
  | '-' :: number =>
    match number.dropWhile isDigit with
    | [] => !number.isEmpty
    | '.' :: decimals => !decimals.isEmpty && decimals.all isDigit
    | _ => false
  | _ => false

/-- A text up to its first equals sign, and what follows the sign, if there is one. -/
def splitAtEquals (text : List Char) : List Char × Attached :=
  let name := text.takeWhile (· != '=')
  match text.drop name.length with
  | [] => (name, .nothing)
  | _ :: value => (name, .value (String.ofList value))

/-- The options that an argument may stand for if it is not the full name of one. -/
def abbreviated (command : Command) (text : List Char) : List Argument :=
  match text with
  | '-' :: '-' :: _ =>
    let (name, attached) := splitAtEquals text
    (command.longFlags.filter (fun entry => name.isPrefixOf entry.1.toList)).map
      (fun entry => .option entry.2 attached)
  | '-' :: 'h' :: rest => [.option .help (.letters rest)]
  | _ => []

/-- The form of an argument that stands before the end of the options. -/
def classify (command : Command) (text : List Char) : Except Interruption Argument :=
  let plain := Argument.plain (String.ofList text)
  match text with
  | '-' :: _ :: _ =>
    if text = separatorText.toList then .ok .separator
    else
      let (name, attached) := splitAtEquals text
      -- A full name comes first, as it stands or up to an equals sign; what begins one comes after.
      match command.flag? text, command.flag? name with
      | some flag, _ => .ok (.option flag .nothing)
      | none, some flag => .ok (.option flag (attached.behind name))
      | none, none =>
        match abbreviated command text with
        | [option] => .ok option
        | _ :: _ :: _ => .error .usage
        | [] =>
          if looksNegative text || text.contains ' ' then .ok plain else .ok .unknownOption
  | _ => .ok plain

/-- The forms of all arguments; behind the end of the options every one is plain. -/
def classifyAll (command : Command) : List String → Except Interruption (List Argument)
  | [] => .ok []
  | text :: rest => do
    match ← classify command text.toList with
    | .separator => return .separator :: rest.map .plain
    | argument => return argument :: (← classifyAll command rest)

def Flag.takesValue : Flag → Bool
  | config | maxDepth => true
  | help | annotate | recursive => false

/-- Attaches the plain arguments that are the values of the options in front of them. -/
def attachValues : List Argument → List Argument
  | .option flag .nothing :: .plain value :: rest =>
    if flag.takesValue then .option flag (.value value) :: attachValues rest
    else .option flag .nothing :: .plain value :: attachValues rest
  | argument :: rest => argument :: attachValues rest
  | [] => []

/-- What the arguments of a command say. -/
structure Arguments where
  places : List (Given String) := []
  annotate : Bool := false
  recursive : Bool := false
  config : Option (Given String) := none
  maxDepth : Option (Given Int) := none
  deriving DecidableEq, Repr

/-- What the end of the options belongs to, by where it stands. -/
inductive Neighbour
  /-- A positional argument has just been taken. -/
  | before
  /-- The end of the options waits for the positional argument behind it. -/
  | after
  | none
  deriving DecidableEq, Repr

structure Reading where
  arguments : Arguments := {}
  /-- Whether an argument had no place. -/
  stray : Bool := false
  neighbour : Neighbour := .none

namespace Reading

def isOpen (command : Command) (r : Reading) : Bool :=
  decide (r.arguments.places.length < command.places.length)

/-- Takes a positional argument. Two dashes leave it blank, unless they follow the end of the
options at once, which then takes the place of the one that is left out. -/
def addPlain (command : Command) (r : Reading) (text : String) : Reading :=
  if r.isOpen command then
    let given :=
      if text = separatorText ∧ r.neighbour ≠ .after then Given.blank else .value text
    { r with
      arguments := { r.arguments with places := r.arguments.places ++ [given] }
      neighbour := .before }
  else { r with stray := true }

/-- Takes the end of the options, which belongs to the positional argument next to it. -/
def addSeparator (command : Command) (r : Reading) : Reading :=
  if r.neighbour = .before then r
  else if r.isOpen command then { r with neighbour := .after }
  else { r with stray := true }

/-- Takes an option with its value, if it has one. Letters or a value behind a short request for
help must be more of the same. -/
def addOption (r : Reading) (flag : Flag) (attached : Attached) : Except Interruption Reading :=
  let changed (arguments : Arguments) : Except Interruption Reading :=
    .ok { r with arguments := arguments }
  match flag, attached with
  | .help, .nothing => .error .help
  | .help, .letters text => .error (if !text.isEmpty && text.all (· == 'h') then .help else .usage)
  | .annotate, .nothing => changed { r.arguments with annotate := true }
  | .recursive, .nothing => changed { r.arguments with recursive := true }
  | .config, .value path => changed { r.arguments with config := Given.read some path }
  | .maxDepth, .value numeral =>
    match Given.read Numeral.intOfText? numeral with
    | some given => changed { r.arguments with maxDepth := some given }
    | none => .error .usage
  | _, _ => .error .usage

def step (command : Command) (r : Reading) : Argument → Except Interruption Reading
  | .plain text => .ok (r.addPlain command text)
  | .separator => .ok (r.addSeparator command)
  | .unknownOption => .ok { r with stray := true, neighbour := .none }
  | .option flag attached => (r.addOption flag attached).map ({ · with neighbour := .none })

/-- What the arguments say at their end, where no place may be open and nothing may be left over. -/
def finish (command : Command) (r : Reading) : Except Interruption Arguments :=
  if r.stray || r.isOpen command then .error .usage else .ok r.arguments

end Reading

def readArguments (command : Command) (texts : List String) : Except Interruption Arguments := do
  let arguments := attachValues (← classifyAll command texts)
  (← arguments.foldlM (Reading.step command) {}).finish command

end TypedVariant.CommandLine
