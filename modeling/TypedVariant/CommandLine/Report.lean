import TypedVariant.CommandLine.Request

/-! # Runs of the program

The first argument names the command, and may be preceded by a wish for notes. A
run ends with a report, from which its output and its exit are read off.
-/

namespace TypedVariant.CommandLine

/-- How a run ends. -/
inductive Outcome
  | help (command : Option Command)
  | usage (command : Command)
  | unknownCommand (name : String)
  | failed (cause : Failure)
  /-- A failure that the program is not prepared for. -/
  | broken (cause : Failure)
  | answered (text : String)

structure Report where
  notes : List String
  outcome : Outcome

/-- The exit of a program: it simply ends, or with a code, or with a message. -/
inductive Exit
  | plain
  | code (n : Nat)
  | message (text : String)
  deriving DecidableEq, Repr

def Outcome.exit : Outcome → Exit
  | help none => .plain
  | help (some _) | answered _ => .code 0
  | failed (.notJson message) => .message (Failure.notJson message).message
  | broken cause => .message cause.message
  | usage _ | unknownCommand _ | failed _ => .code 2

def usageLine (command : Command) : String :=
  let value (flag : Flag) : String := if flag.takesValue then " ..." else ""
  let options := command.longFlags.map (fun entry => "[" ++ entry.1 ++ value entry.2 ++ "]")
  "usage: " ++ " ".intercalate (command.name :: (options ++ command.places)) ++ "\n"

def helpText : Option Command → String
  | none =>
      "usage: varcodec [--debug] command ...\n\ncommands:\n" ++
        String.join (Command.all.map (fun command => "  " ++ command.name ++ "\n"))
  | some command => usageLine command

def Report.output (r : Report) : String :=
  match r.outcome with
  | .help command => helpText command
  | .answered text => text ++ "\n"
  | .usage _ | .unknownCommand _ | .failed _ | .broken _ => ""

def Report.noteLines (r : Report) : String :=
  String.join (r.notes.map (· ++ "\n"))

/-- What a run writes beside its output; an exit with a message comes on top. -/
def Report.diagnostics (r : Report) : String :=
  r.noteLines ++
    match r.outcome with
    | .usage command => usageLine command
    | .unknownCommand name => "Unknown command: " ++ name ++ "\n"
    | .failed (.notJson _) | .broken _ => ""
    | .failed cause => "[ERROR] " ++ cause.message ++ "\n"
    | .help _ | .answered _ => ""

/-- The report on an invocation; notes are only shown on request. -/
def Invocation.report [Codecs] [Coercion] (environment : Settings.Environment)
    (files : Settings.Files) (wantsNotes : Bool) (i : Invocation) : Report :=
  let answer := i.answer environment files
  ⟨if wantsNotes then answer.notes else [],
    match answer.result with
    | .ok text => .answered text
    | .error cause => if cause.isExpected then .failed cause else .broken cause⟩

def notesFlag : String := "--debug"

/-- What the arguments ask for: an invocation, with or without notes, or a run that ends at once. -/
def interpret (arguments : List String) : Except Outcome (Bool × Invocation) :=
  let (wantsNotes, rest) :=
    match arguments with
    | first :: rest => if first = notesFlag then (true, rest) else (false, first :: rest)
    | [] => (false, [])
  match rest with
  | [] => .error (.help none)
  | name :: texts =>
    match Command.ofName? name with
    | none => .error (.unknownCommand name)
    | some command =>
      match invocation command texts with
      | .ok i => .ok (wantsNotes, i)
      | .error .help => .error (.help (some command))
      | .error .usage => .error (.usage command)

def run [Codecs] [Coercion] (environment : Settings.Environment) (files : Settings.Files)
    (arguments : List String) : Report :=
  match interpret arguments with
  | .error outcome => ⟨[], outcome⟩
  | .ok (wantsNotes, i) => i.report environment files wantsNotes

end TypedVariant.CommandLine
