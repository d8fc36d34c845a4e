import TypedVariant.CommandLine.Report

/-! # The program

Reads the variables and files that settings may come from, runs, and writes.
-/

open TypedVariant TypedVariant.CommandLine
open scoped TypedVariant.Standard

def readEnvironment : IO Settings.Environment := do
  let names := [Settings.depthVariable Settings.defaultVariableStart,
    Settings.encodingVariable Settings.defaultVariableStart]
  names.filterMapM fun name => do
    return (← IO.getEnv name).map (fun value => (name, value))

/-- What lies at a path; what cannot be read counts as a directory. -/
def readState (path : String) : IO Settings.FileState := do
  try
    return .file (← IO.FS.readFile path)
  catch
    | .noFileOrDirectory .. => return .missing
    | .invalidArgument .. => return .overlong
    | _ => return .directory

/-- What lies at the paths looked for, and nothing elsewhere. -/
def readFiles (paths : List String) : IO Settings.Files := do
  let states ← paths.mapM fun (path : String) => do
    return (path, ← readState path)
  return fun path => ((states.find? (·.1 == path)).map Prod.snd).getD .missing

def main (arguments : List String) : IO UInt32 := do
  let config :=
    match interpret arguments with
    | .ok (_, i) => (configPath i.config).toOption.join
    | .error _ => none
  let files ← readFiles (Settings.candidates config)
  let report := run (← readEnvironment) files arguments
  IO.print report.output
  IO.eprint report.diagnostics
  match report.outcome.exit with
  | .plain => return 0
  | .code n => return n.toUInt32
  | .message text => do
    IO.eprintln text
    return 1
