import QueryShape.CommandLine

/-!
# The program

Reads the arguments, the environment and the catalog file, and writes what `CommandLine.run` says.
-/

set_option autoImplicit false

namespace QueryShape.CommandLine

/-- The file that a command reads. -/
def Command.file? : Command → Option String
  | .compile file _ _ => some file
  | .listVariables file => some file
  | .listFragments file => some file
  | .usage => none

/-- The fault behind an error of the system. -/
def faultOfError : IO.Error → ReadFault
  | .noFileOrDirectory .. => .missing
  | .inappropriateType _ code _ => if code = 20 then .notDirectory else .isDirectory
  | e => .other (toString e)

/-- The text of a file. -/
def readFile (path : String) : IO (Except ReadFault String) := do
  try
    return textOfBytes (← IO.FS.readBinFile path)
  catch e =>
    return .error (faultOfError e)

/-- A way to read the one file that the arguments name. -/
def readerFor (arguments : List String) : IO (String → Except ReadFault String) := do
  match (parse arguments).toOption.bind fun i => i.command.file? with
  | some path =>
    let text ← readFile path
    return fun _ => text
  | none => return fun _ => .error .missing

end QueryShape.CommandLine

open QueryShape.CommandLine in
/-- The entry point. -/
def main (arguments : List String) : IO UInt32 := do
  let stdout ← IO.getStdout
  let env : Environment :=
    { indent := ← IO.getEnv "SHAPEQL_INDENT", logLevel := ← IO.getEnv "RUST_LOG",
      terminal := ← stdout.isTty }
  let outcome := run (← readerFor arguments) env arguments
  for line in outcome.log do
    IO.eprintln line
  stdout.putStr outcome.output
  stdout.flush
  return outcome.code.toUInt32
