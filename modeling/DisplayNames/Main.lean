import DisplayNames.CommandLine.Run

/-!
# The program

Reads the files that the command line names, runs it on their contents and prints the outcome.
-/

set_option relaxedAutoImplicit false
set_option autoImplicit false

open DisplayNames

/-- The bytes of a file, if it can be read. -/
def readBytes (path : String) : IO (Option ByteArray) := do
  try
    return some (← IO.FS.readBinFile path)
  catch _ => return none

/-- The contents of the files that a command line names. -/
def namedFiles (arguments : List String) : IO CommandLine.Files := do
  match CommandLine.parse arguments with
  | .error _ => return fun _ => none
  | .ok options =>
    let paths := options.config.toList ++ [options.document]
    let contents ← paths.mapM fun path => do return (path, ← readBytes path)
    return fun path => (contents.lookup path).join

/-- Runs the command line. -/
def main (arguments : List String) : IO UInt32 := do
  let outcome := CommandLine.runArguments (← namedFiles arguments) arguments
  (← IO.getStdout).putStr outcome.output
  (← IO.getStderr).putStr outcome.errors
  match outcome.ending with
  | .exit code => return code.toUInt32
  | .undecodable | .endless => return 1
