import SchemaBridge.CommandLine.Run
/-!
# The command line program

The files that the arguments name are read first; everything else is `CommandLine.run`.
-/
namespace SchemaBridge

open CommandLine

/-- What a file name leads to on this machine. -/
def readFile (name : String) : IO (Except ReadError String) := do
  try
    return decodeFile (← IO.FS.readBinFile name)
  catch e =>
    match e with
    | .noFileOrDirectory .. => return .error .notFound
    | .inappropriateType _ 21 _ => return .error .isDirectory
    | .inappropriateType .. => return .error .notDirectory
    | .invalidArgument .. => return .error .nameTooLong
    | e => return .error (.other (toString e))

/-- Runs the program. -/
def mainWith (args : List String) : IO UInt32 := do
  let contents ← (filesOf args).mapM fun name => do return (name, ← readFile name)
  let files : Files := fun name => (contents.lookup name).getD (.error .notFound)
  let outcome := run args (← IO.getEnv "LOG_LEVEL") files
  for r in outcome.log do
    IO.eprintln s!"{r.level.text} {r.target}: {r.message}"
  IO.print outcome.stdout
  unless outcome.stderr.isEmpty do
    IO.eprintln outcome.stderr
  return UInt32.ofNat outcome.exit

end SchemaBridge

def main (args : List String) : IO UInt32 := SchemaBridge.mainWith args
