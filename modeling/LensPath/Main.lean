import LensPath.Run

/-!
The program `lensc`: reads the file that a command names, runs the command, and puts out what
comes of it.
-/

namespace LensPath

def readInput (file : String) : IO (Except FileFault ByteArray) := do
  try
    return .ok (← IO.FS.readBinFile file)
  catch error =>
    match error with
    | .noFileOrDirectory .. => return .error .missing
    | .inappropriateType _ 21 _ => return .error .directory
    | .inappropriateType .. => return .error .notDirectory
    | .invalidArgument .. => return .error .nameTooLong
    | other => return .error (.other (toString other))

def printErrorLines (lines : List String) : IO Unit :=
  lines.forM IO.eprintln

def runCommand (verbosity : Nat) (command : Command) : IO UInt32 := do
  let content ←
    match command.inputFile? with
    | some file => readInput file
    | none => pure (.error .missing)
  let (run, filter) := command.runLogged (fun _ => content) (← IO.getEnv "RUST_LOG") verbosity
  IO.print run.stdout
  printErrorLines (run.stderrLines filter)
  match run.ending with
  | .faulted fault => IO.eprintln fault.message
  | .unfiltered => IO.eprintln "the log filter is cut inside a character"
  | _ => pure ()
  return run.ending.exitCode.toUInt32

def runArguments (arguments : List String) : IO UInt32 := do
  match Command.ofArguments? arguments with
  | some .help => IO.print Command.usageText; return 0
  | some .version => IO.print Command.versionText; return 0
  | some (.run verbosity command) => runCommand verbosity command
  | none => IO.eprint Command.usageText; return 2

end LensPath

def main (arguments : List String) : IO UInt32 := LensPath.runArguments arguments
