import HostBridge.Command.Report

/-!
# The command line

Reads the arguments, the configuration document that they name and the log filter, and writes
the report.
-/

namespace HostBridge

namespace Command

/-- What is found at a path. A path that is blocked already fails to open and is named in the error;
a directory only fails when it is read. -/
def readContent (path : String) : IO BuildConfig.FileContent := do
  try
    let content ← IO.FS.readBinFile path
    pure (.bytes content)
  catch
    | .noFileOrDirectory .. => pure .missing
    | .permissionDenied .. => pure .denied
    | .invalidArgument .. => pure .tooLong
    | .inappropriateType (some _) .. => pure .blocked
    | _ => pure .directory

/-- The path of the configuration document that a command line names. -/
def configPath? : Request → Option String
  | .run arguments => arguments.target.config
  | .version | .help | .misuse => none

/-- What a command finds outside the program. -/
def lookAround (request : Request) : IO Surroundings := do
  let logFilter ← IO.getEnv "LUDIC_LOG"
  match configPath? request with
  | some path => do
      let content ← readContent path
      pure { file := fun _ => content, logFilter }
  | none => pure { file := fun _ => .missing, logFilter }

end Command

end HostBridge

open HostBridge in
/-- Run the command that the arguments name. -/
def main (args : List String) : IO UInt32 := do
  let request := Command.read args
  let surroundings ← Command.lookAround request
  let completion := Command.run surroundings request
  IO.print completion.output
  match completion.failure with
  | some failure => IO.eprintln ("Error: " ++ failure.message)
  | none => if completion.code = 2 then IO.eprint Command.usage else pure ()
  pure completion.code
