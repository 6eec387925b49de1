/-
# FleetSearch.Main -- the program

The program reads its arguments, the configuration file and at most one catalog, and leaves all
decisions to `FleetSearch.Command`. Its data directory is below XDG_DATA_HOME if that is an
absolute path, and else below `.local/share` in the home directory.
-/

import FleetSearch.Command.Help
import FleetSearch.Command.Run

namespace FleetSearch.Main

/-- A fault of the system as a file fault. -/
def fileFault : IO.Error → FileFault
  | .noFileOrDirectory .. => .missing
  | .inappropriateType .. => .isDirectory
  | e => .other (toString e)

/-- The bytes of a file. -/
def bytesAt (path : String) : IO (Except FileFault ByteArray) := do
  try
    return .ok (← IO.FS.readBinFile path)
  catch e =>
    return .error (fileFault e)

/-- The directory for the data of programs. -/
def dataHome : IO String := do
  let home := (← IO.getEnv "HOME").getD ""
  match ← IO.getEnv "XDG_DATA_HOME" with
  | some dir => return if dir.startsWith "/" then dir else home ++ "/.local/share"
  | none => return home ++ "/.local/share"

/-- What the program finds around it for a request. -/
def surroundings (request : Command.Request) : IO Command.Surroundings := do
  let dir := (← dataHome) ++ "/shipsearch"
  IO.FS.createDirAll dir
  let configPath := dir ++ "/config.json"
  let config := (← bytesAt configPath).toOption
  let stdout ← IO.getStdout
  let isTerminal ← stdout.isTty
  let around : Command.Surroundings :=
    { config, configPath, fileAt := fun _ => .error .missing, isTerminal }
  match Command.wantedPath around request with
  | none => return around
  | some path =>
    let file ← bytesAt path
    return { around with fileAt := fun _ => file }

/-- Carry out the request of a command line and give the exit code. -/
def run (args : List String) : IO UInt32 := do
  match Command.read args with
  | .error .help =>
    IO.print Command.helpText
    return 0
  | .error (.usage fault) =>
    IO.eprintln ("error: " ++ fault.message)
    return 2
  | .ok request =>
    let o := Command.run (← surroundings request) request
    IO.eprint o.stderr
    IO.print o.stdout
    return .ofNat o.code

end FleetSearch.Main

/-- The program. -/
def main (args : List String) : IO UInt32 := FleetSearch.Main.run args
