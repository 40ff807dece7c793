/-
SongSheet/Main.lean

The program: reads the files that the arguments name, tells the events of a
playback as they come due, and prints what comes of the run.
-/
import SongSheet.CommandLine

namespace SongSheet.CommandLine

/-- How the program is called. -/
def usage : String :=
  "Usage: songsheet [-v] check FILE\n       songsheet [-v] play FILE [-c CONFIG] [-m VOLUME]"

/-- Reads a file. -/
def readFile (name : String) : IO (Except FileError (List Char)) := do
  match ← (IO.FS.readBinFile name).toBaseIO with
  | .ok bytes => return FileError.decode bytes
  | .error (.noFileOrDirectory ..) => return .error .missing
  | .error (.permissionDenied ..) => return .error .denied
  | .error (.inappropriateType _ code _) =>
      return .error (if code = 20 then .notDirectory else .directory)
  | .error (.invalidArgument _ 36 _) => return .error .nameTooLong
  | .error e => return .error (.other (toString e))

/-- Tells events, each at its instant. -/
def tell (verbose : Bool) (events : List (Nat × Playback.Event)) : IO Unit := do
  let mut now := 0
  for (instant, event) in events do
    if now < instant then
      IO.sleep ((instant - now) / Clock.millisecond).toUInt32
      now := instant
    if verbose || event.level.isShown then IO.println event.line

/-- Prints what is left of a run. -/
def conclude (e : Ending) : IO UInt32 := do
  for message in e.errors do
    IO.println s!"ERROR {message}"
  IO.print e.output
  return e.exit.toUInt32

end SongSheet.CommandLine

open SongSheet.CommandLine in
/-- Runs the program. -/
def main (args : List String) : IO UInt32 := do
  match Invocation.ofArguments args with
  | .error stop =>
      IO.eprintln usage
      conclude (.ofStop stop)
  | .ok i =>
      let contents ← i.files.mapM fun name => return (name, ← readFile name)
      match i.run fun name => (contents.lookup name).getD (.error .missing) with
      | some e =>
          tell i.verbose e.events
          conclude e
      | none =>
          IO.eprintln "playback does not end"
          return 1
