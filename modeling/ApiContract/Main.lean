import ApiContract.CommandLine.Reach
import Std.Time.DateTime.Timestamp

/-!
# The command line

Runs a program on the files of the current directory: loads the files that its command may look at,
runs the command on them, writes what it changed, and prints what it shows. The validator is the
executable with `validator` in its name, any other is the generator.

This is the only module that acts. Everything else is a function of the workspace that is loaded
here, and the files that are written are those in which the workspace after the run differs from the
one before. Other programs cannot be started from here, so a configured formatter never runs.
-/

namespace ApiContract.CommandLine

/-- The environment variables of this process. -/
def readEnvironment : IO Environment := do
  let content ← try IO.FS.readFile "/proc/self/environ" catch _ => pure ""
  return (Text.split content '\x00').filterMap fun entry ↦
    match entry.splitOn "=" with
    | name :: value :: rest => some (name, String.intercalate "=" (value :: rest))
    | _ => none

/-- The text of a location. -/
def locationText (l : Location) : String := "/" ++ String.intercalate "/" l

/-- A workspace with what is at a location, unless it knows that already. -/
def loadLocation (w : Workspace) (l : Location) : IO Workspace := do
  if (w.get? l).isSome then return w
  let path := (← IO.currentDir) / locationText l
  if ← path.isDir then return w.set l .directory
  try return w.set l (.file (← IO.FS.readBinFile path)) catch _ => return w

/-- The workspace that a command needs. -/
def loadWorkspace (current : Location) (paths : List FilePath) : IO Workspace :=
  paths.foldlM (fun w path ↦ (path.visits current).foldlM loadLocation w) { current }

/-- Writes what is in the second workspace and not in the first. -/
def storeChanges (old new : Workspace) : IO Unit :=
  new.entries.reverse.forM fun (l, entry) ↦ do
    let path := (← IO.currentDir) / locationText l
    if !(old.get? l).any entry.same then
      match entry with
      | .directory => IO.FS.createDirAll path
      | .file content => IO.FS.writeBinFile path content

/-- Runs a program on the files around it. -/
def runProgram (program : Program) (arguments : List String) : IO Transcript := do
  let moment := (← Std.Time.Timestamp.now).val
  let environment ← readEnvironment
  let host : Host :=
    { now := ⟨moment.second.val, moment.nano.val.toNat⟩
      environment
      programs := fun _ _ w ↦ (.notStarted (.other "no program can be started"), w) }
  let current := ((Text.split (← IO.currentDir).toString '/').filter (· ≠ ""))
  let paths :=
    match Command.ofArguments program arguments with
    | .ok command => command.paths environment
    | .error _ => []
  let w ← loadWorkspace current (⟨locationText current⟩ :: paths)
  let (transcript, changed) := program.run host arguments w
  storeChanges w changed
  return transcript

end ApiContract.CommandLine

open ApiContract.CommandLine in
/-- Runs the program that the executable's name tells. -/
def main (arguments : List String) : IO UInt32 := do
  let name := (← IO.appPath).fileName.getD ""
  let program := if (name.splitOn "validator").length > 1 then Program.validator else .generator
  let transcript ← runProgram program arguments
  IO.print transcript.out
  IO.eprint transcript.err
  return UInt32.ofNat transcript.exit
