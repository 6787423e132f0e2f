import ApiContract.Checksum.Basic
import ApiContract.Config.Basic
import ApiContract.Workspace.Basic

/-!
# Emission

Writing an artifact, with the directories above it, and running a formatter on it. Which programs
there are and what they do is a parameter: a program may change the workspace in any way and end in
any way. A formatter that fails leaves the run a success; the report tells whether it ran.

## Order

Directories are made first, then the file is written, then the formatter runs on it. A fault in one
step ends the emission and leaves what the steps before it did: the workspace is part of the result
in every case.

## The report

After a formatter that succeeded the artifact is read again and reported as it is then. After one
that failed the report describes the text that was written, although a formatter may have changed
the file before it failed; `Proofs.Emission` says when the report describes the file all the same.
-/

namespace ApiContract

/-- How a program ended. -/
inductive ProgramEnd where
  /-- It could not be started. -/
  | notStarted (fault : FileFault)
  /-- It exited with a code and wrote the given text to its error output. -/
  | exited (code : Nat) (errors : String)
  /-- A signal ended it. -/
  | killed (signal : Nat) (name errors : String)
  deriving DecidableEq, Repr

/-- The programs that can be run: what a command with arguments makes of a workspace. -/
abbrev Programs := String → List String → Workspace → ProgramEnd × Workspace

/-- Runs a formatter on the file at a path. -/
def FormatterCommand.run (formatter : FormatterCommand) (programs : Programs) (path : FilePath)
    (w : Workspace) : Except Failure Unit × Workspace :=
  let failed (fault : FormatterFault) : Except Failure Unit := .error (.formatter fault)
  match programs formatter.command (formatter.args ++ [path.text]) w with
  | (.notStarted fault, w) => (failed (.notStarted formatter.command fault), w)
  | (.exited 0 _, w) => (.ok (), w)
  | (.exited code errors, w) =>
    (failed (.ended formatter.command ("exit status: " ++ toString code) errors), w)
  | (.killed signal name errors, w) =>
    (failed (.ended formatter.command
      ("signal: " ++ toString signal ++ " (" ++ name ++ ")") errors), w)

/-- What was written. -/
structure EmitReport where
  path : FilePath
  bytes : Nat
  checksum : Checksum
  /-- Whether a formatter ran on the artifact and succeeded. -/
  formatted : Bool
  deriving DecidableEq, Repr

/-- The report on bytes that were written. -/
def EmitReport.ofBytes (path : FilePath) (content : ByteArray) (formatted : Bool) : EmitReport :=
  { path, bytes := content.size, checksum := Checksum.ofBytes content, formatted }

/-- Makes the directory that a file is to be in. -/
def Workspace.makeParent (w : Workspace) (path : FilePath) : Except Failure Unit × Workspace :=
  match path.parent? with
  | none => (.ok (), w)
  | some above =>
    match w.makeDirectories above with
    | (.ok (), w) => (.ok (), w)
    | (.error fault, w) => (.error (.file above fault), w)

/-- Writes an artifact and formats it. The artifact is reported as it is after formatting if the
formatter succeeded, and as it was written otherwise. -/
def emit (programs : Programs) (output : FilePath) (format : OutputFormat) (content : String)
    (formatter : Option FormatterCommand) (w : Workspace) : Except Failure EmitReport × Workspace :=
  let path := format.artifactPath output
  match w.makeParent path with
  | (.error failure, w) => (.error failure, w)
  | (.ok (), w) =>
    match w.write path content.toUTF8 with
    | .error fault => (.error (.file path fault), w)
    | .ok w =>
      match formatter with
      | none => (.ok (.ofBytes path content.toUTF8 false), w)
      | some command =>
        match command.run programs path w with
        -- The file is not read again here, although the formatter may have changed it.
        | (.error _, w) => (.ok (.ofBytes path content.toUTF8 false), w)
        | (.ok (), w) =>
          match w.bytes path with
          | .ok written => (.ok (.ofBytes path written true), w)
          | .error fault => (.error (.file path fault), w)

end ApiContract
