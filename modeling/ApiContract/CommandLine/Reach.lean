import ApiContract.CommandLine.Run

/-!
# What a command looks at

The paths that a command may read or write, so that a workspace with these is all it needs.

A path is walked name by name, and each name on the way is looked up; so the locations of a path are
all that the walk visits (`FilePath.visits`), those above the file among them. The outer layer of
the program loads these locations before a command runs, and runs the command on the workspace that
they make up.
-/

namespace ApiContract

/-- The locations that a walk visits, its start and its end among them. -/
def Workspace.visits (l : Location) : List String → List Location
  | [] => [l]
  | name :: rest =>
    let next :=
      if name = "" ∨ name = "." then l else if name = ".." then l.dropLast else l ++ [name]
    l :: visits next rest

/-- The locations that a path leads through. -/
def FilePath.visits (path : FilePath) (current : Location) : List Location :=
  Workspace.visits (if path.isAbsolute then [] else current) (path.segments.map String.ofList)

namespace CommandLine

/-- The paths that a configuration may be read from. -/
def configPaths (environment : Environment) (asked : Option FilePath) : List FilePath :=
  let named := Config.usualPlaces ++ (Config.userPlace? environment).toList ++ asked.toList
  named ++ named.flatMap fun name ↦
    SettingSyntax.extensions.map fun (extension, _) ↦ name.withExtension extension

/-- The paths of a target. -/
def Target.paths (target : Target) : List FilePath :=
  target.input :: OutputFormat.all.map fun format ↦ format.artifactPath target.output

/-- The paths that a command may read or write. -/
def Command.paths (environment : Environment) : Command → List FilePath
  | generate config target _ _ _ => configPaths environment config ++ target.paths
  | check config target => configPaths environment config ++ target.paths
  | init path _ => [path]
  | validate config input _ _ => configPaths environment config ++ [input]

end CommandLine

end ApiContract
