import ApiContract.Config.Codec
import ApiContract.Config.Source
import ApiContract.Workspace.Basic

/-!
# Loading a configuration

Settings are laid over each other, later ones winning: those of the files at the usual places, those
of the user's own file, those of a file that is asked for, and those of environment variables. Only
the file that is asked for must be there. A name without a known extension also stands for the file
with one.

## Faults

A file that must be there and is not, or cannot be read, is a fault. A file that is there and is no
table of settings is a fault at any place; a file at one of the usual places that cannot be read at
all says nothing. A tree of settings that does not fit the configuration is a fault without a place,
since it is no longer known which source it came from.

## What is left out

Files of settings are read as TOML, JSON or YAML, by their extension. Other syntaxes for settings,
such as INI, RON and JSON5, are not known here: a file with such an extension is one whose syntax is
unknown, and it is not found under a name without extension.
-/

namespace ApiContract

/-- The environment variables of a run, each a name and a value. -/
abbrev Environment := List (String × String)

namespace Config

/-- The file that a name stands for, with its syntax: the file of that name, or else the first that
the name becomes with an extension. -/
def find (w : Workspace) (name : FilePath) : Except ConfigFault (FilePath × SettingSyntax) :=
  -- A file of that very name is taken even if its extension tells no syntax, and is then a fault.
  if w.isFile name then
    match SettingSyntax.ofPath? name with
    | some stx => .ok (name, stx)
    | none => .error (.unknownSyntax name)
  else
    let candidates := SettingSyntax.extensions.map fun (extension, stx) ↦
      (name.withExtension extension, stx)
    match candidates.find? fun candidate ↦ w.isFile candidate.1 with
    | some found => .ok found
    | none => .error (.missing name)

/-- The text of the file that a name stands for, with its path and syntax. -/
def contentOf (w : Workspace) (name : FilePath) :
    Except ConfigFault (String × FilePath × SettingSyntax) := do
  let (path, stx) ← find w name
  match w.text path with
  | .ok text => return (text, path, stx)
  | .error fault => throw (.unreadable path fault)

/-- The settings of the file that a name stands for. A file that cannot be found or read says
nothing unless it must be there. -/
def settingsOf (w : Workspace) (isRequired : Bool) (name : FilePath) :
    Except ConfigFault (List (String × Setting)) :=
  match contentOf w name with
  | .error fault => if isRequired then .error fault else .ok []
  | .ok (text, path, stx) =>
    match Setting.ofText stx text with
    | .error reason => .error (.unparsable path reason)
    | .ok (.table entries) => .ok entries
    | .ok _ => .error (.notTable path)

/-- The usual places of configuration files. -/
def usualPlaces : List FilePath :=
  [⟨"contract-codegen.toml"⟩, ⟨".contract-codegen.toml"⟩, ⟨"config/contract-codegen.toml"⟩]

/-- The user's own configuration file. -/
def userPlace? (environment : Environment) : Option FilePath :=
  let home := (environment.lookup "HOME").filter (· ≠ "")
  let directory :=
    match (environment.lookup "XDG_CONFIG_HOME").map FilePath.mk with
    -- A relative path says nothing here.
    | some path => if path.isAbsolute then some path else none
    | none => none
  home.map fun home ↦
    ((directory.getD ((FilePath.mk home).below ".config")).below "contract-codegen").below
      "contract-codegen.toml"

/-- The files whose settings count, from the first to the last, each with whether it must be
there. -/
def places (environment : Environment) (w : Workspace) (asked : Option FilePath) :
    List (Bool × FilePath) :=
  let own := (userPlace? environment).filter fun path ↦ (w.at? path).isSome
  (usualPlaces ++ own.toList).map (false, ·) ++ asked.toList.map (true, ·)

/-- All settings, laid over each other. -/
def settings (environment : Environment) (w : Workspace) (asked : Option FilePath) :
    Except ConfigFault Setting := do
  let layers ← (places environment w asked).mapM fun (isRequired, path) ↦
    settingsOf w isRequired path
  let ofVariables := environment.filterMap fun (name, value) ↦ Setting.ofVariable? name value
  return (layers ++ [ofVariables]).foldl Setting.layerSource (.table [])

/-- The configuration that is in force. -/
def load (environment : Environment) (w : Workspace) (asked : Option FilePath) :
    Except ConfigFault Config := do
  match ofSetting? (← settings environment w asked) with
  | some config => return config
  | none => throw .unfit

/-- Writes a configuration to a file. -/
def save (config : Config) (w : Workspace) (path : FilePath) : Except FileFault Workspace :=
  w.write path config.toTomlText.toUTF8

end Config

end ApiContract
