import ApiContract.Config.Setting
import ApiContract.FilePath
import ApiContract.Json.Reader
import ApiContract.Toml.Reader
import ApiContract.Yaml.Document
import ApiContract.Yaml.Token.Scan

/-!
# Sources of settings

Settings come from files in one of three syntaxes, which the extension tells, and from environment
variables. In YAML, plain words are typed more narrowly here than in a contract: only `true` and
`false` are truth values, and digits with zeros in front are a number.

Names keep their letters here; they become small when settings are laid over each other. An
environment variable counts if its name has the right beginning, in any case of letters; two
underscores part the names of its path, and its text is typed by its spelling (`ofWord`). A list
cannot be written in a variable.

YAML is read by the reader of contracts with another rule for words (`scalarRule`); a mapping may
have texts and integers as keys and nothing else. Of the syntaxes for settings, INI, RON and JSON5
are left out.
-/

namespace ApiContract

/-- The syntaxes of a file of settings. -/
inductive SettingSyntax where
  | toml
  | json
  | yaml
  deriving DecidableEq, Repr

namespace SettingSyntax

/-- The extensions of files, each with the syntax that it tells. -/
def extensions : List (String × SettingSyntax) :=
  [("toml", toml), ("json", json), ("yaml", yaml), ("yml", yaml)]

/-- The syntax of a file. -/
def ofPath? (path : FilePath) : Option SettingSyntax :=
  path.extension?.bind fun extension ↦ extensions.lookup extension

end SettingSyntax

namespace Setting

/-! ### JSON -/

/-- A number: an integer of sixty-four bits with a sign, or a double. -/
def ofNumber : Number → Setting
  | .int n => if n < Nat.pow 2 63 then int n else float (.finite (Binary64.ofInt n))
  | .float x => float (.finite x)

mutual

/-- The settings of a JSON value. -/
def ofJson : Json → Setting
  | .null => null
  | .bool b => bool b
  | .number n => ofNumber n
  | .string s => text s
  | .array items => list (ofJsonItems items)
  | .object fields => table (ofJsonFields fields)

/-- The settings of JSON values. -/
def ofJsonItems : List Json → List Setting
  | [] => []
  | item :: rest => ofJson item :: ofJsonItems rest

/-- The settings of a JSON object. -/
def ofJsonFields : List (String × Json) → List (String × Setting)
  | [] => []
  | (name, value) :: rest => (name, ofJson value) :: ofJsonFields rest

end

/-! ### Words -/

/-- What the word of an environment variable says: a truth value in any case, an integer, a
floating-point number, or else the text itself. -/
def ofWord (s : String) : Setting :=
  -- Only truth values may be in any case.
  match Text.lower s with
  | "true" => bool true
  | "false" => bool false
  | _ =>
    match integer? s.toList, FloatReading.ofText? s with
    | some n, _ => int n
    | none, some x => float x
    | none, none => text s

/-! ### YAML -/

/-- The integer of sixteen or eight as base that a prefix announces. -/
def basedInteger? (s : String) : Option Int :=
  let value? :=
    match s.toList with
    | '0' :: 'x' :: digits => Text.readNat? 16 digits
    | '0' :: 'o' :: digits => Text.readNat? 8 digits
    | _ => none
  (value?.filter (· < Nat.pow 2 63)).map Int.ofNat

/-- What a plain word in YAML says. -/
def plainWord (s : String) : Except Yaml.Fault Yaml.Value :=
  if s.isEmpty || s == "~" || s == "null" then .ok .null
  else if s == "true" then .ok (.bool true)
  else if s == "false" then .ok (.bool false)
  else
    match basedInteger? s, integer? s.toList, FloatReading.ofText? s with
    | some n, _, _ => .ok (.int n)
    | none, some n, _ => .ok (.int n)
    | none, none, some x => .ok (.float x)
    | none, none, none => .ok (.text s)

/-- What a YAML node without parts says: a tag of a core type decides, and otherwise a plain word is
what it says and anything else is a text. -/
def scalarRule : Yaml.ScalarRule := fun tag s isPlain ↦
  match tag with
  | none => if isPlain then plainWord s else .ok (.text s)
  | some "tag:yaml.org,2002:bool" =>
    -- A word that its tag does not fit is no fault here, as it is in a contract.
    .ok (if s == "true" then .bool true else if s == "false" then .bool false else .null)
  | some "tag:yaml.org,2002:int" => .ok (((integer? s.toList).map .int).getD .null)
  | some "tag:yaml.org,2002:float" => .ok (((FloatReading.ofText? s).map .float).getD .null)
  | some "tag:yaml.org,2002:null" => .ok .null
  | some _ => .ok (.text s)

mutual

/-- The settings of a YAML value; the keys of mappings are texts or integers. -/
def ofYaml? : Yaml.Value → Option Setting
  | .null => some null
  | .bool b => some (bool b)
  | .int n => some (int n)
  | .float x => some (float x)
  | .text s => some (text s)
  | .sequence items => (ofYamlItems? items).map list
  | .mapping entries => (ofYamlEntries? entries).map table
  | .tagged _ value => ofYaml? value

/-- The settings of YAML values. -/
def ofYamlItems? : List Yaml.Value → Option (List Setting)
  | [] => some []
  | item :: rest => do return (← ofYaml? item) :: (← ofYamlItems? rest)

/-- The settings of a YAML mapping. -/
def ofYamlEntries? : List (Yaml.Value × Yaml.Value) → Option (List (String × Setting))
  | [] => some []
  | (.text name, value) :: rest => do return (name, ← ofYaml? value) :: (← ofYamlEntries? rest)
  | (.int n, value) :: rest => do return (toString n, ← ofYaml? value) :: (← ofYamlEntries? rest)
  | _ => none

end

/-- The settings of a YAML text; a text without a document says nothing. -/
def ofYamlText (s : String) : Except String Setting :=
  match Yaml.tokens s >>= Yaml.events with
  | .error fault => .error fault.message
  | .ok [] => .ok (table [])
  | .ok events =>
    match Yaml.valueOfEvents scalarRule events with
    | .error fault => .error fault.message
    | .ok value =>
      match ofYaml? value with
      | some setting => .ok setting
      | none => .error "a key is no text"

/-! ### Files and variables -/

/-- The settings of a file's text, or why there are none. -/
def ofText (stx : SettingSyntax) (s : String) : Except String Setting :=
  match stx with
  | .toml =>
    match Toml.read s with
    | .ok entries => .ok (ofToml (.table entries))
    | .error fault => .error fault.message
  | .json => (Json.ofText s).map ofJson
  | .yaml => ofYamlText s

/-- What the names of the variables with settings begin with, in any case. -/
def variableBeginning : String := "contract_codegen__"

/-- The setting of an environment variable; two underscores part the names of its path. -/
def ofVariable? (name value : String) : Option (String × Setting) :=
  (Text.afterPrefix? variableBeginning.toList (Text.lower name).toList).map fun rest ↦
    (Text.replaceAll (String.ofList rest) "__" ".", ofWord value)

end Setting

end ApiContract
