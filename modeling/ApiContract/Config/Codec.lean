import ApiContract.Config.Basic
import ApiContract.Config.Setting
import ApiContract.Json.Fields
import ApiContract.Toml.Printer

/-!
# Configurations as documents

A configuration is read from a tree of settings or from JSON, and written as JSON or TOML. A setting
that is absent has its default, a list that is there counts even if it is empty, and names that mean
nothing here are passed over. TOML has no `null`, so there an absent setting is left out.

## Reading

The readers of a record are made of `required?`, `optional?` and `defaulted?`, one for each kind of
field, as those of `Json.Fields` are. A list stands for a record too, its items in the order of the
record's fields. A setting of another type is taken for the one that is wanted where that is
possible (`Setting.text?`, `Setting.bool?`): a port number is a text as well.

## Writing

Each record is written in the order of its fields. What is written as TOML can be read back, and
gives the same configuration, whatever the texts in it are (`Proofs.Config.RoundTrip`).
-/

namespace ApiContract

/-! ### From settings -/

namespace Setting

/-- The named parts of a record: those of a table, or the items of a list under the record's names,
in order; items beyond the names do not count. -/
def record? (names : List String) : Setting → Option (List (String × Setting))
  | table entries => some entries
  | list items => some (names.zip items)
  | _ => none

/-- A part that must be there. -/
def required? {α : Type} (read : Setting → Option α) (name : String)
    (parts : List (String × Setting)) : Option α :=
  (parts.lookup name).bind read

/-- A part that may be absent or `null`. -/
def optional? {α : Type} (read : Setting → Option α) (name : String)
    (parts : List (String × Setting)) : Option (Option α) :=
  match parts.lookup name with
  | none => some none
  | some null => some none
  | some value => (read value).map some

/-- A part with a default for when it is absent; `null` is no value of it. -/
def defaulted? {α : Type} (read : Setting → Option α) (default : α) (name : String)
    (parts : List (String × Setting)) : Option α :=
  match parts.lookup name with
  | none => some default
  | some value => read value

end Setting

namespace FormatterCommand

/-- The names of the settings, in order. -/
def names : List String := ["command", "args"]

/-- A command of its settings. -/
def ofSetting? (setting : Setting) : Option FormatterCommand := do
  let parts ← setting.record? names
  let command ← Setting.required? Setting.text? "command" parts
  let args ← Setting.defaulted? Setting.texts? [] "args" parts
  return { command, args }

/-- A command of JSON. -/
def ofJson? (value : Json) : Option FormatterCommand := do
  let fields ← value.record? names
  let command ← Json.required? Json.asString? "command" fields
  let args ← Json.defaulted? (Json.list? Json.asString?) [] "args" fields
  return { command, args }

/-- A command as JSON. -/
def toJson (formatter : FormatterCommand) : Json :=
  .object [("command", .string formatter.command), ("args", Json.strings formatter.args)]

/-- A command as TOML. -/
def toToml (formatter : FormatterCommand) : Toml.Value :=
  .table [("command", .text formatter.command), ("args", .array (formatter.args.map .text))]

end FormatterCommand

namespace GenerateConfig

/-- The names of the settings, in order. -/
def names : List String := ["format", "base_url", "formatter", "timestamp"]

/-- The settings for generating, read from a tree. -/
def ofSetting? (setting : Setting) : Option GenerateConfig := do
  let usual : GenerateConfig := {}
  let parts ← setting.record? names
  let format ← Setting.defaulted? Setting.text? usual.format "format" parts
  let baseUrl ← Setting.optional? Setting.text? "base_url" parts
  let formatter ← Setting.optional? FormatterCommand.ofSetting? "formatter" parts
  let timestamp ← Setting.defaulted? Setting.bool? usual.timestamp "timestamp" parts
  return { format, baseUrl, formatter, timestamp }

/-- The settings for generating, read from JSON. -/
def ofJson? (value : Json) : Option GenerateConfig := do
  let usual : GenerateConfig := {}
  let fields ← value.record? names
  let format ← Json.defaulted? Json.asString? usual.format "format" fields
  let baseUrl ← Json.optional? Json.asString? "base_url" fields
  let formatter ← Json.optional? FormatterCommand.ofJson? "formatter" fields
  let timestamp ← Json.defaulted? Json.asBool? usual.timestamp "timestamp" fields
  return { format, baseUrl, formatter, timestamp }

/-- The settings for generating, as JSON. -/
def toJson (settings : GenerateConfig) : Json :=
  .object [("format", .string settings.format), ("base_url", Json.stringOrNull settings.baseUrl),
    ("formatter", (settings.formatter.map FormatterCommand.toJson).getD .null),
    ("timestamp", .bool settings.timestamp)]

/-- The settings for generating, as TOML. -/
def toToml (settings : GenerateConfig) : Toml.Value :=
  .table ([("format", .text settings.format)] ++
    settings.baseUrl.toList.map (fun url ↦ ("base_url", .text url)) ++
    settings.formatter.toList.map (fun formatter ↦ ("formatter", formatter.toToml)) ++
    [("timestamp", .bool settings.timestamp)])

end GenerateConfig

namespace ValidationConfig

/-- The names of the settings, in order. -/
def names : List String :=
  ["strict", "required_routes", "protected_prefixes", "allowed_content_types"]

/-- The settings for validating, read from a tree. -/
def ofSetting? (setting : Setting) : Option ValidationConfig := do
  let usual : ValidationConfig := {}
  let parts ← setting.record? names
  let texts := Setting.defaulted? Setting.texts?
  let strict ← Setting.defaulted? Setting.bool? usual.strict "strict" parts
  let requiredRoutes ← texts usual.requiredRoutes "required_routes" parts
  let protectedPrefixes ← texts usual.protectedPrefixes "protected_prefixes" parts
  let allowedContentTypes ← texts usual.allowedContentTypes "allowed_content_types" parts
  return { strict, requiredRoutes, protectedPrefixes, allowedContentTypes }

/-- The settings for validating, read from JSON. -/
def ofJson? (value : Json) : Option ValidationConfig := do
  let usual : ValidationConfig := {}
  let fields ← value.record? names
  let texts := Json.defaulted? (Json.list? Json.asString?)
  let strict ← Json.defaulted? Json.asBool? usual.strict "strict" fields
  let requiredRoutes ← texts usual.requiredRoutes "required_routes" fields
  let protectedPrefixes ← texts usual.protectedPrefixes "protected_prefixes" fields
  let allowedContentTypes ← texts usual.allowedContentTypes "allowed_content_types" fields
  return { strict, requiredRoutes, protectedPrefixes, allowedContentTypes }

/-- The settings for validating, as JSON. -/
def toJson (settings : ValidationConfig) : Json :=
  .object [("strict", .bool settings.strict),
    ("required_routes", Json.strings settings.requiredRoutes),
    ("protected_prefixes", Json.strings settings.protectedPrefixes),
    ("allowed_content_types", Json.strings settings.allowedContentTypes)]

/-- The settings for validating, as TOML. -/
def toToml (settings : ValidationConfig) : Toml.Value :=
  .table [("strict", .bool settings.strict),
    ("required_routes", .array (settings.requiredRoutes.map .text)),
    ("protected_prefixes", .array (settings.protectedPrefixes.map .text)),
    ("allowed_content_types", .array (settings.allowedContentTypes.map .text))]

end ValidationConfig

namespace Config

/-- The names of the groups of settings, in order. -/
def names : List String := ["generate", "validation"]

/-- A configuration of its settings. -/
def ofSetting? (setting : Setting) : Option Config := do
  let parts ← setting.record? names
  let generate ← Setting.defaulted? GenerateConfig.ofSetting? {} "generate" parts
  let validation ← Setting.defaulted? ValidationConfig.ofSetting? {} "validation" parts
  return { generate, validation }

/-- A configuration of JSON. -/
def ofJson? (value : Json) : Option Config := do
  let fields ← value.record? names
  let generate ← Json.defaulted? GenerateConfig.ofJson? {} "generate" fields
  let validation ← Json.defaulted? ValidationConfig.ofJson? {} "validation" fields
  return { generate, validation }

/-- A configuration as JSON. -/
def toJson (config : Config) : Json :=
  .object [("generate", config.generate.toJson), ("validation", config.validation.toJson)]

/-- A configuration as the table of a TOML document. -/
def toToml (config : Config) : List (String × Toml.Value) :=
  [("generate", config.generate.toToml), ("validation", config.validation.toToml)]

/-- A configuration as the text of a TOML document. -/
def toTomlText (config : Config) : String := Toml.render config.toToml

end Config

end ApiContract
