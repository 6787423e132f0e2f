import ApiContract.Config.Load
import ApiContract.Proofs.Except
import ApiContract.Proofs.Put
import ApiContract.Proofs.Toml.Document
import ApiContract.Proofs.Workspace

/-!
# Saved configurations are loaded back

A configuration is saved as the text of a TOML document and loaded from a workspace, where it is one
source of settings among several. This module shows that it comes back as it was.

## Main result

`Config.saved_loads_back`, for every configuration, whatever its texts are and which settings are
absent or empty. The tree that is written for it tells just this configuration; the text of the tree
is read, and tells it too; and after saving, loading from the file gives the configuration, if no
other source tells settings (`Config.IsOnlySource`). The file may be one of those that are looked at
anyway, and is then read twice.

## Settings laid over nothing

A source of settings that has each name once, in small letters, is laid over nothing as it is, and
laying it over itself changes nothing (`Setting.IsPlainSource`). The induction is on the settings,
along `layer` and `layerAll`, and carries that what is there already agrees with what comes: so
laying over nothing and laying over itself are two cases of one lemma (`layerAll_eq_append`).

## From the text to the configuration

The reader gives the entries of a document in another order than they were written, since a table
that stands between values comes behind them (`Toml.arranged`). The settings that it gives are a
plain source as well, and telling a configuration looks up its settings by name, so the order does
not count (`GenerateConfig.ofSetting?_of_lookup`). That every text is read back is due to
`Proofs.Toml`.
-/

namespace ApiContract

namespace Setting

/-! ### Settings laid over nothing -/

mutual

/-- The names in a tree are in small letters, and each stands in its table once. -/
def IsSettled : Setting → Prop
  | table entries => EntriesSettled entries
  | _ => True

/-- The names of entries and in them are in small letters, and each stands in its table once. -/
def EntriesSettled : List (String × Setting) → Prop
  | [] => True
  | (name, value) :: rest =>
    Text.lower name = name ∧ rest.lookup name = none ∧ IsSettled value ∧ EntriesSettled rest

end

variable {name : String} {value : Setting} {entries rest : List (String × Setting)}

/-- Setting an entry is putting it by its name. -/
theorem setEntry_eq_putBy (name : String) (value : Setting) (entries : List (String × Setting)) :
    setEntry name value entries = putBy Prod.fst entries (name, value) := by
  induction entries with
  | nil => rfl
  | cons e rest ih =>
    obtain ⟨other, old⟩ := e
    rw [setEntry, putBy, ih]
    dsimp only
    split
    · next heq => rw [heq]
    · rfl

/-- A name that is looked up with success is not one that is not there. -/
theorem ne_of_lookup {e : String × Setting} (hlookup : rest.lookup e.1 = some e.2)
    (hnone : rest.lookup name = none) : e.1 ≠ name := by
  rintro rfl
  exact absurd (hlookup.symm.trans hnone) nofun

namespace EntriesSettled

/-- A name that stands once is the name of its value. -/
theorem lookup_of_mem (h : EntriesSettled entries) {e : String × Setting} (he : e ∈ entries) :
    entries.lookup e.1 = some e.2 := by
  induction entries with
  | nil => exact absurd he List.not_mem_nil
  | cons first rest ih =>
    obtain ⟨name, value⟩ := first
    obtain ⟨-, honce, -, hrest⟩ := h
    rcases List.mem_cons.1 he with rfl | hlater
    · exact List.lookup_cons_self
    · have hlookup := ih hrest hlater
      rw [List.lookup_cons, beq_eq_false_iff_ne.2 (ne_of_lookup hlookup honce), hlookup]

/-- An entry that is added does not show under the names of those that follow it. -/
theorem lookup_append_of_mem (h : EntriesSettled ((name, value) :: rest)) {e : String × Setting}
    (he : e ∈ rest) : (entries ++ [(name, value)]).lookup e.1 = entries.lookup e.1 := by
  obtain ⟨-, honce, -, hrest⟩ := h
  have hne : e.1 ≠ name := ne_of_lookup (hrest.lookup_of_mem he) honce
  rw [List.lookup_append, List.lookup_cons, beq_eq_false_iff_ne.2 hne, List.lookup_nil,
    Option.or_none]

/-- Entries agree with themselves. -/
theorem eq_of_mem_lookup (h : EntriesSettled entries) {e : String × Setting} (he : e ∈ entries)
    {old : Setting} (hold : old ∈ entries.lookup e.1) : old = e.2 :=
  Option.some.inj (hold.symm.trans (h.lookup_of_mem he))

theorem filter_lookup_self (h : EntriesSettled entries) :
    entries.filter (fun e ↦ (entries.lookup e.1).isNone) = [] :=
  List.filter_eq_nil_iff.2 fun _ he ↦ by rw [h.lookup_of_mem he]; exact Bool.false_ne_true

end EntriesSettled

theorem filter_lookup_nil (entries : List (String × Setting)) :
    entries.filter (fun e ↦ (([] : List (String × Setting)).lookup e.1).isNone) = entries :=
  List.filter_eq_self.2 fun _ _ ↦ rfl

mutual

/-- A value that is laid over a table is set in it, unless the table has another one. -/
theorem layer_eq_setEntry : (value : Setting) → IsSettled value →
    ∀ {name : String} {entries : List (String × Setting)}, Text.lower name = name →
      (∀ old ∈ entries.lookup name, old = value) →
        layer (table entries) name value = table (setEntry name value entries)
  | table inner, hvalue, name, entries, hname, hold => by
    have hsettled : EntriesSettled inner := hvalue
    have hinner : layerAll ((entries.lookup name).getD (table [])) inner = table inner := by
      cases hlookup : entries.lookup name with
      | none =>
        rw [Option.getD_none, layerAll_eq_append inner hsettled fun _ _ _ h ↦
          absurd h (Option.not_mem_none _), filter_lookup_nil, List.nil_append]
      | some old =>
        obtain rfl := hold old hlookup
        rw [Option.getD_some, layerAll_eq_append inner hsettled fun _ he _ ↦
          hsettled.eq_of_mem_lookup he, hsettled.filter_lookup_self, List.append_nil]
    rw [layer]
    dsimp only [Setting.entries]
    rw [hname, hinner]
  | null, _, _, _, hname, _ | bool _, _, _, _, hname, _ | int _, _, _, _, hname, _
  | float _, _, _, _, hname, _ | text _, _, _, _, hname, _ | list _, _, _, _, hname, _ => by
    rw [layer, hname]
    · rfl
    · exact nofun

/-- Of entries that are laid over a table which has no other values for their names, those with new
names come last in it. -/
theorem layerAll_eq_append : (rest : List (String × Setting)) → EntriesSettled rest →
    ∀ {entries : List (String × Setting)}, (∀ e ∈ rest, ∀ old ∈ entries.lookup e.1, old = e.2) →
      layerAll (table entries) rest =
        table (entries ++ rest.filter fun e ↦ (entries.lookup e.1).isNone)
  | [], _, entries, _ => by rw [layerAll, List.filter_nil, List.append_nil]
  | (name, value) :: rest, h, entries, hagree => by
    obtain ⟨hname, -, hvalue, hrest⟩ := id h
    obtain ⟨hfirst, hmore⟩ := List.forall_mem_cons.1 hagree
    rw [layerAll, layer_eq_setEntry value hvalue hname hfirst]
    cases hlookup : entries.lookup name with
    | none =>
      have hlater (e : String × Setting) (he : e ∈ rest) :
          (entries ++ [(name, value)]).lookup e.1 = entries.lookup e.1 := h.lookup_append_of_mem he
      have hnew : ∀ e ∈ rest, ∀ old ∈ (entries ++ [(name, value)]).lookup e.1, old = e.2 := by
        intro e he
        rw [hlater e he]
        exact hmore e he
      rw [setEntry_eq_putBy, putBy_of_lookup_eq_none hlookup, layerAll_eq_append rest hrest hnew]
      rw [List.filter_congr fun e he ↦ by rw [hlater e he],
        List.filter_cons_of_pos (by rw [hlookup]; rfl), List.append_assoc, List.singleton_append]
    | some old =>
      obtain rfl := hfirst old hlookup
      rw [setEntry_eq_putBy, putBy_of_lookup_eq_some hlookup, layerAll_eq_append rest hrest hmore,
        List.filter_cons_of_neg (by rw [hlookup]; exact Bool.false_ne_true)]

end

/-- Settings of a source whose names are in small letters, each once in its table, and read as paths
lead to themselves. -/
structure IsPlainSource (source : List (String × Setting)) : Prop where
  settled : EntriesSettled source
  pathOf_eq : ∀ e ∈ source, pathOf e.1 = [.name e.1]

namespace IsPlainSource

variable {source : List (String × Setting)} (h : IsPlainSource source)

include h

/-- A plain source is laid over a tree entry by entry, without paths. -/
theorem layerSource_eq (root : Setting) : layerSource root source = layerAll root source := by
  have hpaths := h.pathOf_eq
  clear h
  induction source generalizing root with
  | nil => rfl
  | cons e rest ih =>
    obtain ⟨name, value⟩ := e
    obtain ⟨hfirst, hmore⟩ := List.forall_mem_cons.1 hpaths
    show layerSource (layerAt root value (pathOf name)) rest = _
    rw [hfirst, layerAt, layerAll, ih (layer root name value) hmore]

/-- **Over nothing, the settings of a source are laid as they are.** -/
theorem layerSource_nil : layerSource (table []) source = table source := by
  rw [h.layerSource_eq, layerAll_eq_append source h.settled fun _ _ _ h ↦
    absurd h (Option.not_mem_none _), filter_lookup_nil, List.nil_append]

/-- Laying a source over its own settings changes nothing. -/
theorem layerSource_self : layerSource (table source) source = table source := by
  rw [h.layerSource_eq, layerAll_eq_append source h.settled fun _ he _ ↦
    h.settled.eq_of_mem_lookup he, h.settled.filter_lookup_self, List.append_nil]

/-- A source counts once, however often it is laid over nothing. -/
theorem foldl_layerSource {layers : List (List (String × Setting))} {root : Setting}
    (hroot : root = table [] ∨ root = table source)
    (hlayers : ∀ layer ∈ layers, layer = [] ∨ layer = source) :
    layerSource (layers.foldl layerSource root) source = table source := by
  induction layers generalizing root with
  | nil =>
    rcases hroot with rfl | rfl
    · exact h.layerSource_nil
    · exact h.layerSource_self
  | cons layer rest ih =>
    obtain ⟨hfirst, hmore⟩ := List.forall_mem_cons.1 hlayers
    rw [List.foldl_cons]
    refine ih ?_ hmore
    rcases hfirst with rfl | rfl
    · exact hroot
    · rcases hroot with rfl | rfl
      · exact .inr h.layerSource_nil
      · exact .inr h.layerSource_self

end IsPlainSource

/-! ### Settings of TOML -/

/-- Entries with distinct names in small letters are settled if their values are. -/
theorem entriesSettled_of_nodup (hnodup : (entries.map Prod.fst).Nodup)
    (h : ∀ e ∈ entries, Text.lower e.1 = e.1 ∧ e.2.IsSettled) : EntriesSettled entries := by
  induction entries with
  | nil => trivial
  | cons e rest ih =>
    obtain ⟨hnew, hrest⟩ := List.nodup_cons.1 hnodup
    obtain ⟨⟨hname, hvalue⟩, hmore⟩ := List.forall_mem_cons.1 h
    refine ⟨hname, List.lookup_eq_none_iff.2 fun e' he' ↦ ?_, hvalue, ih hrest hmore⟩
    exact bne_iff_ne.2 fun heq ↦ hnew (List.mem_map.2 ⟨e', he', heq.symm⟩)

theorem ofTomlEntries_eq_map (entries : List (String × Toml.Value)) :
    ofTomlEntries entries = entries.map fun e ↦ (e.1, ofToml e.2) := by
  induction entries with
  | nil => rfl
  | cons e rest ih => rw [ofTomlEntries, ih, List.map_cons]

theorem ofTomlItems_map_text (texts : List String) :
    ofTomlItems (texts.map .text) = texts.map text := by
  induction texts with
  | nil => rfl
  | cons s rest ih => rw [List.map_cons, ofTomlItems, ih]; rfl

/-- A list of texts is what it was, also an empty one. -/
theorem texts?_ofToml (texts : List String) :
    texts? (ofToml (.array (texts.map .text))) = some texts := by
  rw [ofToml, ofTomlItems_map_text, texts?]
  induction texts with
  | nil => rfl
  | cons s rest ih => rw [List.map_cons, List.mapM_cons, ih]; rfl

/-- A value that is read back from a document and, as a setting, is laid over nothing as it is. -/
structure IsKept (depth : Nat) (v : Toml.Value) : Prop where
  plain : v.IsPlain depth
  settled : (ofToml v).IsSettled

variable {depth : Nat}

theorem isKept_text (s : String) : IsKept depth (.text s) := ⟨Toml.isReadBack_text _ s, trivial⟩

theorem isKept_bool (b : Bool) : IsKept depth (.bool b) := ⟨Toml.isReadBack_bool _ b, trivial⟩

/-- A list of texts is kept. -/
theorem isKept_texts (texts : List String) : IsKept depth (.array (texts.map .text)) := by
  refine ⟨Toml.isReadBack_array fun v hv ↦ ?_, trivial⟩
  obtain ⟨s, -, rfl⟩ := List.mem_map.1 hv
  exact Toml.isReadBack_text _ s

/-- A table is kept if its names are distinct and in small letters and its values are kept. -/
theorem isKept_table {entries : List (String × Toml.Value)} (hnodup : (entries.map Prod.fst).Nodup)
    (h : ∀ e ∈ entries, Text.lower e.1 = e.1 ∧ IsKept depth e.2) :
    IsKept (depth + 1) (.table entries) := by
  refine ⟨Toml.isPlainTable_succ hnodup fun e he ↦ (h e he).2.plain, ?_⟩
  show EntriesSettled (ofTomlEntries entries)
  rw [ofTomlEntries_eq_map]
  refine entriesSettled_of_nodup (by rwa [List.map_map]) (List.forall_mem_map.2 fun e he ↦ ?_)
  exact ⟨(h e he).1, (h e he).2.settled⟩

end Setting

/-! ### Configurations as trees -/

/-- The names of settings are in small letters. -/
theorem lower_eq_of_mem_names : ∀ name ∈ Config.names ++ GenerateConfig.names ++
    FormatterCommand.names ++ ValidationConfig.names, Text.lower name = name := by
  decide +kernel

namespace FormatterCommand

/-- A formatter is kept in a document. -/
theorem isKept_toToml (formatter : FormatterCommand) (depth : Nat) :
    Setting.IsKept (depth + 1) formatter.toToml := by
  have hlower := lower_eq_of_mem_names
  refine Setting.isKept_table (by decide : names.Nodup) ?_
  simp only [List.forall_mem_cons]
  exact ⟨⟨hlower _ (by decide), Setting.isKept_text _⟩,
    ⟨hlower _ (by decide), Setting.isKept_texts _⟩, nofun⟩

/-- A formatter is told by what is written for it. -/
theorem ofSetting?_toToml (formatter : FormatterCommand) :
    ofSetting? (Setting.ofToml formatter.toToml) = some formatter := by
  show (Setting.texts? (Setting.ofToml (.array (formatter.args.map .text))) >>= fun args ↦
    some (⟨formatter.command, args⟩ : FormatterCommand)) = _
  rw [Setting.texts?_ofToml]
  rfl

end FormatterCommand

namespace ValidationConfig

/-- The settings for validating are kept in a document. -/
theorem isKept_toToml (settings : ValidationConfig) (depth : Nat) :
    Setting.IsKept (depth + 1) settings.toToml := by
  have hlower := lower_eq_of_mem_names
  refine Setting.isKept_table (by decide : names.Nodup) ?_
  simp only [List.forall_mem_cons]
  exact ⟨⟨hlower _ (by decide), Setting.isKept_bool _⟩,
    ⟨hlower _ (by decide), Setting.isKept_texts _⟩, ⟨hlower _ (by decide), Setting.isKept_texts _⟩,
    ⟨hlower _ (by decide), Setting.isKept_texts _⟩, nofun⟩

/-- The settings for validating are told by what is written for them. -/
theorem ofSetting?_toToml (settings : ValidationConfig) :
    ofSetting? (Setting.ofToml settings.toToml) = some settings := by
  let read (texts : List String) : Option (List String) :=
    Setting.texts? (Setting.ofToml (.array (texts.map .text)))
  have hread (texts : List String) : read texts = some texts := Setting.texts?_ofToml texts
  show (read settings.requiredRoutes >>= fun routes ↦
    read settings.protectedPrefixes >>= fun prefixes ↦
    read settings.allowedContentTypes >>= fun types ↦
    some (⟨settings.strict, routes, prefixes, types⟩ : ValidationConfig)) = _
  rw [hread, hread, hread]
  rfl

end ValidationConfig

namespace GenerateConfig

/-- The settings for generating as they are read: a formatter comes behind the others. -/
theorem exists_arranged_toToml (settings : GenerateConfig) :
    ∃ entries arranged, settings.toToml = .table entries ∧
      settings.toToml.arranged = .table arranged ∧ arranged.Perm entries := by
  obtain ⟨format, baseUrl, formatter, timestamp⟩ := settings
  cases baseUrl <;> cases formatter <;> refine ⟨_, _, rfl, rfl, ?_⟩
  · exact .refl _
  · exact .cons _ (.swap _ _ _)
  · exact .refl _
  · exact .cons _ (.cons _ (.swap _ _ _))

/-- In any order the settings for generating are kept. -/
theorem isKept_of_perm (settings : GenerateConfig) (depth : Nat)
    {written entries : List (String × Toml.Value)} (hwritten : settings.toToml = .table written)
    (hperm : entries.Perm written) : Setting.IsKept (depth + 2) (.table entries) := by
  have hlower := lower_eq_of_mem_names
  obtain rfl := Toml.Value.table.inj hwritten
  have hkept : ∀ e ∈ [("format", Toml.Value.text settings.format)] ++
      settings.baseUrl.toList.map (fun url ↦ ("base_url", .text url)) ++
      settings.formatter.toList.map (fun formatter ↦ ("formatter", formatter.toToml)) ++
      [("timestamp", .bool settings.timestamp)],
      Text.lower e.1 = e.1 ∧ Setting.IsKept (depth + 1) e.2 := by
    simp only [List.forall_mem_append, List.forall_mem_map, List.forall_mem_singleton]
    exact ⟨⟨⟨⟨hlower _ (by decide), Setting.isKept_text _⟩,
      fun url _ ↦ ⟨hlower _ (by decide), Setting.isKept_text url⟩⟩,
      fun formatter _ ↦ ⟨hlower _ (by decide), formatter.isKept_toToml depth⟩⟩,
      ⟨hlower _ (by decide), Setting.isKept_bool _⟩⟩
  refine Setting.isKept_table ((hperm.map Prod.fst).nodup_iff.2 ?_) fun e he ↦
    hkept e (hperm.mem_iff.1 he)
  cases settings.baseUrl <;> cases settings.formatter <;> simp

theorem isKept_toToml (settings : GenerateConfig) (depth : Nat) :
    Setting.IsKept (depth + 2) settings.toToml :=
  settings.isKept_of_perm depth rfl (.refl _)

/-- The settings for generating are kept in the order in which they are read. -/
theorem isKept_arranged (settings : GenerateConfig) (depth : Nat) :
    Setting.IsKept (depth + 2) settings.toToml.arranged := by
  obtain ⟨written, arranged, hwritten, harranged, hperm⟩ := settings.exists_arranged_toToml
  rw [harranged]
  exact settings.isKept_of_perm depth hwritten hperm

/-- The order of the settings does not count. -/
theorem ofSetting?_of_lookup {settings : GenerateConfig} {parts : List (String × Setting)}
    (hformat : parts.lookup "format" = some (.text settings.format))
    (hurl : parts.lookup "base_url" = settings.baseUrl.map .text)
    (hformatter : parts.lookup "formatter" =
      settings.formatter.map fun formatter ↦ Setting.ofToml formatter.toToml)
    (htimestamp : parts.lookup "timestamp" = some (.bool settings.timestamp)) :
    ofSetting? (.table parts) = some settings := by
  have hname : Setting.defaulted? Setting.text? "typescript" "format" parts =
      some settings.format := by
    rw [Setting.defaulted?, hformat]
    rfl
  have hserver : Setting.optional? Setting.text? "base_url" parts = some settings.baseUrl := by
    rw [Setting.optional?, hurl]
    cases settings.baseUrl <;> rfl
  have hcommand : Setting.optional? FormatterCommand.ofSetting? "formatter" parts =
      some settings.formatter := by
    rw [Setting.optional?, hformatter]
    cases settings.formatter with
    | none => rfl
    | some formatter =>
      exact congrArg (Option.map some) (FormatterCommand.ofSetting?_toToml formatter)
  have hstamp : Setting.defaulted? Setting.bool? false "timestamp" parts =
      some settings.timestamp := by
    rw [Setting.defaulted?, htimestamp]
    rfl
  show (Setting.defaulted? Setting.text? "typescript" "format" parts >>= fun format ↦
    Setting.optional? Setting.text? "base_url" parts >>= fun baseUrl ↦
    Setting.optional? FormatterCommand.ofSetting? "formatter" parts >>= fun formatter ↦
    Setting.defaulted? Setting.bool? false "timestamp" parts >>= fun timestamp ↦
    some (⟨format, baseUrl, formatter, timestamp⟩ : GenerateConfig)) = _
  rw [hname, hserver, hcommand, hstamp]
  rfl

/-- The settings for generating are told by what is written for them. -/
theorem ofSetting?_toToml (settings : GenerateConfig) :
    ofSetting? (Setting.ofToml settings.toToml) = some settings := by
  obtain ⟨format, baseUrl, formatter, timestamp⟩ := settings
  cases baseUrl <;> cases formatter <;> exact ofSetting?_of_lookup rfl rfl rfl rfl

/-- The settings for generating are told by what is read. -/
theorem ofSetting?_arranged (settings : GenerateConfig) :
    ofSetting? (Setting.ofToml settings.toToml.arranged) = some settings := by
  obtain ⟨format, baseUrl, formatter, timestamp⟩ := settings
  cases baseUrl <;> cases formatter <;> exact ofSetting?_of_lookup rfl rfl rfl rfl

end GenerateConfig

namespace Config

/-- A source of settings that tells a configuration, and nothing else. -/
structure IsToldBy (config : Config) (source : List (String × Setting)) : Prop where
  plain : Setting.IsPlainSource source
  ofSetting?_eq : ofSetting? (.table source) = some config

/-- Two groups of settings make up a source that tells the configuration of both. -/
theorem isToldBy_of_generate {config : Config} {generate : Setting} (hsettled : generate.IsSettled)
    (htold : GenerateConfig.ofSetting? generate = some config.generate) :
    config.IsToldBy
      [("generate", generate), ("validation", Setting.ofToml config.validation.toToml)] := by
  have hlower := lower_eq_of_mem_names
  have hvalidation := (config.validation.isKept_toToml 0).settled
  have hgeneratePath : Setting.pathOf "generate" = [.name "generate"] := by decide
  have hvalidationPath : Setting.pathOf "validation" = [.name "validation"] := by decide
  refine ⟨⟨?_, ?_⟩, ?_⟩
  · exact ⟨hlower _ (by decide), rfl, hsettled, hlower _ (by decide), rfl, hvalidation, trivial⟩
  · exact List.forall_mem_cons.2 ⟨hgeneratePath, List.forall_mem_singleton.2 hvalidationPath⟩
  · show (GenerateConfig.ofSetting? generate >>= fun generate ↦
      ValidationConfig.ofSetting? (Setting.ofToml config.validation.toToml) >>= fun validation ↦
      some (⟨generate, validation⟩ : Config)) = _
    rw [htold, ValidationConfig.ofSetting?_toToml]
    rfl

/-- A configuration is told by the tree that is written for it. -/
theorem isToldBy_toToml (config : Config) :
    config.IsToldBy (Setting.ofTomlEntries config.toToml) :=
  isToldBy_of_generate (config.generate.isKept_toToml 0).settled config.generate.ofSetting?_toToml

/-- A configuration is told by the tree that is read. -/
theorem isToldBy_arranged (config : Config) :
    config.IsToldBy (Setting.ofTomlEntries (Toml.arranged config.toToml)) :=
  isToldBy_of_generate (config.generate.isKept_arranged 0).settled
    config.generate.ofSetting?_arranged

/-- What is written for a configuration is read back from its text. -/
theorem isPlainTable_toToml (config : Config) :
    Toml.IsPlainTable Toml.nestingLimit config.toToml :=
  Toml.isPlainTable_succ (by decide : names.Nodup) <| List.forall_mem_cons.2
    ⟨(config.generate.isKept_toToml 77).plain,
      List.forall_mem_singleton.2 (config.validation.isKept_toToml 78).plain⟩

/-- The text of a configuration is read as its settings. -/
theorem ofText_toTomlText (config : Config) : Setting.ofText .toml config.toTomlText =
    .ok (.table (Setting.ofTomlEntries (Toml.arranged config.toToml))) := by
  rw [Setting.ofText, toTomlText, Toml.read_render config.isPlainTable_toToml]
  rfl

/-! ### The only source -/

/-- Settings come from the file at a path alone: no variable tells any, and a file that is found at
one of the usual places is that file. -/
structure IsOnlySource (environment : Environment) (w : Workspace) (path : FilePath) : Prop where
  isToml : SettingSyntax.ofPath? path = some .toml
  ofVariable?_eq_none : ∀ v ∈ environment, Setting.ofVariable? v.1 v.2 = none
  eq_of_find_eq_ok : ∀ place ∈ usualPlaces ++ (userPlace? environment).toList, ∀ file,
    find w place = .ok file → file = (path, .toml)

variable {environment : Environment} {w : Workspace} {path : FilePath} {text : String}

/-- The name of a file that is there stands for it. -/
theorem find_eq_ok_of_text (htoml : SettingSyntax.ofPath? path = some .toml)
    (htext : w.text path = .ok text) : find w path = .ok (path, .toml) := by
  obtain ⟨content, hbytes, -⟩ := Workspace.text_eq_ok_iff.1 htext
  obtain ⟨l, hlocate, hfile⟩ := Workspace.bytes_eq_ok_iff.1 hbytes
  have hisFile : w.isFile path = true := by
    rw [Workspace.isFile, Workspace.at?, hlocate]
    dsimp only
    rw [hfile]
  rw [find, if_pos hisFile, htoml]

/-- What is found in the file that a name stands for is what its text says. -/
theorem settingsOf_of_find {source : List (String × Setting)} {place : FilePath} {isRequired : Bool}
    (hfind : find w place = .ok (path, .toml)) (htext : w.text path = .ok text)
    (hsource : Setting.ofText .toml text = .ok (.table source)) :
    settingsOf w isRequired place = .ok source := by
  have hcontent : contentOf w place = .ok (text, path, .toml) := by
    rw [contentOf, hfind]
    dsimp only [bind, Except.bind]
    rw [htext]
    rfl
  rw [settingsOf, hcontent]
  dsimp only
  rw [hsource]

/-- A place where nothing is found tells nothing. -/
theorem settingsOf_of_find_error {place : FilePath} {fault : ConfigFault}
    (hfind : find w place = .error fault) : settingsOf w false place = .ok [] := by
  have hcontent : contentOf w place = .error fault := by
    rw [contentOf, hfind]
    rfl
  rw [settingsOf, hcontent]
  rfl

/-- Each usual place tells what the only source does, or nothing. -/
theorem exists_settingsOf_usual (honly : IsOnlySource environment w path)
    (htext : w.text path = .ok text) {source : List (String × Setting)}
    (hsource : Setting.ofText .toml text = .ok (.table source)) {place : FilePath}
    (hplace : place ∈ usualPlaces ++ (userPlace? environment).toList) :
    ∃ layer, settingsOf w false place = .ok layer ∧ (layer = [] ∨ layer = source) := by
  cases hfind : find w place with
  | error fault => exact ⟨[], settingsOf_of_find_error hfind, .inl rfl⟩
  | ok file =>
    obtain rfl := honly.eq_of_find_eq_ok place hplace file hfind
    exact ⟨source, settingsOf_of_find hfind htext hsource, .inr rfl⟩

/-- **The settings in force are those of the only source.** -/
theorem settings_of_isOnlySource (honly : IsOnlySource environment w path)
    (htext : w.text path = .ok text) {source : List (String × Setting)}
    (hsource : Setting.ofText .toml text = .ok (.table source))
    (hplain : Setting.IsPlainSource source) :
    settings environment w (some path) = .ok (.table source) := by
  let read (place : Bool × FilePath) : Except ConfigFault (List (String × Setting)) :=
    settingsOf w place.1 place.2
  let usual : List (Bool × FilePath) := (usualPlaces ++
    ((userPlace? environment).filter fun path ↦ (w.at? path).isSome).toList).map (false, ·)
  -- A usual place has no file, or it is another name of the only one.
  have husual : ∀ place ∈ usual,
      ∃ layer, read place = .ok layer ∧ (layer = [] ∨ layer = source) := by
    refine List.forall_mem_map.2 fun place hplace ↦ exists_settingsOf_usual honly htext hsource ?_
    rw [List.mem_append, Option.mem_toList] at hplace ⊢
    exact hplace.imp_right fun h ↦ (Option.mem_filter_iff.1 h).1
  obtain ⟨layers, hlayers, hall⟩ :=
    Except.exists_mapM_eq_ok (R := fun _ layer ↦ layer = [] ∨ layer = source) husual
  have hasked : read (true, path) = .ok source :=
    settingsOf_of_find (find_eq_ok_of_text honly.isToml htext) htext hsource
  have hread : (places environment w (some path)).mapM read = .ok (layers ++ [source]) := by
    show (usual ++ [(true, path)]).mapM read = _
    rw [List.mapM_append, hlayers, List.mapM_cons, hasked]
    rfl
  have hvariables : environment.filterMap (fun v ↦ Setting.ofVariable? v.1 v.2) = [] :=
    List.filterMap_eq_nil_iff.2 honly.ofVariable?_eq_none
  show ((places environment w (some path)).mapM read >>= fun layers ↦
    .ok ((layers ++ [environment.filterMap fun v ↦ Setting.ofVariable? v.1 v.2]).foldl
      Setting.layerSource (.table []))) = _
  rw [hread, hvariables]
  show Except.ok (((layers ++ [source]) ++ [[]]).foldl Setting.layerSource (.table [])) = _
  rw [List.foldl_append, List.foldl_append]
  -- However often the source is laid over itself, nothing changes.
  refine congrArg Except.ok (hplain.foldl_layerSource (.inl rfl) fun layer hlayer ↦ ?_)
  obtain ⟨place, -, hplace⟩ := hall.exists_of_mem_right hlayer
  exact hplace

/-- **A configuration that was saved is loaded back** where nothing else tells settings. -/
theorem load_of_save {config : Config} {saved : Workspace} (hsave : config.save w path = .ok saved)
    (honly : IsOnlySource environment saved path) :
    load environment saved (some path) = .ok config := by
  have htold := config.isToldBy_arranged
  rw [load, settings_of_isOnlySource honly (Workspace.text_of_write hsave) config.ofText_toTomlText
    htold.plain]
  dsimp only [bind, Except.bind]
  rw [htold.ofSetting?_eq]
  rfl

/-- **A saved configuration comes back unchanged.** The tree that is written for a configuration
tells just this configuration, whatever its texts are and which settings are absent or empty. The
text of that tree is read with a formatter behind the other settings for generating, and is loaded
as the same configuration where nothing else tells settings, also from one of the usual places. -/
theorem saved_loads_back (config : Config) :
    ofSetting? (Setting.layerSource (.table []) (Setting.ofTomlEntries config.toToml)) =
      some config ∧
    (∃ source, Setting.ofText .toml config.toTomlText = .ok (.table source) ∧
      ofSetting? (Setting.layerSource (.table []) source) = some config) ∧
    ∀ (environment : Environment) (w saved : Workspace) (path : FilePath),
      config.save w path = .ok saved → IsOnlySource environment saved path →
        load environment saved (some path) = .ok config := by
  have hwritten := config.isToldBy_toToml
  have hread := config.isToldBy_arranged
  refine ⟨?_, ⟨_, config.ofText_toTomlText, ?_⟩, fun environment w saved path hsave honly ↦
    load_of_save hsave honly⟩
  · rw [hwritten.plain.layerSource_nil, hwritten.ofSetting?_eq]
  · rw [hread.plain.layerSource_nil, hread.ofSetting?_eq]

/-- A configuration that asks for no routes, and whose texts need quotes. -/
def quotedConfig : Config where
  generate :=
    { baseUrl := some "", formatter := some ⟨"format 'all'", ["--\"wide\"", "a\nb", "true"]⟩ }
  validation := { requiredRoutes := [], protectedPrefixes := [] }

/-- The configuration is saved at a usual place, which is then read twice. -/
theorem saved_loads_back_quotedConfig :
    ∃ saved, quotedConfig.save {} ⟨"contract-codegen.toml"⟩ = .ok saved ∧
      load [("LANG", "C")] saved (some ⟨"contract-codegen.toml"⟩) =
        .ok quotedConfig := by
  have hsave : quotedConfig.save {} ⟨"contract-codegen.toml"⟩ = .ok (({} : Workspace).set
      ["contract-codegen.toml"] (.file quotedConfig.toTomlText.toUTF8)) := rfl
  have hplaces : (usualPlaces ++ (userPlace? [("LANG", "C")]).toList).all
      (fun place ↦ match find (({} : Workspace).set ["contract-codegen.toml"]
          (.file quotedConfig.toTomlText.toUTF8)) place with
        | .ok file => decide (file = (⟨"contract-codegen.toml"⟩, SettingSyntax.toml))
        | .error _ => true) = true := by
    decide +kernel
  refine ⟨_, hsave, (saved_loads_back quotedConfig).2.2 _ {} _ _ hsave
    ⟨by decide, by decide, fun place hplace file hfind ↦ ?_⟩⟩
  have hfile := List.all_eq_true.1 hplaces place hplace
  rw [hfind] at hfile
  exact of_decide_eq_true hfile

end Config

end ApiContract
