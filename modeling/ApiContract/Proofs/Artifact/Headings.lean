import ApiContract.Proofs.Artifact.Linking
import ApiContract.Proofs.Plan
import ApiContract.Proofs.TypeScript.Comment

/-!
# The headings of modules

Each of the modules has a heading for each group of operations, with the tag of the group as it is
written, and a few that are fixed (`HasHeadings`), whatever the helpers are. Headings are comments
up to the end of a line, so they are comments altogether exactly if no tag leaves its line for
something else.

## Main result

`headings_are_comments_iff` holds for each of the three formats with code, for every contract,
options and helpers: every line of every heading begins as a comment does exactly if in each primary
tag two slashes stand behind every end of a line. A tag of one line satisfies that, so contracts
without ends of lines in tags are safe.

## Proof

The titles of the headings are collected from the declarations (`titles`), which respects
concatenation; so those of a module are found part by part, and types, validators, functions and
hooks have none. Neither the labels in front of tags nor the fixed headings contain an end of a line
(`isOneLine_of_heading`), and so the question whether a heading is a comment is one about its tag.

A contract with a tag of two lines, whose heading has a declaration in its third line, is at the
end.
-/

namespace ApiContract

open TypeScript

/-! ### Which headings there are -/

/-- The title of a heading. -/
def TypeScript.Declaration.title? : Declaration → Option String
  | .banner title => some title
  | _ => none

/-- The titles of the headings, in their order. -/
def titles (declared : List Declaration) : List String := declared.filterMap Declaration.title?

/-- The declarations of the module in a format; that of the contract as such has none. -/
def Plan.declarations? (plan : Plan) (helpers : HelperTable) :
    OutputFormat → Option (Except Failure (List Declaration))
  | .typescript => some (TypesModule.declarations plan helpers)
  | .axios => some (ClientModule.declarations plan helpers)
  | .reactQuery => some (HooksModule.declarations plan helpers)
  | .openapi => none

namespace OutputFormat

/-- What stands in front of the tag in the headings for the groups. -/
def headingLabel : OutputFormat → String
  | typescript => "Operations: "
  | axios => "Operation types: "
  | reactQuery => "Hooks: "
  | openapi => ""

/-- The headings that are not for groups. -/
def fixedHeadings : OutputFormat → List String
  | typescript => ["Models", "Validators", "Operation Index"]
  | axios => ["Models", "Client"]
  | reactQuery => ["Query Keys"]
  | openapi => []

end OutputFormat

/-- The headings of a module are one for each group, in their order, between some that are fixed. -/
structure HasHeadings (format : OutputFormat) (plan : Plan)
    (declared : List Declaration) : Prop where
  exists_titles : ∃ before after, before ++ after ⊆ format.fixedHeadings ∧
    titles declared = before ++ plan.groups.map (fun g ↦ format.headingLabel ++ g.tag) ++ after

section Titles

variable {declared : List Declaration}

theorem banner_mem_iff {title : String} : .banner title ∈ declared ↔ title ∈ titles declared := by
  rw [titles, List.mem_filterMap]
  constructor
  · exact fun h ↦ ⟨_, h, rfl⟩
  · rintro ⟨d, hd, htitle⟩
    cases d with
    | banner found =>
      obtain rfl := Option.some.inj htitle
      exact hd
    | _ => exact absurd htitle nofun

theorem titles_append (first second : List Declaration) :
    titles (first ++ second) = titles first ++ titles second := List.filterMap_append

theorem titles_eq_nil_iff : titles declared = [] ↔ ∀ d ∈ declared, d.title? = none :=
  List.filterMap_eq_nil_iff

/-- What is declared in one case only has no titles if neither case has. -/
theorem titles_ite_eq_nil {c : Prop} [Decidable c] {first second : List Declaration}
    (hfirst : titles first = []) (hsecond : titles second = []) :
    titles (if c then first else second) = [] := by
  split
  · exact hfirst
  · exact hsecond

theorem titles_banner (title : String) (rest : List Declaration) :
    titles (.banner title :: rest) = title :: titles rest := rfl

/-- The titles of the parts are those of the whole. -/
theorem titles_flatMap {α : Type} (parts : List α) (f : α → List Declaration) :
    titles (parts.flatMap f) = parts.flatMap fun part ↦ titles (f part) := by
  induction parts with
  | nil => rfl
  | cons part rest ih => rw [List.flatMap_cons, titles_append, ih, List.flatMap_cons]

/-- Parts that each have one title have the titles of what they are made from. -/
theorem titles_flatMap_of_forall₂ {α β : Type} {R : α → β → Prop} {sources : List α}
    {parts : List β} {title : α → String} {f : β → List Declaration}
    (h : List.Forall₂ R sources parts) (heach : ∀ x y, R x y → titles (f y) = [title x]) :
    titles (parts.flatMap f) = sources.map title := by
  rw [titles_flatMap, List.map_eq_flatMap]
  exact (h.flatMap_eq fun x y hxy ↦ (heach x y hxy).symm).symm

/-- Types of models are no headings. -/
theorem titles_modelDeclarations (plan : Plan) : titles plan.modelDeclarations = [] := by
  refine titles_eq_nil_iff.2 fun d hd ↦ ?_
  obtain ⟨model, -, rfl⟩ := List.mem_map.1 hd
  rw [Model.typeDeclaration]
  split <;> rfl

/-- Types of operations are no headings. -/
theorem titles_typeDeclarations {s : Surface} {helpers : HelperTable}
    (h : s.typeDeclarations helpers = .ok declared) : titles declared = [] := by
  obtain ⟨response, -, hdeclared⟩ := Except.bind_eq_ok_iff.1 h
  obtain rfl := Except.ok.inj hdeclared
  have hparams : titles s.paramsDeclarations = [] := by
    rw [Surface.paramsDeclarations]
    split <;> rfl
  have hbody : titles s.bodyDeclarations = [] := by
    rw [Surface.bodyDeclarations]
    split <;> rfl
  rw [titles_append, titles_append, hparams, hbody]
  rfl

end Titles

/-! ### The module of types -/

namespace TypesModule

variable {plan : Plan} {helpers : HelperTable} {declared : List Declaration}

/-- The declarations of an operation have no heading. -/
theorem titles_operation {tag : String} {op : Operation} {part : List Declaration × Entry}
    (h : operation plan helpers tag op = .ok part) : titles part.1 = [] := by
  obtain ⟨s, -, h⟩ := Except.bind_eq_ok_iff.1 h
  obtain ⟨types, htypes, h⟩ := Except.bind_eq_ok_iff.1 h
  obtain ⟨entry, -, h⟩ := Except.bind_eq_ok_iff.1 h
  obtain rfl := Except.ok.inj h
  have hbody : titles (bodyValidators plan s) = [] := by
    rw [bodyValidators]
    split <;> rfl
  rw [titles_append, titles_typeDeclarations htypes, hbody]
  rfl

/-- A group in the module of types begins with its heading, and has no other. -/
theorem titles_group {g : OperationGroup} {part : List Declaration × List Entry}
    (h : group plan helpers g = .ok part) : titles part.1 = ["Operations: " ++ g.tag] := by
  obtain ⟨parts, hparts, h⟩ := Except.bind_eq_ok_iff.1 h
  obtain ⟨constant, -, h⟩ := Except.bind_eq_ok_iff.1 h
  obtain rfl := Except.ok.inj h
  have hoperations : titles (parts.flatMap Prod.fst) = [] := by
    rw [titles_flatMap]
    refine List.flatMap_eq_nil_iff.2 fun part hpart ↦ ?_
    obtain ⟨op, -, hop⟩ := Except.exists_of_mem_of_mapM_eq_ok hparts hpart
    exact titles_operation hop
  rw [titles_append, titles_append, hoperations]
  rfl

/-- The headings of the module of types. -/
theorem hasHeadings (h : declarations plan helpers = .ok declared) :
    HasHeadings .typescript plan declared := by
  obtain ⟨groups, hgroups, h⟩ := Except.bind_eq_ok_iff.1 h
  obtain rfl := Except.ok.inj h
  have htitles : titles (groups.flatMap Prod.fst) =
      plan.groups.map fun g ↦ "Operations: " ++ g.tag :=
    titles_flatMap_of_forall₂ (Except.mapM_eq_ok_iff.1 hgroups) fun _ _ ↦ titles_group
  have hmodels : titles (models plan) ⊆ ["Models", "Validators"] := by
    have hvalidators : titles plan.validatorDeclarations = [] := by
      refine titles_eq_nil_iff.2 fun d hd ↦ ?_
      obtain ⟨model, -, rfl⟩ := List.mem_map.1 hd
      rfl
    rw [models]
    split
    · exact List.nil_subset _
    · rw [titles_append, titles_append, titles_append, titles_modelDeclarations, hvalidators]
      exact List.Subset.refl _
  have hindex : titles (index (groups.flatMap Prod.snd)) ⊆ ["Operation Index"] := by
    rw [index]
    split
    · exact List.nil_subset _
    · exact List.Subset.refl _
  refine ⟨titles (models plan), titles (index (groups.flatMap Prod.snd)), ?_, ?_⟩
  · exact List.append_subset.2
      ⟨List.subset_append_of_subset_left ["Operation Index"] hmodels,
        List.subset_append_of_subset_right ["Models", "Validators"] hindex⟩
  · rw [titles_append, titles_append, titles_append, htitles]
    rfl

end TypesModule

/-! ### The client -/

namespace ClientModule

variable {plan : Plan} {helpers : HelperTable} {declared : List Declaration}

/-- A group in the client begins with its heading, and has no other. -/
theorem titles_group {g : OperationGroup} {part : List Declaration × List Surface}
    (h : group helpers g = .ok part) : titles part.1 = ["Operation types: " ++ g.tag] := by
  obtain ⟨parts, hparts, h⟩ := Except.bind_eq_ok_iff.1 h
  obtain rfl := Except.ok.inj h
  have htypes : titles (parts.flatMap Prod.fst) = [] := by
    rw [titles_flatMap]
    refine List.flatMap_eq_nil_iff.2 fun part hpart ↦ ?_
    obtain ⟨op, -, hop⟩ := Except.exists_of_mem_of_mapM_eq_ok hparts hpart
    obtain ⟨s, -, hop⟩ := Except.bind_eq_ok_iff.1 hop
    obtain ⟨types, htypes, hop⟩ := Except.bind_eq_ok_iff.1 hop
    obtain rfl := Except.ok.inj hop
    exact titles_typeDeclarations htypes
  rw [titles_banner, htypes]

/-- A function is no heading. -/
theorem title?_of_function_eq_ok {s : Surface} {d : Declaration}
    (h : function helpers s = .ok d) : d.title? = none := by
  obtain ⟨hasQuery, -, h⟩ := Except.bind_eq_ok_iff.1 h
  dsimp only at h
  split at h
  · exact absurd h nofun
  · obtain ⟨url, -, h⟩ := Except.bind_eq_ok_iff.1 h
    obtain ⟨hasPath, -, h⟩ := Except.bind_eq_ok_iff.1 h
    obtain ⟨doc, -, h⟩ := Except.bind_eq_ok_iff.1 h
    obtain rfl := Except.ok.inj h
    rfl

/-- The headings of the client. -/
theorem hasHeadings (h : declarations plan helpers = .ok declared) :
    HasHeadings .axios plan declared := by
  obtain ⟨groups, hgroups, h⟩ := Except.bind_eq_ok_iff.1 h
  obtain ⟨functions, hfunctions, h⟩ := Except.bind_eq_ok_iff.1 h
  obtain rfl := Except.ok.inj h
  have htitles : titles (groups.flatMap Prod.fst) =
      plan.groups.map fun g ↦ "Operation types: " ++ g.tag :=
    titles_flatMap_of_forall₂ (Except.mapM_eq_ok_iff.1 hgroups) fun _ _ ↦ titles_group
  have hfunctions : titles functions = [] := titles_eq_nil_iff.2 fun d hd ↦ by
    obtain ⟨s, -, hs⟩ := Except.exists_of_mem_of_mapM_eq_ok hfunctions hd
    exact title?_of_function_eq_ok hs
  have hmodels : titles (models plan) ⊆ ["Models"] := by
    rw [models]
    split
    · exact List.nil_subset _
    · rw [titles_banner, titles_modelDeclarations]
      exact List.Subset.refl _
  have hsetter : titles (if plan.hasSecurity then [tokenSetter] else []) = [] := by
    split <;> rfl
  refine ⟨titles (models plan), ["Client"], ?_, ?_⟩
  · exact List.append_subset.2 ⟨List.subset_append_of_subset_left ["Client"] hmodels,
      List.subset_append_right ["Models"] ["Client"]⟩
  · simp only [titles_append, htitles, hfunctions, hsetter, List.append_assoc]
    rfl

end ClientModule

/-! ### The hooks -/

namespace HooksModule

variable {plan : Plan} {helpers : HelperTable} {declared : List Declaration}

/-- The declarations of a hook have no heading. -/
theorem titles_hook {tagKey : String} {op : Operation} {made : Hook}
    (h : hook helpers tagKey op = .ok made) : titles made.declarations = [] := by
  obtain ⟨s, -, h⟩ := Except.bind_eq_ok_iff.1 h
  obtain ⟨isQuery, -, h⟩ := Except.bind_eq_ok_iff.1 h
  split at h
  · obtain ⟨key, -, h⟩ := Except.bind_eq_ok_iff.1 h
    obtain ⟨declaration, hdeclaration, h⟩ := Except.bind_eq_ok_iff.1 h
    obtain rfl := Except.ok.inj h
    obtain ⟨doc, -, hdeclaration⟩ := Except.bind_eq_ok_iff.1 hdeclaration
    obtain rfl := Except.ok.inj hdeclaration
    rfl
  · obtain ⟨isMutation, -, h⟩ := Except.bind_eq_ok_iff.1 h
    split at h
    · obtain ⟨declarations, hdeclarations, h⟩ := Except.bind_eq_ok_iff.1 h
      obtain rfl := Except.ok.inj h
      obtain ⟨doc, -, hdeclarations⟩ := Except.bind_eq_ok_iff.1 hdeclarations
      obtain rfl := Except.ok.inj hdeclarations
      rfl
    · obtain rfl := Except.ok.inj h
      rfl

/-- A group of hooks begins with its heading, and has no other. -/
theorem titles_group {g : OperationGroup} {part : Entry × List Declaration × List Hook}
    (h : group helpers g = .ok part) : titles part.2.1 = ["Hooks: " ++ g.tag] := by
  obtain ⟨name, -, h⟩ := Except.bind_eq_ok_iff.1 h
  obtain ⟨hooks, hhooks, h⟩ := Except.bind_eq_ok_iff.1 h
  obtain rfl := Except.ok.inj h
  have hdeclared : titles (hooks.flatMap Hook.declarations) = [] := by
    rw [titles_flatMap]
    refine List.flatMap_eq_nil_iff.2 fun made hmade ↦ ?_
    obtain ⟨op, -, hop⟩ := Except.exists_of_mem_of_mapM_eq_ok hhooks hmade
    exact titles_hook hop
  rw [titles_banner, hdeclared]

/-- The headings of the module of hooks. -/
theorem hasHeadings (h : declarations plan helpers = .ok declared) :
    HasHeadings .reactQuery plan declared := by
  obtain ⟨groups, hgroups, h⟩ := Except.bind_eq_ok_iff.1 h
  obtain rfl := Except.ok.inj h
  have htitles : titles (groups.flatMap fun part ↦ part.2.1) =
      plan.groups.map fun g ↦ "Hooks: " ++ g.tag :=
    titles_flatMap_of_forall₂ (Except.mapM_eq_ok_iff.1 hgroups) fun _ _ ↦ titles_group
  have hruntime (hooks : List Hook) : titles (runtimeImports hooks) = [] :=
    titles_ite_eq_nil rfl rfl
  have hclient (hooks : List Hook) : titles (clientImports hooks) = [] := by
    rw [clientImports, ← List.singleton_append, titles_append]
    exact titles_ite_eq_nil rfl rfl
  refine ⟨["Query Keys"], [], List.Subset.refl _, ?_⟩
  simp only [titles_append, hruntime, hclient, htitles, List.append_nil]
  rfl

end HooksModule

/-! ### Headings as comments -/

/-- **The headings of each module.** -/
theorem Plan.hasHeadings {plan : Plan} {helpers : HelperTable} {declared : List Declaration} :
    ∀ {format : OutputFormat}, plan.declarations? helpers format = some (.ok declared) →
      HasHeadings format plan declared
  | .typescript, h => TypesModule.hasHeadings (Option.some.inj h)
  | .axios, h => ClientModule.hasHeadings (Option.some.inj h)
  | .reactQuery, h => HooksModule.hasHeadings (Option.some.inj h)

namespace Spec

variable {spec : Spec} {options : RenderOptions} {helpers : HelperTable} {format : OutputFormat}
  {plan : Plan} {declared : List Declaration} {text : String}

/-- A text with code is that of a module's declarations. -/
theorem exists_of_render_eq_ok (hformat : format ≠ .openapi)
    (h : spec.render format options helpers = .ok text) :
    ∃ plan declared, Plan.ofSpec spec options = .ok plan ∧
      plan.declarations? helpers format = some (.ok declared) ∧ text = printModule declared := by
  have hmodule (plan : Plan) : ∃ made, plan.declarations? helpers format = some made ∧
      plan.render format helpers = made.map printModule := by
    cases format with
    | openapi => exact absurd rfl hformat
    | typescript | axios | reactQuery => exact ⟨_, rfl, rfl⟩
  obtain ⟨plan, hplan, hrender⟩ := Except.bind_eq_ok_iff.1 h
  obtain ⟨made, hmade, heq⟩ := hmodule plan
  obtain ⟨declared, rfl, htext⟩ := Except.map_eq_ok_iff.1 (heq.symm.trans hrender)
  exact ⟨plan, declared, hplan, hmade, htext.symm⟩

/-- Fixed headings and the labels of the others stay on one line. -/
theorem isOneLine_of_heading (format : OutputFormat) :
    (∀ title ∈ format.fixedHeadings, IsOneLine title) ∧ IsOneLine format.headingLabel := by
  cases format <;> decide +kernel

/-- The headings of a module are comments exactly if the tags continue them. -/
theorem comments_iff (hplan : Plan.ofSpec spec options = .ok plan)
    (hheadings : HasHeadings format plan declared) :
    (∀ title, .banner title ∈ declared → IsComment (Declaration.banner title).print) ↔
      ∀ op ∈ spec.operations, ContinuesComment op.primaryTag := by
  obtain ⟨before, after, hfixed, htitles⟩ := hheadings.exists_titles
  obtain ⟨hfixedLine, hlabel⟩ := isOneLine_of_heading format
  have hknown : ∀ title ∈ before ++ after, ContinuesComment title := fun title htitle ↦
    (hfixedLine title (hfixed htitle)).continuesComment
  obtain ⟨hbefore, hafter⟩ := List.forall_mem_append.1 hknown
  simp only [banner_mem_iff, isComment_banner_iff, htitles, List.forall_mem_append,
    List.forall_mem_map, continuesComment_append_iff hlabel]
  rw [Plan.forall_tag_iff hplan ContinuesComment]
  exact ⟨fun h ↦ h.1.2, fun h ↦ ⟨⟨hbefore, h⟩, hafter⟩⟩

/-- **Headings are comments exactly if tags do not leave their line.** Whenever the types, the
client or the hooks of a contract can be made, with whichever helpers, the module has one heading
for each group with the tag of the group in it, and otherwise only fixed ones. All lines of all
headings begin as comments do exactly if in each primary tag two slashes stand behind every end of a
line; so they do if no tag has more than one line. -/
theorem headings_are_comments_iff (hformat : format ≠ .openapi)
    (h : spec.render format options helpers = .ok text) :
    ∃ plan declared, Plan.ofSpec spec options = .ok plan ∧
      plan.declarations? helpers format = some (.ok declared) ∧ text = printModule declared ∧
      HasHeadings format plan declared ∧
      ((∀ title, .banner title ∈ declared → IsComment (Declaration.banner title).print) ↔
        ∀ op ∈ spec.operations, ContinuesComment op.primaryTag) := by
  obtain ⟨plan, declared, hplan, hdeclared, htext⟩ := exists_of_render_eq_ok hformat h
  have hheadings := Plan.hasHeadings hdeclared
  exact ⟨plan, declared, hplan, hdeclared, htext, hheadings, comments_iff hplan hheadings⟩

/-- A query with a tag of two lines. -/
def kennelSpec : Spec :=
  .bare "Kennel"
    [{ query "listPets" "/pets" [] with tags := ["pets\nexport const leaked = 1;"] }] []

theorem exists_module_kennelSpec : ∃ declared,
    TypesModule.declarations (.make kennelSpec {}) .standard = .ok declared ∧
      kennelSpec.render .typescript {} .standard = .ok (printModule declared) :=
  TypesModule.exists_module (by decide +kernel) (by decide +kernel)

/-- Not all headings are comments, as the tag leaves its line. -/
theorem headings_are_comments_iff_kennelSpec :
    ∃ text plan declared, OutputFormat.typescript ≠ .openapi ∧
      kennelSpec.render .typescript {} .standard = .ok text ∧ text = printModule declared ∧
      HasHeadings .typescript plan declared ∧
      ¬∀ title, .banner title ∈ declared → IsComment (Declaration.banner title).print := by
  obtain ⟨declared, -, hrender⟩ := exists_module_kennelSpec
  have hformat : OutputFormat.typescript ≠ .openapi := by decide
  obtain ⟨plan, declared, -, -, htext, hheadings, hiff⟩ := headings_are_comments_iff hformat hrender
  refine ⟨_, plan, declared, hformat, hrender, htext, hheadings, fun hcomments ↦ ?_⟩
  have hleaves : ¬∀ op ∈ kennelSpec.operations, ContinuesComment op.primaryTag := by
    decide +kernel
  exact hleaves (hiff.1 hcomments)

/-- A heading with the tag in it is no comment: its third line begins a declaration. -/
theorem heading_escapes_kennelSpec :
    ∃ declared, kennelSpec.render .typescript {} .standard = .ok (printModule declared) ∧
      .banner "Operations: pets\nexport const leaked = 1;" ∈ declared ∧
      ¬IsComment (Declaration.banner "Operations: pets\nexport const leaked = 1;").print := by
  obtain ⟨declared, hdeclared, hrender⟩ := exists_module_kennelSpec
  obtain ⟨before, after, -, htitles⟩ := (TypesModule.hasHeadings hdeclared).exists_titles
  have hgroups : (Plan.make kennelSpec {}).groups.map (fun g ↦ "Operations: " ++ g.tag) =
      ["Operations: pets\nexport const leaked = 1;"] := by decide +kernel
  have hleaves : ¬ContinuesComment "Operations: pets\nexport const leaked = 1;" := by decide +kernel
  refine ⟨declared, hrender, banner_mem_iff.2 ?_, fun h ↦ hleaves ((isComment_banner_iff _).1 h)⟩
  rw [htitles]
  exact List.mem_append_left _ (List.mem_append_right _
    (hgroups ▸ List.mem_singleton_self _))

end Spec

end ApiContract
