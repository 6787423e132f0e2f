import ApiContract.Proofs.Artifact.Hooks
import ApiContract.Proofs.Artifact.TypeNames

/-!
# The hooks fit the client

The module of hooks imports from the module of the client, and the two are made apart from each
other, from one plan. This module shows that they fit.

## Main result

`hooks_fit_client`: whenever the client of a contract can be made, so can the hooks. The types that
these import are declared by the client. Each hook uses the client once, to call the function that
the client has for its operation, through the object that gathers the functions; its arguments stand
one by one for the parameters of that function, with the types that these ask for, and the
configuration is left out.

## How arguments are matched

An argument stands for a parameter (`Provides`) if it is a name in scope with the parameter's type,
or a member of such a name that has that type by a declaration of the module. The second form is
that of a mutation, whose variables have a type declared beside it. Both sides of a call are lists
made from the same surface, so they are compared by `List.Forall₂` along its parameters.

## Proof

The client is known by what each of its parts declares, the hooks by `IsModuleOf`; neither side is
computed here. The hooks can be made because the client can: both fail for ids without a name, and
the client for more than that.
-/

namespace ApiContract

open TypeScript

/-! ### Two modules -/

/-- The configuration that a function of the client may be given. -/
def configParam : Param := .optional "config" (.named "AxiosRequestConfig")

/-- A use of the client calls a function of it. -/
structure Calls (client hooks : List Declaration) (use : Use) (function : Declaration) : Prop where
  /-- What is called is an entry of the object that gathers the functions. -/
  entry : ∃ name entries, function.functionName? = some name ∧ use.path = [name] ∧
    .const "apiClient" none (.object entries) none ∈ client ∧ .shorthand name ∈ entries
  /-- What is passed stands for the parameters, in their order, without the configuration. -/
  arguments : ∃ given args, function.params = given ++ [configParam] ∧
    use.arguments = some args ∧ List.Forall₂ (Provides hooks use.scope) given args

/-- A hook uses the client to call the function of its operation, and for nothing else. -/
structure Linked (client hooks : List Declaration) (op : Operation) (hook : Declaration) :
    Prop where
  name : hook.functionName? = some ("use" ++ typeName op.id)
  call : ∃ use function, hook.uses "apiClient" = [use] ∧
    ClientModule.function .standard (.standard op) = .ok function ∧ function ∈ client ∧
    Calls client hooks use function

/-- The module of hooks fits the client, both made from one plan. -/
structure FitsClient (plan : Plan) (client hooks : List Declaration) : Prop where
  imported : .imports none ["apiClient"] HooksModule.clientModule false ∈ hooks
  /-- The types that are imported from the client are declared there. -/
  types : ∀ d ∈ hooks, ∀ type ∈ d.importedTypes HooksModule.clientModule,
    type ∈ declaredTypes client
  /-- Every operation has its hook. -/
  linked : ∀ op ∈ plan.operations, ∃ hook ∈ hooks, Linked client hooks op hook
  /-- What uses the client is the hook of an operation. -/
  calls : ∀ hook ∈ hooks, hook.uses "apiClient" ≠ [] →
    ∃ op ∈ plan.operations, Linked client hooks op hook

/-! ### The client -/

namespace ClientModule

variable {plan : Plan} {client : List Declaration}

/-- A function of the client has the name and the parameters of its surface, and then the
configuration. -/
theorem signature_of_function_eq_ok {s : Surface} {d : Declaration}
    (h : function .standard s = .ok d) :
    d.functionName? = some s.functionName ∧ d.params = s.callParams ++ [configParam] := by
  obtain ⟨-, _, _, rfl⟩ := form_of_function_eq_ok h
  exact ⟨rfl, rfl⟩

/-- The client can only be made if the id of every operation gives a name. -/
theorem typeName_ne_of_declarations_eq_ok (h : declarations plan .standard = .ok client) :
    ∀ op ∈ plan.operations, typeName op.id ≠ "" := by
  obtain ⟨groups, hgroups, -⟩ := Except.bind_eq_ok_iff.1 h
  intro op hop
  obtain ⟨g, hg, hop⟩ := List.mem_flatMap.1 hop
  exact ((Except.mapM_eq_ok_iff_map fun _ _ ↦ group_eq_ok_iff).1 hgroups).1 g hg op hop

/-- The types that are declared for an operation, in order. -/
theorem declaredTypes_typesOf (op : Operation) : declaredTypes (typesOf op) =
    (if op.parameters.any Plan.isSurfaceParameter then [typeName op.id ++ "Params"] else []) ++
      (if op.requestBody.isSome then [typeName op.id ++ "Body"] else []) ++
        [typeName op.id ++ "Response"] := by
  rw [typesOf, declaredTypes_append, declaredTypes_append,
    TypesModule.declaredTypes_paramsDeclarations, TypesModule.declaredTypes_bodyDeclarations]
  rfl

/-- The types that a hook mentions are those that are declared for its operation. -/
theorem typesOf_eq_declaredTypes (op : Operation) :
    HooksModule.typesOf (.standard op) = declaredTypes (typesOf op) := by
  rw [declaredTypes_typesOf, HooksModule.typesOf, Surface.standard]
  cases op.requestBody <;> split <;> rfl

/-- The client declares the types of every operation. -/
theorem mem_declaredTypes_client (h : declarations plan .standard = .ok client) {op : Operation}
    (hop : op ∈ plan.operations) {type : String} (htype : type ∈ declaredTypes (typesOf op)) :
    type ∈ declaredTypes client := by
  obtain ⟨functions, -, rfl⟩ := exists_of_declarations_eq_ok h
  obtain ⟨g, hg, hop⟩ := List.mem_flatMap.1 hop
  obtain ⟨d, hd, hname⟩ := List.mem_filterMap.1 htype
  have hgroup : d ∈ groupDeclarations g :=
    List.mem_cons_of_mem _ (List.mem_flatMap.2 ⟨op, hop, hd⟩)
  have hmodule : d ∈ moduleOf plan functions := by
    simp only [moduleOf, List.mem_append]
    exact .inl (.inl (.inl (.inl (.inr (List.mem_flatMap.2 ⟨g, hg, hgroup⟩)))))
  exact List.mem_filterMap.2 ⟨d, hmodule, hname⟩

/-- The client has the function of every operation. -/
theorem exists_function_of_mem (h : declarations plan .standard = .ok client) {op : Operation}
    (hop : op ∈ plan.operations) :
    ∃ d, function .standard (.standard op) = .ok d ∧ d ∈ client := by
  obtain ⟨functions, hfunctions, rfl⟩ := exists_of_declarations_eq_ok h
  obtain ⟨d, hd, hfunction⟩ := (Except.mapM_eq_ok_iff.1 hfunctions).exists_of_mem_left
    (List.mem_map_of_mem hop)
  refine ⟨d, hfunction, ?_⟩
  simp only [moduleOf, List.mem_append]
  exact .inl (.inr hd)

/-- The functions of the operations are gathered in one object. -/
theorem exists_entries (h : declarations plan .standard = .ok client) :
    ∃ entries, .const "apiClient" none (.object entries) none ∈ client ∧
      ∀ op ∈ plan.operations, .shorthand (Surface.standard op).functionName ∈ entries := by
  obtain ⟨functions, -, rfl⟩ := exists_of_declarations_eq_ok h
  refine ⟨_, List.mem_append_right _ (List.mem_singleton_self _), fun op hop ↦ ?_⟩
  exact List.mem_map_of_mem (f := fun s : Surface ↦ Entry.shorthand s.functionName)
    (List.mem_map_of_mem hop)

end ClientModule

/-! ### Arguments -/

namespace HooksModule

variable {s : Surface} {p : Param}

/-- A parameter of a call is found by its name. -/
theorem boundParam?_of_mem_callParams (h : p ∈ s.callParams) (rest : List Param) :
    boundParam? (s.callParams ++ rest) p.name = some p := by
  have hnames : ["params", "body"].Nodup := by decide
  have hbound := boundParam?_of_mem ((sublist_name_callParams s).nodup hnames) h
  rw [boundParam?, List.find?_append, ← boundParam?, hbound, Option.some_or]

/-- A parameter of a call states its type. -/
theorem exists_type_of_mem_callParams (h : p ∈ s.callParams) : ∃ type, p.type = some type := by
  simp only [Surface.callParams, List.mem_append] at h
  rcases h with hparams | hbody
  · split at hparams
    · obtain rfl := List.mem_singleton.1 hparams
      exact ⟨_, rfl⟩
    · exact absurd hparams List.not_mem_nil
  · split at hbody
    · obtain rfl := List.mem_singleton.1 hbody
      exact ⟨_, rfl⟩
    · obtain rfl := List.mem_singleton.1 hbody
      exact ⟨_, rfl⟩
    · exact absurd hbody List.not_mem_nil

/-- A query passes its own parameters. -/
theorem provides_arguments (declared : List Declaration) (s : Surface) (rest : List Param) :
    List.Forall₂ (Provides declared (s.callParams ++ rest)) s.callParams (arguments s) := by
  rw [arguments, List.forall₂_map_right_iff, List.forall₂_same]
  exact fun p hp ↦ .param (boundParam?_of_mem_callParams hp rest)

/-- A mutation passes the members of its variables. -/
theorem provides_mutationArguments {declared : List Declaration}
    (hvariables : variablesDeclaration s ∈ declared) (rest : List Param) :
    List.Forall₂ (Provides declared (mutationParams s ++ rest)) s.callParams
      (mutationArguments s) := by
  rw [mutationArguments, List.forall₂_map_right_iff, List.forall₂_same]
  rintro ⟨name, type, isOptional⟩ hp
  obtain ⟨type, rfl⟩ := exists_type_of_mem_callParams hp
  have hparams : s.callParams.isEmpty = false :=
    List.isEmpty_eq_false_iff_exists_mem.2 ⟨_, hp⟩
  rw [variablesDeclaration, variablesType, hparams] at hvariables
  rw [mutationParams, hparams]
  exact .member rfl hvariables (List.mem_map_of_mem hp)

/-! ### Hooks and functions -/

variable {plan : Plan} {client hooks : List Declaration}

/-- What an operation's hook declares is linked to the client, but for what does not use it. -/
theorem linked_of_isHookOf (hclient : ClientModule.declarations plan .standard = .ok client)
    {op : Operation} (hop : op ∈ plan.operations) {tagKey : String} {hook : Hook}
    (hhook : IsHookOf tagKey op hook) (hsubset : hook.declarations ⊆ hooks) :
    (∃ d ∈ hooks, Linked client hooks op d) ∧
      ∀ d ∈ hook.declarations, d.uses "apiClient" ≠ [] → Linked client hooks op d := by
  obtain ⟨function, hfunction, hmem⟩ := ClientModule.exists_function_of_mem hclient hop
  obtain ⟨hname, hparams⟩ := ClientModule.signature_of_function_eq_ok hfunction
  obtain ⟨entries, hentries, hentry⟩ := ClientModule.exists_entries hclient
  -- whatever the arguments and their scope are, the call is one of the operation's function
  have hlink {d : Declaration} {args : List Expr} {scope : List Param}
      (hd : d.functionName? = some (hookName (.standard op)))
      (huses : d.uses "apiClient" = [⟨[(Surface.standard op).functionName], some args, scope⟩])
      (hargs : List.Forall₂ (Provides hooks scope) (Surface.standard op).callParams args) :
      Linked client hooks op d :=
    ⟨hd, _, function, huses, hfunction, hmem,
      ⟨_, entries, hname, rfl, hentries, hentry op hop⟩, ⟨_, args, hparams, rfl, hargs⟩⟩
  cases hhook with
  | query _ hquery =>
    obtain ⟨options, hscope⟩ := hquery.params
    have hlinked := hlink hquery.name hquery.client
      (hscope ▸ provides_arguments hooks (.standard op) [.optional "options" options])
    refine ⟨⟨_, hsubset (List.mem_singleton_self _), hlinked⟩, fun d hd _ ↦ ?_⟩
    exact List.mem_singleton.1 hd ▸ hlinked
  | mutation _ hmutation =>
    have hvariables := hsubset (List.mem_cons_self)
    have hlinked := hlink hmutation.name hmutation.client
      (provides_mutationArguments hvariables _)
    refine ⟨⟨_, hsubset (List.mem_cons_of_mem _ (List.mem_singleton_self _)), hlinked⟩,
      fun d hd huses ↦ ?_⟩
    rcases List.mem_pair.1 hd with rfl | rfl
    · exact absurd rfl huses
    · exact hlinked

/-- A module of hooks fits the client that is made from the same plan. -/
theorem IsModuleOf.fitsClient (h : IsModuleOf plan hooks)
    (hclient : ClientModule.declarations plan .standard = .ok client) :
    FitsClient plan client hooks where
  imported := h.client
  types d hd type htype := by
    obtain ⟨op, hop, hmentioned⟩ := h.types d hd type htype
    rw [ClientModule.typesOf_eq_declaredTypes] at hmentioned
    exact ClientModule.mem_declaredTypes_client hclient hop hmentioned
  linked op hop := by
    obtain ⟨g, hg, hmem⟩ := List.mem_flatMap.1 hop
    obtain ⟨hook, hhook, hsubset⟩ := h.hooks g hg op hmem
    exact (linked_of_isHookOf hclient hop hhook hsubset).1
  calls d hd huses := by
    have hroot : "apiClient" ∉ localNames := by decide
    obtain ⟨g, hg, op, hmem, hook, hhook, hd, hsubset⟩ := h.uses d hd _ hroot huses
    have hop : op ∈ plan.operations := List.mem_flatMap.2 ⟨g, hg, hmem⟩
    exact ⟨op, hop, (linked_of_isHookOf hclient hop hhook hsubset).2 d hd huses⟩

end HooksModule

namespace Spec

/-- The text of a client is that of a plan's module. -/
theorem render_axios_eq_ok_iff {spec : Spec} {options : RenderOptions} {helpers : HelperTable}
    {text : String} :
    spec.render .axios options helpers = .ok text ↔
      ∃ plan client, Plan.ofSpec spec options = .ok plan ∧
        ClientModule.declarations plan helpers = .ok client ∧ text = printModule client :=
  Except.bind_map_eq_ok_iff

/-- A contract without a fault has a client if its declarations can be made. -/
theorem exists_client {spec : Spec} {options : RenderOptions}
    (hfault : (Plan.fault? spec).isNone = true)
    (hmade : (ClientModule.declarations (.make spec options) .standard).isOk = true) :
    ∃ client, ClientModule.declarations (.make spec options) .standard = .ok client ∧
      spec.render .axios options .standard = .ok (printModule client) := by
  have hplan : Plan.ofSpec spec options = .ok (.make spec options) :=
    Plan.ofSpec_eq_ok_iff.2 ⟨Option.isNone_iff_eq_none.1 hfault, rfl⟩
  cases hclient : ClientModule.declarations (.make spec options) .standard with
  | error fault =>
    rw [hclient] at hmade
    exact absurd hmade Bool.false_ne_true
  | ok client => exact ⟨client, rfl, render_axios_eq_ok_iff.2 ⟨_, client, hplan, hclient, rfl⟩⟩

/-- **The hooks fit the client.** Whenever the client of a contract can be made, so can the hooks;
the types that these import are declared by the client, and each call of the client is one of the
function that the client has for the operation of the hook, with its arguments in their order. -/
theorem hooks_fit_client {spec : Spec} {options : RenderOptions} {text : String}
    (h : spec.render .axios options .standard = .ok text) :
    ∃ plan client hooks, Plan.ofSpec spec options = .ok plan ∧
      ClientModule.declarations plan .standard = .ok client ∧ text = printModule client ∧
      HooksModule.declarations plan .standard = .ok hooks ∧
      spec.render .reactQuery options .standard = .ok (printModule hooks) ∧
      FitsClient plan client hooks := by
  obtain ⟨plan, client, hplan, hclient, htext⟩ := render_axios_eq_ok_iff.1 h
  obtain ⟨hooks, hhooks, hmodule⟩ := HooksModule.exists_declarations
    (ClientModule.typeName_ne_of_declarations_eq_ok hclient)
  refine ⟨plan, client, hooks, hplan, hclient, htext, hhooks, ?_, hmodule.fitsClient hclient⟩
  exact HooksModule.render_reactQuery_eq_ok_iff.2 ⟨plan, hooks, hplan, hhooks, rfl⟩

/-- A query with a parameter, a mutation with a parameter and a body, and one with neither. -/
def petsSpec : Spec :=
  .bare "Pets"
    [ { query "list-pets" "/pets" [⟨"page", .query, false, { shape := .integer }, none⟩] with
        tags := ["pets"] }
    , { query "replace-pet" "/pets/\x7bid\x7d"
          [⟨"id", .path, true, { shape := .string }, none⟩] with
        method := .put, tags := ["pets"], requiresAuth := true
        requestBody := some ⟨"application/json", { shape := .string }, true⟩ }
    , { query "clean-up" "/cleanup" [] with method := .post, requiresAuth := true } ] []

/-- Three hooks call three functions, with as many arguments as these take. -/
theorem hooks_fit_client_petsSpec :
    ∃ text plan client hooks, petsSpec.render .axios {} .standard = .ok text ∧
      Plan.ofSpec petsSpec {} = .ok plan ∧
      ClientModule.declarations plan .standard = .ok client ∧ text = printModule client ∧
      HooksModule.declarations plan .standard = .ok hooks ∧ FitsClient plan client hooks ∧
      (hooks.flatMap (Declaration.uses "apiClient")).map
          (fun use ↦ (use.path, use.arguments.map List.length)) =
        [(["cleanUp"], some 0), (["listPets"], some 1), (["replacePet"], some 2)] := by
  have hplan : Plan.ofSpec petsSpec {} = .ok (.make petsSpec {}) :=
    Plan.ofSpec_eq_ok_iff.2 ⟨Option.isNone_iff_eq_none.1 (by decide +kernel), rfl⟩
  have hmade : (ClientModule.declarations (.make petsSpec {}) .standard).isOk = true := by
    decide +kernel
  cases hclient : ClientModule.declarations (.make petsSpec {}) .standard with
  | error fault =>
    rw [hclient] at hmade
    exact absurd hmade Bool.false_ne_true
  | ok client =>
    have hrender : petsSpec.render .axios {} .standard = .ok (printModule client) :=
      render_axios_eq_ok_iff.2 ⟨_, client, hplan, hclient, rfl⟩
    obtain ⟨plan, client', hooks, hplan', hclient', htext, hhooks, -, hfits⟩ :=
      hooks_fit_client hrender
    refine ⟨_, plan, client', hooks, hrender, hplan', hclient', htext, hhooks, hfits, ?_⟩
    obtain rfl := Except.ok.inj (hplan.symm.trans hplan')
    have huses : (HooksModule.declarations (.make petsSpec {}) .standard).toOption.map
        (fun hooks ↦ (hooks.flatMap (Declaration.uses "apiClient")).map
          fun use ↦ (use.path, use.arguments.map List.length)) =
        some [(["cleanUp"], some 0), (["listPets"], some 1), (["replacePet"], some 2)] := by
      decide +kernel
    rw [hhooks] at huses
    exact Option.some.inj huses

end Spec

end ApiContract
