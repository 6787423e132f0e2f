import ApiContract.Proofs.Artifact.FunctionNames

/-!
# The names that modules have of their own

The client and the hooks have names of their own, which they import or declare for themselves,
beside those that are generated for models and operations. Models and operations are told apart from
each other before anything is generated; nothing tells them apart from the names that a module has
anyway.

## Names

`Names` keeps types and values apart, as they do not clash with each other. For each of the two
modules there are the names that it has of its own (`ownNames`) and those that are generated
(`generatedNames`), and `HasNames` says that the module declares or imports just these. What a
module imports of its own depends on the contract: the function that sets the token is there if
clients can authenticate, and what queries and mutations need is imported if there are any.

## Main result

`names_apart_iff`: whenever the client of a contract can be made, none of the generated names of
either module clashes with its own exactly if the contract leaves these free. The conditions
(`LeavesFree`) are a few words that models and ids must not be, in the case in which they appear.

## Proof

The types of operations and of variables have endings that no type of a module's own has, so only
models can clash there. A function has the camel case of an id, guarded; the own names are in camel
case and not reserved, so they are hit exactly by the ids that are these words in camel case. A
hook's name is `use` and the Pascal case of an id, which leaves three words.
-/

namespace ApiContract

open TypeScript

/-- The types that operations declare have one of a few endings. -/
theorem Plan.exists_ending_of_mem_operationTypes {operations : List Operation} {type : String}
    (h : type ∈ operations.flatMap fun op ↦ operationTypes op (typeName op.id)) :
    ∃ base, ∃ ending ∈ typeSuffixes, type = base ++ ending := by
  obtain ⟨op, -, hmem⟩ := List.mem_flatMap.1 h
  obtain ⟨ending, hending, rfl⟩ := List.mem_map.1 ((operationTypes_sublist _ _).subset hmem)
  exact ⟨_, ending, hending, rfl⟩

/-! ### The client -/

namespace ClientModule

variable {plan : Plan} {client functions : List Declaration}

/-- The names that a client has of its own. -/
def ownNames (plan : Plan) : Names where
  types := ["AxiosInstance", "AxiosRequestConfig"]
  values := ["axios", baseUrlName, instanceName] ++ setterNames plan ++ ["apiClient"]

/-- The names that are generated for a client: the types of the models and of the operations, and
the functions of the operations. -/
def generatedNames (plan : Plan) : Names where
  types := Plan.modelTypes plan.spec ++
    plan.operations.flatMap fun op ↦ Plan.operationTypes op (typeName op.id)
  values := functionNames plan

/-- The client declares a type for each model. -/
theorem typeNames_models : (models plan).flatMap Declaration.typeNames =
    Plan.modelTypes plan.spec := by
  rw [flatMap_typeNames_of_isTyping fun d hd ↦ isTyping_of_mem_models hd, models]
  split
  · next hzero =>
    rw [Plan.modelTypes, List.length_eq_zero_iff.1 hzero]
    rfl
  · exact TypesModule.declaredTypes_modelDeclarations

/-- An operation declares the types that the plan took into account, in another order. -/
theorem perm_declaredTypes_typesOf (op : Operation) :
    (declaredTypes (typesOf op)).Perm (Plan.operationTypes op (typeName op.id)) := by
  rw [declaredTypes_typesOf, Plan.operationTypes, List.append_assoc [typeName op.id ++ "Response"]]
  exact List.perm_append_comm

/-- The groups declare the types of their operations. -/
theorem perm_typeNames_groups (plan : Plan) :
    ((plan.groups.flatMap groupDeclarations).flatMap Declaration.typeNames).Perm
      (plan.operations.flatMap fun op ↦ Plan.operationTypes op (typeName op.id)) := by
  have hgroup (g : OperationGroup) : declaredTypes (groupDeclarations g) =
      g.operations.flatMap fun op ↦ declaredTypes (typesOf op) :=
    declaredTypes_flatMap g.operations typesOf
  rw [flatMap_typeNames_of_isTyping fun d hd ↦ isTyping_of_mem_groups hd, declaredTypes_flatMap,
    List.flatMap_congr fun g _ ↦ hgroup g, ← List.flatMap_assoc, ← Plan.operations]
  exact List.Perm.flatMap_left _ fun op _ ↦ perm_declaredTypes_typesOf op

/-- The functions of the operations are the values that they declare. -/
theorem valueNames_functions
    (h : (plan.operations.map Surface.standard).mapM (function .standard) = .ok functions) :
    functions.flatMap Declaration.valueNames = functionNames plan := by
  have hnames := (Except.mapM_eq_ok_iff.1 h).flatMap_eq (f := fun s ↦ [s.functionName])
    fun _ _ hfunction ↦ (Declaration.valueNames_of_functionName?
      (signature_of_function_eq_ok hfunction).1).symm
  rw [← hnames, List.flatMap_map, functionNames, List.map_eq_flatMap]

/-- A function declares no type. -/
theorem typeNames_functions
    (h : (plan.operations.map Surface.standard).mapM (function .standard) = .ok functions) :
    functions.flatMap Declaration.typeNames = [] := by
  refine List.flatMap_eq_nil_iff.2 fun d hd ↦ ?_
  obtain ⟨s, -, hfunction⟩ := Except.exists_of_mem_of_mapM_eq_ok h hd
  exact Declaration.typeNames_of_functionName? (signature_of_function_eq_ok hfunction).1

/-- **The names in a client** are its own and those that are generated. -/
theorem hasNames_client (h : declarations plan .standard = .ok client) :
    HasNames client (ownNames plan) (generatedNames plan) := by
  obtain ⟨functions, hfunctions, rfl⟩ := exists_of_declarations_eq_ok h
  have hsetter : (if plan.hasSecurity then [tokenSetter] else []).flatMap Declaration.typeNames =
        [] ∧
      (if plan.hasSecurity then [tokenSetter] else []).flatMap Declaration.valueNames =
        setterNames plan := by
    rw [setterNames]
    split <;> exact ⟨rfl, rfl⟩
  constructor
  case types =>
    have hopening : (opening plan).flatMap Declaration.typeNames =
        ["AxiosInstance", "AxiosRequestConfig"] := rfl
    have hclient : [.banner "Client", instanceDeclaration].flatMap Declaration.typeNames = [] := rfl
    have hgathering (surfaces : List Surface) :
        [gathering surfaces].flatMap Declaration.typeNames = [] := rfl
    simp only [moduleOf, List.flatMap_append, hopening, typeNames_models, hclient, hsetter.1,
      typeNames_functions hfunctions, hgathering, List.append_nil]
    rw [List.append_assoc]
    exact ((perm_typeNames_groups plan).append_left _).append_left _
  case values =>
    have hopening : (opening plan).flatMap Declaration.valueNames = ["axios", baseUrlName] := rfl
    have hmodels := flatMap_valueNames_of_isTyping fun d (hd : d ∈ models plan) ↦
      isTyping_of_mem_models hd
    have hgroups := flatMap_valueNames_of_isTyping
      fun d (hd : d ∈ plan.groups.flatMap groupDeclarations) ↦ isTyping_of_mem_groups hd
    have hclient : [.banner "Client", instanceDeclaration].flatMap Declaration.valueNames =
        [instanceName] := rfl
    have hgathering (surfaces : List Surface) :
        [gathering surfaces].flatMap Declaration.valueNames = ["apiClient"] := rfl
    simp only [moduleOf, List.flatMap_append, hopening, hmodels, hgroups, hclient, hsetter.2,
      valueNames_functions hfunctions, hgathering, List.append_nil]
    -- the functions stand in front of the object that gathers them
    have hown : (ownNames plan).values ++ (generatedNames plan).values =
        ["axios", baseUrlName] ++ [instanceName] ++ setterNames plan ++
          (["apiClient"] ++ functionNames plan) := List.append_assoc _ ["apiClient"] _
    rw [hown, List.append_assoc _ (functionNames plan)]
    exact List.perm_append_comm.append_left _

/-! #### What the client leaves free -/

/-- The names that a client may have of its own are bound as they are. -/
theorem binding_ownWord : ∀ name ∈ ["axios", instanceName, "apiClient"] ++ ["setAuthToken"],
    Identifier.binding name = name ∧ Identifier.camelCase name = name := by
  decide +kernel

/-- The address of the service has no name that a function can have. -/
theorem binding_ne_baseUrlName (s : String) : Identifier.binding s ≠ baseUrlName := by
  intro h
  have hhead := Identifier.isUpper_head_binding s
  rw [h] at hhead
  exact absurd (hhead 'A' (by decide +kernel)) (by decide)

/-- A contract uses no name that its client has of its own. -/
structure LeavesFree (spec : Spec) : Prop where
  models : ∀ model ∈ spec.models, typeName model.name ∉ ["AxiosInstance", "AxiosRequestConfig"]
  functions : ∀ op ∈ spec.operations,
    Identifier.camelCase op.id ∉ ["axios", instanceName, "apiClient"]
  setter : spec.securitySchemes ≠ [] →
    ∀ op ∈ spec.operations, Identifier.camelCase op.id ≠ "setAuthToken"

/-- Types of operations have endings that types of the client's own do not have. -/
theorem disjoint_operationTypes (operations : List Operation) :
    (ownNames plan).types.Disjoint
      (operations.flatMap fun op ↦ Plan.operationTypes op (typeName op.id)) := by
  have hendings : ∀ type ∈ ["AxiosInstance", "AxiosRequestConfig"], ∀ ending ∈ Plan.typeSuffixes,
      ¬ending.toList <:+ type.toList := by decide +kernel
  exact disjoint_of_endings hendings fun _ ↦ Plan.exists_ending_of_mem_operationTypes

/-- The name of a function is the client's own exactly if the id is so in camel case. -/
theorem functionName_mem_ownNames_iff (op : Operation) :
    (Surface.standard op).functionName ∈ (ownNames plan).values ↔
      Identifier.camelCase op.id ∈ ["axios", instanceName, "apiClient"] ++ setterNames plan := by
  have hwords : ∀ name ∈ ["axios", instanceName, "apiClient"] ++ setterNames plan,
      Identifier.binding name = name ∧ Identifier.camelCase name = name := by
    intro name hname
    refine binding_ownWord name ?_
    rcases List.mem_append.1 hname with hword | hsetter
    · exact List.mem_append_left _ hword
    · rw [setterNames, List.mem_ite_nil_right] at hsetter
      exact List.mem_append_right _ hsetter.2
  have hvalues : Identifier.binding op.id ∈ (ownNames plan).values ↔
      Identifier.binding op.id ∈ ["axios", instanceName, "apiClient"] ++ setterNames plan := by
    simp only [ownNames, List.mem_append, List.mem_cons, List.not_mem_nil, or_false,
      binding_ne_baseUrlName, false_or]
    grind
  rw [functionName_eq, hvalues]
  exact Identifier.binding_mem_iff hwords

/-- **Nothing generated for a client clashes with its own names** exactly if the contract leaves
these free. -/
theorem apart_iff {spec : Spec} {options : RenderOptions}
    (hplan : Plan.ofSpec spec options = .ok plan) :
    (ownNames plan).Apart (generatedNames plan) ↔ LeavesFree spec := by
  have hoperations := Plan.perm_operations hplan
  obtain ⟨-, rfl⟩ := Plan.ofSpec_eq_ok_iff.1 hplan
  have hsetter {name : String} : name ∈ setterNames (.make spec options) ↔
      spec.securitySchemes ≠ [] ∧ name = "setAuthToken" := by
    rw [setterNames, Plan.hasSecurity, Plan.make]
    split <;> simp_all
  constructor
  · intro h
    have hfunction {op : Operation} (hop : op ∈ spec.operations) :
        Identifier.camelCase op.id ∉
          ["axios", instanceName, "apiClient"] ++ setterNames (.make spec options) := by
      rw [← functionName_mem_ownNames_iff]
      exact fun hown ↦ h.values hown (List.mem_map_of_mem (hoperations.symm.subset hop))
    constructor
    · intro model hmodel hown
      exact h.types hown (List.mem_append_left _ (List.mem_map_of_mem hmodel))
    · exact fun op hop hmem ↦ hfunction hop (List.mem_append_left _ hmem)
    · exact fun hsecurity op hop heq ↦
        hfunction hop (List.mem_append_right _ (hsetter.2 ⟨hsecurity, heq⟩))
  · intro h
    constructor
    · refine List.disjoint_append_right.2 ⟨fun type hown hmem ↦ ?_, disjoint_operationTypes _⟩
      obtain ⟨model, hmodel, rfl⟩ := List.mem_map.1 hmem
      exact h.models model hmodel hown
    · intro name hown hmem
      obtain ⟨op, hop, rfl⟩ := List.mem_map.1 hmem
      have hop := hoperations.subset hop
      rcases List.mem_append.1 ((functionName_mem_ownNames_iff op).1 hown) with hword | hset
      · exact h.functions op hop hword
      · exact h.setter (hsetter.1 hset).1 op hop (hsetter.1 hset).2

end ClientModule

/-! ### The hooks -/

namespace HooksModule

variable {plan : Plan} {hooks : List Declaration}

/-- Whether a plan has an operation with a query. -/
def hasQuery (plan : Plan) : Bool := plan.operations.any fun op ↦ op.method.isRead

/-- Whether a plan has an operation with a mutation. -/
def hasMutation (plan : Plan) : Bool := plan.operations.any fun op ↦ !op.method.isRead

/-- The names that the module of hooks has of its own. -/
def ownNames (plan : Plan) : Names where
  types := (if hasMutation plan then ["UseMutationOptions"] else []) ++
    if hasQuery plan then ["UseQueryOptions"] else []
  values := (if hasMutation plan then ["useMutation"] else []) ++
    (if hasQuery plan then ["useQuery"] else []) ++
    (if hasMutation plan then ["useQueryClient"] else []) ++ ["apiClient", "queryKeys"]

/-- The type that is declared for the variables of an operation, if it has a mutation. -/
def variablesTypes (op : Operation) : List String :=
  if op.method.isRead then [] else [typeName op.id ++ "Variables"]

/-- The names that are generated for the hooks: the types of the operations, which are imported from
the client, those of the variables, and the hooks. -/
def generatedNames (plan : Plan) : Names where
  types := (plan.operations.flatMap fun op ↦ Plan.operationTypes op (typeName op.id)) ++
    plan.operations.flatMap variablesTypes
  values := plan.operations.map fun op ↦ "use" ++ typeName op.id

namespace IsHookOf

variable {tagKey : String} {op : Operation} {hook : Hook}

/-- A hook is a query exactly if its operation only reads. -/
theorem isQuery (h : IsHookOf tagKey op hook) : hook.isQuery = some op.method.isRead := by
  cases h with
  | query hread => rw [hread]
  | mutation hread => rw [hread]

/-- A hook declares one value, its function. -/
theorem valueNames (h : IsHookOf tagKey op hook) :
    hook.declarations.flatMap Declaration.valueNames = ["use" ++ typeName op.id] := by
  cases h with
  | query _ hquery =>
    rw [List.flatMap_singleton]
    exact Declaration.valueNames_of_functionName? hquery.name
  | mutation _ hmutation =>
    rw [List.flatMap_cons, List.flatMap_singleton,
      Declaration.valueNames_of_functionName? hmutation.name]
    rfl

/-- A hook declares the type of its variables if it is a mutation, and no other. -/
theorem typeNames (h : IsHookOf tagKey op hook) :
    hook.declarations.flatMap Declaration.typeNames = variablesTypes op := by
  cases h with
  | query hread hquery =>
    rw [List.flatMap_singleton, Declaration.typeNames_of_functionName? hquery.name, variablesTypes,
      if_pos hread]
  | mutation hread hmutation =>
    rw [List.flatMap_cons, List.flatMap_singleton,
      Declaration.typeNames_of_functionName? hmutation.name, variablesTypes,
      if_neg (hread ▸ Bool.false_ne_true)]
    rfl

end IsHookOf

section Parts

variable {parts : List (Entry × List Declaration × List Hook)}
  (hparts : List.Forall₂ IsGroupOf plan.groups parts)

include hparts

/-- What is told of hooks and of their operations alike is collected alike. -/
theorem flatMap_hooks_eq {α : Type} {f : Hook → List α} {g : Operation → List α}
    (h : ∀ tagKey op hook, IsHookOf tagKey op hook → f hook = g op) :
    (parts.flatMap fun part ↦ part.2.2).flatMap f = plan.operations.flatMap g := by
  rw [Plan.operations, List.flatMap_assoc, List.flatMap_assoc]
  exact (hparts.flatMap_eq fun _ _ hpart ↦
    hpart.hooks.flatMap_eq fun _ _ hhook ↦ (h _ _ _ hhook).symm).symm

/-- What headings do not have is collected from the hooks alone. -/
theorem flatMap_declarations_eq {α : Type} {f : Declaration → List α}
    (hbanner : ∀ title, f (.banner title) = []) :
    (parts.flatMap fun part ↦ part.2.1).flatMap f =
      (parts.flatMap fun part ↦ part.2.2).flatMap fun hook ↦ hook.declarations.flatMap f := by
  rw [List.flatMap_assoc, List.flatMap_assoc]
  refine List.flatMap_congr fun part hpart ↦ ?_
  obtain ⟨g, -, hgroup⟩ := hparts.exists_of_mem_right hpart
  rw [hgroup.declarations, List.flatMap_cons, hbanner, List.nil_append, List.flatMap_assoc]

/-- There is a hook of a kind exactly if there is an operation of that kind. -/
theorem any_isQuery (read : Bool) :
    ((parts.flatMap fun part ↦ part.2.2).any fun hook ↦ hook.isQuery == some read) =
      plan.operations.any fun op ↦ op.method.isRead == read := by
  have hqueries : (parts.flatMap fun part ↦ part.2.2).map Hook.isQuery =
      plan.operations.map fun op ↦ some op.method.isRead := by
    rw [List.map_eq_flatMap, List.map_eq_flatMap]
    exact flatMap_hooks_eq hparts fun _ _ _ hhook ↦ congrArg ([·]) hhook.isQuery
  have hany := congrArg (List.any · (· == some read)) hqueries
  simpa only [List.any_map, Function.comp_def, Option.some_beq_some] using hany

/-- What is imported from the module that the hooks are built on is as the operations need it. -/
theorem names_runtimeImports :
    (runtimeImports (parts.flatMap fun part ↦ part.2.2)).flatMap Declaration.typeNames =
        (ownNames plan).types ∧
      (runtimeImports (parts.flatMap fun part ↦ part.2.2)).flatMap Declaration.valueNames ++
          ["apiClient", "queryKeys"] = (ownNames plan).values := by
  have hreads : ((parts.flatMap fun part ↦ part.2.2).any fun hook ↦ hook.isQuery == some true) =
      hasQuery plan := by
    rw [any_isQuery hparts, hasQuery]
    exact congrArg _ (funext fun op ↦ beq_true _)
  have hwrites : ((parts.flatMap fun part ↦ part.2.2).any fun hook ↦
      hook.isQuery == some false) = hasMutation plan := by
    rw [any_isQuery hparts, hasMutation]
    exact congrArg _ (funext fun op ↦ beq_false _)
  rw [runtimeImports, hreads, hwrites, ownNames]
  cases hasQuery plan <;> cases hasMutation plan <;> exact ⟨rfl, rfl⟩

/-- The types that are imported from the client are those of the operations, in another order. -/
theorem perm_clientImports (htypes : (plan.operations.map fun op ↦ typeName op.id).Nodup) :
    ((clientImports (parts.flatMap fun part ↦ part.2.2)).flatMap Declaration.typeNames).Perm
      (plan.operations.flatMap fun op ↦ Plan.operationTypes op (typeName op.id)) := by
  have hmentioned : (parts.flatMap fun part ↦ part.2.2).flatMap (fun hook ↦ typesOf hook.surface) =
      plan.operations.flatMap fun op ↦ declaredTypes (ClientModule.typesOf op) :=
    flatMap_hooks_eq hparts fun _ op hook hhook ↦ by
      rw [hhook.surface, ClientModule.typesOf_eq_declaredTypes]
  have himported (hooks : List Hook) : (clientImports hooks).flatMap Declaration.typeNames =
      (NameSet.ofList (hooks.flatMap fun hook ↦ typesOf hook.surface)).toList := by
    rw [clientImports]
    split
    · next hnone => rw [List.isEmpty_iff.1 hnone]; rfl
    · exact List.append_nil _
  have hperm : (plan.operations.flatMap fun op ↦ declaredTypes (ClientModule.typesOf op)).Perm
      (plan.operations.flatMap fun op ↦ Plan.operationTypes op (typeName op.id)) :=
    List.Perm.flatMap_left _ fun op _ ↦ ClientModule.perm_declaredTypes_typesOf op
  rw [himported, hmentioned]
  -- no type is mentioned twice, so the set of those that are mentioned is a list of them
  refine List.Perm.trans ?_ hperm
  refine (List.perm_ext_iff_of_nodup (NameSet.nodup_toList _)
    (hperm.nodup_iff.2 (Plan.nodup_flatMap_operationTypes htypes))).2 fun type ↦ ?_
  exact NameSet.mem_iff.symm.trans NameSet.mem_ofList

/-- **The names in the module of hooks** are its own and those that are generated. -/
theorem hasNames_moduleOf (htypes : (plan.operations.map fun op ↦ typeName op.id).Nodup) :
    HasNames (moduleOf plan parts) (ownNames plan) (generatedNames plan) := by
  obtain ⟨hruntimeTypes, hruntimeValues⟩ := names_runtimeImports hparts
  constructor
  case types =>
    have hfixed : [.banner "Query Keys", keysDeclaration plan].flatMap Declaration.typeNames =
      [] := rfl
    have hheader : [plan.header "React Query hooks"].flatMap Declaration.typeNames = [] := rfl
    have hdeclared : (parts.flatMap fun part ↦ part.2.1).flatMap Declaration.typeNames =
        plan.operations.flatMap variablesTypes :=
      (flatMap_declarations_eq hparts fun _ ↦ rfl).trans
        (flatMap_hooks_eq hparts fun _ _ _ hhook ↦ hhook.typeNames)
    simp only [moduleOf, List.flatMap_append, hfixed, hheader, hruntimeTypes, hdeclared,
      List.append_nil, List.nil_append]
    rw [List.append_assoc]
    exact ((perm_clientImports hparts htypes).append_right _).append_left _
  case values =>
    have hfixed : [.banner "Query Keys", keysDeclaration plan].flatMap Declaration.valueNames =
      ["queryKeys"] := rfl
    have hheader : [plan.header "React Query hooks"].flatMap Declaration.valueNames = [] := rfl
    have hclient (hooks : List Hook) :
        (clientImports hooks).flatMap Declaration.valueNames = ["apiClient"] := by
      rw [clientImports]
      split <;> rfl
    have hdeclared : (parts.flatMap fun part ↦ part.2.1).flatMap Declaration.valueNames =
        (generatedNames plan).values := by
      rw [generatedNames, List.map_eq_flatMap]
      exact (flatMap_declarations_eq hparts fun _ ↦ rfl).trans
        (flatMap_hooks_eq hparts fun _ _ _ hhook ↦ hhook.valueNames)
    simp only [moduleOf, List.flatMap_append, hfixed, hheader, hclient, hdeclared,
      ← hruntimeValues, List.nil_append]
    rw [List.append_assoc _ ["apiClient"]]
    exact List.Perm.refl _

end Parts

/-- The names in the module of hooks, whenever there is one. -/
theorem hasNames_hooks {spec : Spec} {options : RenderOptions}
    (hplan : Plan.ofSpec spec options = .ok plan)
    (h : declarations plan .standard = .ok hooks) :
    HasNames hooks (ownNames plan) (generatedNames plan) := by
  have hbases := typeName_ne_of_declarations_eq_ok h
  obtain ⟨parts, rfl, hparts⟩ := exists_parts_of_declarations_eq_ok h
  have hoperations := Plan.perm_operations hplan
  refine hasNames_moduleOf hparts ((hoperations.map _).nodup_iff.2 ?_)
  exact Plan.nodup_map_typeName (Plan.ofSpec_eq_ok_iff.1 hplan).1 fun op hop ↦
    hbases op (hoperations.symm.subset hop)

/-! #### What the hooks leave free -/

/-- A contract uses no name that the module of hooks has of its own. -/
structure LeavesFree (spec : Spec) : Prop where
  queries : (∃ op ∈ spec.operations, op.method.isRead = true) →
    ∀ op ∈ spec.operations, typeName op.id ≠ "Query"
  mutations : (∃ op ∈ spec.operations, op.method.isRead = false) →
    ∀ op ∈ spec.operations, typeName op.id ∉ ["Mutation", "QueryClient"]

/-- Types of operations and of variables have endings that types of the module's own do not have. -/
theorem disjoint_types : (ownNames plan).types.Disjoint (generatedNames plan).types := by
  have hendings : ∀ type ∈ ["UseMutationOptions", "UseQueryOptions"],
      ∀ ending ∈ "Variables" :: Plan.typeSuffixes, ¬ending.toList <:+ type.toList := by
    decide +kernel
  have hown : (ownNames plan).types ⊆ ["UseMutationOptions", "UseQueryOptions"] := by
    rw [ownNames]
    split <;> split <;> simp
  refine disjoint_of_endings (fun type htype ↦ hendings type (hown htype)) fun type hmem ↦ ?_
  rcases List.mem_append.1 hmem with htype | hvariables
  · obtain ⟨base, ending, hending, rfl⟩ := Plan.exists_ending_of_mem_operationTypes htype
    exact ⟨base, ending, List.mem_cons_of_mem _ hending, rfl⟩
  · obtain ⟨op, -, hmem⟩ := List.mem_flatMap.1 hvariables
    rw [variablesTypes, List.mem_ite_nil_left, List.mem_singleton] at hmem
    exact ⟨_, "Variables", List.mem_cons_self, hmem.2⟩

/-- The name of a hook is the module's own exactly if the id is one of a few. -/
theorem hookName_mem_ownNames_iff (base : String) :
    "use" ++ base ∈ (ownNames plan).values ↔
      (hasQuery plan = true ∧ base = "Query") ∨
        (hasMutation plan = true ∧ base ∈ ["Mutation", "QueryClient"]) := by
  have hsplit (rest : String) : "use" ++ base = "use" ++ rest ↔ base = rest :=
    String.append_right_inj "use"
  have hother (name : String) (hname : ¬"use".toList <+: name.toList) : "use" ++ base ≠ name := by
    rintro rfl
    rw [String.toList_append] at hname
    exact hname (List.prefix_append _ _)
  have hclient := hother "apiClient" (by decide +kernel)
  have hkeys := hother "queryKeys" (by decide +kernel)
  have hmutation : "use" ++ base = "useMutation" ↔ base = "Mutation" := hsplit "Mutation"
  have hquery : "use" ++ base = "useQuery" ↔ base = "Query" := hsplit "Query"
  have hqueryClient : "use" ++ base = "useQueryClient" ↔ base = "QueryClient" :=
    hsplit "QueryClient"
  simp only [ownNames, List.mem_append, List.mem_ite_nil_right, List.mem_cons, List.not_mem_nil,
    or_false, hclient, hkeys, hmutation, hquery, hqueryClient]
  grind

/-- **Nothing generated for the hooks clashes with the module's own names** exactly if the contract
leaves these free. -/
theorem apart_iff {spec : Spec} {options : RenderOptions}
    (hplan : Plan.ofSpec spec options = .ok plan) :
    (ownNames plan).Apart (generatedNames plan) ↔ LeavesFree spec := by
  have hmem {op : Operation} : op ∈ plan.operations ↔ op ∈ spec.operations :=
    (Plan.perm_operations hplan).mem_iff
  have hquery : hasQuery plan = true ↔
      ∃ op ∈ spec.operations, op.method.isRead = true := by
    simp only [hasQuery, List.any_eq_true, hmem]
  have hmutation : hasMutation plan = true ↔
      ∃ op ∈ spec.operations, op.method.isRead = false := by
    simp only [hasMutation, List.any_eq_true, hmem, Bool.not_eq_true']
  constructor
  · intro h
    have hhook {op : Operation} (hop : op ∈ spec.operations) :
        "use" ++ typeName op.id ∉ (ownNames plan).values := fun hown ↦
      h.values hown (List.mem_map_of_mem (hmem.2 hop))
    constructor
    · intro hexists op hop hbase
      exact hhook hop ((hookName_mem_ownNames_iff _).2 (.inl ⟨hquery.2 hexists, hbase⟩))
    · intro hexists op hop hbase
      exact hhook hop ((hookName_mem_ownNames_iff _).2 (.inr ⟨hmutation.2 hexists, hbase⟩))
  · intro h
    refine ⟨disjoint_types, fun name hown hname ↦ ?_⟩
    obtain ⟨op, hop, rfl⟩ := List.mem_map.1 hname
    rcases (hookName_mem_ownNames_iff _).1 hown with ⟨hexists, hbase⟩ | ⟨hexists, hbase⟩
    · exact h.queries (hquery.1 hexists) op (hmem.1 hop) hbase
    · exact h.mutations (hmutation.1 hexists) op (hmem.1 hop) hbase

end HooksModule

/-! ### Both modules -/

namespace Spec

/-- **Generated names and the modules' own names are apart exactly if the contract leaves the latter
free.** Whenever the client of a contract can be made, so can the hooks, and the names in each
module are its own and those that are generated. In the client none of these clash exactly if no
model has the type `AxiosInstance` or `AxiosRequestConfig`, and no id is in camel case `axios`,
`http`, `apiClient`, or `setAuthToken` where that is declared. Among the hooks none clash exactly if
no id gives the hook `useQuery` where that is imported, and none gives `useMutation` or
`useQueryClient` where these are. -/
theorem names_apart_iff {spec : Spec} {options : RenderOptions} {text : String}
    (h : spec.render .axios options .standard = .ok text) :
    ∃ plan client hooks, Plan.ofSpec spec options = .ok plan ∧
      ClientModule.declarations plan .standard = .ok client ∧ text = printModule client ∧
      HooksModule.declarations plan .standard = .ok hooks ∧
      spec.render .reactQuery options .standard = .ok (printModule hooks) ∧
      HasNames client (ClientModule.ownNames plan) (ClientModule.generatedNames plan) ∧
      HasNames hooks (HooksModule.ownNames plan) (HooksModule.generatedNames plan) ∧
      ((ClientModule.ownNames plan).Apart (ClientModule.generatedNames plan) ↔
        ClientModule.LeavesFree spec) ∧
      ((HooksModule.ownNames plan).Apart (HooksModule.generatedNames plan) ↔
        HooksModule.LeavesFree spec) := by
  obtain ⟨plan, client, hplan, hclient, htext⟩ := render_axios_eq_ok_iff.1 h
  obtain ⟨hooks, hhooks, -⟩ := HooksModule.exists_declarations
    (ClientModule.typeName_ne_of_declarations_eq_ok hclient)
  have hrender : spec.render .reactQuery options .standard = .ok (printModule hooks) :=
    HooksModule.render_reactQuery_eq_ok_iff.2 ⟨plan, hooks, hplan, hhooks, rfl⟩
  exact ⟨plan, client, hooks, hplan, hclient, htext, hhooks, hrender,
    ClientModule.hasNames_client hclient, HooksModule.hasNames_hooks hplan hhooks,
    ClientModule.apart_iff hplan, HooksModule.apart_iff hplan⟩

/-- A query whose id is `query`. -/
def searchSpec : Spec := .bare "Search" [query "query" "/search" []] []

theorem exists_client_searchSpec : ∃ client,
    ClientModule.declarations (.make searchSpec {}) .standard = .ok client ∧
      searchSpec.render .axios {} .standard = .ok (printModule client) :=
  exists_client (by decide +kernel) (by decide +kernel)

/-- The client is in order, and the hooks are not. -/
theorem names_apart_iff_searchSpec :
    ∃ text plan client hooks, searchSpec.render .axios {} .standard = .ok text ∧
      Plan.ofSpec searchSpec {} = .ok plan ∧ text = printModule client ∧
      searchSpec.render .reactQuery {} .standard = .ok (printModule hooks) ∧
      HasNames client (ClientModule.ownNames plan) (ClientModule.generatedNames plan) ∧
      HasNames hooks (HooksModule.ownNames plan) (HooksModule.generatedNames plan) ∧
      (ClientModule.ownNames plan).Apart (ClientModule.generatedNames plan) ∧
      ¬(HooksModule.ownNames plan).Apart (HooksModule.generatedNames plan) := by
  obtain ⟨client, -, hrender⟩ := exists_client_searchSpec
  obtain ⟨plan, client, hooks, hplan, -, htext, -, hreactQuery, hclient, hhooks, hclientFree,
    hhooksFree⟩ := names_apart_iff hrender
  have hop : query "query" "/search" [] ∈ searchSpec.operations :=
    List.mem_singleton_self _
  have hfree : ClientModule.LeavesFree searchSpec := by
    refine ⟨fun _ hmodel ↦ absurd hmodel List.not_mem_nil, ?_, fun hsecurity ↦ absurd rfl hsecurity⟩
    decide +kernel
  refine ⟨_, plan, client, hooks, hrender, hplan, htext, hreactQuery, hclient, hhooks,
    hclientFree.2 hfree, fun hapart ↦ ?_⟩
  exact (hhooksFree.1 hapart).queries ⟨_, hop, rfl⟩ _ hop (by decide +kernel)

/-- The module of hooks imports a function and declares a hook of the same name. -/
theorem useQuery_twice_searchSpec :
    ∃ client hooks, searchSpec.render .axios {} .standard = .ok (printModule client) ∧
      searchSpec.render .reactQuery {} .standard = .ok (printModule hooks) ∧
      hooks.flatMap Declaration.valueNames = ["useQuery", "apiClient", "queryKeys", "useQuery"] ∧
      hooks.filterMap Declaration.functionName? = ["useQuery"] := by
  obtain ⟨client, -, hrender⟩ := exists_client_searchSpec
  have hplan : Plan.ofSpec searchSpec {} = .ok (.make searchSpec {}) :=
    Plan.ofSpec_eq_ok_iff.2 ⟨Option.isNone_iff_eq_none.1 (by decide +kernel), rfl⟩
  have hbases : ∀ op ∈ (Plan.make searchSpec {}).operations, typeName op.id ≠ "" := by
    decide +kernel
  obtain ⟨hooks, hhooks, -⟩ := HooksModule.exists_declarations hbases
  have hnames : (HooksModule.declarations (.make searchSpec {}) .standard).toOption.map
      (fun hooks ↦ (hooks.flatMap Declaration.valueNames,
        hooks.filterMap Declaration.functionName?)) =
      some (["useQuery", "apiClient", "queryKeys", "useQuery"], ["useQuery"]) := by
    decide +kernel
  rw [hhooks] at hnames
  obtain ⟨hvalues, hfunctions⟩ := Prod.mk.inj (Option.some.inj hnames)
  exact ⟨client, hooks, hrender, HooksModule.render_reactQuery_eq_ok_iff.2
    ⟨_, hooks, hplan, hhooks, rfl⟩, hvalues, hfunctions⟩

end Spec

end ApiContract
