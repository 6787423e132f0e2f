import ApiContract.Proofs.Artifact.Linking
import ApiContract.Proofs.Identifier.Binding

/-!
# The names of the functions in a client

Operations are told apart by the Pascal case of their ids, which a plan requires to be distinct, and
their functions have the camel case of the ids, which nothing requires. The two keep different
letters of a name that begins with an acronym: Pascal case keeps the capitals of its first word,
camel case makes them small. There two operations may share a name in the client.

## Main result

`functions_distinct_iff` says of every client that can be made which functions it declares, that
just these are gathered in one object, and that they have distinct names exactly if no two ids agree
in camel case. Where two agree, one of the ids begins with an acronym; so contracts without such ids
are safe, whatever else their ids are.

## Proof

The functions of a client are its declarations that have a function's name
(`filterMap_functionName?_client`), one for each operation and one that sets the token. Names are
compared through `Identifier.binding`, which tells apart what camel case tells apart, since a guard
is undone by reading the words again. That one of two ids with a common function begins with an
acronym is a fact about words: without an acronym in front the two cases determine each other.

Two operations that share a function, and the client that declares it twice, are at the end.
-/

namespace ApiContract

open TypeScript

namespace ClientModule

variable {plan : Plan} {client functions : List Declaration}

/-- The names of the functions for a plan's operations. -/
def functionNames (plan : Plan) : List String :=
  plan.operations.map fun op ↦ (Surface.standard op).functionName

/-- The name of the function that sets the token, if there is one. -/
def setterNames (plan : Plan) : List String := if plan.hasSecurity then ["setAuthToken"] else []

/-- Each operation's function has the name of its surface. -/
theorem map_functionName?_functions
    (h : (plan.operations.map Surface.standard).mapM (function .standard) = .ok functions) :
    functions.map Declaration.functionName? = (functionNames plan).map some := by
  have hnames := (Except.mapM_eq_ok_iff.1 h).map_eq (f := fun s ↦ some s.functionName)
    fun _ _ hfunction ↦ (signature_of_function_eq_ok hfunction).1.symm
  rw [functionNames, List.map_map, ← hnames, List.map_map]
  rfl

/-- **The functions that a client declares**: that for the token, then one for each operation. -/
theorem filterMap_functionName?_client (h : declarations plan .standard = .ok client) :
    client.filterMap Declaration.functionName? = setterNames plan ++ functionNames plan := by
  obtain ⟨functions, hfunctions, rfl⟩ := exists_of_declarations_eq_ok h
  have hmodels := filterMap_functionName?_of_isTyping fun d (hd : d ∈ models plan) ↦
    isTyping_of_mem_models hd
  have hgroups := filterMap_functionName?_of_isTyping
    fun d (hd : d ∈ plan.groups.flatMap groupDeclarations) ↦ isTyping_of_mem_groups hd
  have hsetter : (if plan.hasSecurity then [tokenSetter] else []).filterMap
      Declaration.functionName? = setterNames plan := by
    rw [setterNames]
    split <;> rfl
  have hnames : functions.filterMap Declaration.functionName? = functionNames plan := by
    calc
      functions.filterMap Declaration.functionName?
        = (functions.map Declaration.functionName?).filterMap id := by
        rw [List.filterMap_map, Function.id_comp]
      _ = ((functionNames plan).map some).filterMap id := by
        rw [map_functionName?_functions hfunctions]
      _ = functionNames plan := by rw [List.filterMap_map, Function.id_comp, List.filterMap_some]
  rw [moduleOf, List.filterMap_append, List.filterMap_append, List.filterMap_append,
    List.filterMap_append, List.filterMap_append, List.filterMap_append, hmodels, hgroups, hsetter,
    hnames]
  exact List.append_nil _

/-- The functions of the operations are gathered in one object, in their order. -/
theorem gathering_mem_client (h : declarations plan .standard = .ok client) :
    .const "apiClient" none (.object ((functionNames plan).map .shorthand)) none ∈ client := by
  obtain ⟨functions, -, rfl⟩ := exists_of_declarations_eq_ok h
  have hentries : (plan.operations.map Surface.standard).map
      (fun s : Surface ↦ Entry.shorthand s.functionName) = (functionNames plan).map .shorthand := by
    rw [functionNames, List.map_map, List.map_map]
    rfl
  rw [← hentries]
  exact List.mem_append_right _ (List.mem_singleton_self _)

theorem functionName_eq (op : Operation) :
    (Surface.standard op).functionName = Identifier.binding op.id := by
  rw [Surface.standard, Identifier.binding_camelCase]

/-- Functions are told apart exactly where the ids differ in camel case. -/
theorem nodup_functionNames_iff {spec : Spec} {options : RenderOptions}
    (hplan : Plan.ofSpec spec options = .ok plan) :
    (functionNames plan).Nodup ↔
      (spec.operations.map fun op ↦ Identifier.camelCase op.id).Nodup := by
  have hnames : functionNames plan = plan.operations.map fun op ↦ Identifier.binding op.id :=
    List.map_congr_left fun op _ ↦ functionName_eq op
  rw [hnames, ((Plan.perm_operations hplan).map _).nodup_iff]
  exact Identifier.nodup_map_binding_iff spec.operations Operation.id

/-- **Operations that share a function begin with an acronym**, at least one of them. -/
theorem pairwise_startsWithAcronym {spec : Spec} {options : RenderOptions}
    (hplan : Plan.ofSpec spec options = .ok plan)
    (hbases : ∀ op ∈ plan.operations, typeName op.id ≠ "") :
    spec.operations.Pairwise fun op later ↦
      (Surface.standard op).functionName = (Surface.standard later).functionName →
        Identifier.StartsWithAcronym op.id ∨ Identifier.StartsWithAcronym later.id := by
  have htypes : (spec.operations.map fun op ↦ typeName op.id).Nodup :=
    Plan.nodup_map_typeName (Plan.ofSpec_eq_ok_iff.1 hplan).1 fun op hop ↦
      hbases op ((Plan.perm_operations hplan).symm.subset hop)
  refine (List.pairwise_map.1 htypes).imp fun hpascal hfunction ↦ ?_
  rw [functionName_eq, functionName_eq, Identifier.binding_eq_binding_iff] at hfunction
  exact Identifier.startsWithAcronym_of_camelCase_eq hfunction hpascal

/-- **The functions of a client are distinct exactly if the ids differ in camel case.** Whenever the
client of a contract can be made, it declares one function for each operation, beside the one that
sets the token, and gathers just these in one object. They have distinct names exactly if no two ids
agree in camel case, and where two agree, one of the ids begins with an acronym. -/
theorem functions_distinct_iff {spec : Spec} {options : RenderOptions} {text : String}
    (h : spec.render .axios options .standard = .ok text) :
    ∃ plan client, Plan.ofSpec spec options = .ok plan ∧ plan.operations.Perm spec.operations ∧
      declarations plan .standard = .ok client ∧ text = printModule client ∧
      client.filterMap Declaration.functionName? = setterNames plan ++ functionNames plan ∧
      .const "apiClient" none (.object ((functionNames plan).map .shorthand)) none ∈ client ∧
      ((functionNames plan).Nodup ↔
        (spec.operations.map fun op ↦ Identifier.camelCase op.id).Nodup) ∧
      spec.operations.Pairwise fun op later ↦
        (Surface.standard op).functionName = (Surface.standard later).functionName →
          Identifier.StartsWithAcronym op.id ∨ Identifier.StartsWithAcronym later.id := by
  obtain ⟨plan, client, hplan, hclient, htext⟩ := Spec.render_axios_eq_ok_iff.1 h
  have hbases := typeName_ne_of_declarations_eq_ok hclient
  exact ⟨plan, client, hplan, Plan.perm_operations hplan, hclient, htext,
    filterMap_functionName?_client hclient, gathering_mem_client hclient,
    nodup_functionNames_iff hplan, pairwise_startsWithAcronym hplan hbases⟩

/-- Two queries whose ids are told apart by capitals only. -/
def linksSpec : Spec :=
  .bare "Links" [Spec.query "URLCheck" "/urls" [], Spec.query "urlCheck" "/checks" []] []

theorem exists_client_linksSpec : ∃ client,
    declarations (.make linksSpec {}) .standard = .ok client ∧
      linksSpec.render .axios {} .standard = .ok (printModule client) :=
  Spec.exists_client (by decide +kernel) (by decide +kernel)

/-- The functions of both queries have one name. -/
theorem functionNames_linksSpec :
    functionNames (.make linksSpec {}) = ["urlCheck", "urlCheck"] := by
  decide +kernel

theorem functions_distinct_iff_linksSpec :
    ∃ text plan client, linksSpec.render .axios {} .standard = .ok text ∧
      Plan.ofSpec linksSpec {} = .ok plan ∧ text = printModule client ∧
      .const "apiClient" none (.object ((functionNames plan).map .shorthand)) none ∈ client ∧
      ((functionNames plan).Nodup ↔
        (linksSpec.operations.map fun op ↦ Identifier.camelCase op.id).Nodup) ∧
      (Identifier.StartsWithAcronym "URLCheck" ∨ Identifier.StartsWithAcronym "urlCheck") := by
  obtain ⟨client, -, hrender⟩ := exists_client_linksSpec
  obtain ⟨plan, client, hplan, -, -, htext, -, hgathered, hiff, hpairs⟩ :=
    functions_distinct_iff hrender
  have hfirst := List.rel_of_pairwise_cons hpairs (List.mem_singleton_self _)
  exact ⟨_, plan, client, hrender, hplan, htext, hgathered, hiff, hfirst (by decide +kernel)⟩

/-- The client declares one function twice, and gathers it twice. -/
theorem function_declared_twice_linksSpec :
    ∃ client, linksSpec.render .axios {} .standard = .ok (printModule client) ∧
      client.filterMap Declaration.functionName? = ["urlCheck", "urlCheck"] ∧
      .const "apiClient" none (.object [.shorthand "urlCheck", .shorthand "urlCheck"]) none ∈
        client := by
  obtain ⟨client, hclient, hrender⟩ := exists_client_linksSpec
  have hdeclared := filterMap_functionName?_client hclient
  have hgathered := gathering_mem_client hclient
  rw [functionNames_linksSpec] at hdeclared hgathered
  exact ⟨client, hrender, hdeclared, hgathered⟩

end ClientModule

end ApiContract
