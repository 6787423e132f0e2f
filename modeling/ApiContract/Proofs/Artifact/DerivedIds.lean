import ApiContract.Proofs.Artifact.FunctionNames
import ApiContract.Proofs.Identifier.ConstantCase
import ApiContract.Proofs.Spec.Operations

/-!
# Operations that declare no id

An operation without an id of its own is called by its method and the segments of its path. This
module shows that such an id never stands in the way: it is a name, stays as it is wherever names
are made of it, and no artifact is refused for it.

## The form of a derived id

What segments give are letters and digits, whatever the path is, and a method is a word in small
letters, so a derived id is in camel case from the start (`isCamelName_derivedId`). Camel case
changes nothing about such a name (`IsCamelName.camelCase_eq_self`), and it stays as it is when it
is bound, except for one: of the reserved words only `delete` begins with a method
(`binding_derivedId`).

## Failures that name an id

A contract is refused for an id that gives no name, and the failure says which one. Whatever is made
of a contract, it only ever blames an id that gives none (`Spec.failsOnly_render`); so it never
blames one that is derived. This is proved along the construction of artifacts, one lemma for each
function that can fail, with `Except.FailsOnly` and its rules for sequences and loops.

## Main result

`derivedId_usable` puts the two together for all methods and paths: the form of the id, that it is
the id of the operation of a document which declares none, the name of its function, and that no
artifact is refused for it.
-/

namespace ApiContract

open TypeScript

/-! ### Derived ids -/

/-- A name of letters and digits that begins with a small letter. -/
def Identifier.IsCamelName (name : String) : Prop :=
  (∃ c ∈ name.toList.head?, c.isLower = true) ∧ ∀ c ∈ name.toList, c.isAlphanum = true

namespace Identifier.IsCamelName

variable {name : String}

/-- Camel case changes nothing about a name that is in camel case: its words keep their letters, and
the first of them is small already. -/
theorem camelCase_eq_self (h : IsCamelName name) : camelCase name = name := by
  obtain ⟨⟨c, hc, hlower⟩, hall⟩ := h
  have hhead : ∀ d ∈ name.toList.head?, d.isUpper = false := by
    intro d hd
    obtain rfl := Option.mem_unique hc hd
    rw [← Bool.not_eq_true]
    intro hupper
    exact Bool.false_ne_true ((Char.isLower_eq_false_of_isUpper hupper).symm.trans hlower)
  rw [camelCase, camelChars_eq_self hall hhead, String.ofList_toList]

/-- Only a reserved word is not bound as it is. -/
theorem binding_eq_guardReserved (h : IsCamelName name) : binding name = guardReserved name := by
  obtain ⟨c, hc, hlower⟩ := h.1
  obtain ⟨rest, hname⟩ := List.head?_eq_some_iff.1 hc
  have hletter : c.isAlpha = !c.isDigit :=
    Char.isAlpha_eq_not_isDigit (h.2 c (hname ▸ List.mem_cons_self))
  have hdigit : c.isDigit = false := by
    rw [Char.isAlpha_eq_or, hlower, Bool.or_true] at hletter
    exact Bool.not_eq_eq_eq_not.1 hletter.symm
  have hguard : guardDigit name.toList = name.toList := by
    rw [hname, guardDigit, hdigit, if_neg Bool.false_ne_true]
  have hcamel : camelChars name.toList = name.toList := by
    rw [← String.toList_ofList (l := camelChars name.toList), ← camelCase, h.camelCase_eq_self]
  rw [binding, hcamel, hguard, String.ofList_toList]

end Identifier.IsCamelName

namespace Operation

/-- What a segment gives to an id are letters and digits. -/
theorem isAlphanum_of_mem_idPart {segment : List Char} :
    ∀ c ∈ idPart segment, c.isAlphanum = true := by
  rw [idPart]
  split
  · exact List.forall_mem_append.2 ⟨List.forall_mem_cons.2 ⟨rfl, List.forall_mem_singleton.2 rfl⟩,
      fun _ ↦ Identifier.isAlphanum_of_mem_pascalChars⟩
  · exact fun _ ↦ Identifier.isAlphanum_of_mem_pascalChars

/-- **A derived id is that of its method, and letters and digits behind it.** -/
theorem exists_derivedId_eq (method : HttpMethod) (path : String) :
    ∃ parts : List Char, (derivedId method path).toList = method.key.toList ++ parts ∧
      ∀ c ∈ parts, c.isAlphanum = true := by
  rw [derivedId, String.toList_ofList]
  refine ⟨_, rfl, fun c hc ↦ ?_⟩
  obtain ⟨segment, -, hmem⟩ := List.mem_flatMap.1 hc
  exact isAlphanum_of_mem_idPart c hmem

/-- The key of a method is a word in small letters. -/
theorem isLower_of_mem_key (method : HttpMethod) :
    method.key.toList ≠ [] ∧ ∀ c ∈ method.key.toList, c.isLower = true := by
  have hkey : method.key.toList.isEmpty = false ∧ method.key.toList.all Char.isLower = true := by
    cases method <;> decide +kernel
  exact ⟨List.isEmpty_eq_false_iff.1 hkey.1, List.all_eq_true.1 hkey.2⟩

/-- A derived id is a name in camel case. -/
theorem isCamelName_derivedId (method : HttpMethod) (path : String) :
    Identifier.IsCamelName (derivedId method path) := by
  obtain ⟨parts, hid, hparts⟩ := exists_derivedId_eq method path
  obtain ⟨hne, hlower⟩ := isLower_of_mem_key method
  obtain ⟨c, rest, hkey⟩ := List.exists_cons_of_ne_nil hne
  constructor
  · rw [hid, hkey]
    exact ⟨c, rfl, hlower c (hkey ▸ List.mem_cons_self)⟩
  · rw [hid]
    refine List.forall_mem_append.2 ⟨fun d hd ↦ ?_, hparts⟩
    rw [Char.isAlphanum, Char.isAlpha_eq_or, hlower d hd, Bool.or_true, Bool.true_or]

/-- Of the reserved words only one begins with a method. -/
theorem eq_delete_of_key_isPrefix (method : HttpMethod) :
    ∀ word ∈ Identifier.reserved, method.key.toList <+: word.toList → word = "delete" := by
  cases method <;> decide +kernel

/-- The name of the function for an operation with a derived id. -/
def derivedName (id : String) : String := if id = "delete" then "delete_" else id

/-- **A derived id is bound as it is**, unless it is the one that is reserved. -/
theorem binding_derivedId (method : HttpMethod) (path : String) :
    Identifier.binding (derivedId method path) = derivedName (derivedId method path) := by
  obtain ⟨parts, hid, -⟩ := exists_derivedId_eq method path
  rw [(isCamelName_derivedId method path).binding_eq_guardReserved, Identifier.guardReserved,
    derivedName]
  by_cases hdelete : derivedId method path = "delete"
  · rw [hdelete]
    rfl
  · have hfree : derivedId method path ∉ Identifier.reserved := fun hmem ↦
      hdelete (eq_delete_of_key_isPrefix method _ hmem ⟨parts, hid.symm⟩)
    rw [if_neg hdelete, if_neg (fun h ↦ hfree (List.contains_iff_mem.1 h))]

/-- A derived id gives a name to types. -/
theorem typeName_derivedId_ne (method : HttpMethod) (path : String) :
    typeName (derivedId method path) ≠ "" := by
  obtain ⟨⟨c, hc, -⟩, hall⟩ := isCamelName_derivedId method path
  have hmem := List.mem_of_mem_head? hc
  exact (Identifier.pascalCase_ne_empty_iff _).2 ⟨c, hmem, hall c hmem⟩

end Operation

/-! ### Failures for names -/

/-- A failure says of an id that it gives no name only if it gives none. -/
def Failure.IsAccurate (failure : Failure) : Prop :=
  ∀ id route, failure = .render (.namelessOperation id route) → typeName id = ""

open Except Failure

/-- A surface fails only for an id that gives no name. -/
theorem Surface.failsOnly_ofOperation (op : Operation) :
    FailsOnly IsAccurate (ofOperation .standard op) := by
  rw [ofOperation_standard]
  split
  · next hempty =>
    rintro _ ⟨⟩ id route ⟨⟩
    exact String.isEmpty_iff.1 hempty
  · exact failsOnly_ok _

namespace TypesModule

/-- The declarations of an operation fail only for an id that gives no name. -/
theorem failsOnly_operation (plan : Plan) (tag : String) (op : Operation) :
    FailsOnly IsAccurate (operation plan .standard tag op) := by
  refine (Surface.failsOnly_ofOperation op).bind fun s ↦ ?_
  rw [Surface.typeDeclarations_standard, indexEntry, HelperTable.flag_requiresAuth]
  exact failsOnly_ok _

/-- The module of types blames only ids that give no name. -/
theorem failsOnly_declarations (plan : Plan) :
    FailsOnly IsAccurate (declarations plan .standard) := by
  have hgroup (g : OperationGroup) : FailsOnly IsAccurate (group plan .standard g) := by
    rw [group, HelperTable.text_constantCase]
    exact (FailsOnly.mapM (failsOnly_operation plan g.tag) g.operations).bind
      fun _ ↦ failsOnly_ok _
  exact (FailsOnly.mapM hgroup plan.groups).bind fun _ ↦ failsOnly_ok _

end TypesModule

namespace ClientModule

/-- A function of the client fails for a placeholder and blames no id. -/
theorem failsOnly_function (s : Surface) : FailsOnly IsAccurate (function .standard s) := by
  rintro failure h id route rfl
  obtain ⟨_, -, hfailure⟩ := exists_of_function_eq_error h
  exact absurd hfailure nofun

/-- The client blames only ids that give no name. -/
theorem failsOnly_declarations (plan : Plan) :
    FailsOnly IsAccurate (declarations plan .standard) := by
  have hgroup (g : OperationGroup) : FailsOnly IsAccurate (group .standard g) := by
    refine (FailsOnly.mapM (fun op ↦ ?_) g.operations).bind fun _ ↦ failsOnly_ok _
    refine (Surface.failsOnly_ofOperation op).bind fun s ↦ ?_
    rw [Surface.typeDeclarations_standard]
    exact failsOnly_ok _
  refine (FailsOnly.mapM hgroup plan.groups).bind fun groups ↦ ?_
  exact (FailsOnly.mapM failsOnly_function _).bind fun _ ↦ failsOnly_ok _

end ClientModule

namespace HooksModule

/-- A hook blames only an id that gives no name. -/
theorem failsOnly_hook (tagKey : String) (op : Operation) :
    FailsOnly IsAccurate (hook .standard tagKey op) := by
  refine (Surface.failsOnly_ofOperation op).bind fun s ↦ ?_
  obtain ⟨query, hquery, -⟩ := exists_queryHook tagKey s
  obtain ⟨mutation, hmutation, -⟩ := exists_mutationHook tagKey s
  rw [HelperTable.flag_isQuery, HelperTable.flag_isMutation, queryKey_standard, hquery, hmutation]
  cases hread : op.method.isRead with
  | true => exact failsOnly_ok _
  | false => exact failsOnly_ok _

/-- The module of hooks blames only ids that give no name. -/
theorem failsOnly_declarations (plan : Plan) :
    FailsOnly IsAccurate (declarations plan .standard) := by
  have hgroup (g : OperationGroup) : FailsOnly IsAccurate (group .standard g) := by
    rw [group, HelperTable.text_camelCase]
    exact (FailsOnly.mapM (failsOnly_hook _) g.operations).bind fun _ ↦ failsOnly_ok _
  exact (FailsOnly.mapM hgroup plan.groups).bind fun _ ↦ failsOnly_ok _

end HooksModule

namespace Plan

/-! A plan passes over operations without a name, so it blames none. -/

variable {id : String} {route : Route}

/-- The check of the models is about models. -/
theorem modelNameFault?_ne (seen : List (String × String)) (models : List Model) :
    modelNameFault? seen models ≠ some (.namelessOperation id route) := by
  fun_induction modelNameFault? seen models with
  | case1 => nofun
  | case2 => nofun
  | case3 => nofun
  | case4 seen model rest generated hgood hnew ih => exact ih

/-- The check of the operations passes over those without a name. -/
theorem operationNameFault?_ne (models : List Model) (seen : List (String × Operation))
    (operations : List Operation) :
    operationNameFault? models seen operations ≠ some (.namelessOperation id route) := by
  fun_induction operationNameFault? models seen operations with
  | case1 => nofun
  | case2 seen op rest base hempty ih => exact ih
  | case3 => nofun
  | case4 seen op rest base hgood hnew collision fault hfault =>
    obtain ⟨type, -, hfault⟩ := List.exists_of_findSome?_eq_some hfault
    obtain ⟨model, -, rfl⟩ := Option.map_eq_some_iff.1 hfault
    nofun
  | case5 seen op rest base hgood hnew collision hnone ih => exact ih

/-- The check of the references is about references. -/
theorem referenceFault?_ne (spec : Spec) :
    referenceFault? spec ≠ some (.namelessOperation id route) := by
  intro h
  rw [referenceFault?, Option.orElse_eq_orElse, Option.orElse_eq_or, Option.or_eq_some_iff] at h
  rcases h with hmodel | ⟨-, hoperation⟩
  · obtain ⟨model, -, hdangles⟩ := List.exists_of_findSome?_eq_some hmodel
    obtain ⟨name, -, heq⟩ := Option.map_eq_some_iff.1 hdangles
    cases heq
  · obtain ⟨op, -, hdangles⟩ := List.exists_of_findSome?_eq_some hoperation
    obtain ⟨name, -, heq⟩ := Option.map_eq_some_iff.1 hdangles
    cases heq

/-- A plan is refused for collisions and for references, never for an id without a name. -/
theorem failsOnly_ofSpec (spec : Spec) (options : RenderOptions) :
    FailsOnly IsAccurate (ofSpec spec options) := by
  rw [ofSpec]
  split
  · next fault hfault =>
    rintro _ ⟨⟩ id route hsame
    obtain rfl := Failure.render.inj hsame
    simp only [fault?, Option.orElse_eq_orElse, Option.orElse_eq_or, Option.or_eq_some_iff]
      at hfault
    rcases hfault with hmodel | ⟨-, hoperation | ⟨-, hreference⟩⟩
    · exact absurd hmodel (modelNameFault?_ne _ _)
    · exact absurd hoperation (operationNameFault?_ne _ _ _)
    · exact absurd hreference (referenceFault?_ne spec)
  · exact failsOnly_ok _

end Plan

/-- **A contract is refused for an id without a name only if the id gives none.** -/
theorem Spec.failsOnly_render (spec : Spec) (format : OutputFormat) (options : RenderOptions) :
    FailsOnly IsAccurate (spec.render format options .standard) := by
  refine (Plan.failsOnly_ofSpec spec options).bind fun plan ↦ ?_
  cases format with
  | typescript => exact (TypesModule.failsOnly_declarations plan).map _
  | axios => exact (ClientModule.failsOnly_declarations plan).map _
  | reactQuery => exact (HooksModule.failsOnly_declarations plan).map _
  | openapi => exact failsOnly_ok _

/-! ### Operations under their derived ids -/

/-- The id of an operation is used as it is. -/
structure Operation.UsedAsIs (spec : Spec) (op : Operation) : Prop where
  /-- The operation has names, and that of its function is the id, unless this is the reserved word
  that a derived id can be. -/
  surface : ∃ s, Surface.ofOperation .standard op = .ok s ∧ s.functionName = derivedName op.id
  /-- Every client of the contract has a function of that name for the operation. -/
  function : ∀ options plan client, Plan.ofSpec spec options = .ok plan →
    ClientModule.declarations plan .standard = .ok client →
      ∃ d ∈ client, ClientModule.function .standard (.standard op) = .ok d ∧
        d.functionName? = some (derivedName op.id)
  /-- No artifact is refused for the id. -/
  named : ∀ format options route,
    spec.render format options .standard ≠ .error (.render (.namelessOperation op.id route))

/-- An operation of a contract with a derived id is used under that id. -/
theorem Operation.usedAsIs {spec : Spec} {op : Operation} (hop : op ∈ spec.operations)
    {method : HttpMethod} {path : String} (hid : op.id = derivedId method path) :
    op.UsedAsIs spec := by
  have htype : typeName op.id ≠ "" := hid ▸ typeName_derivedId_ne method path
  have hname : (Surface.standard op).functionName = derivedName op.id := by
    rw [ClientModule.functionName_eq, hid, binding_derivedId]
  constructor
  case surface => exact ⟨_, Surface.ofOperation_eq_ok_iff.2 ⟨htype, rfl⟩, hname⟩
  case function =>
    intro options plan client hplan hclient
    have hplanned : op ∈ plan.operations := (Plan.perm_operations hplan).symm.subset hop
    obtain ⟨d, hfunction, hd⟩ := ClientModule.exists_function_of_mem hclient hplanned
    exact ⟨d, hd, hfunction, hname ▸ (ClientModule.signature_of_function_eq_ok hfunction).1⟩
  case named =>
    intro format options route h
    exact htype (Spec.failsOnly_render spec format options _ h _ _ rfl)

/-- The id of an operation that declares none. -/
theorem Build.id_operationOf {doc : Json} {e : Lint.OperationEntry}
    (h : (Json.object e.op).stringAt? "operationId" = none) :
    (operationOf doc e).id = Operation.derivedId e.method e.template := by
  rw [operationOf, operation, h, Option.getD_none]

/-- **Derived ids are usable as they are.** Whatever the path, a derived id is a name of letters and
digits that begins with a small letter, and is in camel case. It is the id of every operation of a
document that declares none, the function for the operation has just that name, or `delete_` in
place of `delete`, and no artifact is refused for it. -/
theorem derivedId_usable (method : HttpMethod) (path : String) :
    Identifier.IsCamelName (Operation.derivedId method path) ∧
      Identifier.camelCase (Operation.derivedId method path) = Operation.derivedId method path ∧
      ∀ doc, ∀ e ∈ Lint.operations doc, e.method = method → e.template = path →
        (Json.object e.op).stringAt? "operationId" = none →
          Build.operationOf doc e ∈ (Spec.ofDocument doc).operations ∧
            (Build.operationOf doc e).id = Operation.derivedId method path ∧
            (Build.operationOf doc e).UsedAsIs (Spec.ofDocument doc) := by
  have hcamel := Operation.isCamelName_derivedId method path
  refine ⟨hcamel, hcamel.camelCase_eq_self, ?_⟩
  rintro doc e he rfl rfl hnone
  have hop : Build.operationOf doc e ∈ (Spec.ofDocument doc).operations := by
    rw [Spec.operations_ofDocument]
    exact List.mem_map_of_mem he
  have hid : (Build.operationOf doc e).id = _ := Build.id_operationOf hnone
  exact ⟨hop, hid, Operation.usedAsIs hop hid⟩

/-- A product by its id, and an operation on the root, neither with an id of its own. -/
def productsDocument : Json :=
  .object [
    ("openapi", .string "3.0.3"),
    ("info", .object [("title", .string "Products"), ("version", .string "1.0.0")]),
    ("paths", .object [
      ("/v1/products/\x7bid\x7d", .object [("get", .object [
        ("parameters", .array [.object [("name", .string "id"), ("in", .string "path")]])])]),
      ("/", .object [("delete", .object [])])])]

theorem exists_client_productsDocument : ∃ client,
    ClientModule.declarations (.make (Spec.ofDocument productsDocument) {}) .standard = .ok client ∧
      (Spec.ofDocument productsDocument).render .axios {} .standard = .ok (printModule client) :=
  Spec.exists_client (by decide +kernel) (by decide +kernel)

/-- One of the derived ids is the name of a function, and the other is reserved. -/
theorem derivedId_usable_productsDocument :
    ∃ client, (Spec.ofDocument productsDocument).render .axios {} .standard =
        .ok (printModule client) ∧
      (∃ d ∈ client, d.functionName? = some "getProductsById") ∧
      ∃ d ∈ client, d.functionName? = some "delete_" := by
  obtain ⟨client, hclient, hrender⟩ := exists_client_productsDocument
  have hplan : Plan.ofSpec (Spec.ofDocument productsDocument) {} = .ok (.make _ {}) :=
    Plan.ofSpec_eq_ok_iff.2 ⟨Option.isNone_iff_eq_none.1 (by decide +kernel), rfl⟩
  have hproduct : ∃ e ∈ Lint.operations productsDocument, e.method = .get ∧
      e.template = "/v1/products/\x7bid\x7d" ∧
      (Json.object e.op).stringAt? "operationId" = none := by decide +kernel
  have hroot : ∃ e ∈ Lint.operations productsDocument, e.method = .delete ∧ e.template = "/" ∧
      (Json.object e.op).stringAt? "operationId" = none := by decide +kernel
  have hproductName : Operation.derivedName (Operation.derivedId .get "/v1/products/\x7bid\x7d") =
      "getProductsById" := by decide +kernel
  have hrootName : Operation.derivedName (Operation.derivedId .delete "/") = "delete_" := by
    decide +kernel
  refine ⟨client, hrender, ?_, ?_⟩
  · obtain ⟨e, he, hmethod, htemplate, hnone⟩ := hproduct
    obtain ⟨-, hid, hused⟩ := (derivedId_usable _ _).2.2 _ e he hmethod htemplate hnone
    obtain ⟨d, hd, -, hname⟩ := hused.function _ _ _ hplan hclient
    exact ⟨d, hd, by rw [hname, hid, hproductName]⟩
  · obtain ⟨e, he, hmethod, htemplate, hnone⟩ := hroot
    obtain ⟨-, hid, hused⟩ := (derivedId_usable _ _).2.2 _ e he hmethod htemplate hnone
    obtain ⟨d, hd, -, hname⟩ := hused.function _ _ _ hplan hclient
    exact ⟨d, hd, by rw [hname, hid, hrootName]⟩

end ApiContract
