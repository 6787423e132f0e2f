import ApiContract.Artifact.Client
import ApiContract.Proofs.Artifact.Surface
import ApiContract.Proofs.Except
import ApiContract.Proofs.TypeScript.Names

/-!
# The client under the standard helpers

With the standard helpers every question to the table of helpers has its answer, so what remains of
the client is a function of the plan that can fail in two ways: for an id that gives no name, and
for a placeholder that no parameter fills.

## What is read off the module

Three things are read off a declaration by its form: the addresses of the requests that it sends
(`Declaration.requestUrls`), the names that it binds to properties of its parameters
(`Declaration.paramLocals`), and the name under which it is a function. They are defined on every
declaration, whoever made it; what they give for the client is proved and not built in.

## Main results

* `ClientModule.function_of_unbound` and `ClientModule.exists_function`: the function of an
  operation fails for an unbound placeholder and in no other case; otherwise it sends one request,
  to the address that the path gives, and binds a variable for each parameter of the path.
* `ClientModule.exists_of_declarations_eq_ok`: the module has one function for each operation, and
  fixed declarations around them.
* `ClientModule.mem_functions_of_functionName?`, `ClientModule.mem_functions_of_requestUrls`: what
  stands around the functions of the operations sends no request and declares no function but the
  one that sets the token.

The groups of the module are read with the loop lemma of `Proofs.Artifact.Surface`; that no type is
a function follows from `Declaration.isTyping`.
-/

namespace ApiContract

open TypeScript

namespace TypeScript

/-! ### Requests in a module -/

/-- The value under the key for the address of a request. -/
def Entry.url? : Entry → Option Expr
  | .keyed key value => if key = "url" then some value else none
  | _ => none

/-- The addresses of the request that a statement awaits. -/
def Statement.requestUrls : Statement → List Expr
  | .const _ (.unary _ (.call _ _ [.object entries])) => entries.filterMap Entry.url?
  | _ => []

/-- The names that a statement binds to properties of the parameters. -/
def Statement.paramLocals : Statement → List String
  | .const (.destructure fields _) (.identifier source) =>
    if source = "params" then fields.map Prod.snd else []
  | _ => []

namespace Declaration

/-- The statements of a function. -/
def body : Declaration → List Statement
  | .function _ _ _ _ body _ => body
  | _ => []

/-- The addresses of the requests that a function sends. -/
def requestUrls (d : Declaration) : List Expr := d.body.flatMap Statement.requestUrls

/-- The names that a function binds to properties of its parameters. -/
def paramLocals (d : Declaration) : List String := d.body.flatMap Statement.paramLocals

end Declaration

end TypeScript

namespace ClientModule

/-! ### The function of an operation -/

theorem filterMap_url?_queryEntries (hasPath hasQuery : Bool) :
    (queryEntries hasPath hasQuery).filterMap Entry.url? = [] := by
  cases hasPath <;> cases hasQuery <;> rfl

/-- The statement in front binds a variable for each parameter of the path. -/
theorem paramLocals_pathBinding (op : Operation) (hasQuery : Bool) :
    (pathBinding op hasQuery).paramLocals =
      (op.parametersAt .path).map fun p ↦ Identifier.binding p.name := by
  rw [pathBinding, Statement.paramLocals, if_pos rfl, List.map_map]
  rfl

theorem doc_standard (s : Surface) : ∃ doc, s.doc .standard = .ok doc := by
  rw [Surface.doc, HelperTable.flag_requiresAuth]
  exact ⟨_, rfl⟩

/-- An operation with an unbound placeholder has no function. -/
theorem function_of_unbound {s : Surface} {name : String}
    (h : unboundPlaceholder? s.op = some name) :
    function .standard s = .error (.render (.unboundPlaceholder s.op.id name)) := by
  rw [function, HelperTable.flag_hasQueryParams]
  simp only [h]
  rfl

/-- What the request of an operation's function says. -/
def requestEntries (s : Surface) : List Entry :=
  [ .spread (.identifier "config"), .keyed "method" (.text s.op.method.display)
  , .keyed "url" (pathTemplate s.op.path) ] ++
    queryEntries (!(s.op.parametersAt .path).isEmpty) (!(s.op.parametersAt .query).isEmpty) ++
    (if s.body.isSome then [.keyed "data" (.identifier "body")] else [])

/-- The statements of an operation's function: it takes what the path needs out of its parameters,
awaits the response to its request, and returns what that carries. -/
def statementsOf (s : Surface) : List Statement :=
  (if !(s.op.parametersAt .path).isEmpty then
    [pathBinding s.op (!(s.op.parametersAt .query).isEmpty)] else []) ++
    [ .const (.name "response") (.unary "await"
        (.call (.member (.identifier instanceName) "request") [.named s.responseName]
          [.object (requestEntries s)]))
    , .return (.member (.identifier "response") "data") ]

/-- An operation whose placeholders are bound has a function of this form. -/
theorem function_of_bound {s : Surface} (h : unboundPlaceholder? s.op = none) :
    ∃ returns doc, function .standard s = .ok (.function s.functionName true
      (s.callParams ++ [.optional "config" (.named "AxiosRequestConfig")]) returns
      (statementsOf s) doc) := by
  obtain ⟨doc, hdoc⟩ := doc_standard s
  rw [function, HelperTable.flag_hasQueryParams, HelperTable.expr_pathTemplate,
    HelperTable.flag_hasPathParams, hdoc]
  simp only [h]
  exact ⟨_, _, rfl⟩

/-- A request has one address, that of the path. -/
theorem filterMap_url?_requestEntries (s : Surface) :
    (requestEntries s).filterMap Entry.url? = [pathTemplate s.op.path] := by
  have hdata (hasBody : Bool) :
      (if hasBody then [Entry.keyed "data" (.identifier "body")] else []).filterMap Entry.url? =
        [] := by
    cases hasBody <;> rfl
  rw [requestEntries, List.filterMap_append, List.filterMap_append, filterMap_url?_queryEntries,
    hdata]
  rfl

/-- The statements of a function hold one request. -/
theorem requestUrls_statementsOf (s : Surface) :
    (statementsOf s).flatMap Statement.requestUrls = [pathTemplate s.op.path] := by
  have hbinding (hasPath hasQuery : Bool) :
      (if hasPath then [pathBinding s.op hasQuery] else []).flatMap Statement.requestUrls = [] := by
    cases hasPath <;> rfl
  simp only [statementsOf, List.flatMap_append, hbinding, List.flatMap_cons, List.flatMap_nil,
    Statement.requestUrls, filterMap_url?_requestEntries, List.append_nil, List.nil_append]

/-- The statements of a function bind the parameters of the path and nothing else of what it is
given. -/
theorem paramLocals_statementsOf (s : Surface) :
    (statementsOf s).flatMap Statement.paramLocals =
      (s.op.parametersAt .path).map fun p ↦ Identifier.binding p.name := by
  simp only [statementsOf, List.flatMap_append, List.flatMap_cons, List.flatMap_nil,
    Statement.paramLocals, List.append_nil]
  cases hnone : (s.op.parametersAt .path).isEmpty with
  | true =>
    rw [List.isEmpty_iff.1 hnone]
    rfl
  | false => exact (List.append_nil _).trans (paramLocals_pathBinding _ _)

/-- **The function of an operation sends one request**, to the address that the path gives, and
binds a variable for each parameter of the path. -/
theorem exists_function (s : Surface) (h : unboundPlaceholder? s.op = none) :
    ∃ d, function .standard s = .ok d ∧ d.requestUrls = [pathTemplate s.op.path] ∧
      d.paramLocals = (s.op.parametersAt .path).map fun p ↦ Identifier.binding p.name := by
  obtain ⟨_, _, hfunction⟩ := function_of_bound h
  exact ⟨_, hfunction, requestUrls_statementsOf s, paramLocals_statementsOf s⟩

/-- **An operation has no function if a placeholder of its path is unbound.** -/
theorem exists_of_function_eq_error {s : Surface} {fault : Failure}
    (h : function .standard s = .error fault) :
    ∃ name, unboundPlaceholder? s.op = some name ∧
      fault = .render (.unboundPlaceholder s.op.id name) := by
  cases hunbound : unboundPlaceholder? s.op with
  | none =>
    obtain ⟨d, hd, -⟩ := exists_function s hunbound
    exact absurd (hd.symm.trans h) nofun
  | some name =>
    rw [function_of_unbound hunbound] at h
    exact ⟨name, rfl, (Except.error.inj h).symm⟩

/-- A function that an operation has is of the form above. -/
theorem form_of_function_eq_ok {s : Surface} {d : Declaration} (h : function .standard s = .ok d) :
    unboundPlaceholder? s.op = none ∧ ∃ returns doc, d = .function s.functionName true
      (s.callParams ++ [.optional "config" (.named "AxiosRequestConfig")]) returns
      (statementsOf s) doc := by
  cases hunbound : unboundPlaceholder? s.op with
  | none =>
    obtain ⟨returns, doc, hfunction⟩ := function_of_bound hunbound
    exact ⟨rfl, returns, doc, Except.ok.inj (h.symm.trans hfunction)⟩
  | some name =>
    rw [function_of_unbound hunbound] at h
    exact absurd h nofun

/-- What a function sends and binds, whenever there is one. -/
theorem of_function_eq_ok {s : Surface} {d : Declaration} (h : function .standard s = .ok d) :
    unboundPlaceholder? s.op = none ∧ d.requestUrls = [pathTemplate s.op.path] ∧
      d.paramLocals = (s.op.parametersAt .path).map fun p ↦ Identifier.binding p.name := by
  obtain ⟨hbound, _, _, rfl⟩ := form_of_function_eq_ok h
  exact ⟨hbound, requestUrls_statementsOf s, paramLocals_statementsOf s⟩

/-! ### The module -/

/-- The declarations of an operation's types. -/
def typesOf (op : Operation) : List Declaration :=
  (Surface.standard op).paramsDeclarations ++ (Surface.standard op).bodyDeclarations ++
    [.alias (Surface.standard op).responseName (Surface.responseType op) none]

/-- The declarations for a group of operations. -/
def groupDeclarations (g : OperationGroup) : List Declaration :=
  .banner ("Operation types: " ++ g.tag) :: g.operations.flatMap typesOf

/-- A group has its declarations if every operation's id gives a name. -/
theorem group_eq_ok_iff {g : OperationGroup} {part : List Declaration × List Surface} :
    group .standard g = .ok part ↔
      (∀ op ∈ g.operations, typeName op.id ≠ "") ∧
        part = (groupDeclarations g, g.operations.map Surface.standard) := by
  rw [group]
  refine g.loop_eq_ok_iff (fun op ↦ (typesOf op, Surface.standard op)) (fun op ↦ ?_) ?_
  · rw [Surface.typeDeclarations_standard]
    rfl
  · rw [List.map_map, List.flatMap_map]
    rfl

/-- A group fails for an operation whose id gives no name. -/
theorem exists_of_group_eq_error {g : OperationGroup} {fault : Failure}
    (h : group .standard g = .error fault) :
    ∃ op ∈ g.operations, fault = .render (.namelessOperation op.id op.route) := by
  rw [group] at h
  rcases Except.bind_eq_error_iff.1 h with hparts | ⟨_, -, hpure⟩
  · obtain ⟨op, hop, hstep⟩ := Except.exists_of_mapM_eq_error hparts
    refine ⟨op, hop, ?_⟩
    rcases Except.bind_eq_error_iff.1 hstep with hsurface | ⟨s, -, htypes⟩
    · rw [Surface.ofOperation_standard] at hsurface
      split at hsurface
      · exact (Except.error.inj hsurface).symm
      · exact absurd hsurface nofun
    · rw [Surface.typeDeclarations_standard] at htypes
      exact absurd htypes nofun
  · exact absurd hpure nofun

/-- The surfaces that the groups give are those of the plan's operations. -/
theorem groups_eq_ok {plan : Plan} {groups : List (List Declaration × List Surface)}
    (h : plan.groups.mapM (group .standard) = .ok groups) :
    groups.flatMap Prod.fst = plan.groups.flatMap groupDeclarations ∧
      groups.flatMap Prod.snd = plan.operations.map Surface.standard := by
  obtain ⟨-, rfl⟩ := (Except.mapM_eq_ok_iff_map fun _ _ ↦ group_eq_ok_iff).1 h
  rw [List.flatMap_map, List.flatMap_map, Plan.operations, List.map_flatMap]
  exact ⟨rfl, rfl⟩

/-- The module with the given functions. -/
def moduleOf (plan : Plan) (functions : List Declaration) : List Declaration :=
  opening plan ++ models plan ++ plan.groups.flatMap groupDeclarations ++
    [.banner "Client", instanceDeclaration] ++ (if plan.hasSecurity then [tokenSetter] else []) ++
    functions ++ [gathering (plan.operations.map Surface.standard)]

/-- **The client is made of one function for each operation**, and of declarations around them. -/
theorem exists_of_declarations_eq_ok {plan : Plan} {declared : List Declaration}
    (h : declarations plan .standard = .ok declared) :
    ∃ functions,
      (plan.operations.map Surface.standard).mapM (function .standard) = .ok functions ∧
      declared = moduleOf plan functions := by
  rw [declarations] at h
  obtain ⟨groups, hgroups, h⟩ := Except.bind_eq_ok_iff.1 h
  obtain ⟨htypes, hsurfaces⟩ := groups_eq_ok hgroups
  obtain ⟨functions, hfunctions, h⟩ := Except.bind_eq_ok_iff.1 h
  rw [hsurfaces] at hfunctions
  rw [htypes, hsurfaces] at h
  exact ⟨functions, hfunctions, (Except.ok.inj h).symm⟩

/-- The client fails for an operation whose id gives no name, or whose function fails. -/
theorem exists_of_declarations_eq_error {plan : Plan} {fault : Failure}
    (h : declarations plan .standard = .error fault) :
    ∃ op ∈ plan.operations, fault = .render (.namelessOperation op.id op.route) ∨
      function .standard (Surface.standard op) = .error fault := by
  rw [declarations] at h
  rcases Except.bind_eq_error_iff.1 h with hgroups | ⟨groups, hgroups, hfunctions⟩
  · obtain ⟨g, hg, hgroup⟩ := Except.exists_of_mapM_eq_error hgroups
    obtain ⟨op, hop, hfault⟩ := exists_of_group_eq_error hgroup
    exact ⟨op, List.mem_flatMap.2 ⟨g, hg, hop⟩, .inl hfault⟩
  · rcases Except.bind_eq_error_iff.1 hfunctions with hstep | ⟨_, -, hpure⟩
    · rw [(groups_eq_ok hgroups).2] at hstep
      obtain ⟨s, hs, hfunction⟩ := Except.exists_of_mapM_eq_error hstep
      obtain ⟨op, hop, rfl⟩ := List.mem_map.1 hs
      exact ⟨op, hop, .inr hfunction⟩
    · exact absurd hpure nofun

/-! ### What the module consists of -/

/-- The types of an operation are types, whichever helpers pick the response. -/
theorem isTyping_of_mem_typeDeclarations {s : Surface} {helpers : HelperTable}
    {types : List Declaration} (h : s.typeDeclarations helpers = .ok types) {d : Declaration}
    (hd : d ∈ types) : d.isTyping = true := by
  obtain ⟨response, -, htypes⟩ := Except.bind_eq_ok_iff.1 h
  obtain rfl := Except.ok.inj htypes
  simp only [List.mem_append, List.mem_singleton] at hd
  rcases hd with (hparams | hbody) | rfl
  · rw [Surface.paramsDeclarations] at hparams
    split at hparams
    · rw [List.mem_singleton.1 hparams]
      rfl
    · exact absurd hparams List.not_mem_nil
  · rw [Surface.bodyDeclarations] at hbody
    split at hbody
    · rw [List.mem_singleton.1 hbody]
      rfl
    · exact absurd hbody List.not_mem_nil
  · rfl

theorem isTyping_of_mem_typesOf {op : Operation} {d : Declaration} (h : d ∈ typesOf op) :
    d.isTyping = true :=
  isTyping_of_mem_typeDeclarations (Surface.typeDeclarations_standard (.standard op)) h

theorem isTyping_of_mem_modelDeclarations {plan : Plan} {d : Declaration}
    (h : d ∈ plan.modelDeclarations) : d.isTyping = true := by
  obtain ⟨model, -, rfl⟩ := List.mem_map.1 h
  rw [Model.typeDeclaration]
  split <;> rfl

/-- The part about the models consists of types and their heading. -/
theorem isTyping_of_mem_models {plan : Plan} {d : Declaration} (h : d ∈ models plan) :
    d.isTyping = true := by
  rw [models] at h
  split at h
  · exact absurd h List.not_mem_nil
  · rcases List.mem_cons.1 h with rfl | hmodel
    · rfl
    · exact isTyping_of_mem_modelDeclarations hmodel

/-- The parts about the groups consist of types and their headings. -/
theorem isTyping_of_mem_groups {groups : List OperationGroup} {d : Declaration}
    (h : d ∈ groups.flatMap groupDeclarations) : d.isTyping = true := by
  obtain ⟨g, -, hg⟩ := List.mem_flatMap.1 h
  rcases List.mem_cons.1 hg with rfl | htypes
  · rfl
  · obtain ⟨op, -, hop⟩ := List.mem_flatMap.1 htypes
    exact isTyping_of_mem_typesOf hop

/-- **The functions of the module** are those of the operations, and the one that sets the token. -/
theorem mem_functions_of_functionName? {plan : Plan} {functions : List Declaration}
    {d : Declaration} (hd : d ∈ moduleOf plan functions) (hname : d.functionName? ≠ none) :
    d = tokenSetter ∨ d ∈ functions := by
  have htyping (h : d.isTyping = true) : d = tokenSetter ∨ d ∈ functions :=
    absurd (Declaration.functionName?_of_isTyping h) hname
  simp only [moduleOf, List.mem_append, List.mem_singleton] at hd
  rcases hd with (((((hopening | hmodels) | hgroups) | hclient) | hsetter) | hfunctions) | rfl
  · simp only [opening, List.mem_cons, List.not_mem_nil, or_false] at hopening
    rcases hopening with rfl | rfl | rfl | rfl <;> exact absurd rfl hname
  · exact htyping (isTyping_of_mem_models hmodels)
  · exact htyping (isTyping_of_mem_groups hgroups)
  · simp only [List.mem_cons, List.not_mem_nil, or_false] at hclient
    rcases hclient with rfl | rfl <;> exact absurd rfl hname
  · split at hsetter
    · exact .inl (List.mem_singleton.1 hsetter)
    · exact absurd hsetter List.not_mem_nil
  · exact .inr hfunctions
  · exact absurd rfl hname

/-- **Only the functions of the operations send requests.** -/
theorem mem_functions_of_requestUrls {plan : Plan} {functions : List Declaration}
    {d : Declaration} (hd : d ∈ moduleOf plan functions) (hurls : d.requestUrls ≠ []) :
    d ∈ functions := by
  have hname : d.functionName? ≠ none := by
    cases d with
    | function => exact Option.some_ne_none _
    | _ => exact absurd rfl hurls
  rcases mem_functions_of_functionName? hd hname with rfl | hfunction
  · exact absurd rfl hurls
  · exact hfunction

end ClientModule

end ApiContract
