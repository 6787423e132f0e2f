import ApiContract.Proofs.Artifact.Linking
import ApiContract.Proofs.TypeScript.Scope

/-!
# The scope of a client function

A client function takes the parameters of the path out of its own parameters, each under a local
name, beside names that it has for itself: its parameters, the rest of the query, the response. All
of them share one scope. Nothing checks the local names, neither against each other nor against the
others.

## Main result

`locals_wellScoped_iff`: whenever the client of a contract can be made, the scope of each function
is that of an operation's, and it is well formed exactly if the locals of the operation are clear
(`HasClearLocals`). That is a condition on the names of the path's parameters alone: each has a
letter or digit, no two agree in camel case, and none is there one of the names in use or one that
cannot be bound.

## Proof

The names in a function's scope are computed from its parameters and statements
(`Declaration.scope`), up to their order. The names that a function has for itself are distinct and
can be bound (`isWellScoped_fixedLocals`). A local name is the camel case of a parameter's name made
safe for a binding, so it can be bound unless it is empty or protected, and two of them are the same
exactly if the names agree in camel case.

A parameter named `config`, which a function binds twice, is at the end, beside one that does no
harm.
-/

namespace ApiContract

open TypeScript

namespace ClientModule

/-- The names in the scope of an operation's function, but for those of the parameters of the
path. -/
def fixedLocals (op : Operation) : List String :=
  (if op.parameters.any Plan.isSurfaceParameter then ["params"] else []) ++
    (if op.requestBody.isSome then ["body"] else []) ++ ["config"] ++
    (if !(op.parametersAt .path).isEmpty && !(op.parametersAt .query).isEmpty then ["query"]
      else []) ++ ["response"]

/-- The local names of the parameters of the path. -/
def pathLocals (op : Operation) : List String :=
  (op.parametersAt .path).map fun p ↦ Identifier.binding p.name

/-- The parameters of the path have local names of their own. -/
structure HasClearLocals (op : Operation) : Prop where
  /-- Each name has a letter or digit. -/
  named : ∀ p ∈ op.parametersAt .path, ∃ c ∈ p.name.toList, c.isAlphanum = true
  /-- No two names agree in camel case. -/
  distinct : ((op.parametersAt .path).map fun p ↦ Identifier.camelCase p.name).Nodup
  /-- No name is in camel case one that the function has for itself, or one that cannot be bound. -/
  free : ∀ p ∈ op.parametersAt .path,
    Identifier.camelCase p.name ∉ fixedLocals op ++ protectedNames

/-- The parameters of a call by name. -/
theorem names_callParams (op : Operation) : (Surface.standard op).callParams.map Param.name =
    (if op.parameters.any Plan.isSurfaceParameter then ["params"] else []) ++
      (if op.requestBody.isSome then ["body"] else []) := by
  rw [Surface.callParams, Surface.standard, List.map_append]
  congr 1
  · split <;> simp_all [Param.required]
  · rcases op.requestBody with - | ⟨_, _, required⟩
    · rfl
    · cases required <;> rfl

/-- The statement in front binds the local names, and the rest of the query if there is one. -/
theorem boundNames_pathBinding (op : Operation) (hasQuery : Bool) :
    (pathBinding op hasQuery).boundNames =
      pathLocals op ++ if hasQuery then ["query"] else [] := by
  rw [pathBinding, Statement.boundNames, Binding.names, List.map_map]
  cases hasQuery <;> rfl

/-- What the statements of a function bind. -/
theorem perm_boundNames_statementsOf (op : Operation) :
    ((statementsOf (.standard op)).flatMap Statement.boundNames).Perm
      ((if !(op.parametersAt .path).isEmpty && !(op.parametersAt .query).isEmpty then ["query"]
        else []) ++ ["response"] ++ pathLocals op) := by
  have hop : (Surface.standard op).op = op := rfl
  rw [statementsOf, List.flatMap_append, hop]
  cases hpath : (op.parametersAt .path).isEmpty with
  | true =>
    -- nothing is taken out of the parameters, so there are no locals and no rest
    have hlocals : pathLocals op = [] := by
      rw [pathLocals, List.isEmpty_iff.1 hpath]
      rfl
    rw [hlocals]
    exact List.Perm.refl _
  | false =>
    have hbound : [pathBinding op !(op.parametersAt .query).isEmpty].flatMap Statement.boundNames =
        pathLocals op ++ if !(op.parametersAt .query).isEmpty then ["query"] else [] := by
      rw [List.flatMap_singleton, boundNames_pathBinding]
    rw [Bool.not_false, if_pos rfl, hbound, Bool.true_and, List.append_assoc]
    exact List.perm_append_comm

/-- **The scope of a client function**, in another order: its own names, then those of the
parameters of the path. -/
theorem perm_scope_of_function_eq_ok {op : Operation} {d : Declaration}
    (h : function .standard (.standard op) = .ok d) :
    d.scope.Perm (fixedLocals op ++ pathLocals op) := by
  obtain ⟨-, _, _, rfl⟩ := form_of_function_eq_ok h
  rw [Declaration.scope, Declaration.params, List.map_append, names_callParams, fixedLocals,
    List.append_assoc _ _ (pathLocals op), List.append_assoc _ _ (_ ++ pathLocals op),
    ← List.append_assoc _ _ (pathLocals op)]
  exact (perm_boundNames_statementsOf op).append_left _

/-! ### When the scope is well formed -/

/-- All names that functions of the client may have for themselves. -/
def localWords : List String := ["params", "body", "config", "query", "response"]

/-- A function has some of five names for itself, in one order. -/
theorem fixedLocals_sublist (op : Operation) : (fixedLocals op).Sublist localWords := by
  have hkept (name : String) (keep : Bool) : (if keep then [name] else []).Sublist [name] := by
    cases keep
    · exact List.nil_sublist _
    · exact List.Sublist.refl _
  exact ((((hkept "params" _).append (hkept "body" _)).append (List.Sublist.refl ["config"])).append
    (hkept "query" _)).append (List.Sublist.refl ["response"])

/-- The names that a function has for itself are distinct and can be bound. -/
theorem isWellScoped_fixedLocals (op : Operation) : IsWellScoped (fixedLocals op) where
  distinct := by
    have hall : localWords.Nodup := by decide
    exact (fixedLocals_sublist op).nodup hall
  bindable := by
    intro name hname
    have hplain : ∀ name ∈ localWords,
        Identifier.isPlainProperty name = true ∧ name ∉ reservedWords ++ protectedNames := by
      decide +kernel
    obtain ⟨hstart, hfree⟩ := hplain name ((fixedLocals_sublist op).subset hname)
    exact ⟨hstart, hfree⟩

/-- **The scope of a client function is well formed just if its locals are clear.** -/
theorem isWellScoped_iff {op : Operation} {d : Declaration}
    (h : function .standard (.standard op) = .ok d) :
    IsWellScoped d.scope ↔ HasClearLocals op := by
  have hkept : ∀ name ∈ fixedLocals op,
      Identifier.binding name = name ∧ Identifier.camelCase name = name := by
    intro name hname
    have hall : ∀ name ∈ localWords,
        Identifier.binding name = name ∧ Identifier.camelCase name = name := by decide +kernel
    exact hall name ((fixedLocals_sublist op).subset hname)
  rw [isWellScoped_congr (perm_scope_of_function_eq_ok h), isWellScoped_append_iff, pathLocals,
    isWellScoped_map_binding_iff, Identifier.disjoint_map_binding_iff hkept]
  -- what is left to compare is where the conditions on single names stand
  constructor
  · rintro ⟨-, ⟨hnamed, hdistinct, hunprotected⟩, hapart⟩
    refine ⟨hnamed, hdistinct, fun p hp hmem ↦ ?_⟩
    exact (List.mem_append.1 hmem).elim (hapart p hp) (hunprotected p hp)
  · rintro ⟨hnamed, hdistinct, hfree⟩
    refine ⟨isWellScoped_fixedLocals op, ⟨hnamed, hdistinct, fun p hp hmem ↦ ?_⟩,
      fun p hp hmem ↦ ?_⟩
    · exact hfree p hp (List.mem_append_right _ hmem)
    · exact hfree p hp (List.mem_append_left _ hmem)

/-! ### The client -/

/-- A function has the scope of an operation's: the names that it has for itself and those of the
parameters of the path. -/
structure HasScopeOf (op : Operation) (d : Declaration) : Prop where
  name : d.functionName? = some (Surface.standard op).functionName
  scope : d.scope.Perm (fixedLocals op ++ pathLocals op)
  wellScoped : IsWellScoped d.scope ↔ HasClearLocals op

/-- A function of the client has the scope of its operation's. -/
theorem hasScopeOf_of_function_eq_ok {op : Operation} {d : Declaration}
    (h : function .standard (.standard op) = .ok d) : HasScopeOf op d where
  name := (signature_of_function_eq_ok h).1
  scope := perm_scope_of_function_eq_ok h
  wellScoped := isWellScoped_iff h

/-- The function that sets the token binds its parameter only. -/
theorem isWellScoped_tokenSetter : IsWellScoped tokenSetter.scope where
  distinct := List.nodup_singleton "token"
  bindable := by
    have hplain : Identifier.isPlainProperty "token" = true := by decide +kernel
    have hfree : "token" ∉ reservedWords ++ protectedNames := by decide +kernel
    exact List.forall_mem_singleton.2 ⟨hplain, hfree⟩

/-- **The scope of a client function is well formed exactly if its locals are clear.** Whenever the
client of a contract can be made, it has a function for every operation, and each function that it
has is one of those or sets the token. In the scope of an operation's function are the names that it
has for itself and the local names of the parameters of the path. All of them are distinct and can
be bound exactly if every parameter of the path has a letter or digit, no two agree in camel case,
and none is there a name that the function has for itself or one that is protected. -/
theorem locals_wellScoped_iff {spec : Spec} {options : RenderOptions} {text : String}
    (h : spec.render .axios options .standard = .ok text) :
    ∃ plan client, Plan.ofSpec spec options = .ok plan ∧
      declarations plan .standard = .ok client ∧ text = printModule client ∧
      (∀ op ∈ plan.operations, ∃ d ∈ client, HasScopeOf op d) ∧
      ∀ d ∈ client, d.functionName? ≠ none →
        (d = tokenSetter ∧ IsWellScoped d.scope) ∨ ∃ op ∈ plan.operations, HasScopeOf op d := by
  obtain ⟨plan, client, hplan, hclient, htext⟩ := Spec.render_axios_eq_ok_iff.1 h
  refine ⟨plan, client, hplan, hclient, htext, fun op hop ↦ ?_, fun d hd hname ↦ ?_⟩
  · obtain ⟨d, hfunction, hd⟩ := exists_function_of_mem hclient hop
    exact ⟨d, hd, hasScopeOf_of_function_eq_ok hfunction⟩
  · obtain ⟨functions, hfunctions, rfl⟩ := exists_of_declarations_eq_ok hclient
    rcases mem_functions_of_functionName? hd hname with rfl | hmem
    · exact .inl ⟨rfl, isWellScoped_tokenSetter⟩
    · obtain ⟨s, hs, hfunction⟩ := Except.exists_of_mem_of_mapM_eq_ok hfunctions hmem
      obtain ⟨op, hop, rfl⟩ := List.mem_map.1 hs
      exact .inr ⟨op, hop, hasScopeOf_of_function_eq_ok hfunction⟩

/-- A parameter of the path. -/
def pathParameter (name : String) : Parameter := ⟨name, .path, true, { shape := .string }, none⟩

/-- A note by its id. -/
def noteQuery : Operation :=
  Spec.query "getNote" "/notes/\x7bnote-id\x7d" [pathParameter "note-id"]

/-- A setting by the name of its configuration. -/
def settingQuery : Operation :=
  Spec.query "getSetting" "/settings/\x7bconfig\x7d" [pathParameter "config"]

/-- A contract with both. -/
def settingsSpec : Spec := .bare "Settings" [noteQuery, settingQuery] []

theorem exists_client_settingsSpec : ∃ client,
    declarations (.make settingsSpec {}) .standard = .ok client ∧
      settingsSpec.render .axios {} .standard = .ok (printModule client) :=
  Spec.exists_client (by decide +kernel) (by decide +kernel)

/-- The function that gets a note has a scope that is well formed. -/
theorem locals_wellScoped_iff_settingsSpec :
    ∃ text plan client, settingsSpec.render .axios {} .standard = .ok text ∧
      Plan.ofSpec settingsSpec {} = .ok plan ∧ text = printModule client ∧
      ∃ d ∈ client, d.functionName? = some "getNote" ∧
        d.scope.Perm ["params", "config", "response", "noteId"] ∧ IsWellScoped d.scope := by
  obtain ⟨client, -, hrender⟩ := exists_client_settingsSpec
  obtain ⟨plan, client, hplan, hclient, htext, hall, -⟩ := locals_wellScoped_iff hrender
  obtain ⟨-, rfl⟩ := Plan.ofSpec_eq_ok_iff.1 hplan
  obtain ⟨d, hd, hscope⟩ := hall noteQuery List.mem_cons_self
  have hname : (Surface.standard noteQuery).functionName = "getNote" := by decide +kernel
  have hlocals : fixedLocals noteQuery ++ pathLocals noteQuery =
      ["params", "config", "response", "noteId"] := by decide +kernel
  have hclear : HasClearLocals noteQuery := by
    refine ⟨fun p hp ↦ ?_, by decide +kernel, by decide +kernel⟩
    obtain rfl := List.mem_singleton.1 hp
    exact (Identifier.binding_ne_empty_iff "note-id").1 (by decide +kernel)
  exact ⟨_, _, client, hrender, hplan, htext, d, hd, hname ▸ hscope.name, hlocals ▸ hscope.scope,
    hscope.wellScoped.2 hclear⟩

/-- The function that gets a setting binds one name twice. -/
theorem config_bound_twice_settingsSpec :
    ∃ client, settingsSpec.render .axios {} .standard = .ok (printModule client) ∧
      ∃ d ∈ client, d.functionName? = some "getSetting" ∧
        d.scope = ["params", "config", "config", "response"] ∧ ¬IsWellScoped d.scope := by
  obtain ⟨client, hclient, hrender⟩ := exists_client_settingsSpec
  have hop : settingQuery ∈ (Plan.make settingsSpec {}).operations :=
    List.mem_cons_of_mem _ (List.mem_singleton_self _)
  obtain ⟨d, hfunction, hd⟩ := exists_function_of_mem hclient hop
  have hname : d.functionName? = some "getSetting" := by
    have hconverted : (Surface.standard settingQuery).functionName = "getSetting" := by
      decide +kernel
    rw [(signature_of_function_eq_ok hfunction).1, hconverted]
  have hscope : d.scope = ["params", "config", "config", "response"] := by
    have hbound : (Surface.standard settingQuery).callParams.map Param.name ++ ["config"] ++
        (statementsOf (.standard settingQuery)).flatMap Statement.boundNames =
          ["params", "config", "config", "response"] := by decide +kernel
    obtain ⟨-, _, _, rfl⟩ := form_of_function_eq_ok hfunction
    rw [Declaration.scope, Declaration.params, List.map_append]
    exact hbound
  have htwice : ¬["params", "config", "config", "response"].Nodup := by decide
  exact ⟨client, hrender, d, hd, hname, hscope, fun h ↦ htwice (hscope ▸ h.distinct)⟩

end ClientModule

end ApiContract
