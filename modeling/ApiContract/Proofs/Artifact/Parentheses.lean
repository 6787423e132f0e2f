import ApiContract.Proofs.Artifact.Headings
import ApiContract.Proofs.Artifact.Types
import ApiContract.Proofs.Projection.Parentheses

/-!
# No parentheses are missing

Whatever the contract, the operands in every expression of its modules stand bare: each binds at
least as strongly as its place asks for. The expressions come from many places, validators and
addresses, the client with its requests, the hooks and their keys, and no single function could be
inspected to see it.

## Main result

`Spec.no_parentheses_missing`: in every expression of every module, however deep, operands stand
bare; so the printer, which knows of one place for parentheses, writes the text that one would write
which puts them wherever an operand binds too weakly (`Expr.printByPrecedence`).

## Proof

A declaration stands bare if all its expressions do (`Declaration.StandsBare`). That is shown along
the construction of the modules, one lemma for each function that makes declarations: types have no
expressions, and what is built of names, calls, members, arrays and objects stands bare if its parts
do. The rules for these are in `Proofs.TypeScript.Parentheses`, those for validators and addresses
in `Proofs.Projection.Parentheses`. The helpers do not matter for the hooks; for the types and the
client the standard ones are assumed, since others could make any expression of a path.
-/

namespace ApiContract

open TypeScript

/-! ### Declarations that all modules have -/

/-- What declares a type is printed without any expression. -/
theorem TypeScript.Declaration.standsBare_of_isTyping {d : Declaration} (h : d.isTyping = true) :
    d.StandsBare := by
  cases d with
  | banner | «alias» | interface => exact standsBare_of_expressions_eq_nil rfl
  | _ => exact absurd h Bool.false_ne_true

theorem Plan.standsBare_header (plan : Plan) (label : String) : (plan.header label).StandsBare :=
  Declaration.standsBare_of_expressions_eq_nil rfl

theorem Plan.standsBare_baseUrlDeclaration (plan : Plan) : plan.baseUrlDeclaration.StandsBare :=
  Declaration.standsBare_const_iff.2 (Expr.standsBare_text _)

theorem Surface.standsBare_of_mem_typeDeclarations {s : Surface} {helpers : HelperTable}
    {types : List Declaration} (h : s.typeDeclarations helpers = .ok types) :
    ∀ d ∈ types, d.StandsBare :=
  fun _ hd ↦ Declaration.standsBare_of_isTyping
    (ClientModule.isTyping_of_mem_typeDeclarations h hd)

theorem Plan.standsBare_of_mem_modelDeclarations {plan : Plan} :
    ∀ d ∈ plan.modelDeclarations, d.StandsBare :=
  fun _ hd ↦ Declaration.standsBare_of_isTyping (ClientModule.isTyping_of_mem_modelDeclarations hd)

/-! ### The module of types -/

namespace TypesModule

variable {plan : Plan} {declared : List Declaration}

/-- Validators of models are calls on calls. -/
theorem standsBare_of_mem_validatorDeclarations :
    ∀ d ∈ plan.validatorDeclarations, d.StandsBare := by
  intro d hd
  obtain ⟨model, -, rfl⟩ := List.mem_map.1 hd
  exact Declaration.standsBare_const_iff.2 (Schema.isReceiver_toValidator model.schema).2

/-- The part about the models. -/
theorem standsBare_of_mem_models : ∀ d ∈ models plan, d.StandsBare := by
  rw [models]
  split
  · exact List.forall_mem_nil _
  · simp only [List.forall_mem_append, List.forall_mem_singleton]
    exact ⟨⟨⟨Declaration.standsBare_banner, Plan.standsBare_of_mem_modelDeclarations⟩,
      Declaration.standsBare_banner⟩,
      standsBare_of_mem_validatorDeclarations⟩

theorem standsBare_of_mem_bodyValidators (s : Surface) :
    ∀ d ∈ bodyValidators plan s, d.StandsBare := by
  rw [bodyValidators]
  split
  · exact List.forall_mem_singleton.2
      (Declaration.standsBare_const_iff.2 (Schema.isReceiver_toValidator _).2)
  · exact List.forall_mem_nil _

/-- The part about a group in the module of types. -/
theorem standsBare_of_mem_groupDeclarations {g : OperationGroup} :
    ∀ d ∈ groupDeclarations plan g, d.StandsBare := by
  have hids : (idsDeclaration g).StandsBare :=
    Declaration.standsBare_const_iff.2 (by simp [Expr.isCollection])
  have hoperation (op : Operation) : ∀ d ∈ operationDeclarations plan op, d.StandsBare :=
    List.forall_mem_append.2 ⟨Surface.standsBare_of_mem_typeDeclarations
      (Surface.typeDeclarations_standard (.standard op)), standsBare_of_mem_bodyValidators _⟩
  simp only [groupDeclarations, List.forall_mem_append, List.forall_mem_singleton,
    List.forall_mem_flatMap]
  exact ⟨⟨Declaration.standsBare_banner, fun op _ ↦ hoperation op⟩, hids⟩

theorem standsBare_entryOf (tag : String) (op : Operation) : (entryOf tag op).StandsBare := by
  simp [entryOf]

/-- The index is an object, read as a constant. -/
theorem standsBare_of_mem_index {entries : List Entry} (h : ∀ entry ∈ entries, entry.StandsBare) :
    ∀ d ∈ index entries, d.StandsBare := by
  have hconst : (Expr.asConst (.object entries)).StandsBare := by
    simpa [Expr.isCollection] using h
  rw [index]
  split
  · exact List.forall_mem_nil _
  · exact List.forall_mem_cons.2 ⟨Declaration.standsBare_banner, List.forall_mem_singleton.2
      (Declaration.standsBare_const_iff.2 hconst)⟩

/-- **Operands stand bare in the module of types.** -/
theorem standsBare_of_mem_declarations (h : declarations plan .standard = .ok declared) :
    ∀ d ∈ declared, d.StandsBare := by
  obtain ⟨-, rfl⟩ := declarations_eq_ok_iff.1 h
  have hopening : ∀ d ∈ opening plan, d.StandsBare := by
    simp only [opening, List.forall_mem_cons]
    exact ⟨plan.standsBare_header _, Declaration.standsBare_imports,
      plan.standsBare_baseUrlDeclaration, List.forall_mem_nil _⟩
  have hentries : ∀ entry ∈ plan.groups.flatMap groupEntries, entry.StandsBare := by
    intro entry hentry
    obtain ⟨g, -, hentry⟩ := List.mem_flatMap.1 hentry
    obtain ⟨op, -, rfl⟩ := List.mem_map.1 hentry
    exact standsBare_entryOf g.tag op
  simp only [List.forall_mem_append, List.forall_mem_flatMap]
  exact ⟨⟨⟨hopening, standsBare_of_mem_models⟩, fun g _ ↦ standsBare_of_mem_groupDeclarations⟩,
    standsBare_of_mem_index hentries⟩

end TypesModule

/-! ### The client -/

namespace ClientModule

variable {plan : Plan} {declared : List Declaration}

/-- The function that sets the token assigns a template, or deletes a member. -/
theorem standsBare_tokenSetter : tokenSetter.StandsBare := by
  simp [tokenSetter, Declaration.StandsBare, Declaration.expressions, statementExpressions,
    Statement.expressions, authHeader, TemplatePart.value?, Expr.isAccess]

/-- The entries of a request are names, texts and the address. -/
theorem standsBare_of_mem_requestEntries (s : Surface) :
    ∀ entry ∈ requestEntries s, entry.StandsBare := by
  have hquery (hasPath hasQuery : Bool) :
      ∀ entry ∈ queryEntries hasPath hasQuery, entry.StandsBare := by
    cases hasPath <;> cases hasQuery <;> simp [queryEntries]
  have hdata (hasBody : Bool) : ∀ entry ∈
      (if hasBody then [Entry.keyed "data" (.identifier "body")] else []), entry.StandsBare := by
    cases hasBody <;> simp
  have hurl := standsBare_pathTemplate s.op.path
  rw [requestEntries]
  refine List.forall_mem_append.2 ⟨List.forall_mem_append.2 ⟨?_, hquery _ _⟩, hdata _⟩
  simpa using hurl

/-- In a function of the client, what is awaited is a call. -/
theorem standsBare_of_function_eq_ok {s : Surface} {d : Declaration}
    (h : function .standard s = .ok d) : d.StandsBare := by
  obtain ⟨-, returns, doc, rfl⟩ := form_of_function_eq_ok h
  have hbinding (hasPath : Bool) : ∀ e ∈ statementExpressions
      (if hasPath then [pathBinding s.op (!(s.op.parametersAt .query).isEmpty)] else []),
      e.StandsBare := by
    cases hasPath <;> simp [statementExpressions, pathBinding, Statement.expressions]
  have hrequest := standsBare_of_mem_requestEntries s
  rw [Declaration.StandsBare, Declaration.expressions, statementsOf, statementExpressions_append]
  refine List.forall_mem_append.2 ⟨hbinding _, ?_⟩
  simpa [statementExpressions, Statement.expressions, Expr.isAccess] using hrequest

/-- **Operands stand bare in the client.** -/
theorem standsBare_of_mem_declarations (h : declarations plan .standard = .ok declared) :
    ∀ d ∈ declared, d.StandsBare := by
  obtain ⟨functions, hfunctions, rfl⟩ := exists_of_declarations_eq_ok h
  have hopening : ∀ d ∈ opening plan, d.StandsBare := by
    simp only [opening, List.forall_mem_cons]
    exact ⟨plan.standsBare_header _, Declaration.standsBare_imports,
      Declaration.standsBare_imports, plan.standsBare_baseUrlDeclaration, List.forall_mem_nil _⟩
  have hinstance : instanceDeclaration.StandsBare :=
    Declaration.standsBare_const_iff.2 (by simp)
  have hsetter : ∀ d ∈ (if plan.hasSecurity then [tokenSetter] else []), d.StandsBare := by
    split
    · exact List.forall_mem_singleton.2 standsBare_tokenSetter
    · exact List.forall_mem_nil _
  have hmade : ∀ d ∈ functions, d.StandsBare := by
    intro d hd
    obtain ⟨s, -, hfunction⟩ := Except.exists_of_mem_of_mapM_eq_ok hfunctions hd
    exact standsBare_of_function_eq_ok hfunction
  have hgathering : (gathering (plan.operations.map Surface.standard)).StandsBare :=
    Declaration.standsBare_const_iff.2 (by simp)
  have htypes {part : List Declaration} (h : ∀ d ∈ part, d.isTyping = true) :
      ∀ d ∈ part, d.StandsBare :=
    fun d hd ↦ Declaration.standsBare_of_isTyping (h d hd)
  simp only [moduleOf, List.forall_mem_append, List.forall_mem_cons]
  exact ⟨⟨⟨⟨⟨⟨hopening, htypes fun _ ↦ isTyping_of_mem_models⟩,
    htypes fun _ ↦ isTyping_of_mem_groups⟩, Declaration.standsBare_banner, hinstance,
    List.forall_mem_nil _⟩, hsetter⟩, hmade⟩, hgathering, List.forall_mem_nil _⟩

end ClientModule

/-! ### The hooks -/

namespace HooksModule

variable {plan : Plan} {helpers : HelperTable} {declared : List Declaration}

theorem standsBare_of_mem_arguments (s : Surface) : ∀ e ∈ arguments s, e.StandsBare := by
  intro e he
  obtain ⟨p, -, rfl⟩ := List.mem_map.1 he
  exact Expr.standsBare_identifier p.name

theorem standsBare_of_queryKey_eq_ok {s : Surface} {entry : Entry}
    (h : queryKey helpers s = .ok entry) : entry.StandsBare := by
  obtain ⟨segments, -, h⟩ := Except.bind_eq_ok_iff.1 h
  obtain rfl := Except.ok.inj h
  have hitems : ∀ e ∈ segments.map Expr.text ++ arguments s, e.StandsBare := by
    refine List.forall_mem_append.2 ⟨?_, standsBare_of_mem_arguments s⟩
    simp
  rw [Entry.standsBare_keyed_iff, Expr.standsBare_arrow_iff, Expr.standsBare_asConst_iff,
    Expr.standsBare_array_iff]
  exact ⟨rfl, rfl, hitems⟩

/-- A query is a call with an object. -/
theorem standsBare_of_queryHook_eq_ok {tagKey : String} {s : Surface} {d : Declaration}
    (h : queryHook helpers tagKey s = .ok d) : d.StandsBare := by
  obtain ⟨doc, -, h⟩ := Except.bind_eq_ok_iff.1 h
  obtain rfl := Except.ok.inj h
  have harguments := standsBare_of_mem_arguments s
  simpa [Declaration.StandsBare, Declaration.expressions, statementExpressions,
    Statement.expressions, keysOf, clientCall] using harguments

/-- The function of a mutation calls the client. -/
theorem standsBare_mutationFunction (s : Surface) (type : String) :
    (mutationFunction s type).StandsBare := by
  rw [mutationFunction]
  split <;> simp [clientCall]

/-- A mutation is a call with an object. -/
theorem standsBare_of_mutationHook_eq_ok {tagKey : String} {s : Surface}
    {made : List Declaration} (h : mutationHook helpers tagKey s = .ok made) :
    ∀ d ∈ made, d.StandsBare := by
  obtain ⟨doc, -, h⟩ := Except.bind_eq_ok_iff.1 h
  obtain rfl := Except.ok.inj h
  have hfunction := standsBare_mutationFunction s (s.typeBase ++ "Variables")
  simp only [List.forall_mem_cons]
  refine ⟨Declaration.standsBare_of_expressions_eq_nil rfl, ?_, List.forall_mem_nil _⟩
  simpa [Declaration.StandsBare, Declaration.expressions, statementExpressions,
    Statement.expressions, keysOf] using hfunction

/-- What is generated for an operation, its keys included. -/
theorem standsBare_of_hook_eq_ok {tagKey : String} {op : Operation} {made : Hook}
    (h : hook helpers tagKey op = .ok made) :
    (∀ entry ∈ made.keys, entry.StandsBare) ∧ ∀ d ∈ made.declarations, d.StandsBare := by
  obtain ⟨s, -, h⟩ := Except.bind_eq_ok_iff.1 h
  obtain ⟨isQuery, -, h⟩ := Except.bind_eq_ok_iff.1 h
  split at h
  · obtain ⟨key, hkey, h⟩ := Except.bind_eq_ok_iff.1 h
    obtain ⟨query, hquery, h⟩ := Except.bind_eq_ok_iff.1 h
    obtain rfl := Except.ok.inj h
    exact ⟨List.forall_mem_singleton.2 (standsBare_of_queryKey_eq_ok hkey),
      List.forall_mem_singleton.2 (standsBare_of_queryHook_eq_ok hquery)⟩
  · obtain ⟨isMutation, -, h⟩ := Except.bind_eq_ok_iff.1 h
    split at h
    · obtain ⟨mutation, hmutation, h⟩ := Except.bind_eq_ok_iff.1 h
      obtain rfl := Except.ok.inj h
      exact ⟨List.forall_mem_nil _, standsBare_of_mutationHook_eq_ok hmutation⟩
    · obtain rfl := Except.ok.inj h
      exact ⟨List.forall_mem_nil _, List.forall_mem_nil _⟩

/-- What is generated for a group, its keys included. -/
theorem standsBare_of_group_eq_ok {g : OperationGroup} {part : Entry × List Declaration × List Hook}
    (h : group helpers g = .ok part) :
    part.1.StandsBare ∧ ∀ d ∈ part.2.1, d.StandsBare := by
  obtain ⟨name, -, h⟩ := Except.bind_eq_ok_iff.1 h
  obtain ⟨hooks, hhooks, h⟩ := Except.bind_eq_ok_iff.1 h
  obtain rfl := Except.ok.inj h
  have heach (made : Hook) (hmade : made ∈ hooks) :
      (∀ entry ∈ made.keys, entry.StandsBare) ∧ ∀ d ∈ made.declarations, d.StandsBare := by
    obtain ⟨op, -, hop⟩ := Except.exists_of_mem_of_mapM_eq_ok hhooks hmade
    exact standsBare_of_hook_eq_ok hop
  have hall : (Entry.keyed "all" (.asConst (.array [.text g.tag]))).StandsBare := by
    simp [Expr.isCollection]
  constructor
  · rw [Entry.standsBare_keyed_iff, Expr.standsBare_object_iff, List.forall_mem_cons,
      List.forall_mem_flatMap]
    exact ⟨hall, fun made hmade ↦ (heach made hmade).1⟩
  · rw [List.forall_mem_cons, List.forall_mem_flatMap]
    exact ⟨Declaration.standsBare_banner, fun made hmade ↦ (heach made hmade).2⟩

/-- **Operands stand bare in the module of hooks.** -/
theorem standsBare_of_mem_declarations (h : declarations plan helpers = .ok declared) :
    ∀ d ∈ declared, d.StandsBare := by
  obtain ⟨groups, hgroups, h⟩ := Except.bind_eq_ok_iff.1 h
  obtain rfl := Except.ok.inj h
  have heach (part : Entry × List Declaration × List Hook) (hpart : part ∈ groups) :
      part.1.StandsBare ∧ ∀ d ∈ part.2.1, d.StandsBare := by
    obtain ⟨g, -, hg⟩ := Except.exists_of_mem_of_mapM_eq_ok hgroups hpart
    exact standsBare_of_group_eq_ok hg
  have hkeys : (Expr.asConst (.object (groups.map Prod.fst))).StandsBare := by
    rw [Expr.standsBare_asConst_iff, Expr.standsBare_object_iff, List.forall_mem_map]
    exact ⟨rfl, fun part hpart ↦ (heach part hpart).1⟩
  have hruntime (hooks : List Hook) : ∀ d ∈ runtimeImports hooks, d.StandsBare := by
    intro d hd
    obtain ⟨_, _, rfl⟩ := exists_of_mem_runtimeImports hd
    exact Declaration.standsBare_imports
  have hclient (hooks : List Hook) : ∀ d ∈ clientImports hooks, d.StandsBare := by
    intro d hd
    obtain ⟨_, _, rfl, -⟩ := exists_of_mem_clientImports hd
    exact Declaration.standsBare_imports
  simp only [List.forall_mem_append, List.forall_mem_cons, List.forall_mem_flatMap]
  exact ⟨⟨⟨⟨⟨plan.standsBare_header _, List.forall_mem_nil _⟩, hruntime _⟩, hclient _⟩,
    Declaration.standsBare_banner, Declaration.standsBare_const_iff.2 hkeys,
    List.forall_mem_nil _⟩, fun part hpart ↦ (heach part hpart).2⟩

end HooksModule

/-! ### All modules -/

/-- **Operands stand bare in every module.** -/
theorem Plan.standsBare_of_mem_declarations? {plan : Plan} {declared : List Declaration} :
    ∀ {format : OutputFormat}, plan.declarations? .standard format = some (.ok declared) →
      ∀ d ∈ declared, d.StandsBare
  | .typescript, h => TypesModule.standsBare_of_mem_declarations (Option.some.inj h)
  | .axios, h => ClientModule.standsBare_of_mem_declarations (Option.some.inj h)
  | .reactQuery, h => HooksModule.standsBare_of_mem_declarations (Option.some.inj h)

namespace Spec

/-- **The printer needs no parentheses that it leaves out.** Each module of a contract is the text
of declarations, and in every expression of these, however deep, operands stand bare; so the printer
writes the text that has parentheses wherever an operand binds less strongly than its place asks
for. -/
theorem no_parentheses_missing {spec : Spec} {format : OutputFormat} {options : RenderOptions}
    {text : String} (hformat : format ≠ .openapi)
    (h : spec.render format options .standard = .ok text) :
    ∃ plan declared, Plan.ofSpec spec options = .ok plan ∧
      plan.declarations? .standard format = some (.ok declared) ∧ text = printModule declared ∧
      ∀ d ∈ declared, ∀ e ∈ d.expressions, e.Everywhere Expr.OperandsBare ∧
        ∀ level, e.printByPrecedence level = e.print level := by
  obtain ⟨plan, declared, hplan, hdeclared, htext⟩ := exists_of_render_eq_ok hformat h
  refine ⟨plan, declared, hplan, hdeclared, htext, fun d hd e he ↦ ?_⟩
  have hbare : e.StandsBare := Plan.standsBare_of_mem_declarations? hdeclared d hd e he
  exact ⟨hbare, hbare.printByPrecedence_eq⟩

/-- The hooks of the pets are printed from six expressions. -/
theorem no_parentheses_missing_petsSpec :
    ∃ text declared, OutputFormat.reactQuery ≠ .openapi ∧
      petsSpec.render .reactQuery {} .standard = .ok text ∧ text = printModule declared ∧
      (declared.flatMap Declaration.expressions).length = 6 ∧
      ∀ d ∈ declared, ∀ e ∈ d.expressions, e.Everywhere Expr.OperandsBare ∧
        ∀ level, e.printByPrecedence level = e.print level := by
  have hformat : OutputFormat.reactQuery ≠ .openapi := by decide
  have hcount : (HooksModule.declarations (.make petsSpec {}) .standard).toOption.map
      (fun declared ↦ (declared.flatMap Declaration.expressions).length) = some 6 := by
    decide +kernel
  have hmade : (petsSpec.render .reactQuery {} .standard).isOk = true := by decide +kernel
  cases hrender : petsSpec.render .reactQuery {} .standard with
  | error failure =>
    rw [hrender] at hmade
    exact absurd hmade Bool.false_ne_true
  | ok text =>
    obtain ⟨plan, declared, hplan, hdeclared, htext, hbare⟩ :=
      no_parentheses_missing hformat hrender
    obtain ⟨-, rfl⟩ := Plan.ofSpec_eq_ok_iff.1 hplan
    have hhooks : HooksModule.declarations (.make petsSpec {}) .standard = .ok declared :=
      Option.some.inj hdeclared
    rw [hhooks] at hcount
    exact ⟨text, declared, hformat, rfl, htext, Option.some.inj hcount, hbare⟩

end Spec

end ApiContract
