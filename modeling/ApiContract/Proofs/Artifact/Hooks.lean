import ApiContract.Artifact.Render
import ApiContract.Proofs.Artifact.Client
import ApiContract.Proofs.TypeScript.Use

/-!
# The module of hooks under the standard helpers

With the standard helpers the module of hooks can be made as soon as the id of every operation gives
a name (`HooksModule.exists_declarations`). It has one hook for each operation, and what a hook does
is told by the uses that it makes of the client and of the keys of queries (`IsHookOf`).

## Uses

A use of a name is a path of members from it, the arguments if it is called, and the parameters in
whose scope this happens (`Declaration.uses`, `Proofs.TypeScript.Use`). A query uses the client once
and the builder of its key once, both with its own parameters (`IsQuery`). A mutation uses the
client once, with the members of its variables, and invalidates the key that it finds for its tag
(`IsMutation`). Statements about hooks speak of these uses and not of the text or the form of a
hook.

## Keys

The entries of a group's keys are listed as `entriesOf`: one for the tag, then one for each
operation that only reads, with its key and its value as functions of the entry. What is found under
a key is then a question about this list (`Proofs.Artifact.QueryKeys`).

## The module

`IsModuleOf` says what other modules need: what is imported, that every operation has a hook, and
that only hooks use names which are not their own. It is derived once from the parts of the module
(`exists_of_mem_moduleOf`); nothing else looks into `declarations`.
-/

namespace ApiContract.HooksModule

open TypeScript

/-! ### One operation -/

/-- The function that builds the key of a query: its tag and id, then its arguments. -/
def keyFunction (s : Surface) : Expr :=
  .arrow s.callParams (.asConst (.array
    ([s.op.primaryTag, s.op.id].map Expr.text ++ arguments s)))

/-- The entry for the key of a query. -/
def keyEntry (s : Surface) : Entry := .keyed s.functionName (keyFunction s)

theorem queryKey_standard (s : Surface) : queryKey .standard s = .ok (keyEntry s) := by
  rw [queryKey, HelperTable.segments_queryKey]
  rfl

/-! ### Uses in a hook -/

/-- The names of the parameters in a hook. -/
def localNames : List String := ["params", "body", "options", "variables"]

/-- A call has at most two parameters, one for those of the operation and one for the body. -/
theorem sublist_name_callParams (s : Surface) :
    (s.callParams.map Param.name).Sublist ["params", "body"] := by
  have hsplit : ["params", "body"] = ["params"] ++ ["body"] := rfl
  rw [Surface.callParams, List.map_append, hsplit]
  apply List.Sublist.append
  · split
    · exact List.Sublist.refl _
    · exact List.nil_sublist _
  · split
    · exact List.Sublist.refl _
    · exact List.Sublist.refl _
    · exact List.nil_sublist _

/-- The parameters of a call are local names. -/
theorem name_of_mem_callParams {s : Surface} {p : Param} (h : p ∈ s.callParams) :
    p.name ∈ localNames := by
  have hsubset : ["params", "body"] ⊆ localNames := by decide
  exact hsubset ((sublist_name_callParams s).subset (List.mem_map_of_mem h))

section

variable {root : String} (hroot : root ∉ localNames) (scope : List Param) (s : Surface)

include hroot

theorem binds_eq_false {params : List Param} (h : ∀ p ∈ params, p.name ∈ localNames) :
    binds params root = false :=
  List.any_eq_false.2 fun p hp heq ↦ hroot (beq_iff_eq.1 heq ▸ h p hp)

/-- Arguments use local names only. -/
theorem itemUses_arguments : itemUses root scope (arguments s) = [] := by
  rw [itemUses_eq_flatMap, arguments, List.flatMap_map]
  refine List.flatMap_eq_nil_iff.2 fun p hp ↦ ?_
  rw [Expr.uses, if_neg]
  rintro rfl
  exact hroot (name_of_mem_callParams hp)

end

theorem name_of_mem_options {options : TypeExpr} {p : Param}
    (h : p ∈ [Param.optional "options" options]) : p.name ∈ localNames := by
  have hname : "options" ∈ localNames := by decide
  exact List.mem_singleton.1 h ▸ hname

theorem name_of_mem_params {s : Surface} {options : TypeExpr} {p : Param}
    (h : p ∈ s.callParams ++ [.optional "options" options]) : p.name ∈ localNames :=
  (List.mem_append.1 h).elim name_of_mem_callParams name_of_mem_options

/-- A query calls the client, and the builder of its key, with its own parameters. -/
structure IsQuery (tagKey : String) (s : Surface) (function : Declaration) : Prop where
  name : function.functionName? = some (hookName s)
  params : ∃ options, function.params = s.callParams ++ [.optional "options" options]
  client : function.uses "apiClient" =
    [⟨[s.functionName], some (arguments s), function.params⟩]
  keys : function.uses "queryKeys" =
    [⟨[tagKey, s.functionName], some (arguments s), function.params⟩]

/-- An operation that only reads has a query. -/
theorem exists_queryHook (tagKey : String) (s : Surface) :
    ∃ function, queryHook .standard tagKey s = .ok function ∧ IsQuery tagKey s function := by
  obtain ⟨doc, hdoc⟩ := ClientModule.doc_standard s
  have hclient : "apiClient" ∉ localNames := by decide
  have hkeys : "queryKeys" ∉ localNames := by decide
  rw [queryHook, hdoc]
  refine ⟨_, rfl, rfl, ⟨_, rfl⟩, ?_, ?_⟩
  · simp [keysOf, clientCall, Expr.method, Expr.apply, itemUses_arguments hclient,
      binds_eq_false hclient fun _ ↦ name_of_mem_params]
  · simp [keysOf, clientCall, Expr.method, Expr.apply, itemUses_arguments hkeys,
      binds_eq_false hkeys fun _ ↦ name_of_mem_params]

/-- What the function that a mutation runs is given. -/
def mutationParams (s : Surface) : List Param :=
  if s.callParams.isEmpty then []
  else [.required "variables" (.named (s.typeBase ++ "Variables"))]

/-- What a mutation passes on to the client. -/
def mutationArguments (s : Surface) : List Expr :=
  s.callParams.map fun p ↦ .member (.identifier "variables") p.name

/-- The function of a mutation passes the members of its variables on. -/
theorem mutationFunction_eq (s : Surface) :
    mutationFunction s (s.typeBase ++ "Variables") =
      .arrow (mutationParams s) (clientCall s (mutationArguments s)) := by
  rw [mutationFunction, mutationParams, mutationArguments]
  split
  · next hempty => rw [List.isEmpty_iff.1 hempty, List.map_nil]
  · rfl

/-- Members of the variables use no other name. -/
theorem itemUses_mutationArguments {root : String} (hroot : root ∉ localNames)
    (scope : List Param) (s : Surface) : itemUses root scope (mutationArguments s) = [] := by
  have hvariables : "variables" ≠ root := by
    rintro rfl
    exact hroot (by decide)
  rw [itemUses_eq_flatMap, mutationArguments, List.flatMap_map]
  refine List.flatMap_eq_nil_iff.2 fun p _ ↦ ?_
  simp [hvariables]

/-- The parameters of a mutation do not hide another name. -/
theorem binds_mutationParams {root : String} (hroot : root ∉ localNames) (s : Surface) :
    binds (mutationParams s) root = false := by
  refine binds_eq_false hroot fun p hp ↦ ?_
  have hname : "variables" ∈ localNames := by decide
  rw [mutationParams] at hp
  split at hp
  · exact absurd hp List.not_mem_nil
  · exact List.mem_singleton.1 hp ▸ hname

/-- A mutation calls the client with the members of its variables, and invalidates its tag. -/
structure IsMutation (tagKey : String) (s : Surface) (function : Declaration) : Prop where
  name : function.functionName? = some (hookName s)
  params : ∃ options, function.params = [.optional "options" options]
  client : function.uses "apiClient" =
    [⟨[s.functionName], some (mutationArguments s), mutationParams s ++ function.params⟩]
  keys : function.uses "queryKeys" = [⟨[tagKey, "all"], none, function.params⟩]
  invalidation : function.uses "queryClient" = [⟨["invalidateQueries"],
    some [.object [.keyed "queryKey" (.member (keysOf tagKey) "all")]], function.params⟩]

/-- The type of the variables of a mutation. -/
def variablesDeclaration (s : Surface) : Declaration :=
  .alias (s.typeBase ++ "Variables") (variablesType s.callParams) none

/-- An operation that does more than read has a mutation. -/
theorem exists_mutationHook (tagKey : String) (s : Surface) :
    ∃ function, mutationHook .standard tagKey s = .ok [variablesDeclaration s, function] ∧
      IsMutation tagKey s function := by
  obtain ⟨doc, hdoc⟩ := ClientModule.doc_standard s
  have hclient : "apiClient" ∉ localNames := by decide
  have hkeys : "queryKeys" ∉ localNames := by decide
  have hcache : "queryClient" ∉ localNames := by decide
  rw [mutationHook, hdoc]
  refine ⟨_, rfl, rfl, ⟨_, rfl⟩, ?_, ?_, ?_⟩
  · simp [mutationFunction_eq, keysOf, clientCall, Expr.method, Expr.apply,
      itemUses_mutationArguments hclient, binds_mutationParams hclient,
      binds_eq_false hclient fun _ ↦ name_of_mem_options]
  · simp [mutationFunction_eq, keysOf, clientCall, Expr.method, Expr.apply,
      itemUses_mutationArguments hkeys, binds_mutationParams hkeys,
      binds_eq_false hkeys fun _ ↦ name_of_mem_options]
  · simp [mutationFunction_eq, keysOf, clientCall, Expr.method, Expr.apply,
      itemUses_mutationArguments hcache, binds_mutationParams hcache,
      binds_eq_false hcache fun _ ↦ name_of_mem_options]

/-- What is generated for an operation: a query if it only reads, otherwise a mutation. -/
inductive IsHookOf (tagKey : String) (op : Operation) : Hook → Prop
  | query {function : Declaration} (hread : op.method.isRead = true)
      (hfunction : IsQuery tagKey (.standard op) function) :
    IsHookOf tagKey op ⟨.standard op, some true, [keyEntry (.standard op)], [function]⟩
  | mutation {function : Declaration} (hread : op.method.isRead = false)
      (hfunction : IsMutation tagKey (.standard op) function) :
    IsHookOf tagKey op
      ⟨.standard op, some false, [], [variablesDeclaration (.standard op), function]⟩

/-- **Every operation whose id gives a name has a hook.** -/
theorem exists_hook (tagKey : String) {op : Operation} (h : typeName op.id ≠ "") :
    ∃ result, hook .standard tagKey op = .ok result ∧ IsHookOf tagKey op result := by
  have hsurface := Surface.ofOperation_eq_ok_iff.2 ⟨h, Eq.refl (Surface.standard op)⟩
  cases hread : op.method.isRead with
  | true =>
    obtain ⟨function, hquery, hfunction⟩ := exists_queryHook tagKey (.standard op)
    refine ⟨_, ?_, .query hread hfunction⟩
    simp only [hook, hsurface, HelperTable.flag_isQuery, hread, queryKey_standard, hquery, bind,
      Except.bind, if_true]
    rfl
  | false =>
    obtain ⟨function, hmutation, hfunction⟩ := exists_mutationHook tagKey (.standard op)
    refine ⟨_, ?_, .mutation hread hfunction⟩
    simp only [hook, hsurface, HelperTable.flag_isQuery, HelperTable.flag_isMutation, hread,
      hmutation, bind, Except.bind, if_true, Bool.not_false, Bool.false_eq_true, if_false]
    rfl

/-- The entries that an operation has in the keys of its group. -/
def operationKeys (op : Operation) : List Entry :=
  if op.method.isRead then [keyEntry (.standard op)] else []

namespace IsHookOf

variable {tagKey : String} {op : Operation} {hook : Hook}

theorem surface (h : IsHookOf tagKey op hook) : hook.surface = .standard op := by
  cases h <;> rfl

/-- A hook has the key of its operation if this is a query. -/
theorem keys (h : IsHookOf tagKey op hook) : hook.keys = operationKeys op := by
  cases h with
  | query hread => exact (if_pos hread).symm
  | mutation hread => exact (if_neg (by rw [hread]; exact Bool.false_ne_true)).symm

/-- A hook imports nothing. -/
theorem importedTypes_of_mem_declarations (h : IsHookOf tagKey op hook) {d : Declaration}
    (hd : d ∈ hook.declarations) (source : String) : d.importedTypes source = [] := by
  cases h with
  | query _ hfunction =>
    obtain rfl := List.mem_singleton.1 hd
    exact Declaration.importedTypes_of_functionName? hfunction.name source
  | mutation _ hfunction =>
    rcases List.mem_pair.1 hd with rfl | rfl
    · rfl
    · exact Declaration.importedTypes_of_functionName? hfunction.name source

end IsHookOf

/-! ### Groups -/

/-- The key of a tag. -/
def tagKey (tag : String) : String := Identifier.binding (Identifier.camelCase tag)

/-- The entries for a group: `none` for all queries of its tag, then each operation that only
reads. -/
def entriesOf (g : OperationGroup) : List (Option Operation) :=
  none :: (g.operations.filter fun op ↦ op.method.isRead).map some

/-- The key of an entry. -/
def entryKey : Option Operation → String
  | none => "all"
  | some op => (Surface.standard op).functionName

/-- The value of an entry. -/
def entryValue (g : OperationGroup) : Option Operation → Expr
  | none => .asConst (.array [.text g.tag])
  | some op => keyFunction (.standard op)

/-- The keys of a group. -/
def groupKeys (g : OperationGroup) : Expr :=
  .object ((entriesOf g).map fun entry ↦ .keyed (entryKey entry) (entryValue g entry))

/-- The entry for the keys of a group. -/
def groupEntry (g : OperationGroup) : Entry := .keyed (tagKey g.tag) (groupKeys g)

/-- The keys of a group are those of its tag and of its queries. -/
theorem groupKeys_eq (g : OperationGroup) :
    groupKeys g = .object (.keyed "all" (.asConst (.array [.text g.tag])) ::
      g.operations.flatMap operationKeys) := by
  have hreads (operations : List Operation) : operations.flatMap operationKeys =
      (operations.filter fun op ↦ op.method.isRead).map fun op ↦ keyEntry (.standard op) := by
    induction operations with
    | nil => rfl
    | cons op rest ih =>
      rw [List.flatMap_cons, List.filter_cons, operationKeys, ih]
      split <;> rfl
  rw [groupKeys, entriesOf, hreads, List.map_cons, List.map_map]
  rfl

/-- What is generated for a group. -/
structure IsGroupOf (g : OperationGroup) (part : Entry × List Declaration × List Hook) : Prop where
  entry : part.1 = groupEntry g
  declarations : part.2.1 =
    .banner ("Hooks: " ++ g.tag) :: part.2.2.flatMap Hook.declarations
  hooks : List.Forall₂ (IsHookOf (tagKey g.tag)) g.operations part.2.2

/-- A group can be made if the ids of its operations give names. -/
theorem exists_group {g : OperationGroup} (h : ∀ op ∈ g.operations, typeName op.id ≠ "") :
    ∃ part, group .standard g = .ok part ∧ IsGroupOf g part := by
  obtain ⟨hooks, hall, hhooks⟩ :=
    Except.exists_mapM_eq_ok fun op hop ↦ exists_hook (tagKey g.tag) (h op hop)
  rw [group, HelperTable.text_camelCase]
  refine ⟨_, Except.bind_eq_ok_iff.2 ⟨_, rfl, Except.bind_eq_ok_iff.2 ⟨hooks, hall, rfl⟩⟩, ?_,
    rfl, hhooks⟩
  rw [groupEntry, groupKeys_eq, hhooks.flatMap_eq fun _ _ hhook ↦ hhook.keys.symm]
  rfl

namespace IsGroupOf

variable {g : OperationGroup} {part : Entry × List Declaration × List Hook}

/-- The declarations of a group's hooks are among its own. -/
theorem subset_declarations (h : IsGroupOf g part) {hook : Hook} (hhook : hook ∈ part.2.2) :
    hook.declarations ⊆ part.2.1 := by
  rw [h.declarations]
  exact fun d hd ↦ List.mem_cons_of_mem _ (List.mem_flatMap.2 ⟨hook, hhook, hd⟩)

/-- Beside its heading a group consists of hooks. -/
theorem exists_of_mem_declarations (h : IsGroupOf g part) {d : Declaration} (hd : d ∈ part.2.1) :
    d = .banner ("Hooks: " ++ g.tag) ∨
      ∃ op ∈ g.operations, ∃ hook ∈ part.2.2, IsHookOf (tagKey g.tag) op hook ∧
        d ∈ hook.declarations := by
  rw [h.declarations] at hd
  refine (List.mem_cons.1 hd).imp_right fun hhooks ↦ ?_
  obtain ⟨hook, hhook, hd⟩ := List.mem_flatMap.1 hhooks
  obtain ⟨op, hop, hhookOf⟩ := h.hooks.exists_of_mem_right hhook
  exact ⟨op, hop, hook, hhook, hhookOf, hd⟩

end IsGroupOf

section

variable {groups : List OperationGroup} {parts : List (Entry × List Declaration × List Hook)}
  (hparts : List.Forall₂ IsGroupOf groups parts)

include hparts

/-- What is generated for all groups consists of headings and hooks. -/
theorem exists_of_mem_parts {d : Declaration} (hd : d ∈ parts.flatMap fun part ↦ part.2.1) :
    (∃ title, d = .banner title) ∨
      ∃ g ∈ groups, ∃ op ∈ g.operations, ∃ hook, IsHookOf (tagKey g.tag) op hook ∧
        d ∈ hook.declarations ∧ hook.declarations ⊆ parts.flatMap fun part ↦ part.2.1 := by
  obtain ⟨part, hpart, hd⟩ := List.mem_flatMap.1 hd
  obtain ⟨g, hg, hgroup⟩ := hparts.exists_of_mem_right hpart
  rcases hgroup.exists_of_mem_declarations hd with rfl | ⟨op, hop, hook, hmem, hhook, hd⟩
  · exact .inl ⟨_, rfl⟩
  · exact .inr ⟨g, hg, op, hop, hook, hhook, hd, fun d hd ↦
      List.mem_flatMap.2 ⟨part, hpart, hgroup.subset_declarations hmem hd⟩⟩

/-- The hook of every operation is generated. -/
theorem exists_isHookOf {g : OperationGroup} (hg : g ∈ groups) {op : Operation}
    (hop : op ∈ g.operations) :
    ∃ hook, IsHookOf (tagKey g.tag) op hook ∧
      hook.declarations ⊆ parts.flatMap fun part ↦ part.2.1 := by
  obtain ⟨part, hpart, hgroup⟩ := hparts.exists_of_mem_left hg
  obtain ⟨hook, hhook, hop⟩ := hgroup.hooks.exists_of_mem_left hop
  exact ⟨hook, hop, fun d hd ↦
    List.mem_flatMap.2 ⟨part, hpart, hgroup.subset_declarations hhook hd⟩⟩

/-- Each hook is that of an operation. -/
theorem exists_isHookOf_of_mem {hook : Hook} (h : hook ∈ parts.flatMap fun part ↦ part.2.2) :
    ∃ g ∈ groups, ∃ op ∈ g.operations, IsHookOf (tagKey g.tag) op hook := by
  obtain ⟨part, hpart, hhook⟩ := List.mem_flatMap.1 h
  obtain ⟨g, hg, hgroup⟩ := hparts.exists_of_mem_right hpart
  obtain ⟨op, hop, hhook⟩ := hgroup.hooks.exists_of_mem_right hhook
  exact ⟨g, hg, op, hop, hhook⟩

end

/-! ### The module -/

/-- The keys of all queries. -/
def keysValue (plan : Plan) : Expr := .asConst (.object (plan.groups.map groupEntry))

/-- The constant with the keys of all queries. -/
def keysDeclaration (plan : Plan) : Declaration := .const "queryKeys" none (keysValue plan) none

/-- The keys use no name but the parameters of their builders. -/
theorem uses_keysDeclaration {root : String} (hroot : root ∉ localNames) (plan : Plan) :
    (keysDeclaration plan).uses root = [] := by
  have hentry (g : OperationGroup) (entry : Option Operation) :
      (entryValue g entry).uses root [] = [] := by
    cases entry <;> simp [entryValue, keyFunction, Expr.text, itemUses_arguments hroot]
  have hgroup (g : OperationGroup) : (groupKeys g).uses root [] = [] := by
    rw [groupKeys, Expr.uses, entryUses_keyed_eq_flatMap]
    exact List.flatMap_eq_nil_iff.2 fun entry _ ↦ hentry g entry
  have hgroups : entryUses root [] (plan.groups.map groupEntry) = [] :=
    (entryUses_keyed_eq_flatMap root [] _ _ _).trans
      (List.flatMap_eq_nil_iff.2 fun g _ ↦ hgroup g)
  simp [keysDeclaration, keysValue, hgroups]

/-- What the module consists of. -/
structure IsModuleOf (plan : Plan) (declared : List Declaration) : Prop where
  client : .imports none ["apiClient"] clientModule false ∈ declared
  /-- The types that are imported from the client are those of the operations. -/
  types : ∀ d ∈ declared, ∀ name ∈ d.importedTypes clientModule,
    ∃ op ∈ plan.operations, name ∈ typesOf (.standard op)
  keys : keysDeclaration plan ∈ declared
  /-- Every operation has a hook in the module. -/
  hooks : ∀ g ∈ plan.groups, ∀ op ∈ g.operations,
    ∃ hook, IsHookOf (tagKey g.tag) op hook ∧ hook.declarations ⊆ declared
  /-- Only hooks use names that are not their own. -/
  uses : ∀ d ∈ declared, ∀ root ∉ localNames, d.uses root ≠ [] →
    ∃ g ∈ plan.groups, ∃ op ∈ g.operations, ∃ hook, IsHookOf (tagKey g.tag) op hook ∧
      d ∈ hook.declarations ∧ hook.declarations ⊆ declared

variable {plan : Plan}

/-- What is imported from the module that the hooks are built on. -/
theorem exists_of_mem_runtimeImports {hooks : List Hook} {d : Declaration}
    (hd : d ∈ runtimeImports hooks) :
    ∃ names typeOnly, d = .imports none names runtimeModule typeOnly := by
  simp only [runtimeImports, List.mem_ite_nil_left, List.mem_cons, List.not_mem_nil,
    or_false] at hd
  obtain ⟨-, rfl | rfl⟩ := hd <;> exact ⟨_, _, rfl⟩

/-- What is imported from the client: types of the operations, and values. -/
theorem exists_of_mem_clientImports {hooks : List Hook} {d : Declaration}
    (hd : d ∈ clientImports hooks) :
    ∃ names typeOnly, d = .imports none names clientModule typeOnly ∧
      (typeOnly = true → ∀ name ∈ names, ∃ hook ∈ hooks, name ∈ typesOf hook.surface) := by
  simp only [clientImports, List.mem_cons, List.mem_ite_nil_left, List.not_mem_nil,
    or_false] at hd
  rcases hd with rfl | ⟨-, rfl⟩
  · exact ⟨_, false, rfl, fun h ↦ absurd h Bool.false_ne_true⟩
  · exact ⟨_, true, rfl, fun _ _ hname ↦ List.mem_flatMap.1 (NameSet.mem_ofList.1 hname)⟩

/-- The module with what is generated for the groups. -/
def moduleOf (plan : Plan) (parts : List (Entry × List Declaration × List Hook)) :
    List Declaration :=
  [plan.header "React Query hooks"] ++ runtimeImports (parts.flatMap fun part ↦ part.2.2) ++
    clientImports (parts.flatMap fun part ↦ part.2.2) ++
    [.banner "Query Keys", keysDeclaration plan] ++ parts.flatMap fun part ↦ part.2.1

/-- The module is that of the parts that its groups have. -/
theorem exists_parts (h : ∀ op ∈ plan.operations, typeName op.id ≠ "") :
    ∃ parts, declarations plan .standard = .ok (moduleOf plan parts) ∧
      List.Forall₂ IsGroupOf plan.groups parts := by
  obtain ⟨parts, hall, hparts⟩ := Except.exists_mapM_eq_ok fun g hg ↦
    exists_group fun op hop ↦ h op (List.mem_flatMap.2 ⟨g, hg, hop⟩)
  have hentries : parts.map Prod.fst = plan.groups.map groupEntry :=
    (hparts.map_eq fun _ _ hpart ↦ hpart.entry.symm).symm
  refine ⟨parts, Except.bind_eq_ok_iff.2 ⟨parts, hall, ?_⟩, hparts⟩
  rw [hentries]
  rfl

/-- A declaration of the module belongs to a hook, imports from the client, or does neither: then it
uses no names but its own. -/
theorem exists_of_mem_moduleOf {parts : List (Entry × List Declaration × List Hook)}
    (hparts : List.Forall₂ IsGroupOf plan.groups parts) {d : Declaration}
    (hd : d ∈ moduleOf plan parts) :
    (d.importedTypes clientModule = [] ∧ ∀ root ∉ localNames, d.uses root = []) ∨
      (∃ names typeOnly, d = .imports none names clientModule typeOnly ∧
        (typeOnly = true → ∀ name ∈ names,
          ∃ op ∈ plan.operations, name ∈ typesOf (.standard op))) ∨
      ∃ g ∈ plan.groups, ∃ op ∈ g.operations, ∃ hook, IsHookOf (tagKey g.tag) op hook ∧
        d ∈ hook.declarations ∧ hook.declarations ⊆ moduleOf plan parts := by
  simp only [moduleOf, List.mem_append, List.mem_cons, List.not_mem_nil, or_false] at hd
  rcases hd with (((rfl | hruntime) | hclient) | rfl | rfl) | hbody
  · exact .inl ⟨rfl, fun _ _ ↦ rfl⟩
  · obtain ⟨names, typeOnly, rfl⟩ := exists_of_mem_runtimeImports hruntime
    cases typeOnly <;> exact .inl ⟨rfl, fun _ _ ↦ rfl⟩
  · obtain ⟨names, typeOnly, rfl, htypes⟩ := exists_of_mem_clientImports hclient
    refine .inr (.inl ⟨names, typeOnly, rfl, fun honly name hname ↦ ?_⟩)
    obtain ⟨hook, hhook, hname⟩ := htypes honly name hname
    obtain ⟨g, hg, op, hop, hhook⟩ := exists_isHookOf_of_mem hparts hhook
    exact ⟨op, List.mem_flatMap.2 ⟨g, hg, hop⟩, hhook.surface ▸ hname⟩
  · exact .inl ⟨rfl, fun _ _ ↦ rfl⟩
  · exact .inl ⟨rfl, fun _ hroot ↦ uses_keysDeclaration hroot plan⟩
  · rcases exists_of_mem_parts hparts hbody with
      ⟨_, rfl⟩ | ⟨g, hg, op, hop, hook, hhook, hd, hsubset⟩
    · exact .inl ⟨rfl, fun _ _ ↦ rfl⟩
    · exact .inr (.inr ⟨g, hg, op, hop, hook, hhook, hd,
        List.subset_append_of_subset_right _ hsubset⟩)

/-- **What is made from the groups is such a module.** -/
theorem isModuleOf_moduleOf {parts : List (Entry × List Declaration × List Hook)}
    (hparts : List.Forall₂ IsGroupOf plan.groups parts) :
    IsModuleOf plan (moduleOf plan parts) where
  client := by simp [moduleOf, clientImports]
  keys := by simp [moduleOf, keysDeclaration, keysValue]
  types d hd name hname := by
    rcases exists_of_mem_moduleOf hparts hd with
      ⟨hnone, -⟩ | ⟨names, typeOnly, rfl, htypes⟩ | ⟨g, -, op, -, hook, hhook, hd, -⟩
    · exact absurd (hnone ▸ hname) List.not_mem_nil
    · cases typeOnly with
      | false => exact absurd hname List.not_mem_nil
      | true => exact htypes rfl name hname
    · rw [hhook.importedTypes_of_mem_declarations hd] at hname
      exact absurd hname List.not_mem_nil
  hooks g hg op hop := by
    obtain ⟨hook, hhook, hsubset⟩ := exists_isHookOf hparts hg hop
    exact ⟨hook, hhook, List.subset_append_of_subset_right _ hsubset⟩
  uses d hd root hroot huses := by
    rcases exists_of_mem_moduleOf hparts hd with ⟨-, hnone⟩ | ⟨_, _, rfl, -⟩ | hhook
    · exact absurd (hnone root hroot) huses
    · exact absurd rfl huses
    · exact hhook

/-- **The module can be made if the id of every operation gives a name.** -/
theorem exists_declarations (h : ∀ op ∈ plan.operations, typeName op.id ≠ "") :
    ∃ declared, declarations plan .standard = .ok declared ∧ IsModuleOf plan declared := by
  obtain ⟨parts, hdeclared, hparts⟩ := exists_parts h
  exact ⟨_, hdeclared, isModuleOf_moduleOf hparts⟩

/-- The module can only be made if the id of every operation gives a name. -/
theorem typeName_ne_of_declarations_eq_ok {declared : List Declaration}
    (h : declarations plan .standard = .ok declared) :
    ∀ op ∈ plan.operations, typeName op.id ≠ "" := by
  intro op hop
  obtain ⟨g, hg, hop⟩ := List.mem_flatMap.1 hop
  obtain ⟨parts, hparts, -⟩ := Except.bind_eq_ok_iff.1 h
  obtain ⟨part, -, hgroup⟩ := (Except.mapM_eq_ok_iff.1 hparts).exists_of_mem_left hg
  rw [group, HelperTable.text_camelCase] at hgroup
  obtain ⟨_, -, hgroup⟩ := Except.bind_eq_ok_iff.1 hgroup
  obtain ⟨hooks, hhooks, -⟩ := Except.bind_eq_ok_iff.1 hgroup
  obtain ⟨result, -, hhook⟩ := (Except.mapM_eq_ok_iff.1 hhooks).exists_of_mem_left hop
  obtain ⟨s, hsurface, -⟩ := Except.bind_eq_ok_iff.1 hhook
  exact (Surface.ofOperation_eq_ok_iff.1 hsurface).1

/-- Whenever there is a module, it is made from its groups. -/
theorem exists_parts_of_declarations_eq_ok {declared : List Declaration}
    (h : declarations plan .standard = .ok declared) :
    ∃ parts, declared = moduleOf plan parts ∧ List.Forall₂ IsGroupOf plan.groups parts := by
  obtain ⟨parts, hdeclared, hparts⟩ := exists_parts (typeName_ne_of_declarations_eq_ok h)
  exact ⟨parts, Except.ok.inj (h.symm.trans hdeclared), hparts⟩

/-- Whenever there is a module, it is such a module. -/
theorem isModuleOf_of_declarations_eq_ok {declared : List Declaration}
    (h : declarations plan .standard = .ok declared) : IsModuleOf plan declared := by
  obtain ⟨parts, rfl, hparts⟩ := exists_parts_of_declarations_eq_ok h
  exact isModuleOf_moduleOf hparts

/-- The text is that of a plan's module. -/
theorem render_reactQuery_eq_ok_iff {spec : Spec} {options : RenderOptions}
    {helpers : HelperTable} {text : String} :
    spec.render .reactQuery options helpers = .ok text ↔
      ∃ plan declared, Plan.ofSpec spec options = .ok plan ∧
        declarations plan helpers = .ok declared ∧ text = printModule declared :=
  Except.bind_map_eq_ok_iff

end ApiContract.HooksModule
