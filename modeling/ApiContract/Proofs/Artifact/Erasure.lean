import ApiContract.Artifact.Render
import ApiContract.Proofs.Artifact.Surface
import ApiContract.Proofs.Except
import ApiContract.Proofs.Plan
import ApiContract.Proofs.Projection.Erasure

/-!
# Named nodes are opaque to generated code

A contract and the contract without what is below its named nodes are rendered alike:
`Spec.render_erased` is an equality of results, be they texts or faults, for each of the three
formats with code.

## Laws of erasure

`Schema.erased` leaves of a named node its name, its nullability and its description;
`Proofs.Projection.Erasure` shows that types, validators and references do not see the difference.
Here the same is carried through all that is made from schemas. Each function that makes a part of
an artifact has one law: applied to the erased operation, surface or plan it gives the same
declarations, and where it hands on a surface or a group, the erased one. So a law about a loop is
that of its step, with `map` on the list, and no law looks below the function that it is about.

## Plans

The checks of a plan give the same fault for both contracts (`Plan.fault?_erased`), the graphs of
their models are the same (`ModelGraph.ofModels_erased`), since edges are references, and so plans
differ in their schemas only (`Plan.ofSpec_erased`).

The standard helpers come in by the equations of `Proofs.Artifact.Surface`: none of them asks for
more than an erased operation still says. With another table of helpers the theorem is false, since
a helper may look at a schema.
-/

namespace ApiContract

open TypeScript

@[simp] theorem Model.name_erased (m : Model) : m.erased.name = m.name := rfl

@[simp] theorem Model.schema_erased (m : Model) : m.erased.schema = m.schema.erased := rfl

namespace Operation

@[simp] theorem id_erased (op : Operation) : op.erased.id = op.id := rfl

@[simp] theorem route_erased (op : Operation) : op.erased.route = op.route := rfl

theorem parametersAt_erased (op : Operation) (place : ParamPlace) :
    op.erased.parametersAt place = (op.parametersAt place).map Parameter.erased :=
  List.filter_map

theorem isEmpty_parametersAt_erased (op : Operation) (place : ParamPlace) :
    (op.erased.parametersAt place).isEmpty = (op.parametersAt place).isEmpty := by
  rw [parametersAt_erased, List.isEmpty_map]

/-- The same parameters are arguments. -/
theorem surfaceParameters_erased (op : Operation) :
    op.erased.parameters.filter Plan.isSurfaceParameter =
      (op.parameters.filter Plan.isSurfaceParameter).map Parameter.erased :=
  List.filter_map

/-- Whether there are arguments does not change. -/
theorem any_isSurfaceParameter_erased (op : Operation) :
    op.erased.parameters.any Plan.isSurfaceParameter =
      op.parameters.any Plan.isSurfaceParameter :=
  List.any_map

end Operation

/-! ### The checks of a plan -/

namespace Plan

/-- The check of the models looks at their names. -/
theorem modelNameFault?_erased (seen : List (String × String)) (models : List Model) :
    modelNameFault? seen (models.map Model.erased) = modelNameFault? seen models := by
  induction models generalizing seen with
  | nil => rfl
  | cons model rest ih =>
    simp only [List.map_cons, modelNameFault?, Model.name_erased, ih]

/-- The types of an operation have their names from its parts, whatever their schemas. -/
theorem operationTypes_erased (op : Operation) (base : String) :
    operationTypes op.erased base = operationTypes op base := by
  have hbody : op.erased.requestBody.isSome = op.requestBody.isSome := Option.isSome_map
  rw [operationTypes, operationTypes, Operation.any_isSurfaceParameter_erased, hbody]

/-- A model is found under its name, and is erased then. -/
theorem modelOfType?_erased (models : List Model) (generated : String) :
    modelOfType? (models.map Model.erased) generated =
      (modelOfType? models generated).map Model.erased :=
  List.find?_map ..

/-- Looking up an operation among those before it gives the erased one. -/
theorem lookup_erased (seen : List (String × Operation)) (name : String) :
    (seen.map (Prod.map id Operation.erased)).lookup name =
      (seen.lookup name).map Operation.erased := by
  induction seen with
  | nil => rfl
  | cons entry rest ih =>
    rw [List.map_cons, Prod.map, List.lookup_cons, List.lookup_cons, ih, id]
    cases name == entry.1 <;> rfl

/-- The check of the operations looks at their names. -/
theorem operationNameFault?_erased (models : List Model) (seen : List (String × Operation))
    (operations : List Operation) :
    operationNameFault? (models.map Model.erased) (seen.map (Prod.map id Operation.erased))
        (operations.map Operation.erased) = operationNameFault? models seen operations := by
  induction operations generalizing seen with
  | nil => rfl
  | cons op rest ih =>
    have hrest : operationNameFault? (models.map Model.erased)
        ((typeName op.id, op.erased) :: seen.map (Prod.map id Operation.erased))
        (rest.map Operation.erased) =
          operationNameFault? models ((typeName op.id, op) :: seen) rest :=
      ih ((typeName op.id, op) :: seen)
    have hcollision (type : String) :
        ((modelOfType? models type).map Model.erased).map
            (fun model ↦ RenderFault.typeCollides op.id type model.name) =
          (modelOfType? models type).map
            fun model ↦ RenderFault.typeCollides op.id type model.name :=
      Option.map_map ..
    rw [List.map_cons, operationNameFault?, operationNameFault?]
    simp only [Operation.id_erased, ih, lookup_erased, operationTypes_erased, modelOfType?_erased,
      hcollision, hrest]
    cases seen.lookup (typeName op.id) <;> rfl

/-- An erased schema refers to the same names. -/
theorem danglingName?_erased (models : List Model) (schema : Schema) :
    danglingName? (models.map Model.erased) schema.erased = danglingName? models schema := by
  rw [danglingName?, danglingName?, Schema.referencedNames_erased]
  simp only [List.any_map]
  rfl

/-- The schemas of an erased operation are the erased ones. -/
theorem operationSchemas_erased (op : Operation) :
    operationSchemas op.erased = (operationSchemas op).map Schema.erased := by
  have hresponses : op.erased.responses.filterMap Response.schema =
      (op.responses.filterMap Response.schema).map Schema.erased := by
    rw [List.map_filterMap]
    exact List.filterMap_map
  have hbody : (op.erased.requestBody.map RequestBody.schema).toList =
      (op.requestBody.map RequestBody.schema).toList.map Schema.erased := by
    cases hb : op.requestBody <;> simp [Operation.erased, RequestBody.erased, hb]
  have hparameters : op.erased.parameters.map Parameter.schema =
      (op.parameters.map Parameter.schema).map Schema.erased := by
    rw [List.map_map]
    exact List.map_map
  rw [operationSchemas, operationSchemas, hresponses, hbody, hparameters, List.map_append,
    List.map_append]

/-- The check of the references looks at names. -/
theorem referenceFault?_erased (spec : Spec) :
    referenceFault? spec.erased = referenceFault? spec := by
  rw [referenceFault?, referenceFault?]
  simp only [Spec.erased, List.findSome?_map, Function.comp_def, Model.schema_erased,
    Model.name_erased, danglingName?_erased, Operation.id_erased, operationSchemas_erased]

/-- **A contract has the fault that the erased contract has.** -/
theorem fault?_erased (spec : Spec) : fault? spec.erased = fault? spec := by
  have hmodels : modelNameFault? [] spec.erased.models = modelNameFault? [] spec.models :=
    modelNameFault?_erased [] spec.models
  have hoperations : operationNameFault? spec.erased.models [] spec.erased.operations =
      operationNameFault? spec.models [] spec.operations :=
    operationNameFault?_erased spec.models [] spec.operations
  rw [fault?, fault?, hmodels, hoperations, referenceFault?_erased]

end Plan

/-! ### Plans -/

/-- The group with its operations erased. -/
def OperationGroup.erased (g : OperationGroup) : OperationGroup :=
  { g with operations := g.operations.map Operation.erased }

/-- The plan with its schemas erased; the graph of the models stays. -/
def Plan.erased (plan : Plan) : Plan :=
  { plan with
    spec := plan.spec.erased
    groups := plan.groups.map OperationGroup.erased }

namespace ModelGraph

/-- Erased models have the same edges. -/
theorem targets_erased (models : List Model) :
    targets (models.map Model.erased) = targets models := by
  funext name
  have hknown (target : String) : (models.map Model.erased).any (fun m ↦ m.name == target) =
      models.any fun m ↦ m.name == target := List.any_map
  have hfind : (models.map Model.erased).reverse.find? (fun m ↦ m.name == name) =
      (models.reverse.find? fun m ↦ m.name == name).map Model.erased := by
    rw [← List.map_reverse]
    exact List.find?_map ..
  simp only [targets, hfind, hknown]
  cases models.reverse.find? fun m ↦ m.name == name with
  | none => rfl
  | some model =>
    simp only [Option.map_some, Model.schema_erased, Schema.referencedNames_erased]

/-- **Models have the graph of the erased models.** -/
theorem ofModels_erased (models : List Model) :
    ofModels (models.map Model.erased) = ofModels models := by
  have hnames : (models.map Model.erased).map Model.name = models.map Model.name := List.map_map
  simp only [ofModels, reached, targets_erased, hnames, List.length_map]

end ModelGraph

namespace Plan

/-- Operations are grouped by their tags, which are not erased. -/
theorem groupsOf_erased (operations : List Operation) :
    groupsOf (operations.map Operation.erased) =
      (groupsOf operations).map OperationGroup.erased := by
  have htags : (operations.map Operation.erased).map Operation.primaryTag =
      operations.map Operation.primaryTag := List.map_map
  rw [groupsOf, groupsOf, htags, List.map_map]
  refine List.map_congr_left fun tag _ ↦ ?_
  exact congrArg (OperationGroup.mk tag) List.filter_map

/-- **The erased contract has the erased plan**, or the same fault. -/
theorem ofSpec_erased (spec : Spec) (options : RenderOptions) :
    ofSpec spec.erased options = erased <$> ofSpec spec options := by
  rw [ofSpec, ofSpec, fault?_erased]
  cases fault? spec with
  | some fault => rfl
  | none =>
    have hgroups : groupsOf spec.erased.operations =
        (groupsOf spec.operations).map OperationGroup.erased := groupsOf_erased spec.operations
    have hgraph : ModelGraph.ofModels spec.erased.models = ModelGraph.ofModels spec.models :=
      ModelGraph.ofModels_erased spec.models
    simp only [hgroups, hgraph]
    rfl

@[simp] theorem headerLines_erased (plan : Plan) (label : String) :
    plan.erased.headerLines label = plan.headerLines label := by
  have hoperations : plan.erased.operationCount = plan.operationCount := List.length_map ..
  have hmodels : plan.erased.modelCount = plan.modelCount := List.length_map ..
  rw [headerLines, headerLines, hoperations, hmodels]
  rfl

end Plan

/-! ### Declarations of the models -/

/-- A model has the type of the erased model. -/
theorem Model.typeDeclaration_erased (model : Model) :
    model.erased.typeDeclaration = model.typeDeclaration := by
  rw [typeDeclaration, typeDeclaration, schema_erased, Schema.interfaceMembers?_erased,
    Schema.toType_erased]
  rfl

namespace Plan

theorem modelDeclarations_erased (plan : Plan) :
    plan.erased.modelDeclarations = plan.modelDeclarations := by
  show (plan.spec.models.map Model.erased).map Model.typeDeclaration = _
  rw [List.map_map]
  exact List.map_congr_left fun model _ ↦ model.typeDeclaration_erased

/-- The order of the models does not change. -/
theorem orderedModels_erased (plan : Plan) :
    plan.erased.orderedModels = plan.orderedModels.map Model.erased := by
  rw [orderedModels, orderedModels, List.map_filterMap]
  refine List.filterMap_congr fun name _ ↦ ?_
  exact List.find?_map ..

/-- Models have the validators of the erased models. -/
theorem validatorDeclarations_erased (plan : Plan) :
    plan.erased.validatorDeclarations = plan.validatorDeclarations := by
  rw [validatorDeclarations, validatorDeclarations, orderedModels_erased, List.map_map]
  refine List.map_congr_left fun model _ ↦ ?_
  show plan.erased.validatorDeclaration model.erased = plan.validatorDeclaration model
  rw [validatorDeclaration, validatorDeclaration, Model.schema_erased, Schema.toValidator_erased]
  rfl

end Plan

/-! ### Surfaces -/

namespace Surface

/-- The surface of the erased operation. -/
def erased (s : Surface) : Surface := { s with op := s.op.erased }

theorem body_erased (s : Surface) : s.erased.body = s.body := rfl

theorem requestBody_erased (s : Surface) :
    s.erased.op.requestBody = s.op.requestBody.map RequestBody.erased := rfl

/-- An operation's surface shows its names and no schema. -/
theorem standard_erased (op : Operation) : standard op.erased = (standard op).erased := by
  have hbody : op.erased.requestBody.map (fun body ↦ (typeName op.id ++ "Body", body.required)) =
      op.requestBody.map fun body ↦ (typeName op.id ++ "Body", body.required) := Option.map_map ..
  simp only [standard, erased, Operation.any_isSurfaceParameter_erased, Operation.id_erased, hbody]

theorem ofOperation_erased (op : Operation) :
    ofOperation .standard op.erased = erased <$> ofOperation .standard op := by
  rw [ofOperation_standard, ofOperation_standard, standard_erased, Operation.id_erased]
  split <;> rfl

/-- The type of the parameters is made of types of schemas. -/
theorem paramsDeclarations_erased (s : Surface) :
    s.erased.paramsDeclarations = s.paramsDeclarations := by
  have hmember (p : Parameter) : parameterMember p.erased = parameterMember p := by
    rw [parameterMember, parameterMember, ← p.schema.toType_erased]
    rfl
  have hname : s.erased.paramsName = s.paramsName := rfl
  rw [paramsDeclarations, paramsDeclarations, hname]
  cases s.paramsName with
  | none => rfl
  | some name =>
    show [Declaration.interface name
      ((s.op.erased.parameters.filter _).map parameterMember) none] = _
    rw [Operation.surfaceParameters_erased, List.map_map]
    exact congrArg (fun members ↦ [Declaration.interface name members none])
      (List.map_congr_left fun p _ ↦ hmember p)

theorem bodyDeclarations_erased (s : Surface) :
    s.erased.bodyDeclarations = s.bodyDeclarations := by
  rw [bodyDeclarations, bodyDeclarations, body_erased, requestBody_erased]
  cases s.body with
  | none => rfl
  | some body =>
    cases s.op.requestBody with
    | none => rfl
    | some declared => simp only [Option.map_some, RequestBody.erased, Schema.toType_erased]

theorem responseType_erased (op : Operation) : responseType op.erased = responseType op := by
  have hfind : op.erased.responses.find? Response.isSuccess =
      (op.responses.find? Response.isSuccess).map Response.erased := List.find?_map ..
  rw [responseType, responseType, hfind]
  cases op.responses.find? Response.isSuccess with
  | none => rfl
  | some response =>
    cases hschema : response.schema <;> simp [hschema, Response.erased, Schema.toType_erased]

/-- The types of an operation do not change. -/
theorem typeDeclarations_erased (s : Surface) :
    s.erased.typeDeclarations .standard = s.typeDeclarations .standard := by
  rw [typeDeclarations_standard, typeDeclarations_standard, paramsDeclarations_erased,
    bodyDeclarations_erased]
  show Except.ok (_ ++ [Declaration.alias _ (responseType s.op.erased) none]) = _
  rw [responseType_erased]
  rfl

theorem doc_erased (s : Surface) : s.erased.doc .standard = s.doc .standard := by
  rw [doc, doc, HelperTable.flag_requiresAuth, HelperTable.flag_requiresAuth]
  rfl

end Surface

/-! ### The module of types -/

namespace TypesModule

theorem bodyValidators_erased (plan : Plan) (s : Surface) :
    bodyValidators plan.erased s.erased = bodyValidators plan s := by
  rw [bodyValidators, bodyValidators, s.body_erased, s.requestBody_erased]
  cases s.body with
  | none => rfl
  | some body =>
    cases s.op.requestBody with
    | none => rfl
    | some declared =>
      simp only [Option.map_some, RequestBody.erased, Schema.toValidator_erased]
      rfl

theorem indexEntry_erased (tag : String) (s : Surface) :
    indexEntry .standard tag s.erased = indexEntry .standard tag s := by
  rw [indexEntry, indexEntry, HelperTable.flag_requiresAuth, HelperTable.flag_requiresAuth]
  rfl

/-- The declarations for an operation do not change, nor does its entry in the index. -/
theorem operation_erased (plan : Plan) (tag : String) (op : Operation) :
    operation plan.erased .standard tag op.erased = operation plan .standard tag op := by
  rw [operation, operation, Surface.ofOperation_erased, bind_map_left]
  simp only [Surface.typeDeclarations_erased, indexEntry_erased, bodyValidators_erased]

theorem group_erased (plan : Plan) (g : OperationGroup) :
    group plan.erased .standard g.erased = group plan .standard g := by
  have hparts : g.erased.operations.mapM (operation plan.erased .standard g.tag) =
      g.operations.mapM (operation plan .standard g.tag) :=
    Except.mapM_map_of_eq (operation_erased plan g.tag) g.operations
  have hids : g.erased.operations.map (fun op ↦ Expr.text op.id) =
      g.operations.map fun op ↦ Expr.text op.id := List.map_map
  rw [group, group, hids]
  exact congrArg (· >>= _) hparts

theorem models_erased (plan : Plan) : models plan.erased = models plan := by
  have hcount : plan.erased.modelCount = plan.modelCount := List.length_map ..
  rw [models, models, hcount, Plan.modelDeclarations_erased, Plan.validatorDeclarations_erased]

/-- **The erased plan has the module of types of the plan.** -/
theorem declarations_erased (plan : Plan) :
    declarations plan.erased .standard = declarations plan .standard := by
  have hgroups : plan.erased.groups.mapM (group plan.erased .standard) =
      plan.groups.mapM (group plan .standard) :=
    Except.mapM_map_of_eq (group_erased plan) plan.groups
  have hopening : opening plan.erased = opening plan := by
    rw [opening, opening, Plan.header, Plan.header, Plan.headerLines_erased]
    rfl
  rw [declarations, declarations, hgroups, hopening, models_erased]

end TypesModule

/-! ### The module of the client -/

namespace ClientModule

/-- Placeholders are bound by names of parameters. -/
theorem unboundPlaceholder?_erased (op : Operation) :
    unboundPlaceholder? op.erased = unboundPlaceholder? op := by
  rw [unboundPlaceholder?, unboundPlaceholder?, Operation.parametersAt_erased]
  simp only [List.any_map]
  rfl

theorem pathBinding_erased (op : Operation) (hasQuery : Bool) :
    pathBinding op.erased hasQuery = pathBinding op hasQuery := by
  rw [pathBinding, pathBinding, Operation.parametersAt_erased, List.map_map]
  rfl

/-- The function of an operation does not look at schemas. -/
theorem function_erased (s : Surface) :
    function .standard s.erased = function .standard s := by
  have hop : s.erased.op = s.op.erased := rfl
  simp only [function, hop, HelperTable.flag_hasQueryParams, HelperTable.flag_hasPathParams,
    HelperTable.expr_pathTemplate, Operation.isEmpty_parametersAt_erased,
    unboundPlaceholder?_erased, pathBinding_erased, Surface.doc_erased]
  rfl

/-- A group of the client has the same declarations, and hands on the erased surfaces. -/
theorem group_erased (g : OperationGroup) :
    group .standard g.erased = Prod.map id (List.map Surface.erased) <$> group .standard g := by
  have hpart (op : Operation) :
      (do
        let s ← Surface.ofOperation .standard op.erased
        let types ← s.typeDeclarations .standard
        pure (types, s)) =
      Prod.map id Surface.erased <$> (do
        let s ← Surface.ofOperation .standard op
        let types ← s.typeDeclarations .standard
        pure (types, s)) := by
    rw [Surface.ofOperation_erased, bind_map_left]
    simp only [Surface.typeDeclarations_erased, map_bind, map_pure]
    rfl
  rw [group, group, OperationGroup.erased, Except.mapM_map_of_map hpart, bind_map_left, map_bind]
  simp only [List.flatMap_map, List.map_map, map_pure, Prod.map]
  rfl

/-- **The erased plan has the client of the plan.** -/
theorem declarations_erased (plan : Plan) :
    declarations plan.erased .standard = declarations plan .standard := by
  have hgroups : plan.erased.groups.mapM (group .standard) =
      List.map (Prod.map id (List.map Surface.erased)) <$> plan.groups.mapM (group .standard) :=
    Except.mapM_map_of_map group_erased plan.groups
  have hopening : opening plan.erased = opening plan := by
    rw [opening, opening, Plan.header, Plan.header, Plan.headerLines_erased]
    rfl
  have hmodels : models plan.erased = models plan := by
    have hcount : plan.erased.modelCount = plan.modelCount := List.length_map ..
    rw [models, models, hcount, Plan.modelDeclarations_erased]
  have hfunctions (surfaces : List Surface) :
      (surfaces.map Surface.erased).mapM (function .standard) =
        surfaces.mapM (function .standard) := Except.mapM_map_of_eq function_erased surfaces
  have hgathering (surfaces : List Surface) :
      gathering (surfaces.map Surface.erased) = gathering surfaces := by
    rw [gathering, List.map_map]
    rfl
  have hsurfaces (groups : List (List Declaration × List Surface)) :
      (groups.map (Prod.map id (List.map Surface.erased))).flatMap Prod.snd =
        (groups.flatMap Prod.snd).map Surface.erased := by
    rw [List.flatMap_map, List.map_flatMap]
    rfl
  rw [declarations, declarations, hgroups, bind_map_left]
  simp only [hopening, hmodels, hsurfaces, hfunctions, hgathering, List.flatMap_map]
  rfl

end ClientModule

/-! ### The module of hooks -/

namespace HooksModule

/-- The hook of the erased operation. -/
def Hook.erased (h : Hook) : Hook := { h with surface := h.surface.erased }

theorem queryKey_erased (s : Surface) : queryKey .standard s.erased = queryKey .standard s := by
  rw [queryKey, queryKey, HelperTable.segments_queryKey, HelperTable.segments_queryKey]
  rfl

/-- A query does not look at schemas. -/
theorem queryHook_erased (tagKey : String) (s : Surface) :
    queryHook .standard tagKey s.erased = queryHook .standard tagKey s := by
  simp only [queryHook, Surface.doc_erased]
  rfl

/-- A mutation does not look at schemas. -/
theorem mutationHook_erased (tagKey : String) (s : Surface) :
    mutationHook .standard tagKey s.erased = mutationHook .standard tagKey s := by
  simp only [mutationHook, Surface.doc_erased]
  rfl

theorem hook_erased (tagKey : String) (op : Operation) :
    hook .standard tagKey op.erased = Hook.erased <$> hook .standard tagKey op := by
  have hmethod : op.erased.method = op.method := rfl
  simp only [hook, Surface.ofOperation_erased, bind_map_left, HelperTable.flag_isQuery,
    HelperTable.flag_isMutation, hmethod, queryKey_erased, queryHook_erased, mutationHook_erased,
    map_bind]
  cases op.method.isRead <;> rfl

theorem group_erased (g : OperationGroup) :
    group .standard g.erased =
      (fun (entry, declarations, hooks) ↦ (entry, declarations, hooks.map Hook.erased)) <$>
        group .standard g := by
  have htag : g.erased.tag = g.tag := rfl
  have hhooks (tagKey : String) : g.erased.operations.mapM (hook .standard tagKey) =
      List.map Hook.erased <$> g.operations.mapM (hook .standard tagKey) :=
    Except.mapM_map_of_map (hook_erased tagKey) g.operations
  simp only [group, htag, hhooks, HelperTable.text_camelCase, bind_map_left, map_bind, map_pure,
    List.flatMap_map]
  rfl

theorem runtimeImports_erased (hooks : List Hook) :
    runtimeImports (hooks.map Hook.erased) = runtimeImports hooks := by
  simp only [runtimeImports, List.any_map]
  rfl

/-- What hooks import follows from the names of types. -/
theorem clientImports_erased (hooks : List Hook) :
    clientImports (hooks.map Hook.erased) = clientImports hooks := by
  simp only [clientImports, List.flatMap_map]
  rfl

/-- **The erased plan has the hooks of the plan.** -/
theorem declarations_erased (plan : Plan) :
    declarations plan.erased .standard = declarations plan .standard := by
  have hgroups : plan.erased.groups.mapM (group .standard) =
      List.map (fun (entry, declarations, hooks) ↦
        (entry, declarations, hooks.map Hook.erased)) <$> plan.groups.mapM (group .standard) :=
    Except.mapM_map_of_map group_erased plan.groups
  have hheader : plan.erased.header = plan.header := by
    funext label
    rw [Plan.header, Plan.header, Plan.headerLines_erased]
  have hhooks (groups : List (Entry × List Declaration × List Hook)) :
      (groups.flatMap fun (_, _, hooks) ↦ hooks.map Hook.erased) =
        (groups.flatMap fun (_, _, hooks) ↦ hooks).map Hook.erased := List.map_flatMap.symm
  rw [declarations, declarations, hgroups, bind_map_left]
  simp only [hheader, List.flatMap_map, List.map_map, hhooks, runtimeImports_erased,
    clientImports_erased]
  rfl

end HooksModule

/-! ### Rendering -/

/-- **Named nodes are opaque to generated code**: whatever stands below a node with a name, and all
that the node says but for its nullability and its description, can be left out of every schema of a
contract without a change to what is generated from it, be that a text or a fault. -/
theorem Spec.render_erased (spec : Spec) (options : RenderOptions) :
    spec.erased.render .typescript options .standard = spec.render .typescript options .standard ∧
      spec.erased.render .axios options .standard = spec.render .axios options .standard ∧
      spec.erased.render .reactQuery options .standard =
        spec.render .reactQuery options .standard := by
  refine ⟨?_, ?_, ?_⟩
  · simp only [Spec.render, Plan.ofSpec_erased, bind_map_left, Plan.render,
      TypesModule.declarations_erased]
  · simp only [Spec.render, Plan.ofSpec_erased, bind_map_left, Plan.render,
      ClientModule.declarations_erased]
  · simp only [Spec.render, Plan.ofSpec_erased, bind_map_left, Plan.render,
      HooksModule.declarations_erased]

end ApiContract
