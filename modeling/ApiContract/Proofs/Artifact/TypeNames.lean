import ApiContract.Artifact.Render
import ApiContract.Proofs.Artifact.Types
import ApiContract.Proofs.Plan
import ApiContract.Proofs.TypeScript.Names
import Mathlib.Data.List.Perm.Basic

/-!
# The names of the types in a module

The module of types declares types and mentions types. This module shows that it is closed and
unambiguous: it declares every type once, and declares every type that it mentions.

## Main result

`TypesModule.types_declared_once`: whenever the module can be made of a contract, the declared types
have distinct names, and every type named in it, at any depth of a member, an alias or the type of a
constant, is exactly one of them.

## What is declared

The module declares the types of the models and those of the operations, up to order
(`perm_declaredTypes`). The checks of a plan go through the same names before anything is made: the
types of models are distinct, the bases of operations are, and no type of an operation is one of a
model. What is left is that an operation's types are told apart by their endings, and that endings
determine bases (`Plan.eq_of_append_suffix_eq`).

## What is mentioned

The type of a schema mentions the types of the models that the schema refers to, and no others
(`Schema.namedTypes_toType_subset`, an induction along the projection, which stops at named nodes as
references do). `MentionOnly` carries this through the declarations, and a plan has no reference
that is not to a model.
-/

namespace ApiContract

open TypeScript

/-! ### The types of schemas -/

section Schemas

mutual

/-- **The type of a schema mentions only types of models that the schema refers to.** -/
theorem Schema.namedTypes_toType_subset :
    ∀ schema : Schema, schema.toType.namedTypes ⊆ schema.references.map typeName
  | ⟨shape, _, nullable, _, enumValues, refName, _⟩ => by
    have hnull : ∀ type : TypeExpr, (typeOrNull nullable type).namedTypes = type.namedTypes := by
      intro type
      cases nullable with
      | false => rfl
      | true => exact type.namedTypes_orNull
    rcases refName with - | name
    · rcases hlisted : listed enumValues with - | ⟨value, rest⟩
      · simp only [Schema.toType, hlisted, hnull]
        exact Schema.namedTypes_shapeType_subset shape
      · simp only [Schema.toType, hlisted, hnull]
        rw [TypeExpr.namedTypes_ofMembers, TypeExpr.flatMap_map_literal fun _ ↦ rfl]
        exact List.nil_subset _
    · rw [Schema.toType, hnull, TypeExpr.namedTypes, Schema.references]
      exact List.Subset.refl _

/-- The type of a shape mentions what its parts refer to. -/
theorem Schema.namedTypes_shapeType_subset :
    ∀ shape : Shape, (shapeType shape).namedTypes ⊆ (shapeReferences shape).map typeName
  | .any | .string | .integer | .number | .boolean | .union [] _ => List.nil_subset _
  | .array items => Schema.namedTypes_toType_subset items
  | .object [] _ additional => Schema.namedTypes_valueType_subset additional
  | .object (property :: rest) required additional => by
    rw [shapeType, TypeExpr.namedTypes, shapeReferences, List.map_append]
    exact List.subset_append_of_subset_left _
      (Schema.namedTypes_propertyMembers_subset required (property :: rest))
  | .union (variant :: rest) _ => by
    rw [shapeType, TypeExpr.namedTypes_ofMembers, ← typesNamedTypes_eq_flatMap]
    exact Schema.namedTypes_variantTypes_subset (variant :: rest)

/-- The type of further properties mentions what their schema refers to. -/
theorem Schema.namedTypes_valueType_subset :
    ∀ additional : Option Schema,
      (valueType additional).namedTypes ⊆ (optionReferences additional).map typeName
  | some schema => Schema.namedTypes_toType_subset schema
  | none => List.nil_subset _

/-- Members mention what properties refer to. -/
theorem Schema.namedTypes_propertyMembers_subset (required : NameSet) :
    ∀ properties : List Property, membersNamedTypes (propertyMembers required properties) ⊆
      (propertyReferences properties).map typeName
  | [] => List.nil_subset _
  | ⟨name, schema⟩ :: rest => by
    rw [propertyMembers, membersNamedTypes, propertyReferences, List.map_append]
    exact List.append_subset.2
      ⟨List.subset_append_of_subset_left _ (Schema.namedTypes_toType_subset schema),
        List.subset_append_of_subset_right _
          (Schema.namedTypes_propertyMembers_subset required rest)⟩

/-- The types of variants mention what the variants refer to. -/
theorem Schema.namedTypes_variantTypes_subset :
    ∀ variants : List Schema,
      typesNamedTypes (variantTypes variants) ⊆ (variantReferences variants).map typeName
  | [] => List.nil_subset _
  | variant :: rest => by
    rw [variantTypes, typesNamedTypes, variantReferences, List.map_append]
    exact List.append_subset.2
      ⟨List.subset_append_of_subset_left _ (Schema.namedTypes_toType_subset variant),
        List.subset_append_of_subset_right _ (Schema.namedTypes_variantTypes_subset rest)⟩

end

/-- Members of an interface mention what the type of the schema mentions. -/
theorem Schema.membersNamedTypes_subset {schema : Schema} {members : List Member}
    (h : schema.interfaceMembers? = some members) :
    membersNamedTypes members ⊆ schema.references.map typeName := by
  obtain ⟨shape, format, nullable, description, enumValues, refName, constraints⟩ := schema
  rw [interfaceMembers?] at h
  split at h
  · exact absurd h (by simp)
  · next hplain =>
    have href : refName = none := by
      cases refName with
      | none => rfl
      | some name => exact absurd rfl hplain
    subst href
    split at h
    · next hshape =>
      cases h
      have hsubset := Schema.namedTypes_shapeType_subset shape
      rw [hshape] at hsubset
      exact hsubset
    · exact absurd h (by simp)

end Schemas

/-! ### The types that operations declare -/

namespace Plan

/-- What the names of an operation's types end in. -/
def typeSuffixes : List String := ["Response", "Params", "Body"]

/-- An operation declares some of three types. -/
theorem operationTypes_sublist (op : Operation) (base : String) :
    (operationTypes op base).Sublist (typeSuffixes.map (base ++ ·)) := by
  rw [operationTypes]
  split <;> split <;> simp [typeSuffixes]

theorem nodup_operationTypes (op : Operation) (base : String) : (operationTypes op base).Nodup := by
  have hsuffixes : typeSuffixes.Nodup := by decide
  exact (operationTypes_sublist op base).nodup
    (hsuffixes.map fun _ _ h ↦ (String.append_right_inj base).1 h)

/-- The endings are told apart by their last letters. -/
theorem eq_of_append_suffix_eq {base other s t : String} (hs : s ∈ typeSuffixes)
    (ht : t ∈ typeSuffixes) (h : base ++ s = other ++ t) : base = other ∧ s = t := by
  have hlast : s.toList.getLast? = t.toList.getLast? := by
    have hlists := congrArg (fun type ↦ type.toList.getLast?) h
    have hsome : ∀ suffix ∈ typeSuffixes, suffix.toList.getLast?.isSome = true := by decide
    obtain ⟨c, hc⟩ := Option.isSome_iff_exists.1 (hsome s hs)
    obtain ⟨d, hd⟩ := Option.isSome_iff_exists.1 (hsome t ht)
    simpa [String.toList_append, List.getLast?_append, hc, hd] using hlists
  have heq : s = t := by
    have hinj : ∀ s ∈ typeSuffixes, ∀ t ∈ typeSuffixes,
        s.toList.getLast? = t.toList.getLast? → s = t := by decide
    exact hinj s hs t ht hlast
  subst heq
  exact ⟨String.append_left_inj s |>.1 h, rfl⟩

/-- The types that several operations declare are distinct if their bases are. -/
theorem nodup_flatMap_operationTypes {operations : List Operation}
    (h : (operations.map fun op ↦ typeName op.id).Nodup) :
    (operations.flatMap fun op ↦ operationTypes op (typeName op.id)).Nodup := by
  rw [List.nodup_flatMap]
  refine ⟨fun op _ ↦ nodup_operationTypes op _, ?_⟩
  refine (List.pairwise_map.1 h).imp fun hne type hfirst hsecond ↦ ?_
  obtain ⟨s, hs, rfl⟩ := List.mem_map.1 ((operationTypes_sublist _ _).subset hfirst)
  obtain ⟨t, ht, heq⟩ := List.mem_map.1 ((operationTypes_sublist _ _).subset hsecond)
  exact hne (eq_of_append_suffix_eq hs ht heq.symm).1

/-- The types that the models declare. -/
abbrev modelTypes (spec : Spec) : List String := spec.models.map fun model ↦ typeName model.name

/-- The types that the operations declare. -/
abbrev surfaceTypes (spec : Spec) : List String :=
  spec.operations.flatMap fun op ↦ operationTypes op (typeName op.id)

/-- **The types of the models and of the operations are all distinct.** -/
theorem nodup_modelTypes_append_surfaceTypes {spec : Spec} (hfault : fault? spec = none)
    (hbases : ∀ op ∈ spec.operations, typeName op.id ≠ "") :
    (modelTypes spec ++ surfaceTypes spec).Nodup := by
  refine List.nodup_append'.2 ⟨nodup_modelTypes hfault,
    nodup_flatMap_operationTypes (nodup_map_typeName hfault hbases), ?_⟩
  intro type hmodels hops
  obtain ⟨model, hmodel, rfl⟩ := List.mem_map.1 hmodels
  obtain ⟨op, hop, htype⟩ := List.mem_flatMap.1 hops
  exact typeName_ne_of_mem_operationTypes hfault hop (hbases op hop) htype hmodel rfl

/-- What is named after models has the names of their types. -/
theorem map_typeName_subset_modelTypes {spec : Spec} {names : List String}
    (h : ∀ name ∈ names, name ∈ spec.models.map Model.name) :
    names.map typeName ⊆ modelTypes spec := by
  intro type htype
  obtain ⟨name, hname, rfl⟩ := List.mem_map.1 htype
  obtain ⟨model, hmodel, rfl⟩ := List.mem_map.1 (h name hname)
  exact List.mem_map.2 ⟨model, hmodel, rfl⟩

end Plan

/-! ### What the module of types declares -/

namespace TypesModule

variable {plan : Plan}

theorem declaredTypes_modelDeclarations :
    declaredTypes plan.modelDeclarations = Plan.modelTypes plan.spec := by
  rw [declaredTypes, Plan.modelDeclarations, List.filterMap_map, Plan.modelTypes,
    ← List.filterMap_eq_map]
  refine List.filterMap_congr fun model _ ↦ ?_
  rw [Function.comp_apply, Model.typeDeclaration]
  split <;> rfl

theorem declaredTypes_validatorDeclarations : declaredTypes plan.validatorDeclarations = [] := by
  rw [declaredTypes, Plan.validatorDeclarations, List.filterMap_map]
  exact List.filterMap_eq_nil_iff.2 fun _ _ ↦ rfl

/-- The part about the models declares a type for each. -/
theorem declaredTypes_models : declaredTypes (models plan) = Plan.modelTypes plan.spec := by
  rw [models]
  split
  · next hzero => rw [Plan.modelTypes, List.length_eq_zero_iff.1 hzero]; rfl
  · have hbanner (title : String) : declaredTypes [.banner title] = [] := rfl
    rw [declaredTypes_append, declaredTypes_append, declaredTypes_append,
      declaredTypes_modelDeclarations, declaredTypes_validatorDeclarations, hbanner, hbanner,
      List.append_nil, List.append_nil, List.nil_append]

theorem declaredTypes_paramsDeclarations (op : Operation) :
    declaredTypes (Surface.standard op).paramsDeclarations =
      if op.parameters.any Plan.isSurfaceParameter then [typeName op.id ++ "Params"] else [] := by
  rw [Surface.paramsDeclarations, Surface.standard]
  split <;> split <;> simp_all [declaredTypes, Declaration.typeName?]

theorem declaredTypes_bodyDeclarations (op : Operation) :
    declaredTypes (Surface.standard op).bodyDeclarations =
      if op.requestBody.isSome then [typeName op.id ++ "Body"] else [] := by
  rw [Surface.bodyDeclarations, Surface.standard]
  cases op.requestBody <;> rfl

theorem declaredTypes_bodyValidators (s : Surface) :
    declaredTypes (bodyValidators plan s) = [] := by
  rw [bodyValidators]
  split <;> rfl

/-- An operation declares the types that the plan took into account, in another order. -/
theorem perm_declaredTypes_operationDeclarations (op : Operation) :
    (declaredTypes (operationDeclarations plan op)).Perm
      (Plan.operationTypes op (typeName op.id)) := by
  rw [operationDeclarations, declaredTypes_append, declaredTypes_append, declaredTypes_append,
    declaredTypes_paramsDeclarations, declaredTypes_bodyDeclarations, declaredTypes_bodyValidators,
    List.append_nil, Plan.operationTypes, List.append_assoc [typeName op.id ++ "Response"]]
  exact List.perm_append_comm

/-- A group declares the types of its operations. -/
theorem declaredTypes_groupDeclarations (g : OperationGroup) :
    declaredTypes (groupDeclarations plan g) =
      g.operations.flatMap fun op ↦ declaredTypes (operationDeclarations plan op) := by
  rw [groupDeclarations, declaredTypes_append, declaredTypes_append, declaredTypes_flatMap]
  exact List.append_nil _

theorem declaredTypes_index (entries : List Entry) : declaredTypes (index entries) = [] := by
  rw [index]
  split <;> rfl

/-- **What the module declares**, in another order: the types of the models and of the operations
in its groups. -/
theorem perm_declaredTypes {declared : List Declaration}
    (h : declarations plan .standard = .ok declared) :
    (declaredTypes declared).Perm (Plan.modelTypes plan.spec ++
      plan.operations.flatMap fun op ↦ Plan.operationTypes op (typeName op.id)) := by
  obtain ⟨-, rfl⟩ := declarations_eq_ok_iff.1 h
  have hopening : declaredTypes (opening plan) = [] := rfl
  have hgroups : declaredTypes (plan.groups.flatMap (groupDeclarations plan)) =
      plan.operations.flatMap fun op ↦ declaredTypes (operationDeclarations plan op) := by
    rw [declaredTypes_flatMap, Plan.operations, List.flatMap_assoc]
    exact List.flatMap_congr fun g _ ↦ declaredTypes_groupDeclarations g
  rw [declaredTypes_append, declaredTypes_append, declaredTypes_append, hopening,
    declaredTypes_models, hgroups, declaredTypes_index, List.append_nil, List.nil_append]
  exact (List.Perm.flatMap_left _ fun op _ ↦
    perm_declaredTypes_operationDeclarations op).append_left _

/-! ### What the module of types mentions -/

/-- The declarations mention no types but the given ones. -/
def MentionOnly (types : List String) (declared : List Declaration) : Prop :=
  ∀ d ∈ declared, d.namedTypes ⊆ types

section Lists

variable {types : List String}

theorem mentionOnly_nil : MentionOnly types [] := fun _ hd ↦ absurd hd List.not_mem_nil

theorem mentionOnly_append {xs ys : List Declaration}
    (hxs : MentionOnly types xs) (hys : MentionOnly types ys) : MentionOnly types (xs ++ ys) :=
  List.forall_mem_append.2 ⟨hxs, hys⟩

/-- A declaration that states no type, such as a heading or a constant without one. -/
theorem mentionOnly_of_types_eq_nil {d : Declaration} (h : d.types = []) :
    MentionOnly types [d] := by
  refine List.forall_mem_singleton.2 ?_
  rw [Declaration.namedTypes, h]
  exact List.nil_subset _

theorem mentionOnly_opening : MentionOnly types (opening plan) :=
  mentionOnly_append (mentionOnly_of_types_eq_nil rfl)
    (mentionOnly_append (mentionOnly_of_types_eq_nil rfl) (mentionOnly_of_types_eq_nil rfl))

theorem mentionOnly_index (entries : List Entry) : MentionOnly types (index entries) := by
  rw [index]
  split
  · exact mentionOnly_nil
  · exact mentionOnly_append (mentionOnly_of_types_eq_nil rfl) (mentionOnly_of_types_eq_nil rfl)

theorem mentionOnly_bodyValidators (s : Surface) : MentionOnly types (bodyValidators plan s) := by
  rw [bodyValidators]
  split
  · exact mentionOnly_of_types_eq_nil rfl
  · exact mentionOnly_nil

end Lists

theorem namedTypes_alias (name : String) (type : TypeExpr) (doc : Option String) :
    (Declaration.alias name type doc).namedTypes = type.namedTypes :=
  List.append_nil _

theorem namedTypes_interface (name : String) (members : List Member) (doc : Option String) :
    (Declaration.interface name members doc).namedTypes = membersNamedTypes members :=
  (membersNamedTypes_eq_flatMap members).symm

/-- The declaration of a model's type mentions types of models that the model refers to. -/
theorem namedTypes_typeDeclaration_subset (model : Model) :
    model.typeDeclaration.namedTypes ⊆ model.schema.references.map typeName := by
  rw [Model.typeDeclaration]
  split
  · next members hmembers =>
    rw [namedTypes_interface]
    exact Schema.membersNamedTypes_subset hmembers
  · rw [namedTypes_alias]
    exact Schema.namedTypes_toType_subset model.schema

/-- The declaration of a validator mentions at most the type of its model. -/
theorem namedTypes_validatorDeclaration_subset (model : Model) :
    (plan.validatorDeclaration model).namedTypes ⊆ [typeName model.name] := by
  rw [Declaration.namedTypes, Plan.validatorDeclaration, Declaration.types]
  split
  · exact List.Subset.refl _
  · exact List.nil_subset _

variable {types : List String}

/-- A declaration that states one type of a schema. -/
theorem mentionOnly_alias {schema : Schema}
    (h : schema.references.map typeName ⊆ types) (name : String) (doc : Option String) :
    MentionOnly types [.alias name schema.toType doc] := by
  refine List.forall_mem_singleton.2 ?_
  rw [namedTypes_alias]
  exact fun _ htype ↦ h (Schema.namedTypes_toType_subset schema htype)

/-- The part about the models mentions models only, if these refer to models only. -/
theorem mentionOnly_models
    (hmodels : ∀ model ∈ plan.spec.models, model.schema.references.map typeName ⊆ types)
    (htypes : Plan.modelTypes plan.spec ⊆ types) : MentionOnly types (models plan) := by
  rw [models]
  split
  · exact mentionOnly_nil
  · refine mentionOnly_append (mentionOnly_append (mentionOnly_append
      (mentionOnly_of_types_eq_nil rfl) ?_) (mentionOnly_of_types_eq_nil rfl)) ?_
    · intro d hd
      obtain ⟨model, hmodel, rfl⟩ := List.mem_map.1 hd
      exact fun _ htype ↦ hmodels model hmodel (namedTypes_typeDeclaration_subset model htype)
    · intro d hd type htype
      obtain ⟨model, hmodel, rfl⟩ := List.mem_map.1 hd
      obtain ⟨name, -, hfound⟩ := List.mem_filterMap.1 hmodel
      obtain rfl := List.mem_singleton.1 (namedTypes_validatorDeclaration_subset model htype)
      exact htypes (List.mem_map.2 ⟨model, List.mem_of_find?_eq_some hfound, rfl⟩)

/-- The type of the parameters mentions what their schemas refer to. -/
theorem mentionOnly_paramsDeclarations {op : Operation}
    (h : ∀ p ∈ op.parameters, p.schema.references.map typeName ⊆ types) :
    MentionOnly types (Surface.standard op).paramsDeclarations := by
  rw [Surface.paramsDeclarations]
  split
  · refine List.forall_mem_singleton.2 fun type htype ↦ ?_
    obtain ⟨t, ht, htype⟩ := List.mem_flatMap.1 htype
    obtain ⟨member, hmember, rfl⟩ := List.mem_map.1 ht
    obtain ⟨p, hp, rfl⟩ := List.mem_map.1 hmember
    exact h p (List.mem_of_mem_filter hp) (Schema.namedTypes_toType_subset p.schema htype)
  · exact mentionOnly_nil

/-- The type of the body mentions what its schema refers to. -/
theorem mentionOnly_bodyDeclarations {op : Operation}
    (h : ∀ body ∈ op.requestBody, body.schema.references.map typeName ⊆ types) :
    MentionOnly types (Surface.standard op).bodyDeclarations := by
  rw [Surface.bodyDeclarations]
  split
  · next body _ hbody => exact mentionOnly_alias (h _ hbody) _ _
  · exact mentionOnly_nil

/-- The type of the response mentions what its schema refers to. -/
theorem mentionOnly_responseType {op : Operation}
    (h : ∀ r ∈ op.responses, ∀ schema ∈ r.schema, schema.references.map typeName ⊆ types)
    (name : String) : MentionOnly types [.alias name (Surface.responseType op) none] := by
  rw [Surface.responseType]
  split
  · next schema hschema =>
    obtain ⟨r, hr, hschema⟩ := Option.bind_eq_some_iff.1 hschema
    exact mentionOnly_alias (h r (List.mem_of_find?_eq_some hr) schema hschema) _ _
  · exact List.forall_mem_singleton.2 (List.nil_subset _)

/-- The declarations for an operation mention types of models that its schemas refer to. -/
theorem mentionOnly_operationDeclarations {op : Operation}
    (h : ∀ schema ∈ Plan.operationSchemas op, schema.references.map typeName ⊆ types) :
    MentionOnly types (operationDeclarations plan op) := by
  simp only [Plan.operationSchemas, List.forall_mem_append, List.forall_mem_map, Option.mem_toList,
    List.mem_filterMap] at h
  obtain ⟨⟨hparameters, hbody⟩, hresponses⟩ := h
  refine mentionOnly_append (mentionOnly_append (mentionOnly_append
    (mentionOnly_paramsDeclarations hparameters)
    (mentionOnly_bodyDeclarations fun body hmem ↦ hbody _ (congrArg (Option.map _) hmem)))
    (mentionOnly_responseType (fun r hr schema hschema ↦ hresponses schema ⟨r, hr, hschema⟩) _))
    (mentionOnly_bodyValidators _)

/-- **What the module mentions**: only types of models. -/
theorem mentionOnly_declarations {spec : Spec} {options : RenderOptions}
    (hfault : Plan.fault? spec = none) {declared : List Declaration}
    (h : declarations (.make spec options) .standard = .ok declared) :
    MentionOnly (Plan.modelTypes spec) declared := by
  obtain ⟨-, rfl⟩ := declarations_eq_ok_iff.1 h
  refine mentionOnly_append (mentionOnly_append (mentionOnly_append
    mentionOnly_opening (mentionOnly_models (fun model hmodel ↦ ?_) (List.Subset.refl _)))
    (List.forall_mem_flatMap.2 fun g hg ↦ ?_)) (mentionOnly_index _)
  · exact Plan.map_typeName_subset_modelTypes fun name ↦
      Plan.mem_modelNames_of_model hfault hmodel
  · refine mentionOnly_append (mentionOnly_append (mentionOnly_of_types_eq_nil rfl)
      (List.forall_mem_flatMap.2 fun op hop ↦ ?_)) (mentionOnly_of_types_eq_nil rfl)
    have hop : op ∈ spec.operations := (Plan.perm_flatMap_groupsOf spec.operations).subset
      (List.mem_flatMap.2 ⟨g, hg, hop⟩)
    exact mentionOnly_operationDeclarations fun schema hschema ↦
      Plan.map_typeName_subset_modelTypes fun name ↦
        Plan.mem_modelNames_of_operation hfault hop hschema

/-- The text is that of a plan's module. -/
theorem render_typescript_eq_ok_iff {spec : Spec} {options : RenderOptions} {helpers : HelperTable}
    {text : String} :
    spec.render .typescript options helpers = .ok text ↔
      ∃ plan declared, Plan.ofSpec spec options = .ok plan ∧
        declarations plan helpers = .ok declared ∧ text = printModule declared :=
  Except.bind_map_eq_ok_iff

/-- A contract without a fault has a module of types if all ids of operations give a name. -/
theorem exists_module {spec : Spec} {options : RenderOptions}
    (hfault : (Plan.fault? spec).isNone = true)
    (hbases : ∀ op ∈ (Plan.make spec options).operations, typeName op.id ≠ "") :
    ∃ declared, declarations (.make spec options) .standard = .ok declared ∧
      spec.render .typescript options .standard = .ok (printModule declared) := by
  have hplan : Plan.ofSpec spec options = .ok (.make spec options) :=
    Plan.ofSpec_eq_ok_iff.2 ⟨Option.isNone_iff_eq_none.1 hfault, rfl⟩
  have hdeclared := declarations_eq_ok_iff.2 ⟨hbases, Eq.refl _⟩
  exact ⟨_, hdeclared, render_typescript_eq_ok_iff.2 ⟨_, _, hplan, hdeclared, rfl⟩⟩

/-- **The module of types is closed and unambiguous.** Whenever it is made of a contract, the
interfaces and aliases in it, of the models and of the operations, have distinct names, and every
type that is named in it, in a member, an alias or the type of a constant, is exactly one of
them. -/
theorem types_declared_once {spec : Spec} {options : RenderOptions} {text : String}
    (h : spec.render .typescript options .standard = .ok text) :
    ∃ plan declared, Plan.ofSpec spec options = .ok plan ∧
      declarations plan .standard = .ok declared ∧ text = printModule declared ∧
      (declaredTypes declared).Nodup ∧
      ∀ d ∈ declared, ∀ name ∈ d.namedTypes, (declaredTypes declared).count name = 1 := by
  obtain ⟨plan, declared, hplan, hdeclared, htext⟩ := render_typescript_eq_ok_iff.1 h
  obtain ⟨hfault, rfl⟩ := Plan.ofSpec_eq_ok_iff.1 hplan
  -- every operation is in a group, so the module could only be made if all ids give names
  have hoperations : (Plan.make spec options).operations.Perm spec.operations :=
    Plan.perm_flatMap_groupsOf spec.operations
  have hbases : ∀ op ∈ spec.operations, typeName op.id ≠ "" := fun op hop ↦
    (declarations_eq_ok_iff.1 hdeclared).1 op (hoperations.symm.subset hop)
  have hperm : (declaredTypes declared).Perm (Plan.modelTypes spec ++ Plan.surfaceTypes spec) :=
    (perm_declaredTypes hdeclared).trans ((hoperations.flatMap_right _).append_left _)
  have hnodup : (declaredTypes declared).Nodup :=
    hperm.nodup_iff.2 (Plan.nodup_modelTypes_append_surfaceTypes hfault hbases)
  refine ⟨_, declared, hplan, hdeclared, htext, hnodup, fun d hd name hname ↦ ?_⟩
  have hmodel : name ∈ Plan.modelTypes spec := mentionOnly_declarations hfault hdeclared d hd hname
  exact List.count_eq_one_of_mem hnodup
    (hperm.symm.subset (List.mem_append_left _ hmodel))

/-- A contract with a model that refers to itself and an operation with all three of its types. -/
def treeSpec : Spec :=
  let tree : Schema := { shape := .any, refName := some "tree" }
  .bare "Trees"
    [ { Spec.query "replace-tree" "/trees" [⟨"root", .query, true, tree, none⟩] with
        method := .put
        requestBody := some ⟨"application/json", tree, true⟩
        responses := [⟨"200", none, none, some tree⟩] } ]
    [⟨"tree", none, { shape := .object [⟨"children", { shape := .array tree }⟩] ∅ none }, [], ∅⟩]

/-- A model that mentions itself, and an operation with all three of its types. -/
theorem types_declared_once_treeSpec :
    ∃ text plan declared, treeSpec.render .typescript {} .standard = .ok text ∧
      Plan.ofSpec treeSpec {} = .ok plan ∧ declarations plan .standard = .ok declared ∧
      declaredTypes declared =
        ["Tree", "ReplaceTreeParams", "ReplaceTreeBody", "ReplaceTreeResponse"] ∧
      ∀ d ∈ declared, ∀ name ∈ d.namedTypes, (declaredTypes declared).count name = 1 := by
  have hplan : Plan.ofSpec treeSpec {} = .ok (.make treeSpec {}) :=
    Plan.ofSpec_eq_ok_iff.2 ⟨by decide +kernel, rfl⟩
  have hbases : ∀ op ∈ (Plan.make treeSpec {}).operations, typeName op.id ≠ "" := by decide +kernel
  have hdeclared := declarations_eq_ok_iff.2 ⟨hbases, Eq.refl _⟩
  have hrender := render_typescript_eq_ok_iff.2 ⟨_, _, hplan, hdeclared, Eq.refl _⟩
  obtain ⟨plan, declared, hplan', hdeclared', -, -, honce⟩ := types_declared_once hrender
  refine ⟨_, plan, declared, hrender, hplan', hdeclared', ?_, honce⟩
  obtain rfl := Except.ok.inj (hplan.symm.trans hplan')
  obtain ⟨-, rfl⟩ := declarations_eq_ok_iff.1 hdeclared'
  decide +kernel

end TypesModule

end ApiContract
