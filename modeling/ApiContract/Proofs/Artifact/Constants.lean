import ApiContract.Proofs.Artifact.FunctionNames
import ApiContract.Proofs.Artifact.LocalScope
import ApiContract.Proofs.Artifact.QueryKeys
import ApiContract.Proofs.Artifact.TypeIdentifiers
import ApiContract.Proofs.Identifier.ConstantCase
import ApiContract.Proofs.Projection.Scope

/-!
# The constants in the module of types

The module of types declares four kinds of constants: the address of the service, the ids of each
group, the index of the operations, and the validators of models and bodies. This module says when
no two of them have one name and when all of them can be declared.

## Main result

`constants_distinct_iff`: the constants are distinct exactly if no two tags have the same words but
for capitals, and they can be declared exactly if models, ids of operations with bodies, and tags do
not begin with a digit. Both conditions are about the contract alone (`TagsApart`,
`BeginsWithLetters`).

## Kinds told apart by their ends

The names of constants end in different letters: those of validators in `Schema`, those of the
groups in `_OPERATIONS`, and the two fixed ones in neither. So a collision is one within a kind
(`disjoint_of_getLast?`). Validators are distinct by what the plan requires of models and
operations, since their names follow from those of types. Groups are made by the tags as they are
written, but their constants are named by the words of the tags in capitals, and nothing requires
these to be distinct.

## The index

The keys of the index are the names of the functions of the client, in the order of the groups
(`exists_index`); whether they are distinct is the subject of `Proofs.Artifact.FunctionNames`.

A contract with two tags that differ in a capital is at the end, with the constant that it declares
twice.
-/

namespace ApiContract

open TypeScript

namespace TypesModule

variable {spec : Spec} {options : RenderOptions} {plan : Plan} {declared : List Declaration}
  {text : String}

/-! ### Which constants there are -/

/-- The names of the constants that are declared. -/
def constantNames (declared : List Declaration) : List String :=
  declared.filterMap Declaration.constName?

/-- The names of the constants with the ids of the groups. -/
def tagConstants (plan : Plan) : List String :=
  plan.groups.map fun g ↦ Identifier.constantCase g.tag ++ "_OPERATIONS"

/-- The name of the index, if there are operations. -/
def indexNames (plan : Plan) : List String :=
  if plan.operations.isEmpty then [] else ["operations"]

/-- The names of the constants that are no validators. -/
def otherConstants (plan : Plan) : List String :=
  [baseUrlName] ++ tagConstants plan ++ indexNames plan

/-- The index has one name. -/
theorem eq_of_mem_indexNames {name : String} (h : name ∈ indexNames plan) :
    name = "operations" := by
  rw [indexNames] at h
  split at h
  · exact absurd h List.not_mem_nil
  · exact List.mem_singleton.1 h

/-- A heading, or the declaration of a type or a constant. -/
def IsStatic (d : Declaration) : Prop := d.isTyping = true ∨ d.constName?.isSome = true

/-- A heading, a type or a constant declares a value only if it is a constant. -/
theorem valueNames_of_isStatic {d : Declaration} (h : IsStatic d) :
    d.valueNames = d.constName?.toList := by
  rcases h with htyping | hconst
  · have hname : d.constName? = none := by
      cases d with
      | const => exact absurd htyping Bool.false_ne_true
      | _ => rfl
    rw [Declaration.valueNames_of_isTyping htyping, hname]
    rfl
  · cases d with
    | const => rfl
    | _ => exact absurd hconst Bool.false_ne_true

/-- The values of static declarations are their constants. -/
theorem flatMap_valueNames_of_isStatic (h : ∀ d ∈ declared, IsStatic d) :
    declared.flatMap Declaration.valueNames = constantNames declared := by
  rw [constantNames, List.filterMap_eq_flatMap_toList]
  exact List.flatMap_congr fun d hd ↦ valueNames_of_isStatic (h d hd)

theorem isStatic_of_mem_models {d : Declaration} (h : d ∈ models plan) : IsStatic d := by
  rw [models] at h
  split at h
  · exact absurd h List.not_mem_nil
  · simp only [List.mem_append, List.mem_singleton] at h
    rcases h with ((rfl | htype) | rfl) | hvalidator
    · exact .inl rfl
    · exact .inl (ClientModule.isTyping_of_mem_modelDeclarations htype)
    · exact .inl rfl
    · obtain ⟨model, -, rfl⟩ := List.mem_map.1 hvalidator
      exact .inr rfl

theorem isStatic_of_mem_operationDeclarations {op : Operation} {d : Declaration}
    (h : d ∈ operationDeclarations plan op) : IsStatic d := by
  rcases List.mem_append.1 h with htype | hvalidator
  · exact .inl (ClientModule.isTyping_of_mem_typesOf htype)
  · rw [bodyValidators] at hvalidator
    split at hvalidator
    · exact List.mem_singleton.1 hvalidator ▸ .inr rfl
    · exact absurd hvalidator List.not_mem_nil

theorem isStatic_of_mem_groupDeclarations {g : OperationGroup} {d : Declaration}
    (h : d ∈ groupDeclarations plan g) : IsStatic d := by
  simp only [groupDeclarations, List.mem_append, List.mem_singleton, List.mem_flatMap] at h
  rcases h with (rfl | ⟨op, -, hop⟩) | rfl
  · exact .inl rfl
  · exact isStatic_of_mem_operationDeclarations hop
  · exact .inr rfl

theorem isStatic_of_mem_index {entries : List Entry} {d : Declaration} (h : d ∈ index entries) :
    IsStatic d := by
  rw [index] at h
  split at h
  · exact absurd h List.not_mem_nil
  · simp only [List.mem_cons, List.not_mem_nil, or_false] at h
    rcases h with rfl | rfl
    · exact .inl rfl
    · exact .inr rfl

/-- What the module declares or imports as values are `z` and the constants. -/
theorem flatMap_valueNames_eq (h : declarations plan .standard = .ok declared) :
    declared.flatMap Declaration.valueNames = "z" :: constantNames declared := by
  obtain ⟨-, rfl⟩ := declarations_eq_ok_iff.1 h
  rw [List.append_assoc, List.append_assoc]
  have hrest : ∀ d ∈ models plan ++ (plan.groups.flatMap (groupDeclarations plan) ++
      index (plan.groups.flatMap groupEntries)), IsStatic d := by
    intro d hd
    rcases List.mem_append.1 hd with hmodels | hlater
    · exact isStatic_of_mem_models hmodels
    rcases List.mem_append.1 hlater with hgroups | hindex
    · obtain ⟨g, -, hgroup⟩ := List.mem_flatMap.1 hgroups
      exact isStatic_of_mem_groupDeclarations hgroup
    · exact isStatic_of_mem_index hindex
  have hopening : (opening plan).flatMap Declaration.valueNames =
      "z" :: constantNames (opening plan) := rfl
  rw [List.flatMap_append, hopening, flatMap_valueNames_of_isStatic hrest, List.cons_append]
  exact congrArg _ List.filterMap_append.symm

/-- **The constants of the module**, in another order. -/
theorem perm_constantNames (h : declarations plan .standard = .ok declared) :
    (constantNames declared).Perm (otherConstants plan ++ validatorNames plan) := by
  have hvalues := perm_valueNames h
  rw [flatMap_valueNames_eq h] at hvalues
  exact hvalues.cons_inv

/-! ### Which constants are distinct -/

/-- An operation has a validator exactly if it has a body. -/
theorem mem_bodyValidatorNames_iff {op : Operation} {name : String} :
    name ∈ bodyValidatorNames op ↔
      op.requestBody.isSome = true ∧ name = typeName op.id ++ "Body" ++ "Schema" := by
  rw [bodyValidatorNames]
  split
  · next hbody => simp [hbody]
  · next hnone => simp [hnone]

theorem getLast?_append {s ending : String} {c : Char} (h : ending.toList.getLast? = some c) :
    (s ++ ending).toList.getLast? = some c := by
  rw [String.toList_append, List.getLast?_append, h, Option.some_or]

/-- The constants of groups end in a capital. -/
theorem getLast?_of_mem_tagConstants {name : String} (h : name ∈ tagConstants plan) :
    name.toList.getLast? = some 'S' := by
  obtain ⟨g, -, rfl⟩ := List.mem_map.1 h
  exact getLast?_append (by decide)

/-- The names of validators end in a small letter. -/
theorem getLast?_of_mem_validatorNames {name : String} (h : name ∈ validatorNames plan) :
    name.toList.getLast? = some 'a' := by
  rcases List.mem_append.1 h with hmodel | hbody
  · obtain ⟨model, -, rfl⟩ := List.mem_map.1 hmodel
    exact getLast?_append (by decide)
  · obtain ⟨op, -, hname⟩ := List.mem_flatMap.1 hbody
    obtain ⟨-, rfl⟩ := mem_bodyValidatorNames_iff.1 hname
    exact getLast?_append (by decide)

/-- The validators of the models are distinct, as their types are. -/
theorem nodup_modelValidators (hplan : Plan.ofSpec spec options = .ok plan) :
    (plan.orderedModels.map fun model ↦ validatorName model.name).Nodup := by
  obtain ⟨hfault, rfl⟩ := Plan.ofSpec_eq_ok_iff.1 hplan
  have hordered : (Plan.make spec options).orderedModels.Nodup := by
    refine List.Nodup.of_map Model.name ?_
    rw [Plan.map_name_orderedModels]
    exact ModelGraph.nodup_order (Plan.nodup_modelNames hfault)
  refine hordered.map_on fun model hmodel other hother heq ↦ ?_
  have htypes : typeName model.name = typeName other.name := (String.append_left_inj _).1 heq
  exact List.inj_on_of_nodup_map (Plan.nodup_modelTypes hfault)
    (Plan.mem_models_of_mem_orderedModels hmodel) (Plan.mem_models_of_mem_orderedModels hother)
    htypes

/-- The validators of the bodies are distinct, as the types of the operations are. -/
theorem nodup_bodyValidators (hplan : Plan.ofSpec spec options = .ok plan)
    (hbases : ∀ op ∈ plan.operations, typeName op.id ≠ "") :
    (plan.operations.flatMap bodyValidatorNames).Nodup := by
  have hfault := (Plan.ofSpec_eq_ok_iff.1 hplan).1
  have hperm := Plan.perm_operations hplan
  have htypes : (plan.operations.map fun op ↦ typeName op.id).Nodup :=
    (hperm.map _).nodup_iff.2 <|
      Plan.nodup_map_typeName hfault fun op hop ↦ hbases op (hperm.symm.subset hop)
  refine List.nodup_flatMap.2 ⟨fun op _ ↦ ?_, ?_⟩
  · rw [bodyValidatorNames]
    split <;> simp
  · refine (List.pairwise_map.1 htypes).imp fun hne name hfirst hsecond ↦ hne ?_
    have heq := (mem_bodyValidatorNames_iff.1 hfirst).2.symm.trans
      (mem_bodyValidatorNames_iff.1 hsecond).2
    rwa [String.append_left_inj, String.append_left_inj] at heq

/-- The type of a body is not that of a model, and so neither are their validators the same. -/
theorem disjoint_modelValidators (hplan : Plan.ofSpec spec options = .ok plan)
    (hbases : ∀ op ∈ plan.operations, typeName op.id ≠ "") :
    (plan.orderedModels.map fun model ↦ validatorName model.name).Disjoint
      (plan.operations.flatMap bodyValidatorNames) := by
  have hfault := (Plan.ofSpec_eq_ok_iff.1 hplan).1
  intro name hmodel hbody
  obtain ⟨model, hmem, rfl⟩ := List.mem_map.1 hmodel
  obtain ⟨op, hop, hname⟩ := List.mem_flatMap.1 hbody
  obtain ⟨hsome, heq⟩ := mem_bodyValidatorNames_iff.1 hname
  have htype : typeName op.id ++ "Body" ∈ Plan.operationTypes op (typeName op.id) := by
    rw [Plan.operationTypes, if_pos hsome]
    exact List.mem_append_right _ (List.mem_singleton_self _)
  have hmodels : model ∈ spec.models := by
    obtain ⟨-, rfl⟩ := Plan.ofSpec_eq_ok_iff.1 hplan
    exact Plan.mem_models_of_mem_orderedModels hmem
  exact Plan.typeName_ne_of_mem_operationTypes hfault ((Plan.perm_operations hplan).subset hop)
    (hbases op hop) htype hmodels ((String.append_left_inj _).1 heq)

/-- **The validators are distinct**, of models and of bodies. -/
theorem nodup_validatorNames (hplan : Plan.ofSpec spec options = .ok plan)
    (hbases : ∀ op ∈ plan.operations, typeName op.id ≠ "") : (validatorNames plan).Nodup :=
  List.nodup_append'.2 ⟨nodup_modelValidators hplan, nodup_bodyValidators hplan hbases,
    disjoint_modelValidators hplan hbases⟩

/-- Names that end in different letters are apart. -/
theorem disjoint_of_getLast? {names others : List String} {c d : Char} (hne : c ≠ d)
    (hnames : ∀ name ∈ names, name.toList.getLast? = some c)
    (hothers : ∀ name ∈ others, name.toList.getLast? = some d) : names.Disjoint others :=
  fun name hname hother ↦
    hne (Option.some.inj ((hnames name hname).symm.trans (hothers name hother)))

/-- **The constants are distinct** if those of the groups are. -/
theorem nodup_append_validatorNames_iff (hvalidators : (validatorNames plan).Nodup) :
    (otherConstants plan ++ validatorNames plan).Nodup ↔ (tagConstants plan).Nodup := by
  -- the last letters tell the kinds apart, and only among the constants of groups is there a choice
  have hbase : ∀ name ∈ [baseUrlName], name.toList.getLast? = some 'L' := by decide
  have htags : ∀ name ∈ tagConstants plan, name.toList.getLast? = some 'S' := fun _ h ↦
    getLast?_of_mem_tagConstants h
  have hindex : ∀ name ∈ indexNames plan, name.toList.getLast? = some 's' := fun name hname ↦ by
    rw [eq_of_mem_indexNames hname]
    decide
  have hvalidatorNames : ∀ name ∈ validatorNames plan, name.toList.getLast? = some 'a' := fun _ h ↦
    getLast?_of_mem_validatorNames h
  have hindexNames : (indexNames plan).Nodup := by
    rw [indexNames]
    split <;> simp
  simp only [otherConstants, List.nodup_append', List.disjoint_append_left]
  constructor
  · rintro ⟨⟨⟨-, hnodup, -⟩, -⟩, -⟩
    exact hnodup
  · intro hnodup
    have hbaseTags := disjoint_of_getLast? (by decide) hbase htags
    have hbaseIndex := disjoint_of_getLast? (by decide) hbase hindex
    have htagsIndex := disjoint_of_getLast? (by decide) htags hindex
    exact ⟨⟨⟨List.nodup_singleton _, hnodup, hbaseTags⟩, hindexNames, hbaseIndex, htagsIndex⟩,
      hvalidators, ⟨disjoint_of_getLast? (by decide) hbase hvalidatorNames,
        disjoint_of_getLast? (by decide) htags hvalidatorNames⟩,
      disjoint_of_getLast? (by decide) hindex hvalidatorNames⟩

/-- No two primary tags have the same words but for capitals. -/
def TagsApart (spec : Spec) : Prop :=
  ∀ op ∈ spec.operations, ∀ other ∈ spec.operations,
    Identifier.upperWords op.primaryTag = Identifier.upperWords other.primaryTag →
      op.primaryTag = other.primaryTag

instance (spec : Spec) : Decidable (TagsApart spec) :=
  inferInstanceAs <| Decidable <| ∀ op ∈ spec.operations, ∀ other ∈ spec.operations,
    Identifier.upperWords op.primaryTag = Identifier.upperWords other.primaryTag →
      op.primaryTag = other.primaryTag

/-- The constants of the groups are distinct exactly if the words of the tags are. -/
theorem nodup_tagConstants_iff (hplan : Plan.ofSpec spec options = .ok plan) :
    (tagConstants plan).Nodup ↔ TagsApart spec := by
  have htags : tagConstants plan = (plan.groups.map OperationGroup.tag).map fun tag ↦
      Identifier.constantCase tag ++ "_OPERATIONS" := by
    rw [tagConstants, List.map_map]
    rfl
  have hmem (tag : String) : tag ∈ plan.groups.map OperationGroup.tag ↔
      ∃ op ∈ spec.operations, op.primaryTag = tag := by
    rw [Plan.mem_tags_iff hplan, List.mem_map]
  rw [htags, List.nodup_map_iff_inj_on (Plan.nodup_tags hplan)]
  simp only [hmem, String.append_left_inj, Identifier.constantCase_eq_constantCase_iff, TagsApart,
    forall_exists_index, and_imp, forall_apply_eq_imp_iff₂]

/-! ### Which constants are identifiers -/

/-- The names that constants are made of begin with a letter; a tag may also have none. -/
structure BeginsWithLetters (spec : Spec) : Prop where
  models : ∀ model ∈ spec.models, Identifier.StartsWithLetter model.name
  bodies : ∀ op ∈ spec.operations, op.requestBody.isSome = true → Identifier.StartsWithLetter op.id
  tags : ∀ op ∈ spec.operations, ¬Identifier.StartsWithDigit op.primaryTag

/-- A name that ends as constants do is not reserved. -/
theorem isBindable_iff_of_getLast? {name : String}
    (h : name.toList.getLast? = some 'S' ∨ name.toList.getLast? = some 'a') :
    IsBindable name ↔ Identifier.isPlainProperty name = true := by
  have hreserved : ∀ word ∈ reservedWords ++ protectedNames,
      word.toList.getLast? ≠ some 'S' ∧ word.toList.getLast? ≠ some 'a' := by decide +kernel
  refine ⟨IsBindable.plain, fun hplain ↦ ⟨hplain, fun hmem ↦ ?_⟩⟩
  exact h.elim (hreserved name hmem).1 (hreserved name hmem).2

/-- The constant of a group can be declared unless its tag begins with a digit. A tag without words
is no exception, for the underscore then comes first. -/
theorem isBindable_tagConstant_iff (tag : String) :
    IsBindable (Identifier.constantCase tag ++ "_OPERATIONS") ↔
      ¬Identifier.StartsWithDigit tag := by
  rw [isBindable_iff_of_getLast? (.inl (getLast?_append (by decide)))]
  exact Identifier.isPlainProperty_constantCase_append_iff (by decide)

/-- A validator can be declared exactly if what it is named after begins with a letter. -/
theorem isBindable_validator_iff {source ending : String} (hsource : typeName source ≠ "")
    (hending : ending ∈ ["Schema", "BodySchema"]) :
    IsBindable (typeName source ++ ending) ↔ Identifier.StartsWithLetter source := by
  have hlast : ∀ ending ∈ ["Schema", "BodySchema"], ending.toList.getLast? = some 'a' := by decide
  have hknown : ["Schema", "BodySchema"] ⊆ endings := by decide
  rw [isBindable_iff_of_getLast? (.inr (getLast?_append (hlast ending hending)))]
  exact (isNamedAfter_append hsource (hknown hending)).plain

/-- All constants of groups can be declared exactly if no tag begins with a digit. -/
theorem bindable_tagConstants_iff (hplan : Plan.ofSpec spec options = .ok plan) :
    (∀ name ∈ tagConstants plan, IsBindable name) ↔
      ∀ op ∈ spec.operations, ¬Identifier.StartsWithDigit op.primaryTag := by
  rw [tagConstants, List.forall_mem_map,
    ← Plan.forall_tag_iff hplan (¬Identifier.StartsWithDigit ·)]
  exact forall₂_congr fun g _ ↦ isBindable_tagConstant_iff g.tag

/-- All validators of models can be declared exactly if every model begins with a letter. -/
theorem bindable_modelValidators_iff (hplan : Plan.ofSpec spec options = .ok plan) :
    (∀ name ∈ plan.orderedModels.map fun model ↦ validatorName model.name, IsBindable name) ↔
      ∀ model ∈ spec.models, Identifier.StartsWithLetter model.name := by
  obtain ⟨hfault, rfl⟩ := Plan.ofSpec_eq_ok_iff.1 hplan
  have hmem (name : String) : name ∈ (Plan.make spec options).orderedModels.map Model.name ↔
      name ∈ spec.models.map Model.name := by
    rw [Plan.map_name_orderedModels]
    exact ModelGraph.mem_order_iff
  have hnames := Plan.forall_mem_iff_of_map hmem Identifier.StartsWithLetter
  have hsources := (Plan.modelNameFault?_eq_none_iff.1 (Plan.fault?_eq_none_iff.1 hfault).1).1
  rw [List.forall_mem_map, ← hnames]
  exact forall₂_congr fun model hmodel ↦ isBindable_validator_iff
    (hsources model (Plan.mem_models_of_mem_orderedModels hmodel)) (by decide)

/-- All validators of bodies can be declared exactly if the ids of operations with bodies begin with
letters. -/
theorem bindable_bodyValidators_iff (hplan : Plan.ofSpec spec options = .ok plan)
    (hbases : ∀ op ∈ plan.operations, typeName op.id ≠ "") :
    (∀ name ∈ plan.operations.flatMap bodyValidatorNames, IsBindable name) ↔
      ∀ op ∈ spec.operations, op.requestBody.isSome = true →
        Identifier.StartsWithLetter op.id := by
  have hops (op : Operation) : op ∈ plan.operations ↔ op ∈ spec.operations :=
    (Plan.perm_operations hplan).mem_iff
  simp only [← hops, List.forall_mem_flatMap, mem_bodyValidatorNames_iff, and_imp]
  refine forall₂_congr fun op hop ↦ ?_
  rw [forall_comm, forall_eq, String.append_assoc]
  exact imp_congr_right fun _ ↦ isBindable_validator_iff (hbases op hop) (by decide)

/-- **All constants can be declared exactly if what they are named after begins with letters.** -/
theorem bindable_constants_iff (hplan : Plan.ofSpec spec options = .ok plan)
    (hbases : ∀ op ∈ plan.operations, typeName op.id ≠ "") :
    (∀ name ∈ otherConstants plan ++ validatorNames plan, IsBindable name) ↔
      BeginsWithLetters spec := by
  have hbase : ∀ name ∈ [baseUrlName], IsBindable name :=
    List.forall_mem_singleton.2 ⟨by decide, by decide⟩
  have hindex : ∀ name ∈ indexNames plan, IsBindable name := fun name hname ↦
    eq_of_mem_indexNames hname ▸ ⟨by decide, by decide⟩
  have hsplit : BeginsWithLetters spec ↔
      (∀ op ∈ spec.operations, ¬Identifier.StartsWithDigit op.primaryTag) ∧
        (∀ model ∈ spec.models, Identifier.StartsWithLetter model.name) ∧
        ∀ op ∈ spec.operations, op.requestBody.isSome = true →
          Identifier.StartsWithLetter op.id :=
    ⟨fun h ↦ ⟨h.tags, h.models, h.bodies⟩,
      fun ⟨htags, hmodels, hbodies⟩ ↦ ⟨hmodels, hbodies, htags⟩⟩
  rw [hsplit, ← bindable_tagConstants_iff hplan, ← bindable_modelValidators_iff hplan,
    ← bindable_bodyValidators_iff hplan hbases, otherConstants, validatorNames]
  simp only [List.forall_mem_append]
  tauto

/-! ### The module -/

/-- The operations in the order of the groups, each with its tag. -/
def taggedOperations (plan : Plan) : List (String × Operation) :=
  plan.groups.flatMap fun g ↦ g.operations.map (Prod.mk g.tag)

theorem map_snd_taggedOperations (plan : Plan) :
    (taggedOperations plan).map Prod.snd = plan.operations := by
  rw [taggedOperations, List.map_flatMap, Plan.operations]
  refine List.flatMap_congr fun g _ ↦ ?_
  rw [List.map_map]
  exact List.map_id _

/-- The index has one entry for each operation, in the order of the groups. -/
theorem flatMap_groupEntries_eq (plan : Plan) :
    plan.groups.flatMap groupEntries = (taggedOperations plan).map fun x ↦ entryOf x.1 x.2 := by
  rw [taggedOperations, List.map_flatMap]
  refine List.flatMap_congr fun g _ ↦ ?_
  rw [groupEntries, List.map_map]
  rfl

/-- The keys of the index are the names of the functions of the client. -/
theorem exists_fields_groupEntries (plan : Plan) :
    ∃ fields, (Expr.asConst (.object (plan.groups.flatMap groupEntries))).fields? = some fields ∧
      fields.map Prod.fst = ClientModule.functionNames plan := by
  obtain ⟨value, hvalue⟩ : ∃ value : String × Operation → Expr, ∀ x : String × Operation,
      entryOf x.1 x.2 = .keyed (Surface.standard x.2).functionName (value x) := ⟨_, fun _ ↦ rfl⟩
  have hfields := mapM_field?_keyed (fun x : String × Operation ↦
    (Surface.standard x.2).functionName) value (taggedOperations plan)
  have hobject (entries : List Entry) :
      (Expr.asConst (.object entries)).fields? = entries.mapM Entry.field? := rfl
  rw [flatMap_groupEntries_eq, List.map_congr_left fun x _ ↦ hvalue x, hobject, hfields]
  refine ⟨_, Eq.refl _, ?_⟩
  rw [ClientModule.functionNames, ← map_snd_taggedOperations, List.map_map, List.map_map]
  simp only [Function.comp_def]

/-- The index has an entry for each operation, under the name of its function. -/
theorem exists_index (hdeclared : declarations plan .standard = .ok declared)
    (hsome : plan.operations ≠ []) :
    ∃ value fields, .const "operations" none value none ∈ declared ∧
      value.fields? = some fields ∧ fields.map Prod.fst = ClientModule.functionNames plan := by
  obtain ⟨-, rfl⟩ := declarations_eq_ok_iff.1 hdeclared
  obtain ⟨fields, hfields, hkeys⟩ := exists_fields_groupEntries plan
  have hentries : (plan.groups.flatMap groupEntries).isEmpty = false := by
    rw [flatMap_groupEntries_eq, List.isEmpty_eq_false_iff]
    intro hnil
    rw [List.map_eq_nil_iff] at hnil
    exact hsome (map_snd_taggedOperations plan ▸ hnil ▸ rfl)
  have hindex : .const "operations" none (.asConst (.object (plan.groups.flatMap groupEntries)))
      none ∈ index (plan.groups.flatMap groupEntries) := by
    rw [index, hentries]
    exact List.mem_cons_of_mem _ (List.mem_singleton_self _)
  exact ⟨_, fields, List.mem_append_right _ hindex, hfields, hkeys⟩

/-- **The constants of the module are distinct exactly if its tags are, up to capitals.** Whenever
the module of types of a contract can be made, its constants are the address of the service, the ids
of each group, the index and the validators. No two have one name exactly if tags with the same
words are the same, where capitals do not count. All of them can be declared exactly if models, ids
of operations with bodies, and tags do not begin with a digit. The index has the functions of the
operations for its keys, and these are distinct exactly if no two ids agree in camel case. -/
theorem constants_distinct_iff (h : spec.render .typescript options .standard = .ok text) :
    ∃ plan declared, Plan.ofSpec spec options = .ok plan ∧
      declarations plan .standard = .ok declared ∧ text = printModule declared ∧
      (constantNames declared).Perm (otherConstants plan ++ validatorNames plan) ∧
      ((constantNames declared).Nodup ↔ TagsApart spec) ∧
      ((∀ name ∈ constantNames declared, IsBindable name) ↔ BeginsWithLetters spec) ∧
      (plan.operations ≠ [] → ∃ value fields, .const "operations" none value none ∈ declared ∧
        value.fields? = some fields ∧ fields.map Prod.fst = ClientModule.functionNames plan) ∧
      ((ClientModule.functionNames plan).Nodup ↔
        (spec.operations.map fun op ↦ Identifier.camelCase op.id).Nodup) := by
  obtain ⟨plan, declared, hplan, hdeclared, htext⟩ := render_typescript_eq_ok_iff.1 h
  have hbases := (declarations_eq_ok_iff.1 hdeclared).1
  have hperm := perm_constantNames hdeclared
  refine ⟨plan, declared, hplan, hdeclared, htext, hperm, ?_, ?_, exists_index hdeclared,
    ClientModule.nodup_functionNames_iff hplan⟩
  · rw [hperm.nodup_iff, nodup_append_validatorNames_iff (nodup_validatorNames hplan hbases)]
    exact nodup_tagConstants_iff hplan
  · rw [← bindable_constants_iff hplan hbases]
    exact forall_congr' fun name ↦ imp_congr_left hperm.mem_iff

/-- Two queries whose tags are told apart by a capital. -/
def shelterSpec : Spec :=
  .bare "Shelter"
    [ { Spec.query "listPets" "/pets" [] with tags := ["Pets"] }
    , { Spec.query "countPets" "/pets/count" [] with tags := ["pets"] } ] []

theorem exists_module_shelterSpec : ∃ declared,
    declarations (.make shelterSpec {}) .standard = .ok declared ∧
      shelterSpec.render .typescript {} .standard = .ok (printModule declared) :=
  exists_module (by decide +kernel) (by decide +kernel)

/-- The constants can all be declared, but not together. -/
theorem constants_distinct_iff_shelterSpec :
    ∃ text plan declared, shelterSpec.render .typescript {} .standard = .ok text ∧
      Plan.ofSpec shelterSpec {} = .ok plan ∧ text = printModule declared ∧
      (constantNames declared).Perm (otherConstants plan ++ validatorNames plan) ∧
      ¬(constantNames declared).Nodup ∧ (∀ name ∈ constantNames declared, IsBindable name) ∧
      (ClientModule.functionNames plan).Nodup := by
  obtain ⟨declared, -, hrender⟩ := exists_module_shelterSpec
  obtain ⟨plan, declared, hplan, -, htext, hperm, hnodup, hbindable, -, hkeys⟩ :=
    constants_distinct_iff hrender
  have hletters : BeginsWithLetters shelterSpec :=
    { models := by decide +kernel, bodies := by decide +kernel, tags := by decide +kernel }
  have hsame : ¬TagsApart shelterSpec := by decide +kernel
  exact ⟨_, plan, declared, hrender, hplan, htext, hperm, fun h ↦ hsame (hnodup.1 h),
    hbindable.2 hletters, hkeys.2 (by decide +kernel)⟩

/-- One constant is declared twice, once for each group. -/
theorem constant_declared_twice_shelterSpec :
    ∃ declared, shelterSpec.render .typescript {} .standard = .ok (printModule declared) ∧
      (constantNames declared).Perm
        ["API_BASE_URL", "PETS_OPERATIONS", "PETS_OPERATIONS", "operations"] := by
  obtain ⟨declared, hdeclared, hrender⟩ := exists_module_shelterSpec
  have hperm := perm_constantNames hdeclared
  have hnames : otherConstants (.make shelterSpec {}) ++ validatorNames (.make shelterSpec {}) =
      ["API_BASE_URL", "PETS_OPERATIONS", "PETS_OPERATIONS", "operations"] := by decide +kernel
  exact ⟨declared, hrender, hnames ▸ hperm⟩

end TypesModule

end ApiContract
