import ApiContract.Proofs.Artifact.Client
import ApiContract.Proofs.Artifact.TypeNames
import ApiContract.Proofs.Identifier.Words

/-!
# Which types have identifiers

A type or a validator is named after a model or an operation: it has the Pascal case of the name or
the id, with an ending. The plan asks that the Pascal case is not empty, and nothing asks that it
begins with a letter, so a type may have a name that is no identifier.

## Main result

`type_identifier_iff` is about the module of types of any contract for which it can be made. It
lists the values in the module, says that each type and each validator is named after a model or an
operation (`IsNamedAfter`), and that all of these names are identifiers exactly if every model and
every id begins with a letter, where characters other than letters and digits do not count.

## Proof

The values and types of the module are collected part by part, up to order. Pascal case keeps the
first letter or digit of a name and has no other characters than letters and digits, so it is an
identifier just if that first one is a letter, and an ending does not change that. Every model and
operation has at least one type, which gives the converse.

A model whose name begins with a digit is at the end.
-/

namespace ApiContract

open TypeScript

namespace TypesModule

variable {spec : Spec} {options : RenderOptions} {plan : Plan} {declared : List Declaration}
  {text : String}

/-! ### The constants of the module -/

/-- The name of the validator for the body of an operation, if it has one. -/
def bodyValidatorNames (op : Operation) : List String :=
  if op.requestBody.isSome then [typeName op.id ++ "Body" ++ "Schema"] else []

/-- The names of the validators, of the models and of the bodies. -/
def validatorNames (plan : Plan) : List String :=
  plan.orderedModels.map (fun model ↦ validatorName model.name) ++
    plan.operations.flatMap bodyValidatorNames

/-- The names of the other values: what is imported, the address of the service, the ids by group
and the index. -/
def otherNames (plan : Plan) : List String :=
  ["z", baseUrlName] ++
    plan.groups.map (fun g ↦ Identifier.constantCase g.tag ++ "_OPERATIONS") ++
    if plan.operations.isEmpty then [] else ["operations"]

/-- The part about the models declares their validators. -/
theorem valueNames_models : (models plan).flatMap Declaration.valueNames =
    plan.orderedModels.map fun model ↦ validatorName model.name := by
  have hmodels : plan.modelDeclarations.flatMap Declaration.valueNames = [] :=
    flatMap_valueNames_of_isTyping fun d hd ↦ ClientModule.isTyping_of_mem_modelDeclarations hd
  have hvalidators : plan.validatorDeclarations.flatMap Declaration.valueNames =
      plan.orderedModels.map fun model ↦ validatorName model.name := by
    rw [Plan.validatorDeclarations, List.flatMap_map, List.map_eq_flatMap]
    rfl
  have hbanner (title : String) : [Declaration.banner title].flatMap Declaration.valueNames = [] :=
    rfl
  rw [models]
  split
  · next hzero =>
    have hnone : plan.orderedModels = [] := by
      refine List.filterMap_eq_nil_iff.2 fun name _ ↦ ?_
      rw [Spec.model?, List.length_eq_zero_iff.1 hzero]
      rfl
    rw [hnone]
    rfl
  · rw [List.flatMap_append, List.flatMap_append, List.flatMap_append, hmodels, hvalidators,
      hbanner, hbanner]
    rfl

/-- An operation declares the validator of its body. -/
theorem valueNames_operationDeclarations (op : Operation) :
    (operationDeclarations plan op).flatMap Declaration.valueNames = bodyValidatorNames op := by
  have hsplit : operationDeclarations plan op =
      ClientModule.typesOf op ++ bodyValidators plan (.standard op) := rfl
  have htypes : (ClientModule.typesOf op).flatMap Declaration.valueNames = [] :=
    flatMap_valueNames_of_isTyping fun d hd ↦ ClientModule.isTyping_of_mem_typesOf hd
  have hvalidators : (bodyValidators plan (.standard op)).flatMap Declaration.valueNames =
      bodyValidatorNames op := by
    rw [bodyValidators, Surface.standard, bodyValidatorNames]
    cases op.requestBody <;> rfl
  rw [hsplit, List.flatMap_append, htypes, hvalidators, List.nil_append]

/-- What groups declare, in another order: the validators of bodies, and the ids by group. -/
theorem perm_valueNames_groups (plan : Plan) :
    ((plan.groups.flatMap (groupDeclarations plan)).flatMap Declaration.valueNames).Perm
      (plan.operations.flatMap bodyValidatorNames ++
        plan.groups.map fun g ↦ Identifier.constantCase g.tag ++ "_OPERATIONS") := by
  have hgroup (g : OperationGroup) : (groupDeclarations plan g).flatMap Declaration.valueNames =
      g.operations.flatMap bodyValidatorNames ++
        [Identifier.constantCase g.tag ++ "_OPERATIONS"] := by
    rw [groupDeclarations, List.flatMap_append, List.flatMap_append, List.flatMap_assoc,
      List.flatMap_congr fun op _ ↦ valueNames_operationDeclarations op]
    rfl
  rw [Plan.operations, List.flatMap_assoc, List.flatMap_assoc, List.map_eq_flatMap,
    List.flatMap_congr fun g _ ↦ hgroup g]
  exact (List.flatMap_append_perm plan.groups _ _).symm

/-- The index is declared if there are operations. -/
theorem valueNames_index (plan : Plan) :
    (index (plan.groups.flatMap groupEntries)).flatMap Declaration.valueNames =
      if plan.operations.isEmpty then [] else ["operations"] := by
  have hempty : (plan.groups.flatMap groupEntries).isEmpty = plan.operations.isEmpty := by
    rw [Bool.eq_iff_iff]
    simp only [Plan.operations, groupEntries, List.isEmpty_iff, List.flatMap_eq_nil_iff,
      List.map_eq_nil_iff]
  rw [index, hempty]
  split <;> rfl

/-- **The values that the module declares or imports**, in another order: the validators and the
others. -/
theorem perm_valueNames (h : declarations plan .standard = .ok declared) :
    (declared.flatMap Declaration.valueNames).Perm (otherNames plan ++ validatorNames plan) := by
  obtain ⟨-, rfl⟩ := declarations_eq_ok_iff.1 h
  have hopening : (opening plan).flatMap Declaration.valueNames = ["z", baseUrlName] := rfl
  have hgroups := perm_valueNames_groups plan
  rw [List.flatMap_append, List.flatMap_append, List.flatMap_append, hopening, valueNames_models,
    valueNames_index, otherNames, validatorNames]
  -- the parts are the same, so each name is in both as often
  refine List.perm_iff_count.2 fun name ↦ ?_
  have hcount := hgroups.count_eq name
  simp only [List.count_append] at hcount ⊢
  omega

/-! ### Names that are identifiers -/

/-- What types and validators are named after: the models and the ids of the operations. -/
def sources (spec : Spec) : List String :=
  spec.models.map Model.name ++ spec.operations.map Operation.id

/-- What the names of types and validators end in. -/
def endings : List String := ["", "Schema", "Response", "Params", "Body", "BodySchema"]

/-- A type or validator that is named after something has an identifier just if that begins with a
letter. -/
structure IsNamedAfter (source name : String) : Prop where
  ending : ∃ ending ∈ endings, name = typeName source ++ ending
  plain : Identifier.isPlainProperty name = true ↔ Identifier.StartsWithLetter source

/-- A name with an ending is named after what gave the name. -/
theorem isNamedAfter_append {source ending : String} (hsource : typeName source ≠ "")
    (hending : ending ∈ endings) : IsNamedAfter source (typeName source ++ ending) where
  ending := ⟨ending, hending, rfl⟩
  plain := by
    have hchars : ∀ ending ∈ endings, ending.toList.all Identifier.isPlainChar = true := by
      decide +kernel
    exact Identifier.isPlainProperty_pascalCase_append_iff hsource
      (List.all_eq_true.1 (hchars ending hending))

/-- A type without an ending is named after its model. -/
theorem isNamedAfter_typeName {source : String} (hsource : typeName source ≠ "") :
    IsNamedAfter source (typeName source) := by
  have hempty : "" ∈ endings := List.mem_cons_self
  have h := isNamedAfter_append hsource hempty
  rwa [String.append_empty] at h

/-- The type and the validator of a model are named after it. -/
theorem isNamedAfter_of_model (hfault : Plan.fault? spec = none) {model : Model}
    (hmodel : model ∈ spec.models) :
    IsNamedAfter model.name (typeName model.name) ∧
      IsNamedAfter model.name (validatorName model.name) := by
  have hmodels := (Plan.modelNameFault?_eq_none_iff.1 (Plan.fault?_eq_none_iff.1 hfault).1).1
  have hname := hmodels model hmodel
  exact ⟨isNamedAfter_typeName hname, isNamedAfter_append hname (by decide)⟩

/-- The types of an operation and the validator of its body are named after its id. -/
theorem isNamedAfter_of_operation {op : Operation} (hname : typeName op.id ≠ "") :
    (∀ name ∈ Plan.operationTypes op (typeName op.id), IsNamedAfter op.id name) ∧
      ∀ name ∈ bodyValidatorNames op, IsNamedAfter op.id name := by
  constructor
  · intro name htype
    obtain ⟨ending, hending, rfl⟩ := List.mem_map.1 ((Plan.operationTypes_sublist _ _).subset htype)
    have hsubset : Plan.typeSuffixes ⊆ endings := by decide
    exact isNamedAfter_append hname (hsubset hending)
  · intro name hvalidator
    rw [bodyValidatorNames] at hvalidator
    split at hvalidator
    · rw [List.mem_singleton.1 hvalidator, String.append_assoc]
      exact isNamedAfter_append hname (by decide)
    · exact absurd hvalidator List.not_mem_nil

/-- **Every type and validator is named after a model or an operation.** -/
theorem exists_isNamedAfter (hplan : Plan.ofSpec spec options = .ok plan)
    (hdeclared : declarations plan .standard = .ok declared) {name : String}
    (hname : name ∈ declaredTypes declared ++ validatorNames plan) :
    ∃ source ∈ sources spec, IsNamedAfter source name := by
  have hbases := (declarations_eq_ok_iff.1 hdeclared).1
  obtain ⟨hfault, rfl⟩ := Plan.ofSpec_eq_ok_iff.1 hplan
  have hmodel {model : Model} (h : model ∈ spec.models) : model.name ∈ sources spec :=
    List.mem_append_left _ (List.mem_map_of_mem h)
  have hoperation {op : Operation} (h : op ∈ spec.operations) : op.id ∈ sources spec :=
    List.mem_append_right _ (List.mem_map_of_mem h)
  have hspec {op : Operation} (h : op ∈ (Plan.make spec options).operations) :
      op ∈ spec.operations := Plan.mem_operations_of_ofSpec hplan h
  have hnamed {op : Operation} (h : op ∈ (Plan.make spec options).operations) :=
    isNamedAfter_of_operation (hbases op h)
  rcases List.mem_append.1 hname with htype | hvalidator
  · rcases List.mem_append.1 ((perm_declaredTypes hdeclared).subset htype) with hmodels | hops
    · obtain ⟨model, hmem, rfl⟩ := List.mem_map.1 hmodels
      exact ⟨_, hmodel hmem, (isNamedAfter_of_model hfault hmem).1⟩
    · obtain ⟨op, hop, hmem⟩ := List.mem_flatMap.1 hops
      exact ⟨_, hoperation (hspec hop), (hnamed hop).1 _ hmem⟩
  · rcases List.mem_append.1 hvalidator with hmodels | hops
    · obtain ⟨model, hmem, rfl⟩ := List.mem_map.1 hmodels
      obtain ⟨_, -, hfound⟩ := List.mem_filterMap.1 hmem
      have hmem : model ∈ spec.models := List.mem_of_find?_eq_some hfound
      exact ⟨_, hmodel hmem, (isNamedAfter_of_model hfault hmem).2⟩
    · obtain ⟨op, hop, hmem⟩ := List.mem_flatMap.1 hops
      exact ⟨_, hoperation (hspec hop), (hnamed hop).2 _ hmem⟩

/-- Every model and every operation has a type that is named after it. -/
theorem exists_type_of_mem_sources (hplan : Plan.ofSpec spec options = .ok plan)
    (hdeclared : declarations plan .standard = .ok declared) {source : String}
    (hsource : source ∈ sources spec) :
    ∃ type ∈ declaredTypes declared, IsNamedAfter source type := by
  have hbases := (declarations_eq_ok_iff.1 hdeclared).1
  obtain ⟨hfault, rfl⟩ := Plan.ofSpec_eq_ok_iff.1 hplan
  have htypes := (perm_declaredTypes hdeclared).symm.subset
  rcases List.mem_append.1 hsource with hmodels | hops
  · obtain ⟨model, hmodel, rfl⟩ := List.mem_map.1 hmodels
    exact ⟨_, htypes (List.mem_append_left _ (List.mem_map_of_mem hmodel)),
      (isNamedAfter_of_model hfault hmodel).1⟩
  · obtain ⟨op, hop, rfl⟩ := List.mem_map.1 hops
    have hop := (Plan.perm_operations hplan).symm.subset hop
    have hresponse : typeName op.id ++ "Response" ∈ Plan.operationTypes op (typeName op.id) :=
      List.mem_append_left _ (List.mem_append_left _ (List.mem_singleton_self _))
    exact ⟨_, htypes (List.mem_append_right _ (List.mem_flatMap.2 ⟨op, hop, hresponse⟩)),
      (isNamedAfter_of_operation (hbases op hop)).1 _ hresponse⟩

/-- **Types and validators have identifiers exactly if all names and ids begin with a letter.**
Whenever the module of types of a contract can be made, the values in it are its validators, what it
imports, and constants that are no validators. Each interface, alias and validator is named after a
model or an operation, and its name is an identifier exactly if the first letter or digit in the
name of the model, or in the id of the operation, is a letter; hence all are identifiers exactly if
this is so of all models and operations. -/
theorem type_identifier_iff (h : spec.render .typescript options .standard = .ok text) :
    ∃ plan declared, Plan.ofSpec spec options = .ok plan ∧
      declarations plan .standard = .ok declared ∧ text = printModule declared ∧
      (declared.flatMap Declaration.valueNames).Perm (otherNames plan ++ validatorNames plan) ∧
      (∀ name ∈ declaredTypes declared ++ validatorNames plan,
        ∃ source ∈ sources spec, IsNamedAfter source name) ∧
      ((∀ name ∈ declaredTypes declared ++ validatorNames plan,
          Identifier.isPlainProperty name = true) ↔
        ∀ source ∈ sources spec, Identifier.StartsWithLetter source) := by
  obtain ⟨plan, declared, hplan, hdeclared, htext⟩ := render_typescript_eq_ok_iff.1 h
  refine ⟨plan, declared, hplan, hdeclared, htext, perm_valueNames hdeclared,
    fun name hname ↦ exists_isNamedAfter hplan hdeclared hname, ?_, ?_⟩
  · intro hplain source hsource
    obtain ⟨type, htype, hnamed⟩ := exists_type_of_mem_sources hplan hdeclared hsource
    exact hnamed.plain.1 (hplain type (List.mem_append_left _ htype))
  · intro hletters name hname
    obtain ⟨source, hsource, hnamed⟩ := exists_isNamedAfter hplan hdeclared hname
    exact hnamed.plain.2 (hletters source hsource)

/-- A model whose name begins with a digit. -/
def codesSpec : Spec := .bare "Codes" [] [⟨"2fa-code", none, { shape := .string }, [], ∅⟩]

theorem exists_module_codesSpec : ∃ declared,
    declarations (.make codesSpec {}) .standard = .ok declared ∧
      codesSpec.render .typescript {} .standard = .ok (printModule declared) :=
  exists_module (by decide +kernel) (by decide +kernel)

/-- Not all names are identifiers, as the model begins with no letter. -/
theorem type_identifier_iff_codesSpec :
    ∃ text plan declared, codesSpec.render .typescript {} .standard = .ok text ∧
      Plan.ofSpec codesSpec {} = .ok plan ∧ text = printModule declared ∧
      (declared.flatMap Declaration.valueNames).Perm ["z", "API_BASE_URL", "2faCodeSchema"] ∧
      ¬∀ name ∈ declaredTypes declared ++ validatorNames plan,
        Identifier.isPlainProperty name = true := by
  obtain ⟨declared, -, hrender⟩ := exists_module_codesSpec
  obtain ⟨plan, declared, hplan, -, htext, hvalues, -, hiff⟩ := type_identifier_iff hrender
  obtain ⟨-, rfl⟩ := Plan.ofSpec_eq_ok_iff.1 hplan
  have hnames : otherNames (.make codesSpec {}) ++ validatorNames (.make codesSpec {}) =
      ["z", "API_BASE_URL", "2faCodeSchema"] := by decide +kernel
  refine ⟨_, _, declared, hrender, hplan, htext, hnames ▸ hvalues, fun hplain ↦ ?_⟩
  obtain ⟨c, hc, hletter⟩ := hiff.1 hplain "2fa-code" (List.mem_singleton_self _)
  have hfirst : "2fa-code".toList.find? Char.isAlphanum = some '2' := by decide +kernel
  obtain rfl := Option.some.inj (hfirst.symm.trans hc)
  exact absurd hletter (by decide)

/-- The module declares a type and a validator whose names are no identifiers. -/
theorem no_identifier_codesSpec :
    ∃ declared, codesSpec.render .typescript {} .standard = .ok (printModule declared) ∧
      declaredTypes declared = ["2faCode"] ∧
      "2faCodeSchema" ∈ declared.flatMap Declaration.valueNames ∧
      Identifier.isPlainProperty "2faCode" = false ∧
      Identifier.isPlainProperty "2faCodeSchema" = false := by
  obtain ⟨declared, hdeclared, hrender⟩ := exists_module_codesSpec
  have htypes := perm_declaredTypes hdeclared
  have hvalues := perm_valueNames hdeclared
  have htype : Plan.modelTypes (Plan.make codesSpec {}).spec ++ ((Plan.make codesSpec {}).operations
      ).flatMap (fun op ↦ Plan.operationTypes op (typeName op.id)) = ["2faCode"] := by
    decide +kernel
  have hvalidator : "2faCodeSchema" ∈
      otherNames (.make codesSpec {}) ++ validatorNames (.make codesSpec {}) := by decide +kernel
  rw [htype, List.perm_singleton] at htypes
  exact ⟨declared, hrender, htypes, hvalues.symm.subset hvalidator, by decide +kernel,
    by decide +kernel⟩

end TypesModule

end ApiContract
