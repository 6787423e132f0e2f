import ApiContract.Artifact.Declarations
import ApiContract.Proofs.ModelGraph
import ApiContract.Proofs.Plan
import ApiContract.Proofs.Projection.Refinement
import ApiContract.Proofs.TypeScript.Use

/-!
# The scope of validators

Validators are constants, evaluated from the top of the file to the end. A constant that is
mentioned outside of any function must have been declared before; in the body of a function it need
only be declared somewhere.

## Main result

`Plan.validators_defined_before_use`, for every contract that can be rendered. The value of each
declared validator mentions, outside of functions, only the library and constants in front of it,
and inside them only constants of the list; so no chain of such references outside of functions
comes back to where it began.

## Proof

The validator of a schema mentions the library `z` and, for every name that the schema refers to,
the validator declared under that name: in the body of a function if the name is to be referred to
lazily, otherwise outside of any (`allowed_toValidator`). That is an induction over schemas. The
declarations of a plan refer lazily to the recursive models, and to the others only after their
declaration (`exists_lt_of_not_recursive`), which is what the order of models was made for.
Constants have distinct names, so a place in the list tells a constant, and along eager references
places go down (`idxOf_lt_of_refersEagerly`): hence no circle.

## Occurrences

An occurrence of an identifier is its name and whether it stands in the body of a function. That `z`
is no constant of the list, whatever models are called, is shown on the way: constants end in
`Schema`.
-/

namespace ApiContract

open TypeScript Validator

/-! ### The identifiers of a validator -/

/-- What may occur in the validator of a schema that refers to the given names. -/
def Validator.Allowed (lazy : NameSet) (names : List String) (o : Occurrence) : Prop :=
  o = ⟨"z", false⟩ ∨ ∃ name ∈ names, o = ⟨validatorName name, lazy.contains name⟩

namespace Validator

variable {lazy : NameSet}

/-- More names allow more. -/
theorem Allowed.mono {names more : List String} (h : names ⊆ more) {o : Occurrence}
    (ho : Allowed lazy names o) : Allowed lazy more o := by
  rcases ho with hz | ⟨name, hname, heq⟩
  · exact Or.inl hz
  · exact Or.inr ⟨name, h hname, heq⟩

/-- What the library makes mentions the library and what its arguments mention. -/
@[simp] theorem occurrences_make (method : String) (args : List Expr) :
    (make method args).occurrences false = ⟨"z", false⟩ :: itemOccurrences false args := by
  rw [make, Expr.occurrences_method, Expr.occurrences]
  rfl

/-- A reference mentions one constant, lazily or not. -/
theorem allowed_reference (name : String) :
    ∀ o ∈ (reference lazy name).occurrences false, Allowed lazy [name] o := by
  intro o ho
  rw [reference] at ho
  split at ho
  · next hlazy =>
    simp only [occurrences_make, itemOccurrences, Expr.occurrences, List.append_nil,
      List.mem_cons, List.not_mem_nil, or_false] at ho
    rcases ho with rfl | rfl
    · exact Or.inl rfl
    · exact Or.inr ⟨name, List.mem_singleton_self _, by rw [hlazy]⟩
  · next hlazy =>
    rw [Expr.occurrences, List.mem_singleton] at ho
    rw [Bool.not_eq_true] at hlazy
    exact Or.inr ⟨name, List.mem_singleton_self _, by rw [hlazy]; exact ho⟩

/-- Validators of literals mention the library alone. -/
theorem itemOccurrences_literals (values : List Json) :
    ∀ o ∈ itemOccurrences false (values.map fun value ↦ make "literal" [.literal value]),
      o = ⟨"z", false⟩ := by
  induction values with
  | nil => intro o ho; rw [List.map_nil, itemOccurrences] at ho; exact absurd ho List.not_mem_nil
  | cons value rest ih =>
    intro o ho
    rw [List.map_cons, itemOccurrences, List.mem_append] at ho
    rcases ho with ho | ho
    · simpa [itemOccurrences, Expr.occurrences] using ho
    · exact ih o ho

theorem allowed_oneOf (values : List Json) :
    ∀ o ∈ (oneOf values).occurrences false, o = ⟨"z", false⟩ := by
  intro o ho
  unfold oneOf at ho
  split at ho
  · simpa [itemOccurrences, Expr.occurrences] using ho
  · split at ho
    · simpa [itemOccurrences, Expr.occurrences, itemOccurrences_map_literal] using ho
    · rw [occurrences_make, itemOccurrences, Expr.occurrences, itemOccurrences, List.append_nil,
        List.mem_cons] at ho
      exact ho.elim id (itemOccurrences_literals _ o)

/-- Plain values hold no identifiers. -/
theorem itemOccurrences_eq_nil {args : List Expr} (h : ∀ arg ∈ args, IsPlain arg) :
    itemOccurrences false args = [] := by
  induction args with
  | nil => rw [itemOccurrences]
  | cons arg rest ih =>
    obtain ⟨harg, hrest⟩ := List.forall_mem_cons.1 h
    rw [itemOccurrences, ih hrest, List.append_nil]
    cases arg with
    | literal | regex => rw [Expr.occurrences]
    | _ => exact absurd harg id

/-- Refinements add no identifiers. -/
theorem occurrences_refine {refinements : List (String × List Expr)}
    (h : ∀ r ∈ refinements, IsRefinement r) (base : Expr) :
    (refine base refinements).occurrences false = base.occurrences false := by
  refine refine_induction (motive := fun e ↦ e.occurrences false = base.occurrences false) h rfl
    fun validator r hr ih ↦ ?_
  rw [Expr.occurrences_method, itemOccurrences_eq_nil hr.2, List.append_nil, ih]

/-- `.nullable()` adds no identifier. -/
theorem occurrences_orNull (nullable : Bool) (validator : Expr) :
    (orNull nullable validator).occurrences false = validator.occurrences false := by
  cases nullable with
  | false => rfl
  | true => rw [orNull, if_pos rfl, Expr.occurrences_method, itemOccurrences, List.append_nil]

theorem occurrences_orMissing (required : Bool) (validator : Expr) :
    (orMissing required validator).occurrences false = validator.occurrences false := by
  cases required with
  | true => rfl
  | false => rw [orMissing, if_neg (by simp), Expr.occurrences_method, itemOccurrences,
      List.append_nil]

end Validator

section Schemas

variable {lazy : NameSet}

mutual

/-- **A validator mentions the library and the validators of the names that its schema refers
to.** -/
theorem Schema.allowed_toValidator :
    ∀ schema : Schema, ∀ o ∈ (schema.toValidator lazy).occurrences false,
      Allowed lazy schema.references o
  | ⟨shape, format, nullable, _, enumValues, refName, constraints⟩, o, ho => by
    rcases refName with - | name
    · rw [Schema.references]
      rcases hlisted : listed enumValues with - | ⟨value, rest⟩
      · simp only [Schema.toValidator, hlisted, occurrences_orNull] at ho
        exact Schema.allowed_shapeValidator format constraints shape o ho
      · simp only [Schema.toValidator, hlisted, occurrences_orNull] at ho
        exact Or.inl (allowed_oneOf _ o ho)
    · rw [Schema.toValidator, occurrences_orNull] at ho
      rw [Schema.references]
      exact allowed_reference name o ho

theorem Schema.allowed_shapeValidator (format : Option String) (c : Constraints) :
    ∀ shape : Shape, ∀ o ∈ (shapeValidator lazy format c shape).occurrences false,
      Allowed lazy (shapeReferences shape) o
  | .any, o, ho | .boolean, o, ho => by
    rw [shapeValidator, occurrences_make, itemOccurrences, List.mem_singleton] at ho
    exact Or.inl ho
  | .string, o, ho => by
    rw [shapeValidator, occurrences_refine (isRefinement_text format c),
      occurrences_make, itemOccurrences, List.mem_singleton] at ho
    exact Or.inl ho
  | .integer, o, ho => by
    rw [shapeValidator, occurrences_refine (isRefinement_integer c), occurrences_make,
      itemOccurrences, List.mem_singleton] at ho
    exact Or.inl ho
  | .number, o, ho => by
    rw [shapeValidator, occurrences_refine (isRefinement_number c), occurrences_make,
      itemOccurrences, List.mem_singleton] at ho
    exact Or.inl ho
  | .array items, o, ho => by
    rw [shapeValidator, occurrences_refine (isRefinement_list c), occurrences_make,
      itemOccurrences, itemOccurrences, List.append_nil] at ho
    rcases List.mem_cons.1 ho with ho | ho
    · exact Or.inl ho
    · exact Schema.allowed_toValidator items o ho
  | .object [] required additional, o, ho => by
    simp only [shapeValidator, occurrences_make, itemOccurrences, List.append_nil, List.mem_cons,
      List.cons_append, List.nil_append] at ho
    rcases ho with ho | ho | ho
    · exact Or.inl ho
    · exact Or.inl ho
    · exact Schema.allowed_valueValidator additional o ho
  | .object (property :: rest) required additional, o, ho => by
    rw [shapeValidator, occurrences_make, itemOccurrences, itemOccurrences, Expr.occurrences,
      List.append_nil] at ho
    rcases List.mem_cons.1 ho with ho | ho
    · exact Or.inl ho
    · exact (Schema.allowed_propertyEntries required (property :: rest) o ho).mono
        (List.subset_append_left _ _)
  | .union [] _, o, ho => by
    rw [shapeValidator, occurrences_make, itemOccurrences, List.mem_singleton] at ho
    exact Or.inl ho
  | .union [variant] _, o, ho => by
    -- A union of one is that one, without a call of its own.
    rw [shapeValidator] at ho
    exact (Schema.allowed_toValidator variant o ho).mono (List.subset_append_left _ _)
  | .union (first :: second :: rest) _, o, ho => by
    rw [shapeValidator, occurrences_make, itemOccurrences, itemOccurrences, Expr.occurrences,
      List.append_nil] at ho
    rcases List.mem_cons.1 ho with ho | ho
    · exact Or.inl ho
    · exact Schema.allowed_variantValidators (first :: second :: rest) o ho

theorem Schema.allowed_valueValidator :
    ∀ additional : Option Schema, ∀ o ∈ (valueValidator lazy additional).occurrences false,
      Allowed lazy (optionReferences additional) o
  | some schema, o, ho => Schema.allowed_toValidator schema o ho
  | none, o, ho => by
    rw [valueValidator, occurrences_make, itemOccurrences, List.mem_singleton] at ho
    exact Or.inl ho

theorem Schema.allowed_propertyEntries (required : NameSet) :
    ∀ properties : List Property,
      ∀ o ∈ entryOccurrences false (propertyEntries lazy required properties),
        Allowed lazy (propertyReferences properties) o
  | [], o, ho => by
    rw [propertyEntries, entryOccurrences] at ho
    exact absurd ho List.not_mem_nil
  | ⟨name, schema⟩ :: rest, o, ho => by
    rw [propertyEntries, entryOccurrences, occurrences_orMissing, List.mem_append] at ho
    rcases ho with ho | ho
    · exact (Schema.allowed_toValidator schema o ho).mono (List.subset_append_left _ _)
    · exact (Schema.allowed_propertyEntries required rest o ho).mono (List.subset_append_right _ _)

theorem Schema.allowed_variantValidators :
    ∀ variants : List Schema, ∀ o ∈ itemOccurrences false (variantValidators lazy variants),
      Allowed lazy (variantReferences variants) o
  | [], o, ho => by
    rw [variantValidators, itemOccurrences] at ho
    exact absurd ho List.not_mem_nil
  | variant :: rest, o, ho => by
    rw [variantValidators, itemOccurrences, List.mem_append] at ho
    rcases ho with ho | ho
    · exact (Schema.allowed_toValidator variant o ho).mono (List.subset_append_left _ _)
    · exact (Schema.allowed_variantValidators rest o ho).mono (List.subset_append_right _ _)

end

end Schemas

/-! ### The declared validators -/

namespace Plan

variable {spec : Spec} {options : RenderOptions}

theorem mem_of_model? {name : String} {model : Model} (h : spec.model? name = some model) :
    model ∈ spec.models ∧ model.name = name :=
  ⟨List.mem_of_find?_eq_some h, by simpa using List.find?_some h⟩

/-- The models in their order are models of the contract. -/
theorem mem_models_of_mem_orderedModels {plan : Plan} {model : Model}
    (h : model ∈ plan.orderedModels) : model ∈ plan.spec.models := by
  obtain ⟨_, -, hfound⟩ := List.mem_filterMap.1 h
  exact (mem_of_model? hfound).1

variable (spec options) in
/-- The models in the order of their declaration have the names that the graph orders. -/
theorem map_name_orderedModels :
    (make spec options).orderedModels.map Model.name = (ModelGraph.ofModels spec.models).order := by
  have hall : ∀ name ∈ (ModelGraph.ofModels spec.models).order,
      (spec.model? name).map Model.name = some name := by
    intro name hname
    obtain ⟨model, hmodel, rfl⟩ := List.mem_map.1 (ModelGraph.mem_order_iff.1 hname)
    rcases hfind : spec.model? model.name with - | found
    · have := List.find?_eq_none.1 hfind model hmodel
      simp at this
    · rw [Option.map_some, (mem_of_model? hfind).2]
  rw [orderedModels, List.map_filterMap]
  calc (ModelGraph.ofModels spec.models).order.filterMap
          (fun name ↦ (spec.model? name).map Model.name)
      = (ModelGraph.ofModels spec.models).order.filterMap some :=
        List.filterMap_congr hall
    _ = (ModelGraph.ofModels spec.models).order := List.filterMap_some

/-- The constants of the validators are named after the models in their order. -/
theorem map_constName?_validatorDeclarations :
    (make spec options).validatorDeclarations.map Declaration.constName? =
      (ModelGraph.ofModels spec.models).order.map fun name ↦ some (validatorName name) := by
  rw [← map_name_orderedModels spec options, validatorDeclarations, List.map_map, List.map_map]
  rfl

/-- The name of the constant at a place of the list of validators. -/
theorem constName?_getElem? {j : Nat} {name : String}
    (h : (ModelGraph.ofModels spec.models).order[j]? = some name) :
    ((make spec options).validatorDeclarations[j]?).bind Declaration.constName? =
      some (validatorName name) := by
  have hplace : ((make spec options).validatorDeclarations[j]?).map Declaration.constName? =
      some (some (validatorName name)) := by
    rw [← List.getElem?_map, map_constName?_validatorDeclarations, List.getElem?_map, h]
    rfl
  obtain ⟨d, hd, hname⟩ := Option.map_eq_some_iff.1 hplace
  rw [hd, Option.bind_some, hname]

/-- What stands at a place of the list of validators. -/
theorem exists_model_of_getElem? {i : Nat} {d : Declaration}
    (h : (make spec options).validatorDeclarations[i]? = some d) :
    ∃ model ∈ spec.models, (ModelGraph.ofModels spec.models).order[i]? = some model.name ∧
      d = (make spec options).validatorDeclaration model := by
  rw [validatorDeclarations, List.getElem?_map] at h
  obtain ⟨model, hmodel, rfl⟩ := Option.map_eq_some_iff.1 h
  have hmem : model ∈ (make spec options).orderedModels := List.mem_of_getElem? hmodel
  obtain ⟨name, -, hfind⟩ := List.mem_filterMap.1 hmem
  refine ⟨model, (mem_of_model? hfind).1, ?_, rfl⟩
  rw [← map_name_orderedModels spec options, List.getElem?_map, hmodel]
  rfl

/-- **A model that is not recursive stands before the models that refer to it.** -/
theorem exists_lt_of_not_recursive (hfault : fault? spec = none) {i : Nat} {model : Model}
    (hmodel : model ∈ spec.models)
    (hplace : (ModelGraph.ofModels spec.models).order[i]? = some model.name) {name : String}
    (hname : name ∈ model.schema.references)
    (hnot : name ∉ (ModelGraph.ofModels spec.models).recursive) :
    ∃ j < i, (ModelGraph.ofModels spec.models).order[j]? = some name := by
  have hknown := mem_modelNames_of_model hfault hmodel hname
  have hrefers : ModelGraph.Refers spec.models model.name name :=
    (ModelGraph.mem_targets_iff (nodup_modelNames hfault) hmodel).2
      ⟨Schema.mem_referencedNames.2 hname, hknown⟩
  obtain ⟨j, hj, hjname⟩ := List.getElem_of_mem (ModelGraph.mem_order_iff.2 hknown)
  obtain ⟨hi, hiname⟩ := List.getElem?_eq_some_iff.1 hplace
  refine ⟨j, ?_, List.getElem?_eq_some_iff.2 ⟨hj, hjname⟩⟩
  by_contra hge
  -- a name that comes later, or is the model's own, leads back to the model
  have hback : ModelGraph.Reaches spec.models name model.name := by
    rcases Nat.eq_or_lt_of_le (Nat.le_of_not_lt hge) with heq | hlt
    · subst heq
      rw [← hiname, ← hjname]
    · have hpairwise : (ModelGraph.ofModels spec.models).order.Pairwise _ :=
        ModelGraph.pairwise_order
      have hpair := List.pairwise_iff_getElem.1 hpairwise i j hi hj hlt
      rw [hiname, hjname] at hpair
      exact hpair hrefers
  exact hnot (ModelGraph.mem_recursive_of_reaches hrefers hback)

/-- The constants of the validators have distinct names. -/
theorem nodup_map_constName? (hfault : fault? spec = none) :
    ((make spec options).validatorDeclarations.map Declaration.constName?).Nodup := by
  rw [map_constName?_validatorDeclarations]
  refine List.Nodup.map_on (fun a ha b hb heq ↦ ?_)
    (ModelGraph.nodup_order (nodup_modelNames hfault))
  obtain ⟨first, hfirst, rfl⟩ := List.mem_map.1 (ModelGraph.mem_order_iff.1 ha)
  obtain ⟨second, hsecond, rfl⟩ := List.mem_map.1 (ModelGraph.mem_order_iff.1 hb)
  have htype : typeName first.name = typeName second.name := by
    simpa [validatorName] using heq
  rw [List.inj_on_of_nodup_map (nodup_modelTypes hfault) hfirst hsecond htype]

/-- The identifiers of the validator at a place: the library's, and those of constants in front of
it or, in the body of a function, anywhere. -/
theorem occurrence_declared (hfault : fault? spec = none) {i : Nat} {d : Declaration}
    (hd : (make spec options).validatorDeclarations[i]? = some d) {o : Occurrence}
    (ho : o ∈ d.occurrences) (hz : o.name ≠ "z") :
    ∃ j, ((make spec options).validatorDeclarations[j]?).bind Declaration.constName? =
      some o.name ∧ (o.deferred = false → j < i) := by
  obtain ⟨model, hmodel, hplace, rfl⟩ := exists_model_of_getElem? hd
  rcases Schema.allowed_toValidator model.schema o ho with rfl | ⟨name, hname, rfl⟩
  · exact absurd rfl hz
  · by_cases hrec : name ∈ (ModelGraph.ofModels spec.models).recursive
    · have hknown := mem_modelNames_of_model hfault hmodel hname
      obtain ⟨j, hj, hjname⟩ := List.getElem_of_mem (ModelGraph.mem_order_iff.2 hknown)
      refine ⟨j, constName?_getElem? (List.getElem?_eq_some_iff.2 ⟨hj, hjname⟩), fun hdeferred ↦ ?_⟩
      have hcontains := NameSet.contains_iff.2 hrec
      exact absurd (hcontains.symm.trans hdeferred) (by simp)
    · obtain ⟨j, hlt, hjname⟩ := exists_lt_of_not_recursive hfault hmodel hplace hname hrec
      exact ⟨j, constName?_getElem? hjname, fun _ ↦ hlt⟩

/-- One declared validator's value mentions another outside of any function body. -/
def RefersEagerly (plan : Plan) (a b : String) : Prop :=
  ∃ d ∈ plan.validatorDeclarations, d.constName? = some a ∧ ⟨b, false⟩ ∈ d.occurrences

/-- The names of the declared validators, in order. -/
private abbrev constants (plan : Plan) : List (Option String) :=
  plan.validatorDeclarations.map Declaration.constName?

/-- No validator is called like the library. -/
theorem constName?_ne_z {d : Declaration} (hd : d ∈ (make spec options).validatorDeclarations) :
    d.constName? ≠ some "z" := by
  intro hz
  have hmem : some "z" ∈ constants (make spec options) := hz ▸ List.mem_map_of_mem hd
  rw [constants, map_constName?_validatorDeclarations] at hmem
  obtain ⟨name, -, heq⟩ := List.mem_map.1 hmem
  have hlength := congrArg String.length (Option.some.inj heq)
  rw [validatorName, String.length_append] at hlength
  have hsuffix : "Schema".length = 6 := rfl
  have hone : "z".length = 1 := rfl
  omega

/-- Along eager references the place in the list goes down. -/
theorem idxOf_lt_of_refersEagerly (hfault : fault? spec = none) {a b : String}
    (h : RefersEagerly (make spec options) a b) (hz : b ≠ "z") :
    (constants (make spec options)).idxOf (some b) <
      (constants (make spec options)).idxOf (some a) := by
  obtain ⟨d, hd, hname, ho⟩ := h
  obtain ⟨i, hi, hdi⟩ := List.getElem_of_mem hd
  obtain ⟨j, hj, hlt⟩ := occurrence_declared hfault (List.getElem?_eq_some_iff.2 ⟨hi, hdi⟩) ho hz
  obtain ⟨e, he, hename⟩ := Option.bind_eq_some_iff.1 hj
  obtain ⟨hjlen, hej⟩ := List.getElem?_eq_some_iff.1 he
  have hnodup : (constants (make spec options)).Nodup := nodup_map_constName? hfault
  have hilen : i < (constants (make spec options)).length := by simpa using hi
  have hjlen' : j < (constants (make spec options)).length := by simpa using hjlen
  have hia : (constants (make spec options))[i] = some a := by
    rw [List.getElem_map, hdi, hname]
  have hjb : (constants (make spec options))[j] = some b := by
    rw [List.getElem_map, hej, hename]
  rw [← hia, ← hjb, hnodup.idxOf_getElem, hnodup.idxOf_getElem]
  exact hlt rfl

/-- What refers to something is not the library. -/
theorem ne_z_of_refersEagerly {a b : String} (h : RefersEagerly (make spec options) a b) :
    a ≠ "z" := by
  obtain ⟨d, hd, hname, -⟩ := h
  exact fun heq ↦ constName?_ne_z hd (heq ▸ hname)

/-- **No validator mentions itself eagerly, at once or through others.** -/
theorem not_transGen_refersEagerly (hfault : fault? spec = none) (a : String) :
    ¬ Relation.TransGen (RefersEagerly (make spec options)) a a := by
  have hdown : ∀ b, Relation.TransGen (RefersEagerly (make spec options)) a b → b ≠ "z" →
      (constants (make spec options)).idxOf (some b) <
        (constants (make spec options)).idxOf (some a) := by
    intro b hpath
    induction hpath with
    | single hedge => exact idxOf_lt_of_refersEagerly hfault hedge
    | tail _ hedge ih =>
      intro hz
      exact Nat.lt_trans (idxOf_lt_of_refersEagerly hfault hedge hz)
        (ih (ne_z_of_refersEagerly hedge))
  intro hcycle
  obtain ⟨b, hfirst, -⟩ := Relation.TransGen.head'_iff.1 hcycle
  exact Nat.lt_irrefl _ (hdown a hcycle (ne_z_of_refersEagerly hfirst))

/-- **Validators are defined before use.** In the list of validators of any contract that can be
rendered, the value of each mentions, outside of the bodies of functions, only the library and
constants in front of it, and inside them only constants of the list; so no chain of such references
outside of functions comes back to where it began. -/
theorem validators_defined_before_use {spec : Spec} {options : RenderOptions} {plan : Plan}
    (h : Plan.ofSpec spec options = .ok plan) :
    (∀ (i : Nat) (d : Declaration), plan.validatorDeclarations[i]? = some d →
      ∀ o ∈ d.occurrences, o.name ≠ "z" →
        (o.deferred = false → ∃ j < i,
          (plan.validatorDeclarations[j]?).bind Declaration.constName? = some o.name) ∧
        ∃ j : Nat, (plan.validatorDeclarations[j]?).bind Declaration.constName? = some o.name) ∧
    ∀ name, ¬ Relation.TransGen plan.RefersEagerly name name := by
  obtain ⟨hfault, rfl⟩ := ofSpec_eq_ok_iff.1 h
  refine ⟨fun i d hd o ho hz ↦ ?_, not_transGen_refersEagerly hfault⟩
  obtain ⟨j, hj, hlt⟩ := occurrence_declared hfault hd ho hz
  exact ⟨fun hdeferred ↦ ⟨j, hlt hdeferred, hj⟩, j, hj⟩

/-- A contract with a model for every way to refer: an alias in front of its target, two models that
refer to each other, one that refers to itself, and one that refers to nothing. -/
def cyclicSpec : Spec :=
  let named (target : String) : Schema := { shape := .any, refName := some target }
  let declare (name : String) (shape : Shape) : Model := ⟨name, none, { shape := shape }, [], ∅⟩
  .bare "Cycles" []
    [ ⟨"alias", none, named "ping", [], ∅⟩
    , declare "ping" (.object [⟨"pong", named "pong"⟩, ⟨"leaf", named "leaf"⟩] ∅ none)
    , declare "pong" (.union [named "ping", { shape := .string }] false)
    , declare "tree" (.array (named "tree"))
    , declare "leaf" (.object [] ∅ (some { shape := .integer })) ]

/-- Aliases, cycles and a model alone, in their order. -/
theorem validators_defined_before_use_cyclicSpec :
    Plan.ofSpec cyclicSpec {} = .ok (make cyclicSpec {}) ∧
      (make cyclicSpec {}).validatorDeclarations.map Declaration.constName? =
        [some "LeafSchema", some "PingSchema", some "PongSchema", some "AliasSchema",
          some "TreeSchema"] ∧
      ∀ name, ¬ Relation.TransGen (make cyclicSpec {}).RefersEagerly name name := by
  have hplan : Plan.ofSpec cyclicSpec {} = .ok (make cyclicSpec {}) :=
    ofSpec_eq_ok_iff.2 ⟨by decide +kernel, rfl⟩
  exact ⟨hplan, by decide +kernel, (validators_defined_before_use hplan).2⟩

end Plan

end ApiContract
