import ApiContract.Projection.Validator
import ApiContract.Spec.Basic

/-!
# Contracts without what is below their named nodes

Generated code refers to a named node by its name, so it should owe nothing to what stands below
such a node in the contract. This module takes that away and shows that nothing is missed.

## Erasing

`Schema.erased` keeps of a named node its name, its nullability and its description, and of every
other node all it says; `Spec.erased` does so in every schema of a contract. The reference that made
a node named may have been followed for some levels before, and two documents that differ in how far
give the same erased contract.

## Main results

Whatever generated code is made from reads the same off a schema and off the erased schema: the
names that it refers to (`Schema.references_erased`), its type (`Schema.toType_erased`) and its
validator (`Schema.toValidator_erased`). That whole artifacts read the same follows from these, and
is shown where artifacts are.

## Proof

Each of the three is a mutual induction on a schema, its shape, its properties and its variants,
along the recursion that it is about. At a named node both sides look no further; at any other the
hypotheses for the parts are all that is needed.
-/

namespace ApiContract

namespace Schema

mutual

/-- The schema without what is below its named nodes. -/
def erased : Schema → Schema
  | ⟨shape, format, nullable, description, enumValues, refName, constraints⟩ =>
    match refName with
    | some name => { shape := .any, nullable, description, refName := some name }
    | none =>
      { shape := shapeErased shape, format, nullable, description, enumValues, constraints }

/-- The shape without what is below its named nodes. -/
def shapeErased : Shape → Shape
  | .any => .any
  | .string => .string
  | .integer => .integer
  | .number => .number
  | .boolean => .boolean
  | .array items => .array items.erased
  | .object properties required additional =>
    .object (propertiesErased properties) required (optionErased additional)
  | .union variants exclusive => .union (variantsErased variants) exclusive

/-- Properties without what is below their named nodes. -/
def propertiesErased : List Property → List Property
  | [] => []
  | ⟨name, schema⟩ :: rest => ⟨name, schema.erased⟩ :: propertiesErased rest

/-- Schemas without what is below their named nodes. -/
def variantsErased : List Schema → List Schema
  | [] => []
  | variant :: rest => variant.erased :: variantsErased rest

/-- A schema that may be there, without what is below its named nodes. -/
def optionErased : Option Schema → Option Schema
  | none => none
  | some schema => some schema.erased

end

/-! ### What a node still says -/

/-- What is left of a named node. -/
theorem erased_of_named {s : Schema} {name : String} (h : s.refName = some name) :
    s.erased =
      { shape := .any, nullable := s.nullable, description := s.description,
        refName := some name } := by
  obtain ⟨shape, format, nullable, description, enumValues, refName, constraints⟩ := s
  obtain rfl : refName = some name := h
  rw [erased]

/-- An unnamed node keeps all but what is below named nodes in its shape. -/
theorem erased_of_unnamed {s : Schema} (h : s.refName = none) :
    s.erased = { s with shape := shapeErased s.shape } := by
  obtain ⟨shape, format, nullable, description, enumValues, refName, constraints⟩ := s
  obtain rfl : refName = none := h
  rw [erased]

@[simp] theorem refName_erased (s : Schema) : s.erased.refName = s.refName := by
  cases h : s.refName with
  | some name => rw [erased_of_named h]
  | none => rw [erased_of_unnamed h, h]

@[simp] theorem nullable_erased (s : Schema) : s.erased.nullable = s.nullable := by
  cases h : s.refName with
  | some name => rw [erased_of_named h]
  | none => rw [erased_of_unnamed h]

@[simp] theorem description_erased (s : Schema) : s.erased.description = s.description := by
  cases h : s.refName with
  | some name => rw [erased_of_named h]
  | none => rw [erased_of_unnamed h]

/-! ### References -/

mutual

/-- **The erased schema refers to what the schema refers to.** -/
theorem references_erased : ∀ s : Schema, s.erased.references = s.references
  | ⟨shape, _, _, _, _, refName, _⟩ => by
    cases refName with
    | some name => rw [erased, references, references]
    | none => rw [erased, references, references, shapeReferences_shapeErased shape]

theorem shapeReferences_shapeErased :
    ∀ shape : Shape, shapeReferences (shapeErased shape) = shapeReferences shape
  | .any | .string | .integer | .number | .boolean => by rw [shapeErased]
  | .array items => by rw [shapeErased, shapeReferences, shapeReferences, references_erased items]
  | .object properties required additional => by
    rw [shapeErased, shapeReferences, shapeReferences,
      propertyReferences_propertiesErased properties, optionReferences_optionErased additional]
  | .union variants exclusive => by
    rw [shapeErased, shapeReferences, shapeReferences, variantReferences_variantsErased variants]

theorem propertyReferences_propertiesErased :
    ∀ properties : List Property,
      propertyReferences (propertiesErased properties) = propertyReferences properties
  | [] => by rw [propertiesErased]
  | ⟨_, schema⟩ :: rest => by
    rw [propertiesErased, propertyReferences, propertyReferences, references_erased schema,
      propertyReferences_propertiesErased rest]

theorem variantReferences_variantsErased :
    ∀ variants : List Schema,
      variantReferences (variantsErased variants) = variantReferences variants
  | [] => by rw [variantsErased]
  | variant :: rest => by
    rw [variantsErased, variantReferences, variantReferences, references_erased variant,
      variantReferences_variantsErased rest]

theorem optionReferences_optionErased :
    ∀ schema : Option Schema, optionReferences (optionErased schema) = optionReferences schema
  | none => by rw [optionErased]
  | some schema => by
    rw [optionErased, optionReferences, optionReferences, references_erased schema]

end

@[simp] theorem referencedNames_erased (s : Schema) :
    s.erased.referencedNames = s.referencedNames := by
  rw [referencedNames, referencedNames, references_erased]

/-! ### Types -/

mutual

/-- **The erased schema has the type of the schema.** -/
theorem toType_erased : ∀ s : Schema, s.erased.toType = s.toType
  | ⟨shape, _, _, _, enumValues, refName, _⟩ => by
    cases refName with
    | some name => rw [erased, toType, toType]
    | none =>
      -- listed values come before the shape
      cases hlisted : listed enumValues with
      | nil => simp only [erased, toType, hlisted, shapeType_shapeErased shape]
      | cons value rest => simp only [erased, toType, hlisted]

theorem shapeType_shapeErased : ∀ shape : Shape, shapeType (shapeErased shape) = shapeType shape
  | .any | .string | .integer | .number | .boolean => by rw [shapeErased]
  | .array items => by rw [shapeErased, shapeType, shapeType, toType_erased items]
  | .object [] _ additional => by
    rw [shapeErased, propertiesErased, shapeType, shapeType, valueType_optionErased additional]
  | .object (⟨name, schema⟩ :: rest) required _ => by
    rw [shapeErased, propertiesErased, shapeType, shapeType, propertyMembers, propertyMembers,
      toType_erased schema, description_erased, propertyMembers_propertiesErased required rest]
  | .union [] _ => by rw [shapeErased, variantsErased]
  | .union (variant :: rest) _ => by
    rw [shapeErased, variantsErased, shapeType, shapeType, variantTypes, variantTypes,
      toType_erased variant, variantTypes_variantsErased rest]

theorem valueType_optionErased :
    ∀ schema : Option Schema, valueType (optionErased schema) = valueType schema
  | none => by rw [optionErased]
  | some schema => by rw [optionErased, valueType, valueType, toType_erased schema]

theorem propertyMembers_propertiesErased (required : NameSet) :
    ∀ properties : List Property,
      propertyMembers required (propertiesErased properties) = propertyMembers required properties
  | [] => by rw [propertiesErased]
  | ⟨name, schema⟩ :: rest => by
    rw [propertiesErased, propertyMembers, propertyMembers, toType_erased schema,
      description_erased, propertyMembers_propertiesErased required rest]

theorem variantTypes_variantsErased :
    ∀ variants : List Schema, variantTypes (variantsErased variants) = variantTypes variants
  | [] => by rw [variantsErased]
  | variant :: rest => by
    rw [variantsErased, variantTypes, variantTypes, toType_erased variant,
      variantTypes_variantsErased rest]

end

/-- The erased schema is declared as an interface exactly if the schema is, with the same
members. -/
theorem interfaceMembers?_erased (s : Schema) :
    s.erased.interfaceMembers? = s.interfaceMembers? := by
  cases h : s.refName with
  | some name => simp [interfaceMembers?, h]
  | none => simp [interfaceMembers?, erased_of_unnamed h, shapeType_shapeErased]

/-! ### Validators -/

section Validators

variable (lazy : NameSet)

mutual

/-- **The erased schema has the validator of the schema.** -/
theorem toValidator_erased : ∀ s : Schema, s.erased.toValidator lazy = s.toValidator lazy
  | ⟨shape, format, _, _, enumValues, refName, constraints⟩ => by
    cases refName with
    | some name => rw [erased, toValidator, toValidator]
    | none =>
      cases hlisted : listed enumValues with
      | nil =>
        simp only [erased, toValidator, hlisted,
          shapeValidator_shapeErased format constraints shape]
      | cons value rest => simp only [erased, toValidator, hlisted]

theorem shapeValidator_shapeErased (format : Option String) (c : Constraints) :
    ∀ shape : Shape,
      shapeValidator lazy format c (shapeErased shape) = shapeValidator lazy format c shape
  | .any | .string | .integer | .number | .boolean => by rw [shapeErased]
  | .array items => by
    rw [shapeErased, shapeValidator, shapeValidator, toValidator_erased items]
  | .object [] _ additional => by
    rw [shapeErased, propertiesErased, shapeValidator, shapeValidator,
      valueValidator_optionErased additional]
  | .object (⟨name, schema⟩ :: rest) required _ => by
    rw [shapeErased, propertiesErased, shapeValidator, shapeValidator, propertyEntries,
      propertyEntries, toValidator_erased schema, propertyEntries_propertiesErased required rest]
  | .union [] _ => by rw [shapeErased, variantsErased]
  | .union [variant] _ => by
    rw [shapeErased, variantsErased, variantsErased, shapeValidator, shapeValidator,
      toValidator_erased variant]
  | .union (first :: second :: rest) _ => by
    rw [shapeErased, variantsErased, variantsErased, shapeValidator, shapeValidator,
      variantValidators, variantValidators, variantValidators, variantValidators,
      toValidator_erased first, toValidator_erased second, variantValidators_variantsErased rest]

theorem valueValidator_optionErased :
    ∀ schema : Option Schema,
      valueValidator lazy (optionErased schema) = valueValidator lazy schema
  | none => by rw [optionErased]
  | some schema => by rw [optionErased, valueValidator, valueValidator, toValidator_erased schema]

theorem propertyEntries_propertiesErased (required : NameSet) :
    ∀ properties : List Property,
      propertyEntries lazy required (propertiesErased properties) =
        propertyEntries lazy required properties
  | [] => by rw [propertiesErased]
  | ⟨name, schema⟩ :: rest => by
    rw [propertiesErased, propertyEntries, propertyEntries, toValidator_erased schema,
      propertyEntries_propertiesErased required rest]

theorem variantValidators_variantsErased :
    ∀ variants : List Schema,
      variantValidators lazy (variantsErased variants) = variantValidators lazy variants
  | [] => by rw [variantsErased]
  | variant :: rest => by
    rw [variantsErased, variantValidators, variantValidators, toValidator_erased variant,
      variantValidators_variantsErased rest]

end

end Validators

end Schema

/-! ### Contracts -/

/-- The parameter with its schema erased. -/
def Parameter.erased (p : Parameter) : Parameter := { p with schema := p.schema.erased }

/-- The body with its schema erased. -/
def RequestBody.erased (b : RequestBody) : RequestBody := { b with schema := b.schema.erased }

/-- The response with its schema erased. -/
def Response.erased (r : Response) : Response := { r with schema := r.schema.map Schema.erased }

/-- The operation with its schemas erased. -/
def Operation.erased (op : Operation) : Operation :=
  { op with
    parameters := op.parameters.map Parameter.erased
    requestBody := op.requestBody.map RequestBody.erased
    responses := op.responses.map Response.erased }

/-- The model with its schemas erased. -/
def Model.erased (m : Model) : Model :=
  { m with
    schema := m.schema.erased
    properties := Schema.propertiesErased m.properties }

/-- The contract with its schemas erased. -/
def Spec.erased (spec : Spec) : Spec :=
  { spec with
    operations := spec.operations.map Operation.erased
    models := spec.models.map Model.erased }

end ApiContract
