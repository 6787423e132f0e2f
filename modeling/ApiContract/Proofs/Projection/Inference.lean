import ApiContract.Proofs.Projection.Refinement
import Mathlib.Data.List.Infix

/-!
# The type that a validator infers

The validation library infers a type from every validator, so generated code has two types for each
schema: the one that is declared and the one that is inferred. They should be the same.

## Inference

`Expr.inferred?` is what the library infers, restricted to the vocabulary of the validators made
here and undefined elsewhere: constants stand for the type declared with them, also inside `z.lazy`;
refinements change nothing; `.nullable()` adds `null`, and a member whose validator ends in
`.optional()` may be left out. It is a function on expressions and knows nothing of schemas.

## Main result

`Schema.inferred?_toValidator`: a validator infers the type of its schema, comments apart, which
only types carry, whichever names are referred to lazily.

## Proof

The two projections are separate recursions over a schema, so this is an induction over the schema
along both of them, mutual as they are. What is refined, made nullable or marked as optional is done
to a validator and to a type by separate functions too, and there is one lemma for each such pair;
`Refinement` has what the refinements need.

A constant stands for its type by its name, which ends in `Schema`; that the constant with this name
has that type is a matter of the declarations, and not of inference.
-/

namespace ApiContract

open TypeScript Validator

namespace TypeScript

/-! ### Types without comments -/

mutual

/-- A type without the comments on its members. -/
def TypeExpr.withoutDocs : TypeExpr → TypeExpr
  | .keyword word => .keyword word
  | .literal value => .literal value
  | .named name => .named name
  | .generic name args => .generic name (typesWithoutDocs args)
  | .array item => .array item.withoutDocs
  | .record value => .record value.withoutDocs
  | .object members => .object (membersWithoutDocs members)
  | .union members => .union (typesWithoutDocs members)

/-- Types without comments. -/
def typesWithoutDocs : List TypeExpr → List TypeExpr
  | [] => []
  | type :: rest => type.withoutDocs :: typesWithoutDocs rest

/-- Members without comments, neither on them nor inside their types. -/
def membersWithoutDocs : List Member → List Member
  | [] => []
  | ⟨name, type, isOptional, _⟩ :: rest =>
    ⟨name, type.withoutDocs, isOptional, none⟩ :: membersWithoutDocs rest

end

/-- Comments are dropped from types one after the other. -/
theorem typesWithoutDocs_append (xs ys : List TypeExpr) :
    typesWithoutDocs (xs ++ ys) = typesWithoutDocs xs ++ typesWithoutDocs ys := by
  induction xs with
  | nil => rfl
  | cons x xs ih => rw [List.cons_append, typesWithoutDocs, typesWithoutDocs, ih]; rfl

/-- Literal types have no comments. -/
theorem typesWithoutDocs_map_literal (values : List Json) :
    typesWithoutDocs (values.map .literal) = values.map .literal := by
  induction values with
  | nil => rfl
  | cons value rest ih => rw [List.map_cons, typesWithoutDocs, ih]; rfl

/-- Comments may be dropped before or after `null` is added. -/
theorem TypeExpr.withoutDocs_orNull (type : TypeExpr) :
    type.orNull.withoutDocs = type.withoutDocs.orNull := by
  cases type with
  | union members =>
    rw [TypeExpr.orNull, TypeExpr.withoutDocs, TypeExpr.withoutDocs, typesWithoutDocs_append]
    rfl
  | _ => rfl

/-- Comments may be dropped before or after a union is made. -/
theorem TypeExpr.withoutDocs_ofMembers (types : List TypeExpr) :
    (TypeExpr.ofMembers types).withoutDocs = TypeExpr.ofMembers (typesWithoutDocs types) := by
  match types with
  | [] => rfl
  | [_] => rfl
  | _ :: _ :: _ => rfl

/-! ### Inference -/

/-- The type that is declared together with a validator of that name. -/
def declaredType? (name : String) : Option TypeExpr :=
  (name.toList.dropSuffix? "Schema".toList).map fun type ↦ .named (String.ofList type)

/-- The validators that take nothing and are called like the type that they infer. -/
def keywordMethods : List String := ["string", "number", "boolean", "unknown"]

/-- The literal types of an array of literals. -/
def literals? : List Expr → Option (List TypeExpr)
  | [] => some []
  | .literal value :: rest => (literals? rest).map (.literal value :: ·)
  | _ :: _ => none

/-- The type after a method call on a validator. -/
def refined? (method : String) (type : Option TypeExpr) : Option TypeExpr :=
  if Validator.refinementMethods.contains method then type
  else if method = "nullable" then type.map TypeExpr.orNull
  else none

/-- The type of a record with a given type of keys. -/
def recordOf? : Option TypeExpr → Option TypeExpr → Option TypeExpr
  | some (.keyword "string"), value => value.map .record
  | _, _ => none

/-- A member whose validator infers a type as it is, or without its final `.optional()`. -/
def memberOf? (name : String) : Option TypeExpr → Option TypeExpr → Option Member
  | some type, _ => some ⟨name, type, false, none⟩
  | none, some type => some ⟨name, type, true, none⟩
  | none, none => none

/-- Whether the expression is the library itself. -/
def Expr.isLibrary : Expr → Bool
  | .identifier name => name == "z"
  | _ => false

mutual

/-- The type that a validator infers. -/
def Expr.inferred? : Expr → Option TypeExpr
  | .identifier name => declaredType? name
  | .call (.member target method) [] args =>
    if target.isLibrary then made? method args else refined? method target.inferred?
  | _ => none

/-- The type of what the library makes of some arguments. -/
def made? (method : String) : List Expr → Option TypeExpr
  | [] => if keywordMethods.contains method then some (.keyword method) else none
  | [arg] =>
    if method = "array" then arg.inferred?.map .array
    else
      match arg with
      | .literal value => if method = "literal" then some (.literal value) else none
      | .array items =>
        if method = "enum" then (literals? items).map .union
        else if method = "union" then (inferredItems? items).map .union
        else none
      | .object entries =>
        if method = "object" then (inferredMembers? entries).map .object else none
      | .arrow [] body => if method = "lazy" then body.inferred? else none
      | _ => none
  | [key, value] => if method = "record" then recordOf? key.inferred? value.inferred? else none
  | _ => none

/-- The type that a validator infers which ends in `.optional()`, apart from that. -/
def Expr.inferredOptional? : Expr → Option TypeExpr
  | .call (.member target method) [] [] => if method = "optional" then target.inferred? else none
  | _ => none

/-- The types that several validators infer. -/
def inferredItems? : List Expr → Option (List TypeExpr)
  | [] => some []
  | item :: rest =>
    item.inferred?.bind fun type ↦ (inferredItems? rest).map (type :: ·)

/-- The members that the entries of an object stand for. -/
def inferredMembers? : List Entry → Option (List Member)
  | [] => some []
  | .keyed name value :: rest =>
    (memberOf? name value.inferred? value.inferredOptional?).bind fun member ↦
      (inferredMembers? rest).map (member :: ·)
  | _ :: _ => none

end

/-- The items of an array are looked at whatever they are. -/
theorem made?_array (item : Expr) : made? "array" [item] = item.inferred?.map .array := by
  rcases item with - | - | - | - | - | - | - | - | - | ⟨- | -, -⟩ | - | - <;> rfl

/-- Literals are read as their types. -/
theorem literals?_map_literal (values : List Json) :
    literals? (values.map .literal) = some (values.map .literal) := by
  induction values with
  | nil => rfl
  | cons value rest ih => rw [List.map_cons, literals?, ih]; rfl

/-- A method call on a validator refines what it infers. -/
theorem Expr.inferred?_method (target : Expr) (method : String) (args : List Expr)
    (h : target.isLibrary = false) :
    (target.method method args).inferred? = refined? method target.inferred? := by
  rw [Expr.method, Expr.apply, Expr.inferred?, if_neg (by simp [h])]

/-- What infers a type is not the library. -/
theorem Expr.isLibrary_eq_false {validator : Expr} {type : TypeExpr}
    (h : validator.inferred? = some type) : validator.isLibrary = false := by
  cases validator with
  | identifier name =>
    rw [Expr.isLibrary, beq_eq_false_iff_ne]
    rintro rfl
    have hz : declaredType? "z" = none := rfl
    rw [Expr.inferred?, hz] at h
    exact absurd h (by simp)
  | _ => rfl

end TypeScript

/-! ### The validators that are made here -/

namespace Validator

/-- The constant of a component stands for its type. -/
theorem declaredType?_validatorName (component : String) :
    declaredType? (validatorName component) = some (.named (typeName component)) := by
  have hdrop : (validatorName component).toList.dropSuffix? "Schema".toList =
      some (typeName component).toList := by
    rw [List.dropSuffix?_eq_some_iff]
    exact ⟨"Schema".toList, by rw [validatorName, String.toList_append], by simp⟩
  rw [declaredType?, hdrop, Option.map_some, String.ofList_toList]

/-- What the library makes of arguments infers a type by the method and these. -/
theorem inferred?_make (method : String) (args : List Expr) :
    (make method args).inferred? = made? method args := by
  rw [make, Expr.method, Expr.apply, Expr.inferred?]
  rfl

theorem inferred?_keyword {method : String} (h : method ∈ keywordMethods) :
    (make method []).inferred? = some (.keyword method) := by
  rw [inferred?_make, made?, if_pos (List.contains_iff_mem.2 h)]

/-- **A reference infers the type that is declared with it**, lazy or not. -/
theorem inferred?_reference (lazy : NameSet) (component : String) :
    (reference lazy component).inferred? = some (.named (typeName component)) := by
  rw [reference]
  split
  · rw [inferred?_make, made?, if_neg (by decide)]
    simp only [if_pos, Expr.inferred?, declaredType?_validatorName]
  · rw [Expr.inferred?, declaredType?_validatorName]

/-- Refinements leave the inferred type. -/
theorem inferred?_refine {refinements : List (String × List Expr)}
    (h : ∀ r ∈ refinements, IsRefinement r) {base : Expr} {type : TypeExpr}
    (hbase : base.inferred? = some type) :
    (refine base refinements).inferred? = some type := by
  refine refine_induction (motive := fun e ↦ e.inferred? = some type) h hbase
    fun validator r hr ih ↦ ?_
  rw [Expr.inferred?_method _ _ _ (Expr.isLibrary_eq_false ih), refined?,
    if_pos (List.contains_iff_mem.2 hr.1), ih]

/-- `.nullable()` adds `null` as the type does. -/
theorem inferred?_orNull (nullable : Bool) {validator : Expr} {type : TypeExpr}
    (h : validator.inferred? = some type.withoutDocs) :
    (orNull nullable validator).inferred? = some (typeOrNull nullable type).withoutDocs := by
  cases nullable with
  | false => exact h
  | true =>
    rw [orNull, typeOrNull, if_pos rfl, if_pos rfl,
      Expr.inferred?_method _ _ _ (Expr.isLibrary_eq_false h), refined?, if_neg (by decide),
      if_pos rfl, h, Option.map_some, TypeExpr.withoutDocs_orNull]

/-- Validators of literals infer the literal types. -/
theorem inferredItems?_literals (values : List Json) :
    inferredItems? (values.map fun value ↦ make "literal" [.literal value]) =
      some (values.map .literal) := by
  induction values with
  | nil => rfl
  | cons value rest ih =>
    rw [List.map_cons, inferredItems?, inferred?_make, ih]
    rfl

/-- Listed values infer the union of their literal types. -/
theorem inferred?_oneOf (value : Json) (rest : List Json) :
    (oneOf (value :: rest)).inferred? =
      some (TypeExpr.ofMembers ((value :: rest).map .literal)).withoutDocs := by
  rw [TypeExpr.withoutDocs_ofMembers, typesWithoutDocs_map_literal]
  rcases rest with - | ⟨second, rest⟩
  · rw [oneOf, inferred?_make]
    rfl
  · have hmany : (value :: second :: rest).map TypeExpr.literal =
        .literal value :: .literal second :: rest.map .literal := rfl
    rw [oneOf]
    split
    · rw [inferred?_make, made?, if_neg (by decide)]
      simp only [if_pos, literals?_map_literal]
      rfl
    · rw [inferred?_make, made?, if_neg (by decide)]
      simp only [if_pos, inferredItems?_literals]
      rfl
    · simp

/-- A validator of a member that may be missing infers nothing as it is, and the type of the member
apart from its end. -/
theorem memberOf?_orMissing (name : String) (required : Bool) {validator : Expr} {type : TypeExpr}
    (h : validator.inferred? = some type) :
    memberOf? name (orMissing required validator).inferred?
      (orMissing required validator).inferredOptional? = some ⟨name, type, !required, none⟩ := by
  cases required with
  | true => rw [orMissing, if_pos rfl, h]; rfl
  | false =>
    -- `optional` is no refinement, so the validator is not read as one that must be there
    have hnone : (validator.method "optional" []).inferred? = none := by
      rw [Expr.inferred?_method _ _ _ (Expr.isLibrary_eq_false h), refined?, if_neg (by decide),
        if_neg (by decide)]
    have hsome : (validator.method "optional" []).inferredOptional? = some type := by
      rw [Expr.method, Expr.apply, Expr.inferredOptional?, if_pos rfl, h]
    rw [orMissing, if_neg (by simp), hnone, hsome]
    rfl

end Validator

/-! ### The type of a schema and of its validator -/

section Schemas

variable (lazy : NameSet)

mutual

/-- **The validator of a schema infers the type of the schema**, comments apart. -/
theorem Schema.inferred?_toValidator :
    ∀ schema : Schema, (schema.toValidator lazy).inferred? = some schema.toType.withoutDocs
  | ⟨shape, format, nullable, _, enumValues, refName, constraints⟩ => by
    -- both recursions look at the name first, then at the listed values, and only then at the shape
    rcases refName with - | name
    · rcases hlisted : listed enumValues with - | ⟨value, rest⟩
      · simp only [Schema.toValidator, Schema.toType, hlisted]
        exact inferred?_orNull nullable (Schema.inferred?_shapeValidator format constraints shape)
      · simp only [Schema.toValidator, Schema.toType, hlisted]
        exact inferred?_orNull nullable (inferred?_oneOf value rest)
    · rw [Schema.toValidator, Schema.toType]
      exact inferred?_orNull nullable (inferred?_reference lazy name)

theorem Schema.inferred?_shapeValidator (format : Option String) (c : Constraints) :
    ∀ shape : Shape, (shapeValidator lazy format c shape).inferred? =
      some (shapeType shape).withoutDocs
  | .any | .boolean => by
    rw [shapeValidator, shapeType]
    exact inferred?_keyword (by decide)
  | .string => by
    rw [shapeValidator, shapeType]
    exact inferred?_refine (isRefinement_text format c) (inferred?_keyword (by decide))
  | .integer => by
    rw [shapeValidator, shapeType]
    exact inferred?_refine (isRefinement_integer c) (inferred?_keyword (by decide))
  | .number => by
    rw [shapeValidator, shapeType]
    exact inferred?_refine (isRefinement_number c) (inferred?_keyword (by decide))
  | .array items => by
    rw [shapeValidator, shapeType]
    refine inferred?_refine (isRefinement_list c) ?_
    rw [inferred?_make, made?_array, Schema.inferred?_toValidator items]
    rfl
  | .object [] required additional => by
    -- An object without properties is a record on both sides, with texts as keys.
    have hkey : (make "string" []).inferred? = some (.keyword "string") :=
      inferred?_keyword (by decide)
    rw [shapeValidator, shapeType, inferred?_make, made?, if_pos rfl, hkey,
      Schema.inferred?_valueValidator additional]
    rfl
  | .object (property :: rest) required _ => by
    rw [shapeValidator, shapeType, inferred?_make, made?, if_neg (by decide)]
    simp only [if_pos, Schema.inferredMembers?_propertyEntries required (property :: rest)]
    rfl
  | .union [] _ => by
    rw [shapeValidator, shapeType]
    exact inferred?_keyword (by decide)
  | .union [variant] _ => by
    rw [shapeValidator, shapeType, variantTypes, variantTypes, TypeExpr.ofMembers,
      Schema.inferred?_toValidator variant]
  | .union (first :: second :: rest) _ => by
    rw [shapeValidator, shapeType, inferred?_make, made?, if_neg (by decide),
      TypeExpr.withoutDocs_ofMembers]
    simp only [if_pos, Schema.inferredItems?_variantValidators (first :: second :: rest)]
    rfl

theorem Schema.inferred?_valueValidator :
    ∀ additional : Option Schema, (valueValidator lazy additional).inferred? =
      some (valueType additional).withoutDocs
  | some schema => Schema.inferred?_toValidator schema
  | none => inferred?_keyword (by decide)

theorem Schema.inferredMembers?_propertyEntries (required : NameSet) :
    ∀ properties : List Property, inferredMembers? (propertyEntries lazy required properties) =
      some (membersWithoutDocs (propertyMembers required properties))
  | [] => rfl
  | ⟨name, schema⟩ :: rest => by
    rw [propertyEntries, propertyMembers, inferredMembers?,
      memberOf?_orMissing name _ (Schema.inferred?_toValidator schema), Option.bind_some,
      Schema.inferredMembers?_propertyEntries required rest]
    rfl

theorem Schema.inferredItems?_variantValidators :
    ∀ variants : List Schema, inferredItems? (variantValidators lazy variants) =
      some (typesWithoutDocs (variantTypes variants))
  | [] => rfl
  | variant :: rest => by
    rw [variantValidators, variantTypes, inferredItems?, Schema.inferred?_toValidator variant,
      Option.bind_some, Schema.inferredItems?_variantValidators rest]
    rfl

end

end Schemas

end ApiContract
