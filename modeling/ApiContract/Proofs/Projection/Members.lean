import ApiContract.Proofs.Projection.Inference
import ApiContract.Proofs.TypeScript.Names

/-!
# The members inside a type and inside a validator

Which members may be missing and which may be `null` can be read off a type and off a validator
alike: a type marks the member and has `null` in the union, a validator ends in `.optional()` and in
`.nullable()`. Both readings go through the whole of their tree on their own and list the members
that they pass, each with the way to it.

## Main results

* `Schema.nestedMembers_toValidator`: for the type and the validator of one schema the lists are the
  same, at every path.
* `Schema.projections_agree`: the validator infers the type, and the lists are the same. This is the
  statement that other modules and readers want; the two halves are independent of each other.

## Ways

A way leads to the items of a list, to the values of a record or to a member. Alternatives of a
union are not told apart by ways: the members of all of them are listed at one place, in order.

## Proof

Again the induction is mutual along both projections. The one thing that is needed of a validator
beside its list is how it ends (`Validator.EndsLike`): `.nullable()` comes before `.optional()`, and
refinements come before both, so that what a type says outside is said at the end of the calls. A
type is nullable only by a `null` that was added, since no schema has the type `null` alone
(`Schema.isNull_toType`).
-/

namespace ApiContract

open TypeScript Validator

/-! ### The members inside a type -/

namespace TypeScript

/-- A way down: to the items of a list, to the values of a record, or to a member. The members of
a union are no way of their own. -/
inductive Way where
  | item
  | value
  | member (name : String)

/-- A member inside a type, with the way to it. -/
structure NestedMember where
  path : List Way
  isOptional : Bool
  isNullable : Bool

namespace TypeExpr

/-- Whether the type is `null`. -/
def isNull : TypeExpr → Bool
  | keyword word => word == "null"
  | _ => false

/-- Whether the type is a union with `null` in it. -/
def isNullable : TypeExpr → Bool
  | union members => members.any isNull
  | _ => false

end TypeExpr

mutual

/-- The members inside a type that stands at the end of a path. -/
def TypeExpr.nestedMembers (path : List Way) : TypeExpr → List NestedMember
  | .keyword _ | .literal _ | .named _ | .generic _ _ => []
  | .array item => item.nestedMembers (path ++ [.item])
  | .record value => value.nestedMembers (path ++ [.value])
  | .object members => membersNestedMembers path members
  | .union members => typesNestedMembers path members

/-- The members inside several types at one place. -/
def typesNestedMembers (path : List Way) : List TypeExpr → List NestedMember
  | [] => []
  | type :: rest => type.nestedMembers path ++ typesNestedMembers path rest

/-- The members themselves, each with those inside it behind it. -/
def membersNestedMembers (path : List Way) : List Member → List NestedMember
  | [] => []
  | ⟨name, type, isOptional, _⟩ :: rest =>
    ⟨path ++ [.member name], isOptional, type.isNullable⟩ ::
      type.nestedMembers (path ++ [.member name]) ++ membersNestedMembers path rest

end

/-! ### The members inside a validator -/

/-- Whether a validator ends in a call of the method. -/
def Expr.endsIn (method : String) (validator : Expr) : Bool :=
  validator.outerMethod? == some method

/-- A validator without its final `.optional()`. -/
def Expr.presentPart (validator : Expr) : Expr :=
  if validator.endsIn "optional" then validator.receiver?.getD validator else validator

mutual

/-- The members inside what a validator that stands at the end of a path admits. Calls on another
validator are passed through. -/
def Expr.nestedMembers (path : List Way) : Expr → List NestedMember
  | .call (.member target method) _ args =>
    if target.isLibrary then madeMembers path method args else target.nestedMembers path
  | _ => []

/-- The members inside what the library makes of some arguments. -/
def madeMembers (path : List Way) (method : String) : List Expr → List NestedMember
  | [arg] =>
    if method = "array" then arg.nestedMembers (path ++ [.item])
    else
      match arg with
      | .array items => itemsNestedMembers path items
      | .object entries => entriesNestedMembers path entries
      | _ => []
  | [_, value] => if method = "record" then value.nestedMembers (path ++ [.value]) else []
  | _ => []

/-- The members inside several validators at one place. -/
def itemsNestedMembers (path : List Way) : List Expr → List NestedMember
  | [] => []
  | item :: rest => item.nestedMembers path ++ itemsNestedMembers path rest

/-- The entries of an object as members, each with those inside it behind it. -/
def entriesNestedMembers (path : List Way) : List Entry → List NestedMember
  | [] => []
  | .keyed name value :: rest =>
    ⟨path ++ [.member name], value.endsIn "optional", value.presentPart.endsIn "nullable"⟩ ::
      value.nestedMembers (path ++ [.member name]) ++ entriesNestedMembers path rest
  | _ :: rest => entriesNestedMembers path rest

end

/-! ### Lists of members along the operations on types -/

/-- The members inside several types are those of each. -/
theorem typesNestedMembers_eq_flatMap (path : List Way) (types : List TypeExpr) :
    typesNestedMembers path types = types.flatMap (TypeExpr.nestedMembers path) := by
  induction types with
  | nil => rfl
  | cons type rest ih => rw [typesNestedMembers, List.flatMap_cons, ih]

theorem TypeExpr.nestedMembers_orNull (path : List Way) (type : TypeExpr) :
    type.orNull.nestedMembers path = type.nestedMembers path :=
  TypeExpr.collect_orNull (typesNestedMembers_eq_flatMap path) rfl type

/-- The members inside a union are those of its alternatives. -/
theorem TypeExpr.nestedMembers_ofMembers (path : List Way) (types : List TypeExpr) :
    (TypeExpr.ofMembers types).nestedMembers path =
      types.flatMap (TypeExpr.nestedMembers path) :=
  TypeExpr.collect_ofMembers (typesNestedMembers_eq_flatMap path) types

/-- A type with `null` added is nullable. -/
theorem TypeExpr.isNullable_orNull (type : TypeExpr) : type.orNull.isNullable = true := by
  cases type with
  | union members => simp [TypeExpr.orNull, TypeExpr.isNullable, TypeExpr.isNull]
  | _ => simp [TypeExpr.orNull, TypeExpr.isNullable, TypeExpr.isNull]

/-! ### Lists of members along the calls on validators -/

/-- A method call adds no member. -/
theorem Expr.nestedMembers_method (path : List Way) {target : Expr} (method : String)
    (args : List Expr) (h : target.isLibrary = false) :
    (target.method method args).nestedMembers path = target.nestedMembers path := by
  rw [Expr.method, Expr.apply, Expr.nestedMembers, if_neg (by simp [h])]

theorem madeMembers_array (path : List Way) (item : Expr) :
    madeMembers path "array" [item] = item.nestedMembers (path ++ [.item]) := by
  cases item <;> rfl

/-- Validators without members have none together. -/
theorem itemsNestedMembers_eq_nil (path : List Way) {items : List Expr}
    (h : ∀ item ∈ items, item.nestedMembers path = []) : itemsNestedMembers path items = [] := by
  induction items with
  | nil => rfl
  | cons item rest ih =>
    obtain ⟨hitem, hrest⟩ := List.forall_mem_cons.1 h
    rw [itemsNestedMembers, hitem, ih hrest]
    rfl

@[simp] theorem Expr.endsIn_method (target : Expr) (method other : String) (args : List Expr) :
    (target.method method args).endsIn other = (method == other) := rfl

end TypeScript

namespace Validator

/-- The members inside what the library makes. -/
theorem nestedMembers_make (path : List Way) (method : String) (args : List Expr) :
    (make method args).nestedMembers path = madeMembers path method args := by
  rw [make, Expr.method, Expr.apply, Expr.nestedMembers]
  rfl

theorem isLibrary_make (method : String) (args : List Expr) :
    (make method args).isLibrary = false := rfl

/-- There are no members inside a reference. -/
theorem nestedMembers_reference (path : List Way) (lazy : NameSet) (component : String) :
    (reference lazy component).nestedMembers path = [] := by
  rw [reference]
  split
  · rw [nestedMembers_make]; rfl
  · rfl

/-- There are no members inside listed values. -/
theorem nestedMembers_oneOf (path : List Way) (values : List Json) :
    (oneOf values).nestedMembers path = [] := by
  unfold oneOf
  split
  · rw [nestedMembers_make]; rfl
  · split
    · rw [nestedMembers_make, madeMembers, if_neg (by decide)]
      exact itemsNestedMembers_eq_nil path (List.forall_mem_map.2 fun _ _ ↦ rfl)
    · rw [nestedMembers_make, madeMembers, if_neg (by decide)]
      exact itemsNestedMembers_eq_nil path (List.forall_mem_map.2 fun _ _ ↦ rfl)

/-- Refinements add no members. -/
theorem nestedMembers_refine (path : List Way) {refinements : List (String × List Expr)}
    (h : ∀ r ∈ refinements, IsRefinement r) {base : Expr} (hbase : base.isLibrary = false) :
    (refine base refinements).nestedMembers path = base.nestedMembers path := by
  refine (refine_induction (motive := fun e ↦ e.isLibrary = false ∧
    e.nestedMembers path = base.nestedMembers path) h ⟨hbase, rfl⟩ fun validator r _ ih ↦ ?_).2
  exact ⟨rfl, by rw [Expr.nestedMembers_method path r.1 r.2 ih.1, ih.2]⟩

theorem nestedMembers_orNull (path : List Way) (nullable : Bool) {validator : Expr}
    {type : TypeExpr} (hvalidator : validator.isLibrary = false)
    (h : validator.nestedMembers path = type.nestedMembers path) :
    (orNull nullable validator).nestedMembers path =
      (typeOrNull nullable type).nestedMembers path := by
  cases nullable with
  | false => exact h
  | true =>
    rw [orNull, typeOrNull, if_pos rfl, if_pos rfl, TypeExpr.nestedMembers_orNull,
      Expr.nestedMembers_method path _ _ hvalidator, h]

/-! ### The ends of validators -/

/-- A validator is as nullable as a type, and not yet marked as one that may be missing. -/
def EndsLike (validator : Expr) (type : TypeExpr) : Prop :=
  validator.endsIn "optional" = false ∧ validator.endsIn "nullable" = type.isNullable

/-- Refined validators end in a refinement, or as they did. -/
theorem endsLike_refine {refinements : List (String × List Expr)}
    (h : ∀ r ∈ refinements, IsRefinement r) {base : Expr} {type : TypeExpr}
    (htype : type.isNullable = false) (hbase : EndsLike base type) :
    EndsLike (refine base refinements) type := by
  refine refine_induction (motive := fun e ↦ EndsLike e type) h hbase fun validator r hr _ ↦ ?_
  have hother : ∀ method ∉ refinementMethods, (r.1 == method) = false :=
    fun method hmethod ↦ beq_eq_false_iff_ne.2 fun heq ↦ hmethod (heq ▸ hr.1)
  exact ⟨hother "optional" (by decide), by
    rw [Expr.endsIn_method, hother "nullable" (by decide), htype]⟩

/-- With `null` on both sides, the ends are alike. -/
theorem endsLike_orNull (nullable : Bool) {validator : Expr} {type : TypeExpr}
    (h : EndsLike validator type) :
    EndsLike (orNull nullable validator) (typeOrNull nullable type) := by
  cases nullable with
  | false => exact h
  | true => exact ⟨rfl, (TypeExpr.isNullable_orNull type).symm⟩

/-- A reference ends like the type of its name. -/
theorem endsLike_reference (lazy : NameSet) (component : String) :
    EndsLike (reference lazy component) (.named (typeName component)) := by
  rw [reference]
  split <;> exact ⟨rfl, rfl⟩

/-- A union of literals is not nullable by itself. -/
theorem isNullable_map_literal (values : List Json) :
    (TypeExpr.ofMembers (values.map .literal)).isNullable = false := by
  have hany : ∀ values : List Json, (values.map TypeExpr.literal).any TypeExpr.isNull = false := by
    intro values
    rw [List.any_map]
    exact List.any_eq_false.2 fun _ _ ↦ by simp [TypeExpr.isNull]
  match values with
  | [] => rfl
  | [_] => rfl
  | first :: second :: rest => exact hany (first :: second :: rest)

/-- Listed values end like the union of their types. -/
theorem endsLike_oneOf (values : List Json) :
    EndsLike (oneOf values) (TypeExpr.ofMembers (values.map .literal)) := by
  rw [EndsLike, isNullable_map_literal]
  unfold oneOf
  split
  · exact ⟨rfl, rfl⟩
  · split <;> exact ⟨rfl, rfl⟩

end Validator

/-! ### The members of a schema's type and of its validator -/

section Schemas

variable {lazy : NameSet}

theorem Schema.isLibrary_toValidator (schema : Schema) :
    (schema.toValidator lazy).isLibrary = false :=
  Expr.isLibrary_eq_false (Schema.inferred?_toValidator lazy schema)

mutual

/-- The type of a schema is never `null` alone. -/
theorem Schema.isNull_toType : ∀ schema : Schema, schema.toType.isNull = false
  | ⟨shape, _, nullable, _, enumValues, refName, _⟩ => by
    have hnull : ∀ type : TypeExpr, type.isNull = false →
        (typeOrNull nullable type).isNull = false := by
      intro type htype
      cases nullable with
      | false => exact htype
      | true => cases type <;> rfl
    rcases refName with - | name
    · rcases hlisted : listed enumValues with - | ⟨value, rest⟩
      · simp only [Schema.toType, hlisted]
        exact hnull _ (Schema.isNull_shapeType shape)
      · simp only [Schema.toType, hlisted]
        exact hnull _ (by cases rest <;> rfl)
    · rw [Schema.toType]
      exact hnull _ rfl

theorem Schema.isNull_shapeType : ∀ shape : Shape, (shapeType shape).isNull = false
  | .any | .string | .integer | .number | .boolean | .array _ | .object [] _ _
  | .object (_ :: _) _ _ | .union [] _ | .union (_ :: _ :: _) _ => rfl
  | .union [variant] _ => Schema.isNull_toType variant

end

/-- No alternative is `null`. -/
theorem Schema.any_isNull_variantTypes (variants : List Schema) :
    (variantTypes variants).any TypeExpr.isNull = false := by
  induction variants with
  | nil => rfl
  | cons variant rest ih =>
    rw [variantTypes, List.any_cons, Schema.isNull_toType variant, ih, Bool.false_or]

mutual

/-- The validator of a schema is as nullable as its type. -/
theorem Schema.endsLike_toValidator :
    ∀ schema : Schema, EndsLike (schema.toValidator lazy) schema.toType
  | ⟨shape, format, nullable, _, enumValues, refName, constraints⟩ => by
    rcases refName with - | name
    · rcases hlisted : listed enumValues with - | ⟨value, rest⟩
      · simp only [Schema.toValidator, Schema.toType, hlisted]
        exact endsLike_orNull nullable (Schema.endsLike_shapeValidator format constraints shape)
      · simp only [Schema.toValidator, Schema.toType, hlisted]
        exact endsLike_orNull nullable (endsLike_oneOf (value :: rest))
    · rw [Schema.toValidator, Schema.toType]
      exact endsLike_orNull nullable (endsLike_reference lazy name)

theorem Schema.endsLike_shapeValidator (format : Option String) (c : Constraints) :
    ∀ shape : Shape, EndsLike (shapeValidator lazy format c shape) (shapeType shape)
  | .any | .boolean | .object [] _ _ | .object (_ :: _) _ _ | .union [] _ => ⟨rfl, rfl⟩
  | .string => endsLike_refine (isRefinement_text format c) rfl ⟨rfl, rfl⟩
  | .integer => endsLike_refine (isRefinement_integer c) rfl ⟨rfl, rfl⟩
  | .number => endsLike_refine (isRefinement_number c) rfl ⟨rfl, rfl⟩
  | .array _ => endsLike_refine (isRefinement_list c) rfl ⟨rfl, rfl⟩
  | .union [variant] _ => Schema.endsLike_toValidator variant
  | .union (first :: second :: rest) _ =>
    ⟨rfl, (Schema.any_isNull_variantTypes (first :: second :: rest)).symm⟩

end

mutual

/-- **The validator of a schema has the members of its type**: the same ones at every path, as
optional and as nullable. -/
theorem Schema.nestedMembers_toValidator :
    ∀ (path : List Way) (schema : Schema),
      (schema.toValidator lazy).nestedMembers path = schema.toType.nestedMembers path
  | path, ⟨shape, format, nullable, _, enumValues, refName, constraints⟩ => by
    rcases refName with - | name
    · rcases hlisted : listed enumValues with - | ⟨value, rest⟩
      · simp only [Schema.toValidator, Schema.toType, hlisted]
        exact nestedMembers_orNull path nullable
          (Expr.isLibrary_eq_false (Schema.inferred?_shapeValidator lazy format constraints shape))
          (Schema.nestedMembers_shapeValidator format constraints path shape)
      · simp only [Schema.toValidator, Schema.toType, hlisted]
        refine nestedMembers_orNull path nullable
          (Expr.isLibrary_eq_false (inferred?_oneOf value rest)) ?_
        rw [nestedMembers_oneOf, TypeExpr.nestedMembers_ofMembers,
          TypeExpr.flatMap_map_literal fun _ ↦ rfl]
    · rw [Schema.toValidator, Schema.toType]
      exact nestedMembers_orNull path nullable
        (Expr.isLibrary_eq_false (inferred?_reference lazy name))
        (nestedMembers_reference path lazy name)

theorem Schema.nestedMembers_shapeValidator (format : Option String) (c : Constraints) :
    ∀ (path : List Way) (shape : Shape),
      (shapeValidator lazy format c shape).nestedMembers path = (shapeType shape).nestedMembers path
  | _, .any | _, .boolean | _, .union [] _ => rfl
  | path, .string => nestedMembers_refine path (isRefinement_text format c) rfl
  | path, .integer => nestedMembers_refine path (isRefinement_integer c) rfl
  | path, .number => nestedMembers_refine path (isRefinement_number c) rfl
  | path, .array items => by
    rw [shapeValidator, nestedMembers_refine path (isRefinement_list c) (isLibrary_make _ _),
      nestedMembers_make, madeMembers_array, Schema.nestedMembers_toValidator _ items]
    rfl
  | path, .object [] _ additional => by
    rw [shapeValidator, nestedMembers_make, madeMembers, if_pos rfl,
      Schema.nestedMembers_valueValidator _ additional]
    rfl
  | path, .object (property :: rest) required _ => by
    rw [shapeValidator, nestedMembers_make, madeMembers, if_neg (by decide)]
    exact Schema.nestedMembers_propertyEntries required path (property :: rest)
  | path, .union [variant] _ => Schema.nestedMembers_toValidator path variant
  | path, .union (first :: second :: rest) _ => by
    rw [shapeValidator, nestedMembers_make, madeMembers, if_neg (by decide)]
    exact Schema.nestedMembers_variantValidators path (first :: second :: rest)

theorem Schema.nestedMembers_valueValidator :
    ∀ (path : List Way) (additional : Option Schema),
      (valueValidator lazy additional).nestedMembers path =
        (valueType additional).nestedMembers path
  | path, some schema => Schema.nestedMembers_toValidator path schema
  | _, none => rfl

theorem Schema.nestedMembers_propertyEntries (required : NameSet) :
    ∀ (path : List Way) (properties : List Property),
      entriesNestedMembers path (propertyEntries lazy required properties) =
        membersNestedMembers path (propertyMembers required properties)
  | _, [] => rfl
  | path, ⟨name, schema⟩ :: rest => by
    -- the end of the schema's own validator says nothing of the member being optional
    obtain ⟨hoptional, hnullable⟩ : EndsLike (schema.toValidator lazy) schema.toType :=
      Schema.endsLike_toValidator schema
    rw [propertyEntries, propertyMembers, entriesNestedMembers, membersNestedMembers,
      Schema.nestedMembers_propertyEntries required path rest,
      ← Schema.nestedMembers_toValidator _ schema, ← hnullable]
    cases required.contains name with
    | true => rw [orMissing, if_pos rfl, Expr.presentPart, hoptional, if_neg (by simp)]; rfl
    | false =>
      rw [orMissing, if_neg (by simp), Expr.nestedMembers_method _ _ _ schema.isLibrary_toValidator]
      rfl

theorem Schema.nestedMembers_variantValidators :
    ∀ (path : List Way) (variants : List Schema),
      itemsNestedMembers path (variantValidators lazy variants) =
        typesNestedMembers path (variantTypes variants)
  | _, [] => rfl
  | path, variant :: rest => by
    rw [variantValidators, variantTypes, itemsNestedMembers, typesNestedMembers,
      Schema.nestedMembers_toValidator path variant,
      Schema.nestedMembers_variantValidators path rest]

end

/-- **The two projections of a schema denote the same type.** The validator infers the type,
comments apart, whichever names are referred to lazily, and at every path inside both the members
that may be missing and those that may be `null` are the same. -/
theorem Schema.projections_agree (lazy : NameSet) (schema : Schema) :
    (schema.toValidator lazy).inferred? = some schema.toType.withoutDocs ∧
      ∀ path, (schema.toValidator lazy).nestedMembers path = schema.toType.nestedMembers path :=
  ⟨Schema.inferred?_toValidator lazy schema,
    fun path ↦ Schema.nestedMembers_toValidator path schema⟩

end Schemas

end ApiContract
