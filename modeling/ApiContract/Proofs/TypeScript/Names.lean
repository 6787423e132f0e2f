import ApiContract.Proofs.TypeScript.Use

/-!
# The names in a module

A name at the top of a module stands for a type or for a value, and may stand for one of each. It is
declared there or imported, and either way nothing else of its kind can have it. This module has
what is needed to say of a generated module which names it has.

## The names of declarations

`Declaration.typeNames` and `Declaration.valueNames` are the names that a declaration declares or
imports, by what they stand for. Declarations of types and headings bring no value into the module
(`Declaration.isTyping`), functions no type. `HasNames` says that the names of a module are its own
and those that are generated, in another order, and `Names.Apart` that no generated name is one that
the module has of its own; names with an ending are apart from names without it
(`disjoint_of_endings`).

## The types that are mentioned

The declared types that a declaration mentions are those in its type, in the types of its members,
or in the types that it states for a constant, for parameters or for a result
(`Declaration.namedTypes`). What is collected from a type, such as these names, goes through unions
and finds nothing in `null`; then the operations on types add nothing to it
(`TypeExpr.collect_orNull`, `TypeExpr.collect_ofMembers`). These lemmas are stated for any such
collection.

Locals of functions are no names of the module, and are the subject of `Proofs.TypeScript.Scope`.
-/

namespace ApiContract.TypeScript

/-! ### Collecting from types -/

namespace TypeExpr

variable {α : Type} {collect : TypeExpr → List α}

/-- Adding `null` adds nothing to what is collected. -/
theorem collect_orNull (hunion : ∀ members, collect (.union members) = members.flatMap collect)
    (hnull : collect (.keyword "null") = []) (type : TypeExpr) :
    collect type.orNull = collect type := by
  cases type with
  | union members =>
    rw [orNull, hunion, hunion, List.flatMap_append, List.flatMap_singleton, hnull,
      List.append_nil]
  | _ =>
    show collect (.union [_, .keyword "null"]) = _
    rw [hunion, List.flatMap_cons, List.flatMap_singleton, hnull, List.append_nil]

/-- What is collected from a union is collected from its alternatives. -/
theorem collect_ofMembers (hunion : ∀ members, collect (.union members) = members.flatMap collect)
    (types : List TypeExpr) : collect (.ofMembers types) = types.flatMap collect := by
  match types with
  | [] => exact hunion []
  | [type] => exact (List.flatMap_singleton _ _).symm
  | first :: second :: rest => exact hunion (first :: second :: rest)

/-- Nothing is collected from the types of single values. -/
theorem flatMap_map_literal (hliteral : ∀ value, collect (.literal value) = [])
    (values : List Json) : (values.map .literal).flatMap collect = [] := by
  rw [List.flatMap_map]
  exact List.flatMap_eq_nil_iff.2 fun value _ ↦ hliteral value

end TypeExpr

/-! ### The types that a type mentions -/

mutual

/-- The declared types that a type mentions. -/
def TypeExpr.namedTypes : TypeExpr → List String
  | .keyword _ | .literal _ => []
  | .named name => [name]
  | .generic _ args => typesNamedTypes args
  | .array item => item.namedTypes
  | .record value => value.namedTypes
  | .object members => membersNamedTypes members
  | .union members => typesNamedTypes members

/-- The declared types that several types mention. -/
def typesNamedTypes : List TypeExpr → List String
  | [] => []
  | type :: rest => type.namedTypes ++ typesNamedTypes rest

/-- The declared types that members mention. -/
def membersNamedTypes : List Member → List String
  | [] => []
  | ⟨_, type, _, _⟩ :: rest => type.namedTypes ++ membersNamedTypes rest

end

/-- Several types mention what each of them mentions. -/
theorem typesNamedTypes_eq_flatMap (types : List TypeExpr) :
    typesNamedTypes types = types.flatMap TypeExpr.namedTypes := by
  induction types with
  | nil => rfl
  | cons type rest ih => rw [typesNamedTypes, List.flatMap_cons, ih]

theorem TypeExpr.namedTypes_orNull (type : TypeExpr) :
    type.orNull.namedTypes = type.namedTypes :=
  TypeExpr.collect_orNull typesNamedTypes_eq_flatMap rfl type

theorem TypeExpr.namedTypes_ofMembers (types : List TypeExpr) :
    (TypeExpr.ofMembers types).namedTypes = types.flatMap TypeExpr.namedTypes :=
  TypeExpr.collect_ofMembers typesNamedTypes_eq_flatMap types

/-- Members mention what their types mention. -/
theorem membersNamedTypes_eq_flatMap (members : List Member) :
    membersNamedTypes members = (members.map Member.type).flatMap TypeExpr.namedTypes := by
  induction members with
  | nil => rfl
  | cons m rest ih =>
    obtain ⟨_, type, _, _⟩ := m
    rw [membersNamedTypes, List.map_cons, List.flatMap_cons, ih]

/-! ### The types of declarations -/

namespace Declaration

/-- The type that a declaration declares. -/
def typeName? : Declaration → Option String
  | .alias name _ _ | .interface name _ _ => some name
  | _ => none

/-- The types that a declaration states. -/
def types : Declaration → List TypeExpr
  | .alias _ type _ => [type]
  | .interface _ members _ => members.map Member.type
  | .const _ type _ _ => type.toList
  | .function _ _ params returns _ _ => params.filterMap Param.type ++ returns.toList
  | _ => []

/-- The declared types that a declaration mentions. -/
def namedTypes (d : Declaration) : List String := d.types.flatMap TypeExpr.namedTypes

end Declaration

/-- The types that a module declares. -/
def declaredTypes (declarations : List Declaration) : List String :=
  declarations.filterMap Declaration.typeName?

@[simp] theorem declaredTypes_append (xs ys : List Declaration) :
    declaredTypes (xs ++ ys) = declaredTypes xs ++ declaredTypes ys := List.filterMap_append

theorem declaredTypes_flatMap {α : Type} (xs : List α) (f : α → List Declaration) :
    declaredTypes (xs.flatMap f) = xs.flatMap fun x ↦ declaredTypes (f x) :=
  List.filterMap_flatMap

/-! ### The names of a declaration -/

namespace Declaration

/-- The values that a declaration declares or imports. -/
def valueNames : Declaration → List String
  | .imports main names _ false => main.toList ++ names
  | .const name _ _ _ | .function name _ _ _ _ _ => [name]
  | _ => []

/-- The types that a declaration declares or imports. -/
def typeNames : Declaration → List String
  | .imports main names _ true => main.toList ++ names
  | .alias name _ _ | .interface name _ _ => [name]
  | _ => []

/-- A heading, or the declaration of a type. -/
def isTyping : Declaration → Bool
  | .banner _ | .alias _ _ _ | .interface _ _ _ => true
  | _ => false

variable {d : Declaration}

/-- A declaration of a type is no function. -/
theorem functionName?_of_isTyping (h : d.isTyping = true) : d.functionName? = none := by
  cases d with
  | function => exact absurd h Bool.false_ne_true
  | _ => rfl

/-- It brings no value into the module. -/
theorem valueNames_of_isTyping (h : d.isTyping = true) : d.valueNames = [] := by
  cases d with
  | docBlock | imports | const | function => exact absurd h Bool.false_ne_true
  | _ => rfl

/-- It brings the type that it declares. -/
theorem typeNames_of_isTyping (h : d.isTyping = true) : d.typeNames = d.typeName?.toList := by
  cases d with
  | docBlock | imports | const | function => exact absurd h Bool.false_ne_true
  | _ => rfl

/-- A function brings its name. -/
theorem valueNames_of_functionName? {name : String} (h : d.functionName? = some name) :
    d.valueNames = [name] := by
  cases d with
  | function => exact congrArg Option.toList h
  | _ => exact absurd h nofun

/-- A function brings no type. -/
theorem typeNames_of_functionName? {name : String} (h : d.functionName? = some name) :
    d.typeNames = [] := by
  cases d with
  | function => rfl
  | _ => exact absurd h nofun

end Declaration

section Lists

variable {declared : List Declaration} (h : ∀ d ∈ declared, d.isTyping = true)

include h

theorem filterMap_functionName?_of_isTyping : declared.filterMap Declaration.functionName? = [] :=
  List.filterMap_eq_nil_iff.2 fun d hd ↦ Declaration.functionName?_of_isTyping (h d hd)

theorem flatMap_valueNames_of_isTyping : declared.flatMap Declaration.valueNames = [] :=
  List.flatMap_eq_nil_iff.2 fun d hd ↦ Declaration.valueNames_of_isTyping (h d hd)

theorem flatMap_typeNames_of_isTyping :
    declared.flatMap Declaration.typeNames = declaredTypes declared := by
  rw [declaredTypes, List.filterMap_eq_flatMap_toList]
  exact List.flatMap_congr fun d hd ↦ Declaration.typeNames_of_isTyping (h d hd)

end Lists

/-- Names by what they stand for. -/
structure Names where
  types : List String
  values : List String

/-- The names in a module are, in another order, its own and those that are generated. -/
structure HasNames (declared : List Declaration) (own generated : Names) : Prop where
  types : (declared.flatMap Declaration.typeNames).Perm (own.types ++ generated.types)
  values : (declared.flatMap Declaration.valueNames).Perm (own.values ++ generated.values)

/-- No generated name is, among names of its kind, one that the module has of its own. -/
structure Names.Apart (own generated : Names) : Prop where
  types : own.types.Disjoint generated.types
  values : own.values.Disjoint generated.values

/-- Names with an ending are apart from names without it. -/
theorem disjoint_of_endings {own generated endings : List String}
    (hown : ∀ name ∈ own, ∀ ending ∈ endings, ¬ending.toList <:+ name.toList)
    (hgenerated : ∀ name ∈ generated, ∃ base, ∃ ending ∈ endings, name = base ++ ending) :
    own.Disjoint generated := by
  intro name hname hmem
  obtain ⟨base, ending, hending, rfl⟩ := hgenerated name hmem
  refine hown _ hname ending hending ?_
  rw [String.toList_append]
  exact List.suffix_append _ _

end ApiContract.TypeScript
