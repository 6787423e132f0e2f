import ApiContract.TypeScript.Syntax
import Mathlib.Data.List.Nodup

/-!
# How code uses names

Statements about generated code are often about names: what a constant may mention, what a hook
calls, what stands for an argument. This module reads them off expressions and statements.

## Occurrences

Every identifier of an expression is an `Occurrence`, with whether it stands in the body of a
function. Outside of one it is evaluated together with the expression, so what it stands for must
have been declared by then; inside, only when the function is called. Names that a function's
parameters bind are listed like any other, so nothing is missed where a statement is about every
occurrence.

## Uses

Where the code of a module speaks of one of its names, what it takes of it and what it passes there
is a `Use`: `a.b(x)` is a use of `a` with the path `b` and the argument `x`. With each use goes the
scope, the parameters of the functions that the place stands in, so that one can tell what an
argument stands for (`Provides`). A parameter hides the name that it has; a local constant does not,
so nothing is missed where a statement is about every use.

## Arguments

`Provides` relates a parameter of a function to what is passed for it: a parameter around the place
of the same name and type, or such a member of one whose type the module declares. It is a condition
on types as they are declared and not on values.

The readings are recursions over expressions, statements and declarations, and know nothing of what
generates them.
-/

namespace ApiContract.TypeScript

/-! ### Occurrences -/

/-- An identifier at a place of an expression. -/
structure Occurrence where
  name : String
  /-- Whether the place is in the body of a function. -/
  deferred : Bool
  deriving DecidableEq, Repr

mutual

/-- The identifiers of an expression that may itself stand in the body of a function. -/
def Expr.occurrences (deferred : Bool) : Expr → List Occurrence
  | .identifier name => [⟨name, deferred⟩]
  | .literal _ | .regex _ => []
  | .template parts => partOccurrences deferred parts
  | .array items => itemOccurrences deferred items
  | .object entries => entryOccurrences deferred entries
  | .member target _ => target.occurrences deferred
  | .index target key => target.occurrences deferred ++ key.occurrences deferred
  | .call callee _ args => callee.occurrences deferred ++ itemOccurrences deferred args
  | .arrow _ body => body.occurrences true
  | .unary _ operand => operand.occurrences deferred
  | .asConst value => value.occurrences deferred

/-- The identifiers of several expressions. -/
def itemOccurrences (deferred : Bool) : List Expr → List Occurrence
  | [] => []
  | item :: rest => item.occurrences deferred ++ itemOccurrences deferred rest

/-- The identifiers in the holes of a template literal. -/
def partOccurrences (deferred : Bool) : List TemplatePart → List Occurrence
  | [] => []
  | .text _ :: rest => partOccurrences deferred rest
  | .hole value :: rest => value.occurrences deferred ++ partOccurrences deferred rest

/-- The identifiers in the entries of an object literal. -/
def entryOccurrences (deferred : Bool) : List Entry → List Occurrence
  | [] => []
  | .keyed _ value :: rest => value.occurrences deferred ++ entryOccurrences deferred rest
  | .shorthand name :: rest => ⟨name, deferred⟩ :: entryOccurrences deferred rest
  | .spread value :: rest => value.occurrences deferred ++ entryOccurrences deferred rest

end

/-- A method call mentions what its target and its arguments mention. -/
@[simp] theorem Expr.occurrences_method (target : Expr) (name : String) (args : List Expr)
    (deferred : Bool) :
    (target.method name args).occurrences deferred =
      target.occurrences deferred ++ itemOccurrences deferred args := by
  rw [Expr.method, Expr.apply, Expr.occurrences, Expr.occurrences]

/-- Literals mention nothing. -/
theorem itemOccurrences_map_literal (values : List Json) (deferred : Bool) :
    itemOccurrences deferred (values.map .literal) = [] := by
  induction values with
  | nil => rw [List.map_nil, itemOccurrences]
  | cons value rest ih => rw [List.map_cons, itemOccurrences, Expr.occurrences, ih]; rfl

namespace Declaration

/-- The name of a declared constant. -/
def constName? : Declaration → Option String
  | .const name _ _ _ => some name
  | _ => none

/-- The name and the value of a declared constant. -/
def constant? : Declaration → Option (String × Expr)
  | .const name _ value _ => some (name, value)
  | _ => none

/-- The identifiers in the value of a declared constant. -/
def occurrences : Declaration → List Occurrence
  | .const _ _ value _ => value.occurrences false
  | _ => []

end Declaration

/-! ### Uses -/

/-- A place where a name is used. -/
structure Use where
  /-- The members that are taken of it, one after the other. -/
  path : List String
  /-- The arguments, if what the path leads to is called. -/
  arguments : Option (List Expr)
  /-- The parameters of the functions around the place, those of the innermost first. -/
  scope : List Param

/-- The path that an expression takes from a name. -/
def Expr.path? (root : String) : Expr → Option (List String)
  | .identifier name => if name = root then some [] else none
  | .member target property => (target.path? root).map (· ++ [property])
  | _ => none

/-- Whether one of several parameters has the name. -/
def binds (params : List Param) (name : String) : Bool := params.any fun p ↦ p.name == name

@[simp] theorem binds_nil (name : String) : binds [] name = false := rfl

mutual

/-- The uses of a name in an expression. -/
def Expr.uses (root : String) (scope : List Param) : Expr → List Use
  | .identifier name => if name = root then [⟨[], none, scope⟩] else []
  | .literal _ | .regex _ => []
  | .template parts => partUses root scope parts
  | .array items => itemUses root scope items
  | .object entries => entryUses root scope entries
  | .member target property =>
    match target.path? root with
    | some path => [⟨path ++ [property], none, scope⟩]
    | none => target.uses root scope
  | .index target key => target.uses root scope ++ key.uses root scope
  | .call callee _ args =>
    match callee.path? root with
    | some path => ⟨path, some args, scope⟩ :: itemUses root scope args
    | none => callee.uses root scope ++ itemUses root scope args
  | .arrow params body => if binds params root then [] else body.uses root (params ++ scope)
  | .unary _ operand => operand.uses root scope
  | .asConst value => value.uses root scope

/-- The uses in several expressions. -/
def itemUses (root : String) (scope : List Param) : List Expr → List Use
  | [] => []
  | item :: rest => item.uses root scope ++ itemUses root scope rest

/-- The uses in the holes of a template literal. -/
def partUses (root : String) (scope : List Param) : List TemplatePart → List Use
  | [] => []
  | .text _ :: rest => partUses root scope rest
  | .hole value :: rest => value.uses root scope ++ partUses root scope rest

/-- The uses in the entries of an object literal. -/
def entryUses (root : String) (scope : List Param) : List Entry → List Use
  | [] => []
  | .keyed _ value :: rest => value.uses root scope ++ entryUses root scope rest
  | .shorthand name :: rest =>
    (if name = root then [⟨[], none, scope⟩] else []) ++ entryUses root scope rest
  | .spread value :: rest => value.uses root scope ++ entryUses root scope rest

end

mutual

/-- The uses of a name in a statement. -/
def Statement.uses (root : String) (scope : List Param) : Statement → List Use
  | .const _ value | .return value | .expr value => value.uses root scope
  | .assign target value => target.uses root scope ++ value.uses root scope
  | .if condition whenTrue whenFalse =>
    condition.uses root scope ++ statementUses root scope whenTrue ++
      statementUses root scope whenFalse

/-- The uses in several statements. -/
def statementUses (root : String) (scope : List Param) : List Statement → List Use
  | [] => []
  | statement :: rest => statement.uses root scope ++ statementUses root scope rest

end

attribute [simp] Expr.path? Expr.uses itemUses partUses entryUses Statement.uses statementUses

/-- The uses in several expressions are those in each. -/
theorem itemUses_eq_flatMap (root : String) (scope : List Param) (items : List Expr) :
    itemUses root scope items = items.flatMap (Expr.uses root scope) := by
  induction items with
  | nil => rw [itemUses, List.flatMap_nil]
  | cons item rest ih => rw [itemUses, List.flatMap_cons, ih]

/-- The uses in entries with keys are those in their values. -/
theorem entryUses_keyed_eq_flatMap {α : Type} (root : String) (scope : List Param)
    (key : α → String) (value : α → Expr) (list : List α) :
    entryUses root scope (list.map fun x ↦ .keyed (key x) (value x)) =
      list.flatMap fun x ↦ (value x).uses root scope := by
  induction list with
  | nil => rw [List.map_nil, entryUses, List.flatMap_nil]
  | cons x rest ih => rw [List.map_cons, entryUses, List.flatMap_cons, ih]

namespace Declaration

/-- The uses of a name in a declaration. -/
@[simp] def uses (root : String) : Declaration → List Use
  | .const _ _ value _ => value.uses root []
  | .function _ _ params _ body _ =>
    if binds params root then [] else statementUses root params body
  | _ => []

/-- The name of a function. -/
def functionName? : Declaration → Option String
  | .function name _ _ _ _ _ => some name
  | _ => none

/-- The parameters of a function. -/
@[simp] def params : Declaration → List Param
  | .function _ _ params _ _ _ => params
  | _ => []

/-- The types that are imported from a module. -/
def importedTypes (source : String) : Declaration → List String
  | .imports _ names origin true => if origin = source then names else []
  | _ => []

/-- A function imports nothing. -/
theorem importedTypes_of_functionName? {d : Declaration} {name : String}
    (h : d.functionName? = some name) (source : String) : d.importedTypes source = [] := by
  cases d with
  | imports => exact absurd h nofun
  | _ => rfl

end Declaration

/-! ### What arguments stand for -/

/-- The parameter that a name stands for. -/
def boundParam? (scope : List Param) (name : String) : Option Param :=
  scope.find? fun p ↦ p.name == name

/-- Parameters of distinct names are told apart by them. -/
theorem boundParam?_of_mem {scope : List Param} (hnames : (scope.map Param.name).Nodup)
    {p : Param} (h : p ∈ scope) : boundParam? scope p.name = some p := by
  induction scope with
  | nil => exact absurd h List.not_mem_nil
  | cons head rest ih =>
    obtain ⟨hhead, hrest⟩ := List.nodup_cons.1 hnames
    rw [boundParam?, List.find?_cons]
    rcases List.mem_cons.1 h with rfl | hlater
    · rw [beq_self_eq_true]
    · have hne : (head.name == p.name) = false :=
        beq_eq_false_iff_ne.2 fun heq ↦ hhead (heq ▸ List.mem_map_of_mem hlater)
      rw [hne]
      exact ih hrest hlater

/-- What is passed for a parameter of a function stands for just that: it is a parameter of the same
name and type, or such a member of one whose type the module declares. -/
inductive Provides (declared : List Declaration) (scope : List Param) : Param → Expr → Prop
  | param {p : Param} (hbound : boundParam? scope p.name = some p) :
    Provides declared scope p (.identifier p.name)
  | member {name holder holderType : String} {type : TypeExpr} {isOptional : Bool}
      {members : List Member}
      (hbound : boundParam? scope holder = some (.required holder (.named holderType)))
      (halias : .alias holderType (.object members) none ∈ declared)
      (hmember : ⟨name, type, isOptional, none⟩ ∈ members) :
    Provides declared scope ⟨name, some type, isOptional⟩ (.member (.identifier holder) name)

end ApiContract.TypeScript
