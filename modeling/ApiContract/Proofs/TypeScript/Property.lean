import ApiContract.Identifier
import ApiContract.TypeScript.Syntax
import Mathlib.Data.List.Basic

/-!
# What literals hold

Generated code keeps lists and tables in literals. This module says what is found in them: the items
of an array literal, and the value that a path of properties leads to in an object literal.

## Properties

If an object has a key twice, the later entry is the one that counts, whatever the earlier one was
(`lookup_reverse_map`, `exists_lookup_reverse_map`). So the fields are looked up from the last one
on. A property can be taken by a dot only if it is written as an identifier; where a key is no
identifier, a path through it leads nowhere (`Expr.valueAt?`). Objects and arrays may be taken `as
const`, which changes nothing about what they hold.

## Tables of named things

Most tables are made of a list of things, each with a key and a value. Then what is found under the
key of one of them is its own value if no later thing has the key, and the value of some later one
otherwise. That the keys are distinct is asked for where it is known, and is not assumed here.

Spread entries have no key of their own, so an object with one has no fields in this sense.
-/

namespace ApiContract.TypeScript

/-- The key and the value of an entry that has both. -/
def Entry.field? : Entry → Option (String × Expr)
  | .keyed key value => some (key, value)
  | .shorthand _ | .spread _ => none

namespace Expr

/-- The expression that `as const` stands behind. -/
def withoutConst : Expr → Expr
  | .asConst value => value.withoutConst
  | value => value

/-- The items of an array literal. -/
def items? (value : Expr) : Option (List Expr) :=
  match value.withoutConst with
  | .array items => some items
  | _ => none

/-- The items of the array that an expression is, or that it builds when it is called. -/
def builtItems? (value : Expr) : Option (List Expr) :=
  match value.withoutConst with
  | .arrow _ body => body.items?
  | other => other.items?

/-- The text that an expression is written as. -/
def text? : Expr → Option String
  | .literal (.string value) => some value
  | _ => none

/-- The texts that an array literal lists. -/
def texts? (value : Expr) : Option (List String) := value.items?.bind (List.mapM text?)

/-- An array of texts lists them. -/
theorem mapM_text?_map {α : Type} (f : α → String) (list : List α) :
    (list.map fun x ↦ .text (f x)).mapM text? = some (list.map f) := by
  induction list with
  | nil => rfl
  | cons x rest ih => rw [List.map_cons, List.mapM_cons, ih]; rfl

/-- The fields of an object literal, in the order in which they are written. -/
def fields? (value : Expr) : Option (List (String × Expr)) :=
  match value.withoutConst with
  | .object entries => entries.mapM Entry.field?
  | _ => none

/-- The value of a property: that of the last field with its key. -/
def property? (key : String) (value : Expr) : Option Expr :=
  value.fields?.bind fun fields ↦ fields.reverse.lookup key

/-- The value that a path of properties leads to. -/
def valueAt? : List String → Expr → Option Expr
  | [], value => some value.withoutConst
  | key :: rest, value =>
    if Identifier.isPlainProperty key then (value.property? key).bind (valueAt? rest) else none

theorem valueAt?_cons {key : String} {rest : List String} {value : Expr}
    (hkey : Identifier.isPlainProperty key = true) :
    value.valueAt? (key :: rest) = (value.property? key).bind (valueAt? rest) := if_pos hkey

end Expr

/-- Entries that all have keys are fields. -/
theorem mapM_field?_keyed {α : Type} (key : α → String) (value : α → Expr) (list : List α) :
    (list.map fun x ↦ .keyed (key x) (value x)).mapM Entry.field? =
      some (list.map fun x ↦ (key x, value x)) := by
  induction list with
  | nil => rfl
  | cons x rest ih => rw [List.map_cons, List.mapM_cons, ih]; rfl

/-! ### Fields with one key -/

section

variable {α β : Type} (key : α → String) (value : α → β) {list before after : List α} {x : α}

/-- A table finds the value of the first thing with the key. -/
theorem lookup_map_eq_find? (list : List α) (name : String) :
    (list.map fun y ↦ (key y, value y)).lookup name =
      (list.find? fun y ↦ name == key y).map value := by
  induction list with
  | nil => rfl
  | cons y rest ih =>
    rw [List.map_cons, List.lookup_cons, List.find?_cons, ih]
    split <;> rfl

/-- Looked up from the end, it finds one behind a given thing, or that thing, or one before it. -/
theorem lookup_reverse_map_append (hlist : list = before ++ x :: after) (name : String) :
    (list.map fun y ↦ (key y, value y)).reverse.lookup name =
      ((after.reverse.find? fun y ↦ name == key y).or
        ((x :: before.reverse).find? fun y ↦ name == key y)).map value := by
  rw [← List.map_reverse, lookup_map_eq_find?, hlist, List.reverse_append, List.reverse_cons,
    List.append_assoc, List.find?_append]
  rfl

/-- The last field with a key is found. -/
theorem lookup_reverse_map (hlist : list = before ++ x :: after)
    (h : ∀ y ∈ after, key y ≠ key x) :
    (list.map fun y ↦ (key y, value y)).reverse.lookup (key x) = some (value x) := by
  have hnone : (after.reverse.find? fun y ↦ key x == key y) = none :=
    List.find?_eq_none.2 fun y hy heq ↦ h y (List.mem_reverse.1 hy) (beq_iff_eq.1 heq).symm
  rw [lookup_reverse_map_append key value hlist, hnone, Option.none_or, List.find?_cons,
    beq_self_eq_true]
  rfl

/-- If a key comes again, a later field is found. -/
theorem exists_lookup_reverse_map (hlist : list = before ++ x :: after)
    (h : ∃ y ∈ after, key y = key x) :
    ∃ y ∈ after,
      (list.map fun y ↦ (key y, value y)).reverse.lookup (key x) = some (value y) := by
  obtain ⟨again, hagain, hkey⟩ := h
  have hsome : (after.reverse.find? fun y ↦ key x == key y).isSome = true :=
    List.find?_isSome.2 ⟨again, List.mem_reverse.2 hagain, beq_iff_eq.2 hkey.symm⟩
  obtain ⟨y, hy⟩ := Option.isSome_iff_exists.1 hsome
  refine ⟨y, List.mem_reverse.1 (List.mem_of_find?_eq_some hy), ?_⟩
  rw [lookup_reverse_map_append key value hlist, hy]
  rfl

end

end ApiContract.TypeScript
