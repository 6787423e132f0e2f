import ApiContract.TypeScript.Printer
import Mathlib.Data.Set.Basic

/-!
# What types are made of

The types that are made for schemas have neither arguments nor object types without members, and a
union has two alternatives at least. All such types are made of some names, values and doc comments
(`TypeExpr.MadeOf`), and what is proved of every one of them is proved by induction on how it is
made.

## Contents

`TypeExpr.Contents` has four sets: the names that may be mentioned, the values that may be types of
their own, the comments that members may have, and the types that may be alternatives. Conditions on
any of these are thus conditions on a type as a whole. With the last one, types without unions in
unions are those whose alternatives have themselves as their only part.

## Operations

A type is known by its parts, the alternatives of a union or the type itself: `null` is added as one
more part, and a union is made of one type or of several. Both keep what a type is made of
(`MadeOf.ofMembers`, `MadeOf.orNull`).

The last section has the texts of several types and members in terms of the text of one, which the
statements about indentation and about telling types apart begin with.
-/

namespace ApiContract.TypeScript

namespace TypeExpr

/-- The alternatives of a union; any other type is the only one. -/
def parts : TypeExpr → List TypeExpr
  | .union members => members
  | type => [type]

theorem orNull_eq_union (type : TypeExpr) :
    type.orNull = .union (type.parts ++ [.keyword "null"]) := by
  cases type <;> rfl

/-- What types may be made of. -/
structure Contents where
  /-- The declared types that may be mentioned. -/
  names : Set String
  /-- The values that may have types of their own. -/
  values : Set Json
  /-- The texts that may be comments of members. -/
  docs : Set String
  /-- The types that may be alternatives of a union. -/
  alternatives : Set TypeExpr

/-- The built-in types of what values there are in a document. -/
def keywords : List String := ["string", "number", "boolean", "unknown", "null"]

/-- A type is made of some contents. -/
inductive MadeOf (c : Contents) : TypeExpr → Prop
  | keyword {word : String} (h : word ∈ keywords) : MadeOf c (.keyword word)
  | literal {value : Json} (h : value ∈ c.values) : MadeOf c (.literal value)
  | named {name : String} (h : name ∈ c.names) : MadeOf c (.named name)
  | array {item : TypeExpr} (h : MadeOf c item) : MadeOf c (.array item)
  | record {value : TypeExpr} (h : MadeOf c value) : MadeOf c (.record value)
  | object {members : List Member} (hne : members ≠ [])
    (hdocs : ∀ m ∈ members, ∀ doc ∈ m.doc, doc ∈ c.docs)
    (h : ∀ m ∈ members, MadeOf c m.type) : MadeOf c (.object members)
  | union {members : List TypeExpr} (hmany : 2 ≤ members.length)
    (halternatives : ∀ type ∈ members, type ∈ c.alternatives)
    (h : ∀ type ∈ members, MadeOf c type) : MadeOf c (.union members)

namespace MadeOf

variable {c : Contents}

/-- A union is made of what its alternatives are made of. -/
theorem ofMembers {types : List TypeExpr} (hne : types ≠ [])
    (halternatives : ∀ type ∈ types, type ∈ c.alternatives) (h : ∀ type ∈ types, MadeOf c type) :
    MadeOf c (.ofMembers types) := by
  match types with
  | [type] => exact h type List.mem_cons_self
  | first :: second :: rest => exact union (by simp) halternatives h

/-- The parts of a type are made of the same contents, and there is one at least. -/
theorem parts {type : TypeExpr} (h : MadeOf c type) :
    type.parts ≠ [] ∧ ∀ part ∈ type.parts, MadeOf c part := by
  cases h with
  | union hmany _ h => exact ⟨List.length_pos_iff.1 (Nat.lt_of_succ_lt hmany), h⟩
  | _ => exact ⟨List.cons_ne_nil _ _, List.forall_mem_singleton.2 (by constructor <;> assumption)⟩

/-- With `null` added, a type is made of the same contents. -/
theorem orNull (hall : ∀ type, type ∈ c.alternatives) {type : TypeExpr} (h : MadeOf c type) :
    MadeOf c type.orNull := by
  obtain ⟨hne, hparts⟩ := h.parts
  rw [orNull_eq_union]
  refine union ?_ (fun type _ ↦ hall type) ?_
  · rw [List.length_append]
    exact Nat.succ_le_succ (List.length_pos_iff.2 hne)
  · exact List.forall_mem_append.2 ⟨hparts, List.forall_mem_singleton.2 (keyword (by decide))⟩

end MadeOf

end TypeExpr

/-! ### Texts of several types and of several members -/

theorem pad_add (n k : Nat) : pad (n + k) = pad n ++ pad k := by
  rw [pad, pad, pad, Json.indent, Json.indent, Json.indent, ← String.ofList_append, Nat.mul_add,
    ← List.replicate_append_replicate]

/-- Types are printed one by one. -/
theorem printTypes_eq_map (level : Nat) (types : List TypeExpr) :
    printTypes level types = types.map (TypeExpr.print level) := by
  induction types with
  | nil => rfl
  | cons type rest ih => rw [printTypes, ih, List.map_cons]

/-- A union is printed with bars between its alternatives. -/
theorem print_union (level : Nat) (members : List TypeExpr) :
    (TypeExpr.union members).print level =
      String.intercalate " | " (members.map (TypeExpr.print level)) := by
  rw [TypeExpr.print, printTypes_eq_map]

/-- A member without its comment and its indentation. -/
def Member.signature (level : Nat) (m : Member) : String :=
  propertyKey m.name ++ (if m.isOptional then "?" else "") ++ ": " ++ m.type.print level ++ ";\n"

/-- The text of a member. -/
def Member.text (level : Nat) (m : Member) : String :=
  docComment? m.doc level ++ pad level ++ m.signature level

/-- Members are printed one by one. -/
theorem printMembers_cons (level : Nat) (m : Member) (rest : List Member) :
    printMembers level (m :: rest) = m.text level ++ printMembers level rest := by
  obtain ⟨name, type, isOptional, doc⟩ := m
  simp only [printMembers, Member.text, Member.signature, String.append_assoc]

/-- The characters of members. -/
theorem toList_printMembers (level : Nat) (members : List Member) :
    (printMembers level members).toList = members.flatMap fun m ↦ (m.text level).toList := by
  induction members with
  | nil => rfl
  | cons m rest ih => rw [printMembers_cons, String.toList_append, ih, List.flatMap_cons]

/-- An object type is printed with its members on lines of their own. -/
theorem print_object (level : Nat) {members : List Member} (hne : members ≠ []) :
    (TypeExpr.object members).print level =
      "\x7b\n" ++ printMembers (level + 1) members ++ pad level ++ "\x7d" := by
  obtain ⟨m, rest, rfl⟩ := List.exists_cons_of_ne_nil hne
  rw [TypeExpr.print]

end ApiContract.TypeScript
