import ApiContract.Proofs.Projection.Refinement
import ApiContract.Proofs.TypeScript.Parentheses
import ApiContract.Projection.PathTemplate

/-!
# The operands in validators and addresses

Expressions are printed without parentheses, so an operand has to be one that needs none where it
stands. This module settles it for the two kinds of expressions that are made by recursion:
validators and addresses.

## Validators

A validator is refined by method calls, whatever it is a validator of, so each is an expression that
a method call may follow: a name, or calls of methods that begin with one
(`Schema.isReceiver_toValidator`). The arguments of these calls are literals, regular expressions,
arrays, objects or functions, or validators again. The body of a function is a name, so that no
object literal could be taken for a block.

## Addresses

The address of a request is a text or a template, and what it encodes are names
(`standsBare_pathTemplate`).

## Proof

`Expr.StandsBare` is about all expressions inside one, and `Expr.IsReceiver` asks besides that it is
a name or a call. There is one lemma for each function that makes a validator from others, and the
induction over schemas puts them together.
-/

namespace ApiContract

open TypeScript

/-! ### Validators -/

namespace Validator

@[simp] theorem isReceiver_make_iff {method : String} {args : List Expr} :
    (make method args).IsReceiver ↔ ∀ e ∈ args, e.StandsBare := by
  rw [make, Expr.isReceiver_method_iff, and_iff_right (Expr.isReceiver_identifier "z")]

/-- Plain values stand bare. -/
theorem standsBare_of_isPlain {e : Expr} (h : IsPlain e) : e.StandsBare := by
  cases e with
  | literal | regex => simp
  | _ => exact absurd h id

/-- A method call may follow a reference, lazy or not. -/
theorem isReceiver_reference (lazy : NameSet) (component : String) :
    (reference lazy component).IsReceiver := by
  rw [reference]
  split
  · simp [Expr.isConstObject]
  · exact Expr.isReceiver_identifier _

theorem isReceiver_oneOf (values : List Json) : (oneOf values).IsReceiver := by
  have hliteral (value : Json) : (make "literal" [.literal value]).StandsBare :=
    (isReceiver_make_iff.2 (List.forall_mem_singleton.2 (Expr.standsBare_literal value))).2
  unfold oneOf
  split
  · simp
  · split
    · simp
    · simp [hliteral]

theorem isReceiver_refine {refinements : List (String × List Expr)}
    (h : ∀ r ∈ refinements, IsRefinement r) {base : Expr} (hbase : base.IsReceiver) :
    (refine base refinements).IsReceiver :=
  refine_induction h hbase fun _ _ hr hvalidator ↦
    Expr.isReceiver_method_iff.2 ⟨hvalidator, fun arg harg ↦ standsBare_of_isPlain (hr.2 arg harg)⟩

theorem isReceiver_orNull {validator : Expr} (h : validator.IsReceiver) (nullable : Bool) :
    (orNull nullable validator).IsReceiver := by
  rw [orNull]
  split
  · simpa using h
  · exact h

theorem isReceiver_orMissing {validator : Expr} (h : validator.IsReceiver) (required : Bool) :
    (orMissing required validator).IsReceiver := by
  rw [orMissing]
  split
  · exact h
  · simpa using h

end Validator

section Schemas

open Validator

variable {lazy : NameSet}

mutual

/-- **A method call may follow any validator**, and no operand in it needs parentheses. -/
theorem Schema.isReceiver_toValidator : ∀ schema : Schema, (schema.toValidator lazy).IsReceiver
  | ⟨shape, format, nullable, _, enumValues, refName, constraints⟩ => by
    rcases refName with - | name
    · rcases hlisted : listed enumValues with - | ⟨value, rest⟩
      · simp only [Schema.toValidator, hlisted]
        exact isReceiver_orNull (Schema.isReceiver_shapeValidator format constraints shape) nullable
      · simp only [Schema.toValidator, hlisted]
        exact isReceiver_orNull (isReceiver_oneOf (value :: rest)) nullable
    · rw [Schema.toValidator]
      exact isReceiver_orNull (isReceiver_reference lazy name) nullable

theorem Schema.isReceiver_shapeValidator (format : Option String) (c : Constraints) :
    ∀ shape : Shape, (shapeValidator lazy format c shape).IsReceiver
  | .any | .boolean => by rw [shapeValidator]; simp
  | .string => by
    rw [shapeValidator]
    exact isReceiver_refine (isRefinement_text format c) (by simp)
  | .integer => by
    rw [shapeValidator]
    exact isReceiver_refine (isRefinement_integer c) (by simp)
  | .number => by
    rw [shapeValidator]
    exact isReceiver_refine (isRefinement_number c) (by simp)
  | .array items => by
    have hitems := (Schema.isReceiver_toValidator items).2
    rw [shapeValidator]
    exact isReceiver_refine (isRefinement_list c) (by simpa using hitems)
  | .object [] required additional => by
    have hvalue := Schema.standsBare_valueValidator additional
    have hkey : (make "string" []).StandsBare := (isReceiver_make_iff.2 (by simp)).2
    rw [shapeValidator]
    simpa using ⟨hkey, hvalue⟩
  | .object (property :: rest) required additional => by
    have hentries := Schema.standsBare_propertyEntries required (property :: rest)
    rw [shapeValidator]
    simpa using hentries
  | .union [] _ => by rw [shapeValidator]; simp
  | .union [variant] _ => by
    rw [shapeValidator]
    exact Schema.isReceiver_toValidator variant
  | .union (first :: second :: rest) _ => by
    have hvariants := Schema.standsBare_variantValidators (first :: second :: rest)
    rw [shapeValidator]
    simpa using hvariants

/-- The validator of the values of a record stands bare. -/
theorem Schema.standsBare_valueValidator :
    ∀ additional : Option Schema, (valueValidator lazy additional).StandsBare
  | some schema => (Schema.isReceiver_toValidator schema).2
  | none => (isReceiver_make_iff.2 (by simp)).2

theorem Schema.standsBare_propertyEntries (required : NameSet) :
    ∀ properties : List Property,
      ∀ entry ∈ propertyEntries lazy required properties, entry.StandsBare
  | [] => by rw [propertyEntries]; exact List.forall_mem_nil _
  | ⟨name, schema⟩ :: rest => by
    have hvalue := isReceiver_orMissing (Schema.isReceiver_toValidator schema)
      (required.contains name)
    rw [propertyEntries]
    exact List.forall_mem_cons.2
      ⟨Entry.standsBare_keyed_iff.2 hvalue.2, Schema.standsBare_propertyEntries required rest⟩

theorem Schema.standsBare_variantValidators :
    ∀ variants : List Schema, ∀ e ∈ variantValidators lazy variants, e.StandsBare
  | [] => by rw [variantValidators]; exact List.forall_mem_nil _
  | variant :: rest => by
    rw [variantValidators]
    exact List.forall_mem_cons.2
      ⟨(Schema.isReceiver_toValidator variant).2, Schema.standsBare_variantValidators rest⟩

end

end Schemas

/-! ### Addresses -/

/-- What is encoded for a placeholder stands bare. -/
theorem PathPiece.standsBare_of_toPart {piece : PathPiece} {e : Expr}
    (h : piece.toPart.value? = some e) : e.StandsBare := by
  cases piece with
  | text value => exact absurd h nofun
  | placeholder name =>
    obtain rfl := Option.some.inj h
    simp [Expr.apply]

/-- **An address stands bare.** -/
theorem standsBare_pathTemplate (path : String) : (pathTemplate path).StandsBare := by
  rw [pathTemplate]
  split
  · exact Expr.standsBare_text _
  · exact Expr.standsBare_text _
  · refine Expr.standsBare_template_iff.2 fun e he ↦ ?_
    obtain ⟨part, hpart, hvalue⟩ := List.mem_filterMap.1 he
    obtain ⟨piece, -, rfl⟩ := List.mem_map.1 hpart
    exact PathPiece.standsBare_of_toPart hvalue

end ApiContract
