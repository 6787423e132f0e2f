import ApiContract.Projection.Validator

/-!
# The refinements of validators

A validator is refined by method calls in the end: a format, limits of a number, a text or a list, a
pattern, or that a number is an integer. Every statement about validators has to pass through those
calls.

What such statements need of them is `IsRefinement`: the method is one that checks more of a value,
and the arguments are plain values, literals or regular expressions. There is one lemma for each
list of refinements that a kind of schema has, and from then on they are all alike.

`refine_induction` is the way through: what holds of a validator and is kept by every refinement
holds of the refined validator. Inference, the members, the scope and the parentheses of validators
all use it, so that a new constraint needs its method in `refinementMethods` and a line in the lemma
about its kind.
-/

namespace ApiContract

open TypeScript

namespace Validator

/-- The methods that check more of a value and leave its type. -/
def refinementMethods : List String :=
  ["email", "uuid", "url", "datetime", "min", "max", "regex", "int"]

/-- An expression that is a value as it stands: a literal or a regular expression. -/
def IsPlain : Expr → Prop
  | .literal _ | .regex _ => True
  | _ => False

/-- A call of a method that checks more of a value, with plain arguments. -/
def IsRefinement (r : String × List Expr) : Prop :=
  r.1 ∈ refinementMethods ∧ ∀ arg ∈ r.2, IsPlain arg

/-- A number is a plain value, negative or not. -/
theorem isPlain_ofBinary64 (value : Binary64) : IsPlain (.ofBinary64 value) := by
  unfold Expr.ofBinary64
  split
  · split <;> trivial
  · trivial

/-- A limit is a refinement. -/
theorem isRefinement_limit {method : String} (hmethod : method ∈ refinementMethods)
    (value : Option Binary64) : ∀ r ∈ limit method value, IsRefinement r := by
  intro r hr
  cases value with
  | none => exact absurd hr List.not_mem_nil
  | some value =>
    rw [limit, List.mem_singleton] at hr
    subst hr
    exact ⟨hmethod, List.forall_mem_singleton.2 (isPlain_ofBinary64 value)⟩

theorem isRefinement_limits (min max : Option Binary64) :
    ∀ r ∈ limit "min" min ++ limit "max" max, IsRefinement r :=
  List.forall_mem_append.2 ⟨isRefinement_limit (by decide) min, isRefinement_limit (by decide) max⟩

/-- A format is a refinement, if it has a method. -/
theorem isRefinement_format (format : Option String) :
    ∀ r ∈ formatRefinement format, IsRefinement r := by
  intro r hr
  unfold formatRefinement at hr
  split at hr
  all_goals first
    | exact absurd hr List.not_mem_nil
    | rw [List.mem_singleton] at hr
      subst hr
      exact ⟨by decide, fun _ h ↦ absurd h List.not_mem_nil⟩

/-- The refinements of a text are such. -/
theorem isRefinement_text (format : Option String) (c : Constraints) :
    ∀ r ∈ textRefinements format c, IsRefinement r := by
  refine List.forall_mem_append.2 ⟨List.forall_mem_append.2 ⟨List.forall_mem_append.2
    ⟨isRefinement_format format, isRefinement_limit (by decide) _⟩,
    isRefinement_limit (by decide) _⟩, ?_⟩
  intro r hr
  split at hr
  · rw [List.mem_singleton] at hr
    subst hr
    exact ⟨(by decide : "regex" ∈ refinementMethods), List.forall_mem_singleton.2 trivial⟩
  · exact absurd hr List.not_mem_nil

theorem isRefinement_number (c : Constraints) : ∀ r ∈ numberRefinements c, IsRefinement r :=
  isRefinement_limits c.minimum c.maximum

theorem isRefinement_list (c : Constraints) : ∀ r ∈ listRefinements c, IsRefinement r :=
  isRefinement_limits (c.minItems.map Binary64.ofNat) (c.maxItems.map Binary64.ofNat)

theorem isRefinement_integer (c : Constraints) :
    ∀ r ∈ ("int", []) :: numberRefinements c, IsRefinement r :=
  List.forall_mem_cons.2
    ⟨⟨by decide, fun _ h ↦ absurd h List.not_mem_nil⟩, isRefinement_number c⟩

/-- What holds of a validator and is kept by every refinement holds of the refined validator. -/
theorem refine_induction {motive : Expr → Prop} {refinements : List (String × List Expr)}
    (hall : ∀ r ∈ refinements, IsRefinement r) {base : Expr} (hbase : motive base)
    (hstep : ∀ validator r, IsRefinement r → motive validator →
      motive (validator.method r.1 r.2)) : motive (refine base refinements) := by
  induction refinements generalizing base with
  | nil => exact hbase
  | cons r rest ih =>
    obtain ⟨hr, hrest⟩ := List.forall_mem_cons.1 hall
    exact ih hrest (hstep base r hr hbase)

end Validator

end ApiContract
