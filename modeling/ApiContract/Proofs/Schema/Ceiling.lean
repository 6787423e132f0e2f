import ApiContract.Proofs.Schema.Approximation
import ApiContract.Proofs.Schema.Form

/-!
# What is lost at the ceiling

With one level less, resolution cuts what the last level would have shown. A node that is cut admits
anything, and one would expect this to be the only difference.

## Main result

`Schema.resolve_succ_approximates`: the schema at the greater depth approximates that at the lesser
one if no object branch of `allOf` is cut on the way. Everywhere but in `allOf` the cut node stays
in its place. A branch of `allOf` that is cut is no object any more, and merging then leaves it out,
its properties and required names with it: `not_approximates_allOf` is two branches at the ceiling,
of which an object without properties is left.

## The condition

`Schema.keepsBranches` follows resolution itself, with the levels that are left, through fragments
and references, and asks of every `allOf` that the branches which are objects with one more level
are objects with this one. It is a function and can be evaluated on any document.

## Proof

An induction on the levels, with one case for each form that a schema may have
(`Form.node_approximates`); the levels above are filled in with approximations, and merging is the
case that needs the condition.
-/

namespace ApiContract

/-- The branches that a schema merges. -/
def Form.mergedBranches : Form → List Json
  | merged branches _ => branches
  | _ => []

/-! ### One form -/

section

variable {child child' : Json → Schema}

/-- Two functions on one list are related if they are on each element. -/
theorem forall₂_map_of_forall_mem {α β γ : Type} {R : β → γ → Prop} {f : α → β} {g : α → γ}
    {list : List α} (h : ∀ x ∈ list, R (f x) (g x)) : List.Forall₂ R (list.map f) (list.map g) :=
  List.forall₂_map_left_iff.2 (List.forall₂_map_right_iff.2 (List.forall₂_same.2 h))

/-- The shape of an object is filled in with approximations. -/
theorem RecordForm.shape_approximates {form : RecordForm}
    (h : ∀ value ∈ form.fragments, (child value).Approximates (child' value)) :
    (form.shape child).Approximates (form.shape child') := by
  refine .object ?_ ?_
  · exact forall₂_map_of_forall_mem fun entry hentry ↦
      .of_schema (h _ (mem_fragments_of_property hentry))
  · match hform : form.additional with
    | none => exact .none
    | some none => exact .some (.refl _)
    | some (some value) => exact .some (h value (mem_fragments_of_additional hform))

theorem TypedForm.shape_approximates {form : TypedForm}
    (h : ∀ value ∈ form.fragments, (child value).Approximates (child' value)) :
    (form.shape child).Approximates (form.shape child') := by
  cases form with
  | list items =>
    cases items with
    | none => exact .array (.refl _)
    | some items => exact .array (h items (List.mem_singleton_self items))
  | record form => exact RecordForm.shape_approximates h
  | leaf shape => exact .refl shape

/-- A form is filled in with approximations, if no object is given up among merged branches. -/
theorem Form.node_approximates {form : Form}
    (h : ∀ value ∈ form.fragments, (child value).Approximates (child' value))
    (hmerged : ∀ branch ∈ form.mergedBranches, (child' branch).isObject → (child branch).isObject) :
    (form.node child).Approximates (form.node child') := by
  cases form with
  | wrapped branch => exact h branch (List.mem_singleton_self branch)
  | merged branches beside =>
    refine mergeAllOf_approximates (List.rel_append ?_ ?_)
    · exact forall₂_map_of_forall_mem fun branch hbranch ↦
        ⟨h branch (List.mem_append_left _ hbranch), hmerged branch hbranch⟩
    · -- what stands beside the branches is an object on either side
      refine forall₂_map_of_forall_mem fun form hform ↦ ⟨.of_shape ?_, fun _ ↦ rfl⟩
      exact RecordForm.shape_approximates fun value hvalue ↦
        h value (List.mem_append_right _ (List.mem_flatMap.2 ⟨form, hform, hvalue⟩))
  | choice branches exclusive => exact .of_shape (.union (forall₂_map_of_forall_mem h))
  | typed form nullable => exact .of_shape (TypedForm.shape_approximates h)

end

/-! ### All levels -/

namespace Schema

/-- Whether no branch of objects that `allOf` merges is cut with so many levels left, neither in a
fragment nor in what it refers to. -/
def keepsBranches (root : Json) : Nat → Json → Bool
  | levels + 1, .object fields =>
    match field? "$ref" fields with
    | some (.string reference) =>
      match Pointer.resolve? root reference with
      | some target => keepsBranches root levels target
      | none => true
    | _ =>
      (formOf fields).mergedBranches.all (fun branch ↦
        !(resolveAt root (levels + 1) branch).isObject ||
          (resolveAt root levels branch).isObject) &&
      (formOf fields).fragments.all (keepsBranches root levels)
  | _, _ => true

variable {root : Json}

/-- What the keywords say beside the form does not count. -/
theorem ofFields_approximates {child child' : Json → Schema} {fields : List (String × Json)}
    (h : ∀ value ∈ (formOf fields).fragments, (child value).Approximates (child' value))
    (hmerged : ∀ branch ∈ (formOf fields).mergedBranches,
      (child' branch).isObject → (child branch).isObject) :
    (ofFields child fields).Approximates (ofFields child' fields) := by
  obtain ⟨hshape⟩ := Form.node_approximates h hmerged
  rw [ofFields_eq, ofFields_eq]
  exact .of_shape hshape

/-- What one level more shows is approximated without it. -/
theorem resolveAt_approximates (levels : Nat) {value : Json}
    (h : keepsBranches root levels value = true) :
    (resolveAt root levels value).Approximates (resolveAt root (levels + 1) value) := by
  -- on the levels left: a reference and a fragment use up one level on either side
  induction levels generalizing value with
  | zero => exact .of_shape (.any _)
  | succ levels ih =>
    cases value with
    | object fields =>
      rw [keepsBranches] at h
      split at h
      · next reference hreference =>
        rw [resolveAt_reference levels hreference, resolveAt_reference (levels + 1) hreference,
          ofReference, ofReference, if_neg (Nat.succ_ne_zero levels)]
        split
        · -- the lesser side is at the ceiling, whatever the other one finds
          exact .of_shape (.any _)
        · cases htarget : Pointer.resolve? root reference with
          | none => exact .refl _
          | some target =>
            rw [htarget] at h
            obtain ⟨hshape⟩ := ih h
            exact .of_shape hshape
      · next hno =>
        rw [resolveAt_ofFields levels hno, resolveAt_ofFields (levels + 1) hno]
        obtain ⟨hmerged, hbelow⟩ := Bool.and_eq_true_iff.1 h
        refine ofFields_approximates (fun fragment hfragment ↦ ?_) fun branch hbranch hobject ↦ ?_
        · exact ih (List.all_eq_true.1 hbelow fragment hfragment)
        · simpa [hobject] using List.all_eq_true.1 hmerged branch hbranch
    | _ => exact .refl _

/-- **At a greater depth only whole nodes are given up**, if no object branch that `allOf` merges is
cut. -/
theorem resolve_succ_approximates (root value : Json) (depth : Nat)
    (h : keepsBranches root (maxResolveDepth - depth) value = true) :
    (resolve root value (depth + 1)).Approximates (resolve root value depth) := by
  rw [resolve, resolve]
  by_cases hdepth : depth ≤ maxResolveDepth
  · rw [show maxResolveDepth + 1 - (depth + 1) = maxResolveDepth - depth by omega,
      show maxResolveDepth + 1 - depth = maxResolveDepth - depth + 1 by omega]
    exact resolveAt_approximates _ h
  · -- both depths are beyond the ceiling
    rw [show maxResolveDepth + 1 - (depth + 1) = 0 by omega]
    exact .of_shape (.any _)

/-- Two object branches of `allOf`. -/
def pairFragment : Json :=
  .object [("allOf", .array [
    .object [("type", .string "object"),
      ("properties", .object [("a", .object [("type", .string "string")])])],
    .object [("type", .string "object"),
      ("properties", .object [("b", .object [("type", .string "string")])])]])]

/-- With one level to spare both branches are still objects. -/
theorem resolve_succ_approximates_pairFragment :
    keepsBranches .null (maxResolveDepth - 6) pairFragment = true ∧
      (resolve .null pairFragment 7).Approximates (resolve .null pairFragment 6) := by
  have hkeeps : keepsBranches .null (maxResolveDepth - 6) pairFragment = true := by decide +kernel
  exact ⟨hkeeps, resolve_succ_approximates .null pairFragment 6 hkeeps⟩

/-- At the ceiling the properties of both branches are gone, and the node is still an object. -/
theorem not_approximates_allOf :
    ¬(resolve .null pairFragment (7 + 1)).Approximates (resolve .null pairFragment 7) := by
  intro h
  have hobject : (resolve .null pairFragment 8).isObject = true := by decide +kernel
  have hnone : (resolve .null pairFragment 8).properties.length = 0 := by decide +kernel
  have hboth : (resolve .null pairFragment 7).properties.length = 2 := by decide +kernel
  exact absurd (hnone.symm.trans ((h.properties hobject).length_eq.trans hboth)) nofun

end Schema

end ApiContract
