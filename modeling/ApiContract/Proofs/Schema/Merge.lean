import ApiContract.Proofs.NameSet
import ApiContract.Proofs.Put
import ApiContract.Schema.Merge

/-!
# Merging by occurrences

Merging goes through the branches once and puts each property to those before it. What comes out is
said here by where the names occur in all branches one after the other, without a loop.

## Main result

`merging_by_occurrences`, for all lists of branches: the merged node is the one that the occurrences
define (`mergedByOccurrence`), its names are in the order of their first occurrences, and branches
may be merged in steps.

## What occurs

A name is at the place of its first occurrence and has the schema of its last one (`mergeAllOf_eq`);
it is required if a branch requires it; and of further properties the last branch decides that
speaks of them. Branches that are no objects have no occurrences, no required names and nothing to
say of further properties, so that `ObjectParts.add` needs no case for them (`ObjectParts.add_eq`).

## Proof

Properties are put by their names, and what that gives is said once for all in `Proofs.Put`. A
merged node repeats no name. As a branch it therefore puts its properties back in the order in which
they are (`ObjectParts.add_toShape`), and what was merged before may be merged as one branch
(`mergeAllOf_append`).

That a property which two branches declare has the schema of the later one, and not both, is by
design; the earlier one is dropped without a trace.
-/

namespace ApiContract

/-- What an object schema says of further properties; any other says nothing. -/
def Schema.additional? (s : Schema) : Option Schema :=
  match s.shape with
  | .object _ _ additional => additional
  | _ => none

/-! ### One branch after the other -/

namespace ObjectParts

/-- What a branch adds, without a case for branches that are no objects. -/
theorem add_eq (parts : ObjectParts) (branch : Schema) :
    parts.add branch =
      { properties := branch.properties.foldl putProperty parts.properties
        required := parts.required.union branch.required
        additional := branch.additional?.or parts.additional } := by
  rw [add, Schema.properties, Schema.required, Schema.additional?]
  cases branch.shape with
  | object properties required additional => simp only [Option.orElse_eq_or]
  | _ => rfl

/-- Branches add their properties in order, all of their required names, and what the last of them
says of further properties. -/
theorem foldl_add (branches : List Schema) (parts : ObjectParts) :
    branches.foldl add parts =
      { properties := (branches.flatMap Schema.properties).foldl putProperty parts.properties
        required := branches.foldl (fun done branch ↦ done.union branch.required) parts.required
        additional := (branches.filterMap Schema.additional?).getLast?.or parts.additional } := by
  induction branches generalizing parts with
  | nil => rfl
  | cons branch rest ih =>
    rw [List.foldl_cons, ih, add_eq, List.flatMap_cons, List.foldl_append, List.foldl_cons,
      List.filterMap_cons]
    cases branch.additional? with
    | none => rfl
    | some schema =>
      simp only [List.getLast?_cons]
      cases (rest.filterMap Schema.additional?).getLast? <;> rfl

/-- Parts that repeat no property are put as they are. -/
theorem add_toShape {parts : ObjectParts} (h : (parts.properties.map Property.name).Nodup) :
    add {} { shape := parts.toShape } = parts := by
  have hproperties : parts.properties.foldl putProperty [] = parts.properties := by
    rw [putProperty_eq_putBy]
    exact foldl_putBy_of_nodup h
  rw [add_eq]
  simp only [Schema.properties, Schema.required, Schema.additional?, toShape, hproperties,
    NameSet.empty_union, Option.or_none]

end ObjectParts

/-! ### All branches at once -/

/-- The properties of all branches one after the other, a name as often as it occurs. -/
def propertyOccurrences (branches : List Schema) : List Property :=
  branches.flatMap Schema.properties

/-- The object whose property names are those that occur in the branches, in order of first
occurrence, each with its last occurrence; whose required names are those of any branch; and which
says of further properties what the last branch says that speaks of them. -/
def mergedByOccurrence (branches : List Schema) : Schema where
  shape :=
    .object
      (((propertyOccurrences branches).map Property.name).eraseDups.filterMap fun name ↦
        (propertyOccurrences branches).findRev? (·.name = name))
      (NameSet.ofList (branches.flatMap fun branch ↦ branch.required.toList))
      (branches.filterMap Schema.additional?).getLast?

/-- The properties of the merged node are those of the branches, put one by one. -/
theorem properties_mergeAllOf (branches : List Schema) :
    (mergeAllOf branches).properties =
      (propertyOccurrences branches).foldl (putBy Property.name) [] := by
  rw [mergeAllOf, ObjectParts.foldl_add, putProperty_eq_putBy]
  rfl

/-- **A name keeps its first place among those that occur.** -/
theorem map_name_mergeAllOf (branches : List Schema) :
    (mergeAllOf branches).properties.map Property.name =
      ((propertyOccurrences branches).map Property.name).eraseDups := by
  rw [properties_mergeAllOf, map_foldl_putBy]

/-- The merged node repeats no property. -/
theorem nodup_name_mergeAllOf (branches : List Schema) :
    ((mergeAllOf branches).properties.map Property.name).Nodup := by
  rw [properties_mergeAllOf]
  exact nodup_map_foldl_putBy List.nodup_nil

/-- **A name is required by the merged node if it is by a branch.** -/
theorem mem_required_mergeAllOf {branches : List Schema} {name : String} :
    name ∈ (mergeAllOf branches).required ↔ ∃ branch ∈ branches, name ∈ branch.required := by
  rw [mergeAllOf, ObjectParts.foldl_add]
  exact NameSet.mem_foldl_union.trans (or_iff_right List.not_mem_nil)

/-- The merged node requires what the branches require together. -/
theorem required_mergeAllOf (branches : List Schema) :
    (mergeAllOf branches).required =
      NameSet.ofList (branches.flatMap fun branch ↦ branch.required.toList) := by
  refine NameSet.eq_of_mem_iff fun name ↦ ?_
  rw [mem_required_mergeAllOf, NameSet.mem_ofList, List.mem_flatMap]
  rfl

/-- The last branch that speaks of further properties decides. -/
theorem additional?_mergeAllOf (branches : List Schema) :
    (mergeAllOf branches).additional? = (branches.filterMap Schema.additional?).getLast? := by
  rw [mergeAllOf, ObjectParts.foldl_add]
  exact Option.or_none

/-- **Merging is what the occurrences of names say.** -/
theorem mergeAllOf_eq (branches : List Schema) :
    mergeAllOf branches = mergedByOccurrence branches :=
  calc mergeAllOf branches
    _ = { shape := .object (mergeAllOf branches).properties (mergeAllOf branches).required
            (mergeAllOf branches).additional? } := rfl
    _ = mergedByOccurrence branches := by
      rw [properties_mergeAllOf, foldl_putBy_eq, required_mergeAllOf, additional?_mergeAllOf]
      rfl

/-- What was merged before may be merged as one branch. -/
theorem mergeAllOf_append (branches more : List Schema) :
    mergeAllOf (branches ++ more) = mergeAllOf (mergeAllOf branches :: more) := by
  have hfirst : ObjectParts.add {} (mergeAllOf branches) = branches.foldl ObjectParts.add {} :=
    ObjectParts.add_toShape (nodup_name_mergeAllOf branches)
  rw [mergeAllOf, List.foldl_append, mergeAllOf.eq_def (_ :: _), List.foldl_cons, hfirst]

/-- **Merging is what the occurrences of names in the branches say, and may be done in steps.** The
merged node is an object with each name that occurs in a branch, where it occurs first and as it
occurs last, with the required names of all branches and the last word on further properties. -/
theorem merging_by_occurrences (branches more : List Schema) :
    mergeAllOf branches = mergedByOccurrence branches ∧
      (mergeAllOf branches).properties.map Property.name =
        ((propertyOccurrences branches).map Property.name).eraseDups ∧
      mergeAllOf (branches ++ more) = mergeAllOf (mergeAllOf branches :: more) :=
  ⟨mergeAllOf_eq branches, map_name_mergeAllOf branches, mergeAllOf_append branches more⟩

end ApiContract
