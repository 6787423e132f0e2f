import ApiContract.Schema.Basic

/-!
# Merging the branches of `allOf`

The merged object has the properties of all object branches: a name keeps its first place and takes
its last schema. Its required names are those of any branch, and what it says of further properties
is what the last branch says that speaks of them. Branches of another shape contribute nothing.

The merge is a fold over the branches (`ObjectParts.add`), so it is computed from the left, branch
by branch. That it is determined by first and last occurrences, and does not depend on how branches
are grouped, is proved in `Proofs.Schema.Merge`. A branch cut off by the ceiling on depth admits
anything and is no object; its properties are then missing (`Proofs.Schema.Approximation`).
-/

namespace ApiContract

/-- Adds a property, or gives the property of that name its new schema. -/
def putProperty (properties : List Property) (property : Property) : List Property :=
  match properties with
  | [] => [property]
  | head :: rest =>
    if head.name = property.name then ⟨head.name, property.schema⟩ :: rest
    else head :: putProperty rest property

/-- What an object schema says of its properties. -/
structure ObjectParts where
  properties : List Property := []
  required : NameSet := ∅
  additional : Option Schema := none

namespace ObjectParts

/-- The parts as a shape. -/
def toShape (parts : ObjectParts) : Shape :=
  .object parts.properties parts.required parts.additional

/-- The parts with those of one more branch. -/
def add (parts : ObjectParts) (branch : Schema) : ObjectParts :=
  match branch.shape with
  | .object properties required additional =>
    { properties := properties.foldl putProperty parts.properties
      required := parts.required.union required
      additional := additional.orElse fun _ ↦ parts.additional }
  | _ => parts

end ObjectParts

/-- The object schema that stands for all branches at once. -/
def mergeAllOf (branches : List Schema) : Schema :=
  { shape := (branches.foldl ObjectParts.add {}).toShape }

end ApiContract
