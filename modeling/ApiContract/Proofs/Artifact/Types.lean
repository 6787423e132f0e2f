import ApiContract.Artifact.Types
import ApiContract.Proofs.Artifact.Surface
import ApiContract.Proofs.Except

/-!
# The module of types under the standard helpers

With the standard helpers the module of types has the form of its surfaces: a condition on the ids
of the operations, and a list of declarations (`TypesModule.declarations_eq_ok_iff`). Statements
about the module begin there: what it declares is a fixed opening, the part about the models, a part
for each group and the index, and each of these is a function of the plan that cannot fail.

The helpers enter by the equations of `Proofs.Artifact.Surface`, and the groups by its lemma about
loops.
-/

namespace ApiContract

open TypeScript

namespace TypesModule

/-- What the index says about an operation. -/
def entryOf (tag : String) (op : Operation) : Entry :=
  .keyed (Surface.standard op).functionName <| .object
    [ .keyed "method" (.text op.method.display)
    , .keyed "path" (.text op.path)
    , .keyed "tag" (.text tag)
    , .keyed "requiresAuth" (.bool op.requiresAuth)
    , .keyed "deprecated" (.bool op.deprecated) ]

/-- The declarations for an operation. -/
def operationDeclarations (plan : Plan) (op : Operation) : List Declaration :=
  (Surface.standard op).paramsDeclarations ++ (Surface.standard op).bodyDeclarations ++
    [.alias (Surface.standard op).responseName (Surface.responseType op) none] ++
    bodyValidators plan (Surface.standard op)

/-- The constant with the ids of a group's operations. -/
def idsDeclaration (g : OperationGroup) : Declaration :=
  .const (Identifier.constantCase g.tag ++ "_OPERATIONS") none
    (.asConst (.array (g.operations.map fun op ↦ .text op.id))) none

/-- The declarations for a group of operations. -/
def groupDeclarations (plan : Plan) (g : OperationGroup) : List Declaration :=
  [.banner ("Operations: " ++ g.tag)] ++ g.operations.flatMap (operationDeclarations plan) ++
    [idsDeclaration g]

/-- The entries of the index for a group of operations. -/
def groupEntries (g : OperationGroup) : List Entry := g.operations.map (entryOf g.tag)

/-- The entry of an operation in the index, under the name of its function. -/
theorem indexEntry_standard (tag : String) (op : Operation) :
    indexEntry .standard tag (Surface.standard op) = .ok (entryOf tag op) := by
  rw [indexEntry, HelperTable.flag_requiresAuth]
  rfl

/-- A group has its declarations and entries if every operation's id gives a name. -/
theorem group_eq_ok_iff {plan : Plan} {g : OperationGroup} {part : List Declaration × List Entry} :
    group plan .standard g = .ok part ↔
      (∀ op ∈ g.operations, typeName op.id ≠ "") ∧
        part = (groupDeclarations plan g, groupEntries g) := by
  rw [group, HelperTable.text_constantCase]
  refine g.loop_eq_ok_iff (fun op ↦ (operationDeclarations plan op, entryOf g.tag op))
    (fun op ↦ ?_) ?_
  · rw [Surface.typeDeclarations_standard, indexEntry_standard]
    rfl
  · rw [List.map_map, List.flatMap_map]
    rfl

/-- **The module of types can be made if every operation's id gives a name**, and consists of these
declarations. -/
theorem declarations_eq_ok_iff {plan : Plan} {declared : List Declaration} :
    declarations plan .standard = .ok declared ↔
      (∀ op ∈ plan.operations, typeName op.id ≠ "") ∧
        declared = opening plan ++ models plan ++ plan.groups.flatMap (groupDeclarations plan) ++
          index (plan.groups.flatMap groupEntries) := by
  have hall : (∀ g ∈ plan.groups, ∀ op ∈ g.operations, typeName op.id ≠ "") ↔
      ∀ op ∈ plan.operations, typeName op.id ≠ "" := by
    simp only [Plan.operations, List.forall_mem_flatMap]
  rw [declarations, ← hall]
  refine Except.bind_eq_ok_iff_of_iff
    (fun _ ↦ Except.mapM_eq_ok_iff_map fun _ _ ↦ group_eq_ok_iff) ?_
  rw [List.flatMap_map, List.flatMap_map]
  rfl

end TypesModule

end ApiContract
