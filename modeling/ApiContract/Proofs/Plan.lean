import ApiContract.Artifact.Plan
import ApiContract.Proofs.NameSet
import Mathlib.Data.List.Nodup

/-!
# What a plan's contract satisfies

A plan is what the three artifacts are rendered from: a contract that passed the checks, with its
operations in groups and its models in order. Artifacts are reasoned about from the statements of
this module, never from the checks.

## Contracts without a fault

`Plan.ofSpec` succeeds exactly on the contracts without a fault (`ofSpec_eq_ok_iff`), and each of
the three checks finds no fault exactly if a property of the names holds:

* models are declared under distinct names that are not empty (`modelNameFault?_eq_none_iff`);
* operations have distinct bases and take no name of a model (`operationNameFault?_eq_none_iff`);
* every reference is to a model (`referenceFault?_eq_none_iff`).

The first two checks go through a list and remember what they have seen, so these are inductions on
the list with what was seen as a parameter. An operation whose id gives no name declares no types,
and is passed over.

## Groups

The operations of a plan are those of its contract, grouped by their primary tags
(`perm_operations`). The tags of the groups increase, and a group holds the operations with its tag,
at least one (`increasing_tags`, `operations_eq_filter`). What holds of all tags of groups holds of
all primary tags, and the other way round, which is how conditions on groups become conditions on
contracts (`forall_tag_iff`).

## Small contracts

`Spec.bare` and `Spec.query` make the contracts that later modules have as examples.
-/

namespace ApiContract

theorem Schema.mem_referencedNames {schema : Schema} {name : String} :
    name ∈ schema.referencedNames ↔ name ∈ schema.references :=
  NameSet.mem_ofList

namespace Plan

variable {spec : Spec} {options : RenderOptions} {plan : Plan}

/-! ### The checks -/

/-- The first element of a lookup list decides whether a name is new. -/
theorem lookup_eq_none_iff_not_mem {α : Type} {seen : List (String × α)} {name : String} :
    seen.lookup name = none ↔ name ∉ seen.map Prod.fst := by
  rw [List.lookup_eq_none_iff]
  simp only [List.mem_map, not_exists, not_and, bne_iff_ne]
  exact ⟨fun h p hp heq ↦ h p hp heq.symm, fun h p hp heq ↦ h p hp heq.symm⟩

/-- What is found in a list has its key there. -/
theorem mem_of_lookup_eq_some {α : Type} {seen : List (String × α)} {name : String} {value : α}
    (h : seen.lookup name = some value) : name ∈ seen.map Prod.fst := by
  by_contra hnew
  rw [lookup_eq_none_iff_not_mem.2 hnew] at h
  exact Option.some_ne_none value h.symm

/-- Names are new and distinct if the first is new and the others are so once it has been seen. -/
theorem disjoint_and_nodup_cons {name : String} {names seen : List String} :
    (name :: names).Disjoint seen ∧ (name :: names).Nodup ↔
      name ∉ seen ∧ names.Disjoint (name :: seen) ∧ names.Nodup := by
  rw [List.disjoint_cons_left, List.disjoint_cons_right, List.nodup_cons]
  tauto

/-- **No fault in the names of models**: each has a generated name, and these are new and
distinct. -/
theorem modelNameFault?_eq_none_iff {seen : List (String × String)} {models : List Model} :
    modelNameFault? seen models = none ↔
      (∀ model ∈ models, typeName model.name ≠ "") ∧
        (models.map fun model ↦ typeName model.name).Disjoint (seen.map Prod.fst) ∧
        (models.map fun model ↦ typeName model.name).Nodup := by
  induction models generalizing seen with
  | nil => simp [modelNameFault?]
  | cons model rest ih =>
    rw [modelNameFault?, List.forall_mem_cons, List.map_cons, disjoint_and_nodup_cons]
    by_cases hempty : typeName model.name = ""
    · simp [hempty]
    · rw [if_neg (by simpa using hempty)]
      rcases hlookup : seen.lookup (typeName model.name) with - | previous
      · have hnew := lookup_eq_none_iff_not_mem.1 hlookup
        rw [ih, List.map_cons]
        simp only [ne_eq, hempty, hnew, not_false_eq_true, true_and]
      · have hold := mem_of_lookup_eq_some hlookup
        simp only [reduceCtorEq, hold, not_true_eq_false, false_and, and_false]

/-- The names that operations with one declare types under. -/
def operationBases (operations : List Operation) : List String :=
  (operations.map fun op ↦ typeName op.id).filter (· ≠ "")

/-- The first type of an operation that has the name of a model's type. -/
private abbrev collision? (models : List Model) (op : Operation) : Option RenderFault :=
  (operationTypes op (typeName op.id)).findSome? fun type ↦
    (modelOfType? models type).map fun model ↦ RenderFault.typeCollides op.id type model.name

/-- An operation takes no name of a model if none of its types has one. -/
theorem collision?_eq_none_iff {models : List Model} {op : Operation} :
    collision? models op = none ↔
      ∀ type ∈ operationTypes op (typeName op.id), ∀ model ∈ models,
        typeName model.name ≠ type := by
  simp only [collision?, List.findSome?_eq_none_iff, Option.map_eq_none_iff, modelOfType?,
    List.find?_eq_none, beq_iff_eq, ne_eq]

/-- An operation with a new base is at fault for a type of a model, or else a later one is. -/
theorem operationNameFault?_cons {models : List Model} {seen : List (String × Operation)}
    {op : Operation} {rest : List Operation} (hbase : typeName op.id ≠ "")
    (hnew : seen.lookup (typeName op.id) = none) :
    operationNameFault? models seen (op :: rest) = (collision? models op).or
      (operationNameFault? models ((typeName op.id, op) :: seen) rest) := by
  rw [operationNameFault?, if_neg (by simpa using hbase), hnew]
  dsimp only
  split
  · next hfault => rw [collision?, hfault, Option.some_or]
  · next hnone => rw [collision?, hnone, Option.none_or]

/-- **No fault in the names of operations**: no type that an operation with a base declares has the
name of a model's type, and the bases are new and distinct. -/
theorem operationNameFault?_eq_none_iff {models : List Model} {seen : List (String × Operation)}
    {operations : List Operation} :
    operationNameFault? models seen operations = none ↔
      (∀ op ∈ operations, typeName op.id ≠ "" →
        ∀ type ∈ operationTypes op (typeName op.id), ∀ model ∈ models,
          typeName model.name ≠ type) ∧
      (operationBases operations).Disjoint (seen.map Prod.fst) ∧
      (operationBases operations).Nodup := by
  induction operations generalizing seen with
  | nil => simp [operationNameFault?, operationBases]
  | cons op rest ih =>
    rw [List.forall_mem_cons]
    by_cases hempty : typeName op.id = ""
    -- An operation without a base is passed over on both sides.
    · have hbases : operationBases (op :: rest) = operationBases rest := by
        simp [operationBases, hempty]
      rw [operationNameFault?, if_pos (by simp [hempty]), ih, hbases]
      simp only [hempty, ne_eq, not_true_eq_false, false_implies, true_and]
    · have hbases : operationBases (op :: rest) = typeName op.id :: operationBases rest := by
        simp [operationBases, hempty]
      rw [hbases, disjoint_and_nodup_cons]
      rcases hlookup : seen.lookup (typeName op.id) with - | previous
      · have hnew := lookup_eq_none_iff_not_mem.1 hlookup
        rw [operationNameFault?_cons hempty hlookup, Option.or_eq_none_iff, collision?_eq_none_iff,
          ih, List.map_cons, and_assoc]
        simp only [ne_eq, hempty, hnew, not_false_eq_true, true_and, true_implies]
      · have hold := mem_of_lookup_eq_some hlookup
        rw [operationNameFault?, if_neg (by simpa using hempty), hlookup]
        simp only [reduceCtorEq, hold, not_true_eq_false, false_and, and_false]

/-- A schema has no dangling name if all names that it refers to are models. -/
theorem danglingName?_eq_none_iff {models : List Model} {schema : Schema} :
    danglingName? models schema = none ↔
      ∀ name ∈ schema.references, name ∈ models.map Model.name := by
  simp only [danglingName?, List.find?_eq_none, ← NameSet.mem_iff, Schema.mem_referencedNames,
    Bool.not_eq_true', Bool.not_eq_false, List.any_eq_true, beq_iff_eq, List.mem_map]

/-- **No fault in the references**: every name that a model or an operation refers to is a model. -/
theorem referenceFault?_eq_none_iff :
    referenceFault? spec = none ↔
      (∀ model ∈ spec.models, ∀ name ∈ model.schema.references,
        name ∈ spec.models.map Model.name) ∧
      ∀ op ∈ spec.operations, ∀ schema ∈ operationSchemas op, ∀ name ∈ schema.references,
        name ∈ spec.models.map Model.name := by
  simp only [referenceFault?, Option.orElse_eq_orElse, Option.orElse_eq_or, Option.or_eq_none_iff,
    Option.map_eq_none_iff, List.findSome?_eq_none_iff, danglingName?_eq_none_iff]

/-- **A contract has no fault if none of the checks finds one.** -/
theorem fault?_eq_none_iff :
    fault? spec = none ↔ modelNameFault? [] spec.models = none ∧
      operationNameFault? spec.models [] spec.operations = none ∧ referenceFault? spec = none := by
  simp only [fault?, Option.orElse_eq_orElse, Option.orElse_eq_or, Option.or_eq_none_iff]

/-! ### Groups -/

/-- Elements grouped by their keys are the elements, in another order. -/
theorem perm_flatMap_filter {α : Type} (key : α → String) {keys : List String}
    (hnodup : keys.Nodup) {xs : List α} (h : ∀ x ∈ xs, key x ∈ keys) :
    (keys.flatMap fun k ↦ xs.filter fun x ↦ key x == k).Perm xs := by
  induction keys generalizing xs with
  | nil =>
    rw [List.eq_nil_iff_forall_not_mem.2 fun x hx ↦ absurd (h x hx) List.not_mem_nil]
    exact List.Perm.refl _
  | cons k keys ih =>
    obtain ⟨hk, hnodup⟩ := List.nodup_cons.1 hnodup
    have hrest : ∀ x ∈ xs.filter (fun x ↦ !(key x == k)), key x ∈ keys := by
      intro x hx
      obtain ⟨hx, hne⟩ := List.mem_filter.1 hx
      rcases List.mem_cons.1 (h x hx) with heq | hmem
      · simp [heq] at hne
      · exact hmem
    -- the later groups are those of what the first group leaves
    have hlater : keys.flatMap (fun k' ↦ xs.filter fun x ↦ key x == k') =
        keys.flatMap fun k' ↦ (xs.filter fun x ↦ !(key x == k)).filter fun x ↦ key x == k' := by
      refine List.flatMap_congr fun k' hk' ↦ ?_
      rw [List.filter_filter]
      refine List.filter_congr fun x _ ↦ ?_
      have hne : k' ≠ k := fun heq ↦ hk (heq ▸ hk')
      rcases hkey : key x == k' with - | -
      · rfl
      · simp [beq_iff_eq.1 hkey, hne]
    rw [List.flatMap_cons, hlater]
    exact ((ih hnodup hrest).append_left _).trans (List.filter_append_perm _ xs)

/-- **Every operation is in one group**, as often as in the contract. -/
theorem perm_flatMap_groupsOf (operations : List Operation) :
    ((groupsOf operations).flatMap OperationGroup.operations).Perm operations := by
  rw [groupsOf, List.flatMap_map]
  exact perm_flatMap_filter Operation.primaryTag (NameSet.nodup_toList _) fun op hop ↦
    NameSet.mem_iff.1 (NameSet.mem_ofList.2 (List.mem_map_of_mem hop))

/-- The tags of the groups are the primary tags of the operations, in order. -/
theorem map_tag_groupsOf (operations : List Operation) :
    (groupsOf operations).map OperationGroup.tag =
      (NameSet.ofList (operations.map Operation.primaryTag)).toList := by
  rw [groupsOf, List.map_map]
  exact List.map_id _

/-! ### Plans -/

/-- The plan that `ofSpec` makes of a contract without a fault. -/
def make (spec : Spec) (options : RenderOptions) : Plan where
  spec := spec
  baseUrl := options.baseUrl.getD spec.baseUrl
  groups := groupsOf spec.operations
  generatedAt := options.generatedAt
  graph := ModelGraph.ofModels spec.models

/-- **A plan is made of exactly the contracts without a fault.** -/
theorem ofSpec_eq_ok_iff :
    ofSpec spec options = .ok plan ↔ fault? spec = none ∧ plan = make spec options := by
  rw [ofSpec]
  rcases hfault : fault? spec with - | fault
  · simp only [Except.ok.injEq, true_and]
    exact ⟨fun h ↦ h.symm, fun h ↦ h.symm⟩
  · simp

/-- **The operations of a plan are those of its contract**, in another order. -/
theorem perm_operations (h : ofSpec spec options = .ok plan) :
    plan.operations.Perm spec.operations := by
  obtain ⟨-, rfl⟩ := ofSpec_eq_ok_iff.1 h
  exact perm_flatMap_groupsOf spec.operations

theorem mem_operations_of_ofSpec (h : ofSpec spec options = .ok plan) {op : Operation}
    (hop : op ∈ plan.operations) : op ∈ spec.operations :=
  (perm_operations h).subset hop

/-- The tags of a plan's groups increase. -/
theorem increasing_tags (h : ofSpec spec options = .ok plan) :
    (plan.groups.map OperationGroup.tag).Pairwise (· < ·) := by
  obtain ⟨-, rfl⟩ := ofSpec_eq_ok_iff.1 h
  have htags : (make spec options).groups.map OperationGroup.tag =
      (NameSet.ofList (spec.operations.map Operation.primaryTag)).toList :=
    map_tag_groupsOf spec.operations
  exact htags ▸ NameSet.increasing _

theorem nodup_tags (h : ofSpec spec options = .ok plan) :
    (plan.groups.map OperationGroup.tag).Nodup :=
  (increasing_tags h).imp ne_of_lt

/-- The tags of a plan's groups are the primary tags of the operations. -/
theorem mem_tags_iff (h : ofSpec spec options = .ok plan) {tag : String} :
    tag ∈ plan.groups.map OperationGroup.tag ↔ tag ∈ spec.operations.map Operation.primaryTag := by
  obtain ⟨-, rfl⟩ := ofSpec_eq_ok_iff.1 h
  have htags : (make spec options).groups.map OperationGroup.tag =
      (NameSet.ofList (spec.operations.map Operation.primaryTag)).toList :=
    map_tag_groupsOf spec.operations
  rw [htags, ← NameSet.mem_iff, NameSet.mem_ofList]

/-- A group is made of the operations with its tag, of which there are some. -/
theorem operations_eq_filter (h : ofSpec spec options = .ok plan) {g : OperationGroup}
    (hg : g ∈ plan.groups) :
    g.operations = spec.operations.filter (fun op ↦ op.primaryTag == g.tag) ∧
      g.operations ≠ [] := by
  obtain ⟨op, hop, htag⟩ :=
    List.mem_map.1 ((mem_tags_iff h).1 (List.mem_map_of_mem hg))
  obtain ⟨-, rfl⟩ := ofSpec_eq_ok_iff.1 h
  obtain ⟨tag, -, rfl⟩ := List.mem_map.1 hg
  exact ⟨rfl, List.ne_nil_of_mem (List.mem_filter.2 ⟨hop, beq_iff_eq.2 htag⟩)⟩

/-- The operations of a group have its tag. -/
theorem primaryTag_of_mem_operations (h : ofSpec spec options = .ok plan) {g : OperationGroup}
    (hg : g ∈ plan.groups) {op : Operation} (hop : op ∈ g.operations) : op.primaryTag = g.tag := by
  rw [(operations_eq_filter h hg).1] at hop
  exact beq_iff_eq.1 (List.mem_filter.1 hop).2

/-- What is named alike satisfies the same conditions on names. -/
theorem forall_mem_iff_of_map {α β : Type} {f : α → String} {g : β → String} {xs : List α}
    {ys : List β} (h : ∀ name, name ∈ xs.map f ↔ name ∈ ys.map g) (p : String → Prop) :
    (∀ x ∈ xs, p (f x)) ↔ ∀ y ∈ ys, p (g y) := by
  have hxs : (∀ name ∈ xs.map f, p name) ↔ ∀ x ∈ xs, p (f x) := List.forall_mem_map
  have hys : (∀ name ∈ ys.map g, p name) ↔ ∀ y ∈ ys, p (g y) := List.forall_mem_map
  rw [← hxs, ← hys]
  exact forall_congr' fun name ↦ imp_congr_left (h name)

/-- What holds of the tags of the groups holds of the primary tags of the operations. -/
theorem forall_tag_iff (h : ofSpec spec options = .ok plan) (p : String → Prop) :
    (∀ g ∈ plan.groups, p g.tag) ↔ ∀ op ∈ spec.operations, p op.primaryTag :=
  forall_mem_iff_of_map (fun _ ↦ mem_tags_iff h) p

section Accepted

variable (h : fault? spec = none)

include h

theorem nodup_modelTypes : (spec.models.map fun model ↦ typeName model.name).Nodup :=
  (modelNameFault?_eq_none_iff.1 (fault?_eq_none_iff.1 h).1).2.2

/-- Models with distinct generated names have distinct names. -/
theorem nodup_modelNames : (spec.models.map Model.name).Nodup := by
  have htypes : ((spec.models.map Model.name).map typeName).Nodup := by
    rw [List.map_map]
    exact nodup_modelTypes h
  exact htypes.of_map typeName

theorem nodup_operationBases : (operationBases spec.operations).Nodup :=
  (operationNameFault?_eq_none_iff.1 (fault?_eq_none_iff.1 h).2.1).2.2

/-- An id that gives a name is that of one operation only. -/
theorem count_id_eq_one {op : Operation} (hop : op ∈ spec.operations)
    (hbase : typeName op.id ≠ "") : (spec.operations.map Operation.id).count op.id = 1 := by
  have hbases : (operationBases spec.operations).count (typeName op.id) =
      ((spec.operations.map Operation.id).map typeName).count (typeName op.id) := by
    rw [operationBases, List.count_filter (by simpa using hbase), List.map_map]
    rfl
  refine le_antisymm ?_ (List.one_le_count_iff.2 (List.mem_map_of_mem hop))
  calc (spec.operations.map Operation.id).count op.id
      ≤ ((spec.operations.map Operation.id).map typeName).count (typeName op.id) :=
        List.count_le_count_map
    _ = (operationBases spec.operations).count (typeName op.id) := hbases.symm
    _ ≤ 1 := List.nodup_iff_count_le_one.1 (nodup_operationBases h) _

/-- Operations whose ids all give a name are told apart by it. -/
theorem nodup_map_typeName (hbases : ∀ op ∈ spec.operations, typeName op.id ≠ "") :
    (spec.operations.map fun op ↦ typeName op.id).Nodup := by
  have hall : operationBases spec.operations = spec.operations.map fun op ↦ typeName op.id :=
    List.filter_eq_self.2 fun base hbase ↦ by
      obtain ⟨op, hop, rfl⟩ := List.mem_map.1 hbase
      simpa using hbases op hop
  exact hall ▸ nodup_operationBases h

/-- Operations whose ids all give a name have distinct ids. -/
theorem nodup_ids (hbases : ∀ op ∈ spec.operations, typeName op.id ≠ "") :
    (spec.operations.map Operation.id).Nodup := by
  have htypes := nodup_map_typeName h hbases
  rw [← Function.comp_def, ← List.map_map] at htypes
  exact htypes.of_map typeName

/-- The types of an operation have other names than those of the models. -/
theorem typeName_ne_of_mem_operationTypes {op : Operation} (hop : op ∈ spec.operations)
    (hbase : typeName op.id ≠ "") {type : String}
    (htype : type ∈ operationTypes op (typeName op.id)) {model : Model}
    (hmodel : model ∈ spec.models) : typeName model.name ≠ type :=
  (operationNameFault?_eq_none_iff.1 (fault?_eq_none_iff.1 h).2.1).1 op hop hbase
    type htype model hmodel

theorem mem_modelNames_of_model {model : Model} (hmodel : model ∈ spec.models) {name : String}
    (hname : name ∈ model.schema.references) : name ∈ spec.models.map Model.name :=
  (referenceFault?_eq_none_iff.1 (fault?_eq_none_iff.1 h).2.2).1 model hmodel name hname

/-- What an operation refers to is a model. -/
theorem mem_modelNames_of_operation {op : Operation} (hop : op ∈ spec.operations) {schema : Schema}
    (hschema : schema ∈ operationSchemas op) {name : String} (hname : name ∈ schema.references) :
    name ∈ spec.models.map Model.name :=
  (referenceFault?_eq_none_iff.1 (fault?_eq_none_iff.1 h).2.2).2 op hop schema hschema name hname

end Accepted

end Plan

/-! ### Small contracts -/

namespace Spec

/-- A contract of the given operations and models, and of nothing else. -/
def bare (title : String) (operations : List Operation) (models : List Model) : Spec where
  title := title
  version := "1"
  description := none
  baseUrl := "/"
  operations := operations
  models := models
  tags := []
  securitySchemes := []

/-- A query with the given parameters, and with nothing else. -/
def query (id path : String) (parameters : List Parameter) : Operation where
  id := id
  method := .get
  path := path
  summary := none
  description := none
  tags := []
  parameters := parameters
  requestBody := none
  responses := []
  requiresAuth := false
  deprecated := false

end Spec

end ApiContract
