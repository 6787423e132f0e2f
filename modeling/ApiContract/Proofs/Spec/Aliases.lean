import ApiContract.Artifact.Declarations
import ApiContract.Lint.Report
import ApiContract.Proofs.ModelGraph
import ApiContract.Proofs.Spec.NamedReference
import Mathlib.Data.Set.Finite.Basic

/-!
# Models that stand for others

A model whose whole schema is a reference stands for the model of that name, and its type is
declared as an alias. A plan requires that this model exists (`Plan.mem_modelNames_of_model`), and
nothing requires that it is not an alias again, and so on in a circle.

## Main result

`Spec.aliases_end_iff`, for every document whose contract can be planned:

* a model stands for another exactly if its component is `$ref`, or a single branch of `allOf` that
  is one, within the levels that are resolved;
* the other is a model too, and the type of the one is declared as an alias of the type of the
  other;
* the aliases from a model end exactly if they lead into no circle, and all of them end exactly if
  there is no circle;
* the models on circles are recursive ones.

`aliases_circular_peopleDocument` is a document of two models that are each the other one: the
linter accepts it, its contract can be planned, and the types are declared as aliases of each other,
which no compiler of the generated code accepts.

## Proof

A model stands for one other model at most, so there is one chain from each. It ends at a model that
stands for none, or it goes on for ever; as there are only so many models, the second means a circle
(`ends_of_not_transGen`, an induction on how many models the chain can still come to). Which models
are references is read off resolution: a form has a name only if it is a single branch that has it
(`Schema.refName_node`), and the induction is on the levels.
-/

namespace ApiContract

open Relation TypeScript

/-! ### Chains of aliases -/

namespace ModelGraph

/-- A model stands for another if its whole schema is a reference to it. -/
def StandsFor (models : List Model) (name other : String) : Prop :=
  ∃ model ∈ models, model.name = name ∧ model.schema.refName = some other

instance (models : List Model) (name other : String) : Decidable (StandsFor models name other) :=
  inferInstanceAs <| Decidable <|
    ∃ model ∈ models, model.name = name ∧ model.schema.refName = some other

/-- From one model to the one that it stands for, and on, a model is reached that stands for
none. -/
def Ends (models : List Model) (name : String) : Prop :=
  ∃ last ∈ models, last.schema.refName = none ∧ ReflTransGen (StandsFor models) name last.name

section Chains

variable {models : List Model} (hnames : (models.map Model.name).Nodup)

include hnames

/-- A model stands for one other at most. -/
theorem StandsFor.eq {name other another : String} (h : StandsFor models name other)
    (h' : StandsFor models name another) : other = another := by
  obtain ⟨model, hmodel, rfl, href⟩ := h
  obtain ⟨model', hmodel', hname, href'⟩ := h'
  obtain rfl := List.inj_on_of_nodup_map hnames hmodel' hmodel hname
  exact Option.some.inj (href.symm.trans href')

/-- A model without a name of another stands for none. -/
theorem not_standsFor_of_refName_eq_none {model : Model} (hmodel : model ∈ models)
    (hnone : model.schema.refName = none) (other : String) :
    ¬StandsFor models model.name other := by
  rintro ⟨model', hmodel', hname, href⟩
  obtain rfl := List.inj_on_of_nodup_map hnames hmodel' hmodel hname
  exact absurd (hnone.symm.trans href) nofun

/-- What a model on a chain that ends stands for is on that chain. -/
theorem Ends.of_standsFor {name other : String} (h : Ends models name)
    (hstep : StandsFor models name other) : Ends models other := by
  obtain ⟨last, hlast, hnone, hchain⟩ := h
  rcases hchain.cases_head with rfl | ⟨next, hnext, hrest⟩
  · exact absurd hstep (not_standsFor_of_refName_eq_none hnames hlast hnone other)
  · obtain rfl := hnext.eq hnames hstep
    exact ⟨last, hlast, hnone, hrest⟩

/-- A model on a circle does not end. -/
theorem Ends.not_transGen {name : String} (h : Ends models name) :
    ¬TransGen (StandsFor models) name name := by
  obtain ⟨last, hlast, hnone, hchain⟩ := h
  induction hchain using ReflTransGen.head_induction_on with
  | refl =>
    intro hcircle
    obtain ⟨next, hnext, -⟩ := TransGen.head'_iff.1 hcircle
    exact not_standsFor_of_refName_eq_none hnames hlast hnone next hnext
  | @head name next hnext _ ih =>
    intro hcircle
    obtain ⟨next', hnext', hback⟩ := TransGen.head'_iff.1 hcircle
    obtain rfl := hnext.eq hnames hnext'
    exact ih (TransGen.tail' hback hnext)

/-- What is on a chain that ends has a chain that ends. -/
theorem Ends.of_reflTransGen {name other : String} (h : Ends models name)
    (hchain : ReflTransGen (StandsFor models) name other) : Ends models other := by
  induction hchain with
  | refl => exact h
  | tail _ hstep ih => exact ih.of_standsFor hnames hstep

end Chains

/-- A chain that ends may be begun one model earlier. -/
theorem Ends.head {models : List Model} {name other : String}
    (hstep : StandsFor models name other) (h : Ends models other) : Ends models name := by
  obtain ⟨last, hlast, hnone, hchain⟩ := h
  exact ⟨last, hlast, hnone, hchain.head hstep⟩

/-- **A chain that leads into no circle ends**, as there are only so many models. -/
theorem ends_of_not_transGen {models : List Model}
    (hclosed : ∀ name other, StandsFor models name other → other ∈ models.map Model.name)
    {name : String} (hname : name ∈ models.map Model.name)
    (hfree : ∀ other, ReflTransGen (StandsFor models) name other →
      ¬TransGen (StandsFor models) other other) : Ends models name := by
  -- the steps of this chain alone, backwards: they are well-founded, as they meet no circle
  let back (later earlier : {other // other ∈ models.map Model.name}) : Prop :=
    ReflTransGen (StandsFor models) name earlier ∧ StandsFor models earlier later
  have hlift {later earlier} (h : TransGen back later earlier) :
      ReflTransGen (StandsFor models) name earlier ∧
        TransGen (StandsFor models) earlier later := by
    induction h with
    | single hstep => exact ⟨hstep.1, .single hstep.2⟩
    | tail _ hstep ih => exact ⟨hstep.1, .head hstep.2 ih.2⟩
  have hwf : WellFounded (TransGen back) := by
    have hirrefl : Std.Irrefl (TransGen back) :=
      ⟨fun other hcircle ↦ hfree other (hlift hcircle).1 (hlift hcircle).2⟩
    exact Finite.wellFounded_of_trans_of_irrefl _
  have hends (other : {other // other ∈ models.map Model.name}) :
      ReflTransGen (StandsFor models) name other → Ends models other := by
    induction other using hwf.induction with
    | _ other ih =>
      intro hreached
      obtain ⟨model, hmodel, heq⟩ := List.mem_map.1 other.2
      cases href : model.schema.refName with
      | none => exact ⟨model, hmodel, href, heq ▸ .refl⟩
      | some next =>
        have hstep : StandsFor models other next := ⟨model, hmodel, heq, href⟩
        exact (ih ⟨next, hclosed _ _ hstep⟩ (.single ⟨hreached, hstep⟩)
          (hreached.tail hstep)).head hstep
  exact hends ⟨name, hname⟩ .refl

section Closed

variable {models : List Model} (hnames : (models.map Model.name).Nodup)
  (hclosed : ∀ name other, StandsFor models name other → other ∈ models.map Model.name)

include hnames hclosed

/-- **A chain ends exactly if it leads into no circle.** -/
theorem ends_iff {name : String} (hname : name ∈ models.map Model.name) :
    Ends models name ↔ ∀ other, ReflTransGen (StandsFor models) name other →
      ¬TransGen (StandsFor models) other other :=
  ⟨fun h _ hchain ↦ (h.of_reflTransGen hnames hchain).not_transGen hnames,
    ends_of_not_transGen hclosed hname⟩

/-- All chains end exactly if there is no circle. -/
theorem forall_ends_iff :
    (∀ model ∈ models, Ends models model.name) ↔
      ∀ model ∈ models, ¬TransGen (StandsFor models) model.name model.name := by
  constructor
  · exact fun h model hmodel ↦ (h model hmodel).not_transGen hnames
  · intro hfree model hmodel
    refine ends_of_not_transGen hclosed (List.mem_map_of_mem hmodel) fun other _ hcircle ↦ ?_
    obtain ⟨next, hstep, -⟩ := TransGen.head'_iff.1 hcircle
    obtain ⟨model', hmodel', rfl, -⟩ := hstep
    exact hfree model' hmodel' hcircle

/-- A model refers to what it stands for. -/
theorem StandsFor.refers {name other : String} (h : StandsFor models name other) :
    Refers models name other := by
  have hother := hclosed name other h
  obtain ⟨model, hmodel, rfl, href⟩ := h
  have hnamed : other ∈ model.schema.references := (Schema.Shows.self _).mem_references href
  exact (mem_targets_iff hnames hmodel).2 ⟨Schema.mem_referencedNames.2 hnamed, hother⟩

/-- **A model on a circle of aliases is recursive.** -/
theorem mem_recursive_of_transGen {name : String}
    (h : TransGen (StandsFor models) name name) : name ∈ (ofModels models).recursive :=
  mem_recursive_iff.2 (TransGen.mono (fun _ _ hstep ↦ hstep.refers hnames hclosed) _ _ h)

end Closed

end ModelGraph

/-! ### Which models stand for others -/

namespace Schema

/-- A value is as a whole a reference of that name, found within so many levels: it says `$ref`, or
it is a single branch of `allOf` that is one. -/
inductive IsReference (root : Json) (name : String) : Nat → Json → Prop
  | target {levels : Nat} {fields : List (String × Json)} {reference : String}
      (hreference : field? "$ref" fields = some (.string reference))
      (hresolves : (Pointer.resolve? root reference).isSome = true)
      (hname : Pointer.referenceName? reference = some name) :
      IsReference root name (levels + 2) (.object fields)
  | wrapped {levels : Nat} {fields : List (String × Json)} {branch : Json}
      (hnone : ∀ reference, field? "$ref" fields ≠ some (.string reference))
      (hform : formOf fields = .wrapped branch) (h : IsReference root name levels branch) :
      IsReference root name (levels + 1) (.object fields)

/-- A form gives a name only if it is a single branch with that name. -/
theorem refName_node {child : Json → Schema} {form : Form} {name : String} :
    (form.node child).refName = some name ↔
      ∃ branch, form = .wrapped branch ∧ (child branch).refName = some name := by
  cases form with
  | wrapped branch => simp [Form.node]
  | merged | choice | typed => simp [Form.node, mergeAllOf]

/-- Whether `$ref` is a reference of a name. -/
theorem isReference_iff_of_reference {root : Json} {name reference : String} {levels : Nat}
    {fields : List (String × Json)} (hreference : field? "$ref" fields = some (.string reference)) :
    IsReference root name (levels + 1) (.object fields) ↔
      levels ≠ 0 ∧ (Pointer.resolve? root reference).isSome = true ∧
        Pointer.referenceName? reference = some name := by
  constructor
  · intro h
    cases h with
    | target hreference' hresolves hname =>
      obtain rfl := Json.string.inj (Option.some.inj (hreference.symm.trans hreference'))
      exact ⟨Nat.succ_ne_zero _, hresolves, hname⟩
    | wrapped hnone => exact absurd hreference (hnone reference)
  · rintro ⟨hlevels, hresolves, hname⟩
    obtain ⟨levels, rfl⟩ := Nat.exists_eq_succ_of_ne_zero hlevels
    exact .target hreference hresolves hname

/-- Anything else is one if it is a single branch that is. -/
theorem isReference_iff_of_not_reference {root : Json} {name : String} {levels : Nat}
    {fields : List (String × Json)}
    (hnone : ∀ reference, field? "$ref" fields ≠ some (.string reference)) :
    IsReference root name (levels + 1) (.object fields) ↔
      ∃ branch, formOf fields = .wrapped branch ∧ IsReference root name levels branch := by
  constructor
  · intro h
    cases h with
    | target hreference => exact absurd hreference (hnone _)
    | wrapped _ hform h => exact ⟨_, hform, h⟩
  · rintro ⟨branch, hform, h⟩
    exact .wrapped hnone hform h

/-- The name of what `$ref` gives is that of the reference. -/
theorem refName_ofReference {root : Json} {levels : Nat} {child : Json → Schema}
    {reference name : String} :
    (ofReference root levels child reference).refName = some name ↔
      levels ≠ 0 ∧ (Pointer.resolve? root reference).isSome = true ∧
        Pointer.referenceName? reference = some name := by
  rw [ofReference]
  split
  · next hzero => simp [hzero, any]
  · next hlevels =>
    split
    · next target hresolves => simp [hlevels, hresolves]
    · next hresolves => simp [hresolves, any]

/-- **A resolved value has a name exactly if it is as a whole a reference of that name.** -/
theorem refName_resolveAt_iff {root : Json} {name : String} {levels : Nat} {value : Json} :
    (resolveAt root levels value).refName = some name ↔ IsReference root name levels value := by
  -- on the levels, as a single branch of `allOf` is resolved with one level fewer
  induction levels generalizing value with
  | zero => exact iff_of_false nofun nofun
  | succ levels ih =>
    match value with
    | .null | .bool _ | .number _ | .string _ | .array _ => exact iff_of_false nofun nofun
    | .object fields =>
      by_cases hreference : ∃ reference, field? "$ref" fields = some (.string reference)
      · obtain ⟨reference, hreference⟩ := hreference
        rw [resolveAt_reference levels hreference, isReference_iff_of_reference hreference]
        exact refName_ofReference
      · have hnone := not_exists.1 hreference
        have hnode : (resolveAt root (levels + 1) (.object fields)).refName =
            ((formOf fields).node (resolveAt root levels)).refName := by
          rw [resolveAt_ofFields levels hnone, ofFields_eq]
          rfl
        rw [hnode, refName_node, isReference_iff_of_not_reference hnone]
        exact exists_congr fun branch ↦ and_congr_right fun _ ↦ ih

end Schema

/-- A model that stands for another is declared as an alias of its type. -/
theorem Model.typeDeclaration_of_refName {model : Model} {other : String}
    (h : model.schema.refName = some other) :
    model.typeDeclaration = .alias (typeName model.name)
      (typeOrNull model.schema.nullable (.named (typeName other))) model.description := by
  have hmembers : model.schema.interfaceMembers? = none := by
    rw [Schema.interfaceMembers?, h]
    rfl
  have htype : model.schema.toType =
      typeOrNull model.schema.nullable (.named (typeName other)) := by
    obtain ⟨_, _, ⟨_, _, _, _, _, refName, _⟩, _, _⟩ := model
    obtain rfl : refName = some other := h
    rfl
  rw [Model.typeDeclaration, hmembers, htype]

namespace Spec

open ModelGraph

variable {root : Json} {options : RenderOptions} {plan : Plan}

/-- **A model stands for another exactly if its component is as a whole a reference to it.** -/
theorem standsFor_ofDocument_iff {name other : String} :
    StandsFor (ofDocument root).models name other ↔
      ∃ value, (name, value) ∈ Build.componentEntries root "schemas" ∧
        Schema.IsReference root other (maxResolveDepth + 1) value := by
  constructor
  · rintro ⟨model, hmodel, rfl, href⟩
    obtain ⟨⟨key, value⟩, hentry, rfl⟩ := List.mem_map.1 hmodel
    exact ⟨value, hentry, Schema.refName_resolveAt_iff.1 href⟩
  · rintro ⟨value, hentry, href⟩
    exact ⟨_, List.mem_map_of_mem hentry, rfl, Schema.refName_resolveAt_iff.2 href⟩

/-- **Aliases end exactly if there are none in a circle.** In every document whose contract can be
planned, a model stands for another exactly if its component is `$ref`, or a single branch of
`allOf` that is; the other is a model too, and the type of the one is declared as an alias of the
type of the other. The aliases from a model end exactly if they lead into no circle, so all of them
end exactly if there is no circle. The models on circles are recursive ones. -/
theorem aliases_end_iff (hplan : Plan.ofSpec (ofDocument root) options = .ok plan) :
    (∀ name other, StandsFor (ofDocument root).models name other ↔
      ∃ value, (name, value) ∈ Build.componentEntries root "schemas" ∧
        Schema.IsReference root other (maxResolveDepth + 1) value) ∧
    (∀ model ∈ (ofDocument root).models, ∀ other, model.schema.refName = some other →
      other ∈ (ofDocument root).models.map Model.name ∧
      model.typeDeclaration = .alias (typeName model.name)
        (typeOrNull model.schema.nullable (.named (typeName other))) model.description) ∧
    (∀ model ∈ (ofDocument root).models, Ends (ofDocument root).models model.name ↔
      ∀ other, ReflTransGen (StandsFor (ofDocument root).models) model.name other →
        ¬TransGen (StandsFor (ofDocument root).models) other other) ∧
    ((∀ model ∈ (ofDocument root).models, Ends (ofDocument root).models model.name) ↔
      ∀ model ∈ (ofDocument root).models,
        ¬TransGen (StandsFor (ofDocument root).models) model.name model.name) ∧
    ∀ name, TransGen (StandsFor (ofDocument root).models) name name →
      plan.graph.isRecursive name = true := by
  obtain ⟨hfault, rfl⟩ := Plan.ofSpec_eq_ok_iff.1 hplan
  have hnames := Plan.nodup_modelNames hfault
  have htarget : ∀ model ∈ (ofDocument root).models, ∀ other, model.schema.refName = some other →
      other ∈ (ofDocument root).models.map Model.name := fun model hmodel other href ↦
    Plan.mem_modelNames_of_model hfault hmodel ((Schema.Shows.self _).mem_references href)
  have hclosed : ∀ name other, StandsFor (ofDocument root).models name other →
      other ∈ (ofDocument root).models.map Model.name := by
    rintro name other ⟨model, hmodel, -, href⟩
    exact htarget model hmodel other href
  refine ⟨fun _ _ ↦ standsFor_ofDocument_iff, fun model hmodel other href ↦
    ⟨htarget model hmodel other href, Model.typeDeclaration_of_refName href⟩,
    fun model hmodel ↦ ends_iff hnames hclosed (List.mem_map_of_mem hmodel),
    forall_ends_iff hnames hclosed, fun name hcircle ↦ ?_⟩
  exact NameSet.contains_iff.2 (mem_recursive_of_transGen hnames hclosed hcircle)

/-- Two component schemas that are each the other one. -/
def peopleDocument : Json :=
  .object [
    ("openapi", .string "3.0.3"),
    ("info", .object [("title", .string "People"), ("version", .string "1.0.0")]),
    ("paths", .object []),
    ("components", .object [("schemas", .object [
      ("Person", .object [("$ref", .string "#/components/schemas/User")]),
      ("User", .object [("allOf", .array [
        .object [("$ref", .string "#/components/schemas/Person")]])])])])]

theorem errors_peopleDocument : (lint {} peopleDocument).errors = [] := by
  decide +kernel

theorem ofSpec_peopleDocument :
    Plan.ofSpec (ofDocument peopleDocument) {} = .ok (Plan.make (ofDocument peopleDocument) {}) :=
  Plan.ofSpec_eq_ok_iff.2 ⟨Option.isNone_iff_eq_none.1 (by decide +kernel), rfl⟩

/-- The first model is on a circle. -/
theorem transGen_peopleDocument :
    TransGen (StandsFor (ofDocument peopleDocument).models) "Person" "Person" := by
  have hperson : StandsFor (ofDocument peopleDocument).models "Person" "User" := by decide +kernel
  have huser : StandsFor (ofDocument peopleDocument).models "User" "Person" := by decide +kernel
  exact .tail (.single hperson) huser

/-- The two are in a circle, so not all aliases end, and they are recursive. -/
theorem aliases_end_iff_peopleDocument :
    ∃ plan, Plan.ofSpec (ofDocument peopleDocument) {} = .ok plan ∧
      (∃ model ∈ (ofDocument peopleDocument).models, model.schema.refName = some "User") ∧
      (¬∀ model ∈ (ofDocument peopleDocument).models,
        Ends (ofDocument peopleDocument).models model.name) ∧
      plan.graph.isRecursive "Person" = true := by
  obtain ⟨-, -, -, hiff, hrecursive⟩ := aliases_end_iff ofSpec_peopleDocument
  have hmodel : ∃ model ∈ (ofDocument peopleDocument).models,
      model.name = "Person" ∧ model.schema.refName = some "User" := by decide +kernel
  obtain ⟨model, hmem, hname, href⟩ := hmodel
  refine ⟨_, ofSpec_peopleDocument, ⟨model, hmem, href⟩, fun hends ↦ ?_,
    hrecursive _ transGen_peopleDocument⟩
  exact hiff.1 hends model hmem (hname ▸ transGen_peopleDocument)

/-- A model that stands for another, and says no more, is declared as a plain alias. -/
theorem alias_mem_modelDeclarations {type target : String} (other : String)
    (hmodel : ∃ model ∈ plan.spec.models, typeName model.name = type ∧
      model.schema.refName = some other ∧ model.schema.nullable = false ∧
      model.description = none) (htarget : typeName other = target) :
    .alias type (.named target) none ∈ plan.modelDeclarations := by
  obtain ⟨model, hmem, rfl, href, hnullable, hdescription⟩ := hmodel
  refine List.mem_map.2 ⟨model, hmem, ?_⟩
  rw [Model.typeDeclaration_of_refName href, hnullable, hdescription, htarget]
  rfl

/-- The linter accepts the document and its contract can be planned, and the types of the two are
declared as aliases of each other. -/
theorem aliases_circular_peopleDocument :
    (lint {} peopleDocument).errors = [] ∧
    ∃ plan, Plan.ofSpec (ofDocument peopleDocument) {} = .ok plan ∧
      ¬Ends (ofDocument peopleDocument).models "Person" ∧
      .alias "Person" (.named "User") none ∈ plan.modelDeclarations ∧
      .alias "User" (.named "Person") none ∈ plan.modelDeclarations := by
  have hnames := Plan.nodup_modelNames (Plan.ofSpec_eq_ok_iff.1 ofSpec_peopleDocument).1
  refine ⟨errors_peopleDocument, _, ofSpec_peopleDocument,
    fun hends ↦ hends.not_transGen hnames transGen_peopleDocument, ?_, ?_⟩
  · refine alias_mem_modelDeclarations "User" ?_ ?_ <;> decide +kernel
  · refine alias_mem_modelDeclarations "Person" ?_ ?_ <;> decide +kernel

end Spec

end ApiContract
