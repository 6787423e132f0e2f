import ApiContract.Proofs.ModelGraph
import ApiContract.Proofs.Schema.Height
import ApiContract.Proofs.Spec.NamedReference

/-!
# Recursion and declaration order, by what schemas name

`Proofs.ModelGraph` measures the graph by the table of targets that it is computed from. Here it is
measured by the models themselves: one model names another if its schema refers to it (`Names`), and
a schema refers to just the names of the nodes that are seen in it (`Schema.mem_references_iff`).
Where models have distinct names the two relations are one (`names_eq_refers`).

## Main results

* `recursive_iff_cyclic`: a model is recursive if and only if it is on a cycle, in whatever order
  the models are given.
* `order_follows_names`: the declaration order is a permutation of the models which puts what a
  model names in front of it, except within a cycle, and keeps cycles together, each in the order of
  the document.
* `ofModels_eq_ofComponents`: the graph is the one that is read off its strongly connected
  components, in an order in which they may be found.

## The graph by its components

A graph of models may be made from the components of the graph of names: these are listed so that
none names a later one, a component is recursive if it has more than one member or its only member
names itself, and its members are sorted by their places in the document (`ofComponents`).
`ofModels` computes no components, but visits. `ListsComponents` says what a list of components is,
without an order of the members, and the list that `ofModels` follows is one of those
(`listsComponents`). Of the recursive models it does not matter which such list was found; of the
order of declaration it does, where components do not name each other, and for that the two
statements above say what every one of them has in common.

Names of models are distinct in all of this, as they are in every contract that is rendered.
-/

namespace ApiContract

open Relation (ReflTransGen TransGen)

namespace Schema

/-! ### What a schema refers to -/

/-- An unnamed node refers to what its children refer to. -/
theorem references_eq_flatMap_children {s : Schema} (h : s.refName = none) :
    s.references = s.shape.children.flatMap references := by
  rw [references_of_refName_eq_none h]
  cases s.shape with
  | array items => simp [shapeReferences, Shape.children]
  | object properties required additional =>
    rw [shapeReferences, Shape.children, List.flatMap_append, propertyReferences_eq_flatMap,
      List.flatMap_map]
    cases additional <;> simp [optionReferences]
  | union variants exclusive => exact variantReferences_eq_flatMap variants
  | any | string | integer | number | boolean => rfl

/-- What is seen in a child of an unnamed node is seen in that node. -/
theorem Shows.of_mem_children {s child node : Schema} (hname : s.refName = none)
    (hchild : child ∈ s.shape.children) (h : child.Shows node) : s.Shows node := by
  generalize hshape : s.shape = shape at hchild
  cases shape with
  | array items =>
    obtain rfl := List.mem_singleton.1 hchild
    exact .items hname hshape h
  | object properties required additional =>
    rcases List.mem_append.1 hchild with hproperty | hadditional
    · obtain ⟨property, hmem, rfl⟩ := List.mem_map.1 hproperty
      exact .property hname hshape hmem h
    · obtain rfl := Option.mem_toList.1 hadditional
      exact .additional hname hshape h
  | union variants exclusive => exact .variant hname hshape hchild h
  | any | string | integer | number | boolean => exact absurd hchild List.not_mem_nil

/-- **A schema refers to the names of the nodes that are seen in it.** -/
theorem mem_references_iff {s : Schema} {name : String} :
    name ∈ s.references ↔ ∃ node, s.Shows node ∧ node.refName = some name := by
  constructor
  · intro h
    -- on the height: what a schema refers to without being named is below it
    induction hheight : s.height using Nat.strongRecOn generalizing s with
    | ind height ih =>
      cases hname : s.refName with
      | some own =>
        rw [references_of_refName_eq_some hname, List.mem_singleton] at h
        exact ⟨s, .self s, h ▸ hname⟩
      | none =>
        rw [references_eq_flatMap_children hname] at h
        obtain ⟨child, hchild, hbelow⟩ := List.mem_flatMap.1 h
        have hlower : child.height < height :=
          hheight ▸ height_le_iff.1 (Nat.le_refl _) child hchild
        obtain ⟨node, hshows, href⟩ := ih child.height hlower hbelow rfl
        exact ⟨node, hshows.of_mem_children hname hchild, href⟩
  · rintro ⟨node, hshows, href⟩
    exact hshows.mem_references href

end Schema

namespace ModelGraph

variable {models : List Model}

/-! ### The graph of names -/

/-- A model names a model: its schema refers to it. -/
def Names (models : List Model) (name other : String) : Prop :=
  ∃ model ∈ models, model.name = name ∧ other ∈ model.schema.referencedNames ∧
    other ∈ models.map Model.name

/-- Which model names which does not depend on the order of the models. -/
theorem names_eq_of_perm {reordered : List Model} (h : reordered.Perm models) :
    Names reordered = Names models := by
  funext name other
  simp only [Names, h.mem_iff, (h.map Model.name).mem_iff]

/-- **The graph is that of the names**, where these are distinct. -/
theorem names_eq_refers (hnames : (models.map Model.name).Nodup) :
    Names models = Refers models := by
  funext name other
  refine propext ⟨?_, mem_targets⟩
  rintro ⟨model, hmodel, rfl, hnamed⟩
  exact (mem_targets_iff hnames hmodel).2 hnamed

/-! ### Recursive models -/

/-- **The recursive models are those on a cycle.** A model is recursive if and only if it leads to
itself along one name or more; there is a step from one model to another if a node that is seen in
the schema of the one has the name of the other. So which models are recursive does not depend on
their order. -/
theorem recursive_iff_cyclic (hnames : (models.map Model.name).Nodup) :
    (∀ name, (ofModels models).isRecursive name = true ↔ TransGen (Names models) name name) ∧
      (∀ name other, Names models name other ↔ ∃ model ∈ models, model.name = name ∧
        (∃ node, model.schema.Shows node ∧ node.refName = some other) ∧
          other ∈ models.map Model.name) ∧
      ∀ reordered : List Model, reordered.Perm models →
        (ofModels reordered).recursive = (ofModels models).recursive := by
  have hrecursive {models : List Model} (hnames : (models.map Model.name).Nodup) (name : String) :
      name ∈ (ofModels models).recursive ↔ TransGen (Names models) name name := by
    rw [names_eq_refers hnames, mem_recursive_iff]
  refine ⟨fun name ↦ ?_, fun name other ↦ ?_, fun reordered hperm ↦ ?_⟩
  · rw [isRecursive, NameSet.contains_iff, hrecursive hnames]
  · simp only [Names, Schema.mem_referencedNames, Schema.mem_references_iff]
  · have hreordered : (reordered.map Model.name).Nodup := (hperm.map Model.name).nodup_iff.2 hnames
    refine NameSet.eq_of_mem_iff fun name ↦ ?_
    rw [hrecursive hreordered, hrecursive hnames, names_eq_of_perm hperm]

/-- Two models that name each other, and between them one that names both and something that is no
model; after them one that a member of the cycle names, and one that names itself. -/
def orderModels : List Model :=
  let named (target : String) : Schema := { shape := .any, refName := some target }
  let declare (name : String) (shape : Shape) : Model := ⟨name, none, { shape := shape }, [], ∅⟩
  [ declare "ping" (.object [⟨"pong", named "pong"⟩, ⟨"customer", named "customer"⟩] ∅ none)
  , declare "order" (.union [named "pong", named "ping", named "elsewhere"] false)
  , declare "pong" (.array (named "ping"))
  , declare "customer" (.object [] ∅ (some { shape := .string }))
  , declare "category" (.array (named "category")) ]

/-- Two models on a cycle, and one that leads into it. -/
theorem recursive_iff_cyclic_orderModels :
    (orderModels.map Model.name).Nodup ∧
      TransGen (Names orderModels) "ping" "ping" ∧ TransGen (Names orderModels) "pong" "pong" ∧
      ¬TransGen (Names orderModels) "order" "order" ∧
      (ofModels orderModels.reverse).recursive = (ofModels orderModels).recursive := by
  have hnames : (orderModels.map Model.name).Nodup := by decide +kernel
  obtain ⟨hcyclic, -, hreordered⟩ := recursive_iff_cyclic hnames
  refine ⟨hnames, (hcyclic _).1 (by decide +kernel), (hcyclic _).1 (by decide +kernel), ?_,
    hreordered _ (List.reverse_perm _)⟩
  rw [← hcyclic]
  decide +kernel

/-! ### The graph by its components -/

/-- The components of the graph, in an order in which a search for them may find them: each model is
in one, the members of one lead to each other and to no other model that leads back, and none names
a model of a later one. Nothing is said about the order of the members. -/
structure ListsComponents (models : List Model) (components : List (List String)) : Prop where
  ne_nil : ∀ component ∈ components, component ≠ []
  perm : components.flatten.Perm (models.map Model.name)
  mem_iff : ∀ component ∈ components, ∀ name ∈ component, ∀ other, other ∈ component ↔
    ReflTransGen (Names models) name other ∧ ReflTransGen (Names models) other name
  not_names_later : components.Pairwise fun component later ↦
    ∀ name ∈ component, ∀ other ∈ later, ¬Names models name other

/-- A component has a cycle if it has several members, or if its only one names itself. -/
def hasCycle (models : List Model) (component : List String) : Bool :=
  decide (1 < component.length) ||
    component.length == 1 && component.any fun name ↦ (targets models name).contains name

/-- The graph that is read off components: the members of those with a cycle are recursive, and the
order lists one component after the other, each as the document does. -/
def ofComponents (models : List Model) (components : List (List String)) : ModelGraph where
  recursive := NameSet.ofList (components.filter (hasCycle models)).flatten
  order := (components.map fun component ↦ component.mergeSort fun a b ↦
    (models.map Model.name).idxOf a ≤ (models.map Model.name).idxOf b).flatten

namespace ListsComponents

variable {components : List (List String)} {component : List String} {name : String}

/-- A component counts as recursive if its members are on a cycle. -/
theorem hasCycle_iff (h : ListsComponents models components)
    (hnames : (models.map Model.name).Nodup) (hcomponent : component ∈ components)
    (hname : name ∈ component) :
    hasCycle models component = true ↔ TransGen (Names models) name name := by
  have hnodup : component.Nodup :=
    (h.perm.nodup_iff.2 hnames).sublist (List.sublist_flatten_of_mem hcomponent)
  have hself : (targets models name).contains name = true ↔ Names models name name := by
    rw [names_eq_refers hnames, List.contains_iff_mem]
    rfl
  by_cases hlength : 1 < component.length
  · obtain ⟨other, hother, hne⟩ : ∃ other ∈ component, other ≠ name := by
      by_contra hnone
      have hall : ∀ other ∈ component, name = other := fun other hother ↦
        by_contra fun hne ↦ hnone ⟨other, hother, Ne.symm hne⟩
      have hle := List.nodup_iff_count_le_one.1 hnodup name
      rw [List.count_eq_length.2 hall] at hle
      omega
    obtain ⟨hto, hback⟩ := (h.mem_iff component hcomponent name hname other).1 hother
    have hcycle : TransGen (Names models) name name :=
      ((Relation.reflTransGen_iff_eq_or_transGen.1 hto).resolve_left hne).trans_left hback
    exact iff_of_true (by rw [hasCycle, decide_eq_true hlength, Bool.true_or]) hcycle
  · obtain rfl : component = [name] := by
      obtain ⟨only, rfl⟩ := List.length_eq_one_iff.1
        (le_antisymm (not_lt.1 hlength) (List.length_pos_of_mem hname))
      rw [List.mem_singleton.1 hname]
    have hcycle : hasCycle models [name] = (targets models name).contains name := by
      simp [hasCycle]
    rw [hcycle, hself]
    refine ⟨.single, fun hcircle ↦ ?_⟩
    -- what is named first on the way is in the component, and so it is the member itself
    obtain ⟨next, hnext, hback⟩ := TransGen.head'_iff.1 hcircle
    have hmem := (h.mem_iff _ hcomponent name hname next).2 ⟨.single hnext, hback⟩
    exact List.mem_singleton.1 hmem ▸ hnext

/-- **Which models are recursive does not depend on the order in which components are found.** -/
theorem recursive_eq (h : ListsComponents models components)
    (hnames : (models.map Model.name).Nodup) :
    (ofComponents models components).recursive = (ofModels models).recursive := by
  refine NameSet.eq_of_mem_iff fun name ↦ ?_
  rw [mem_recursive_iff, ← names_eq_refers hnames, ofComponents, NameSet.mem_ofList,
    List.mem_flatten]
  constructor
  · rintro ⟨component, hcomponent, hname⟩
    obtain ⟨hcomponent, hcycle⟩ := List.mem_filter.1 hcomponent
    exact (h.hasCycle_iff hnames hcomponent hname).1 hcycle
  · intro hcycle
    obtain ⟨-, ⟨model, hmodel, rfl, -⟩, -⟩ := TransGen.head'_iff.1 hcycle
    obtain ⟨component, hcomponent, hname⟩ :=
      List.mem_flatten.1 (h.perm.mem_iff.2 (List.mem_map_of_mem hmodel))
    exact ⟨component, List.mem_filter.2
      ⟨hcomponent, (h.hasCycle_iff hnames hcomponent hname).2 hcycle⟩, hname⟩

end ListsComponents

/-- The groups that `groups` lists, each on its own. -/
def pieces (names : List String) (same : String → String → Bool) : List String → List (List String)
  | [] => []
  | name :: later =>
    if later.any (same name) then pieces names same later
    else names.filter (same name) :: pieces names same later

/-- The groups, one after the other, are what `groups` lists. -/
theorem flatten_pieces (names : List String) (same : String → String → Bool)
    (later : List String) : (pieces names same later).flatten = groups names same later := by
  induction later with
  | nil => rfl
  | cons name later ih =>
    rw [pieces, groups]
    split
    · exact ih
    · rw [List.flatten_cons, ih]

/-- A group is what stands together with one of the names. -/
theorem exists_of_mem_pieces {names : List String} {same : String → String → Bool}
    {later component : List String} (h : component ∈ pieces names same later) :
    ∃ name ∈ later, component = names.filter (same name) := by
  induction later with
  | nil => exact absurd h List.not_mem_nil
  | cons name later ih =>
    rw [pieces] at h
    have hrest (h : component ∈ pieces names same later) :
        ∃ other ∈ name :: later, component = names.filter (same other) := by
      obtain ⟨other, hother, heq⟩ := ih h
      exact ⟨other, List.mem_cons_of_mem _ hother, heq⟩
    split at h
    · exact hrest h
    · rcases List.mem_cons.1 h with heq | h
      · exact ⟨name, List.mem_cons_self, heq⟩
      · exact hrest h

/-- A list without repetitions is sorted by the places in it, and so is every part of it. -/
theorem mergeSort_idxOf_filter {names : List String} (hnames : names.Nodup) (p : String → Bool) :
    ((names.filter p).mergeSort fun a b ↦ names.idxOf a ≤ names.idxOf b) = names.filter p := by
  refine List.mergeSort_of_pairwise ((List.pairwise_iff_getElem.2 fun i j hi hj hij ↦ ?_).sublist
    List.filter_sublist)
  rw [hnames.idxOf_getElem, hnames.idxOf_getElem]
  exact decide_eq_true hij.le

/-- The components in the order in which `ofModels` lists them. -/
def components (models : List Model) : List (List String) :=
  pieces (models.map Model.name)
    (together ((models.map Model.name).map fun name ↦ (name, reached models name)))
    (Visit.postorder (targets models) (models.length + 1) (models.map Model.name))

theorem flatten_components (models : List Model) :
    (components models).flatten = (ofModels models).order := flatten_pieces _ _ _

/-- A component holds the models that stand together with one of them, in the order of the
document. -/
theorem exists_of_mem_components {component : List String} (h : component ∈ components models) :
    ∃ head ∈ component, (∃ p, component = (models.map Model.name).filter p) ∧
      ∀ other, other ∈ component ↔ Together models head other := by
  obtain ⟨head, hvisited, rfl⟩ := exists_of_mem_pieces h
  have hhead : head ∈ models.map Model.name := mem_visitOrder_iff.1 hvisited
  have hmem (other : String) : other ∈ (models.map Model.name).filter (together
      ((models.map Model.name).map fun name ↦ (name, reached models name)) head) ↔
        Together models head other := by
    rw [List.mem_filter]
    constructor
    · rintro ⟨hother, hsame⟩
      exact (together_iff hhead hother).1 hsame
    · intro htogether
      have hother : other ∈ models.map Model.name := by
        rcases ReflTransGen.cases_tail htogether.1 with rfl | ⟨last, -, hedge⟩
        · exact hhead
        · exact targets_subset last hedge
      exact ⟨hother, (together_iff hhead hother).2 htogether⟩
  exact ⟨head, (hmem head).2 ⟨.refl, .refl⟩, ⟨_, rfl⟩, hmem⟩

/-- Two models are in one component if they lead to each other. -/
theorem mem_iff_of_mem_components {component : List String} (h : component ∈ components models)
    {name other : String} (hname : name ∈ component) :
    other ∈ component ↔ Together models name other := by
  obtain ⟨head, -, -, hmem⟩ := exists_of_mem_components h
  have htogether := (hmem name).1 hname
  rw [hmem]
  exact ⟨htogether.symm.trans, htogether.trans⟩

/-- What a component names in a later one would lead back, and so be in the component already. -/
theorem pairwise_components (hnames : (models.map Model.name).Nodup) :
    (components models).Pairwise fun component later ↦
      ∀ name ∈ component, ∀ other ∈ later, ¬Refers models name other := by
  have horder : (ofModels models).order.Pairwise fun a b ↦
      Refers models a b → Reaches models b a := pairwise_order
  have hnodup := nodup_order hnames
  rw [← flatten_components] at horder hnodup
  refine ((List.pairwise_flatten.1 horder).2.and (List.nodup_flatten.1 hnodup).2).imp_of_mem ?_
  intro component later hcomponent _ hrelated name hname other hother hrefers
  have hback := hrelated.1 name hname other hother hrefers
  exact hrelated.2 ((mem_iff_of_mem_components hcomponent hname).2 ⟨.single hrefers, hback⟩) hother

/-- **The order that is computed goes by components**, as a search may find them. -/
theorem listsComponents (hnames : (models.map Model.name).Nodup) :
    ListsComponents models (components models) where
  ne_nil component hcomponent := by
    obtain ⟨head, hhead, -⟩ := exists_of_mem_components hcomponent
    exact List.ne_nil_of_mem hhead
  perm := by
    rw [flatten_components]
    exact (List.perm_ext_iff_of_nodup (nodup_order hnames) hnames).2 fun _ ↦ mem_order_iff
  mem_iff component hcomponent name hname other := by
    rw [names_eq_refers hnames]
    exact mem_iff_of_mem_components hcomponent hname
  not_names_later := by
    rw [names_eq_refers hnames]
    exact pairwise_components hnames

/-- **The graph is read off its components**, in an order in which they may be found; and read off
components that are found in another order, it has the same recursive models. -/
theorem ofModels_eq_ofComponents (hnames : (models.map Model.name).Nodup) :
    (∃ found, ListsComponents models found ∧ ofModels models = ofComponents models found) ∧
      ∀ found, ListsComponents models found →
        (ofComponents models found).recursive = (ofModels models).recursive := by
  refine ⟨⟨components models, listsComponents hnames, ?_⟩, fun _ h ↦ h.recursive_eq hnames⟩
  have hrecursive := (listsComponents hnames).recursive_eq hnames
  have hsorted : (components models).map (fun component ↦ component.mergeSort fun a b ↦
      (models.map Model.name).idxOf a ≤ (models.map Model.name).idxOf b) = components models := by
    refine (List.map_congr_left fun component hcomponent ↦ ?_).trans (List.map_id _)
    obtain ⟨-, -, ⟨p, rfl⟩, -⟩ := exists_of_mem_components hcomponent
    exact mergeSort_idxOf_filter hnames p
  have horder : (ofComponents models (components models)).order = (ofModels models).order := by
    rw [ofComponents, hsorted, flatten_components]
  show _ = ModelGraph.mk (ofComponents models (components models)).recursive
    (ofComponents models (components models)).order
  rw [hrecursive, horder]

/-! ### The order of declaration -/

/-- A model that is named and does not lead back stands in front. -/
theorem idxOf_lt_idxOf_of_names (hnames : (models.map Model.name).Nodup) {name other : String}
    (hname : Names models name other) (hback : ¬TransGen (Names models) other name) :
    (ofModels models).order.idxOf other < (ofModels models).order.idxOf name := by
  have hne : name ≠ other := fun heq ↦ hback (.single (heq ▸ hname))
  obtain ⟨model, hmodel, rfl, -, hother⟩ := id hname
  have hfirst : (ofModels models).order.idxOf model.name < (ofModels models).order.length :=
    List.idxOf_lt_length_of_mem (mem_order_iff.2 (List.mem_map_of_mem hmodel))
  have hsecond : (ofModels models).order.idxOf other < (ofModels models).order.length :=
    List.idxOf_lt_length_of_mem (mem_order_iff.2 hother)
  rw [names_eq_refers hnames] at hname hback
  rcases Nat.lt_trichotomy ((ofModels models).order.idxOf other)
    ((ofModels models).order.idxOf model.name) with hlt | heq | hgt
  · exact hlt
  · exact absurd ((List.idxOf_inj (mem_order_iff.2 hother)).1 heq).symm hne
  · -- in front of what it names, it would be led back to
    have hreaches := List.pairwise_iff_getElem.1 pairwise_order _ _ hfirst hsecond hgt
    rw [List.getElem_idxOf, List.getElem_idxOf] at hreaches
    exact absurd ((Relation.reflTransGen_iff_eq_or_transGen.1 (hreaches hname)).resolve_left hne)
      hback

/-- **The declaration order follows the names.** It lists every model once; what a model names
stands in front of it, unless it leads back to the model; and the models that lead to each other
stand together, in the order of the document. -/
theorem order_follows_names (hnames : (models.map Model.name).Nodup) :
    (ofModels models).order.Perm (models.map Model.name) ∧
      (∀ name other, Names models name other → ¬TransGen (Names models) other name →
        (ofModels models).order.idxOf other < (ofModels models).order.idxOf name) ∧
      ∀ name ∈ models.map Model.name, ∃ component : List String,
        component <:+: (ofModels models).order ∧ component.Sublist (models.map Model.name) ∧
          ∀ other, other ∈ component ↔
            ReflTransGen (Names models) name other ∧ ReflTransGen (Names models) other name := by
  refine ⟨?_, fun _ _ ↦ idxOf_lt_idxOf_of_names hnames, fun name hname ↦ ?_⟩
  · exact (List.perm_ext_iff_of_nodup (nodup_order hnames) hnames).2 fun _ ↦ mem_order_iff
  · obtain ⟨component, hcomponent, hmember⟩ :=
      List.mem_flatten.1 ((listsComponents hnames).perm.mem_iff.2 hname)
    refine ⟨component, flatten_components models ▸ List.infix_of_mem_flatten hcomponent, ?_,
      (listsComponents hnames).mem_iff component hcomponent name hmember⟩
    obtain ⟨-, -, ⟨p, rfl⟩, -⟩ := exists_of_mem_components hcomponent
    exact List.filter_sublist

/-- A cycle in the middle of an order. -/
theorem order_follows_names_orderModels :
    (orderModels.map Model.name).Nodup ∧
      (ofModels orderModels).order = ["customer", "ping", "pong", "order", "category"] ∧
      Names orderModels "ping" "customer" ∧ ¬TransGen (Names orderModels) "customer" "ping" ∧
      (ofModels orderModels).order.idxOf "customer" < (ofModels orderModels).order.idxOf "ping" ∧
      "ping" ∈ orderModels.map Model.name ∧
      ∃ component : List String, component <:+: (ofModels orderModels).order ∧
        component.Sublist (orderModels.map Model.name) ∧
        ∀ other, other ∈ component ↔ ReflTransGen (Names orderModels) "ping" other ∧
          ReflTransGen (Names orderModels) other "ping" := by
  have hnames : (orderModels.map Model.name).Nodup := by decide +kernel
  have hping : "ping" ∈ orderModels.map Model.name := by decide +kernel
  have hnamed : Names orderModels "ping" "customer" :=
    ⟨_, List.mem_cons_self, rfl, NameSet.contains_iff.1 (by decide +kernel), by decide +kernel⟩
  have hback : ¬TransGen (Names orderModels) "customer" "ping" := by
    rw [names_eq_refers hnames]
    intro hcircle
    have hnone : targets orderModels "customer" = [] := by decide +kernel
    obtain ⟨next, hnext, -⟩ := TransGen.head'_iff.1 hcircle
    rw [Refers, Visit.Edge, hnone] at hnext
    exact absurd hnext List.not_mem_nil
  obtain ⟨-, hdependencies, hcomponents⟩ := order_follows_names hnames
  exact ⟨hnames, by decide +kernel, hnamed, hback, hdependencies _ _ hnamed hback, hping,
    hcomponents "ping" hping⟩

end ModelGraph

end ApiContract
