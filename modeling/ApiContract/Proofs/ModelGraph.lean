import ApiContract.Proofs.Visit

/-!
# Recursive models and the order of declaration

The facts that `ModelGraph.ofModels` is computed for, against the relation `Refers` that it is
computed from.

## Main results

* `mem_recursive_iff`: a model is recursive exactly when it refers to itself, at once or through
  others.
* `mem_order_iff` and `nodup_order`: the order lists every model, and only once if names are
  distinct.
* `pairwise_order`: the order puts what a model refers to in front of it, unless that leads back to
  the model.

## Proof

Recursion needs only what a visit from one model reaches, and that is the transitive closure of the
references (`mem_reached_iff`, from `Visit`). The order is read off the depth-first visit of all
models in two steps. `groups` replaces the node of a group that is finished last by the whole group,
and `Visit.mem_of_settled_of_last` says that nothing the group leads to comes later. Two models are
in a group if each reaches the other (`Together`), an equivalence on the models.

The induction for the order is on the part of the visit that is left, and the part that is passed is
settled: whatever a node of it leads to is in it too, or leads back to the node (`Visit.Settled`).

The next module states the same in terms of what schemas name, and relates the graph to its
components.
-/

namespace ApiContract.ModelGraph

variable {models : List Model}

/-- A model refers to a model. -/
abbrev Refers (models : List Model) : String → String → Prop := Visit.Edge (targets models)

/-- A model refers to a model through any number of others, or is that model. -/
abbrev Reaches (models : List Model) : String → String → Prop := Visit.Reaches (targets models)

/-! ### The references of a model -/

/-- What a model refers to is named in the schema of a model with that name, and is a model. -/
theorem mem_targets {name target : String} (h : target ∈ targets models name) :
    ∃ model ∈ models, model.name = name ∧ target ∈ model.schema.referencedNames ∧
      target ∈ models.map Model.name := by
  unfold targets at h
  split at h
  · exact absurd h List.not_mem_nil
  · next model hfind =>
    rw [List.mem_reverse, List.mem_filter] at h
    obtain ⟨href, hknown⟩ := h
    obtain ⟨other, hother, hname⟩ := List.any_eq_true.1 hknown
    refine ⟨model, List.mem_reverse.1 (List.mem_of_find?_eq_some hfind), ?_, href, ?_⟩
    · simpa using List.find?_some hfind
    · exact List.mem_map.2 ⟨other, hother, beq_iff_eq.1 hname⟩

theorem targets_subset (name : String) : targets models name ⊆ models.map Model.name :=
  fun _ h ↦ (mem_targets h).choose_spec.2.2.2

/-- Where names are distinct, a model refers to the models that its schema names. -/
theorem mem_targets_iff (hnames : (models.map Model.name).Nodup) {model : Model}
    (hmodel : model ∈ models) {target : String} :
    target ∈ targets models model.name ↔
      target ∈ model.schema.referencedNames ∧ target ∈ models.map Model.name := by
  constructor
  · intro h
    obtain ⟨other, hother, hname, href, hknown⟩ := mem_targets h
    rw [List.inj_on_of_nodup_map hnames hother hmodel hname] at href
    exact ⟨href, hknown⟩
  · rintro ⟨href, hknown⟩
    obtain ⟨known, hmem, rfl⟩ := List.mem_map.1 hknown
    have hsome : (models.reverse.find? fun m ↦ m.name == model.name).isSome :=
      List.find?_isSome.2 ⟨model, List.mem_reverse.2 hmodel, by simp⟩
    obtain ⟨found, hfind⟩ := Option.isSome_iff_exists.1 hsome
    have hfound : found = model :=
      List.inj_on_of_nodup_map hnames (List.mem_reverse.1 (List.mem_of_find?_eq_some hfind))
        hmodel (by simpa using List.find?_some hfind)
    simp only [targets, hfind, hfound, List.mem_reverse, List.mem_filter]
    exact ⟨href, List.any_eq_true.2 ⟨known, hmem, by simp⟩⟩

theorem targets_closed (models : List Model) :
    ∀ x ∈ models.map Model.name, targets models x ⊆ models.map Model.name :=
  fun x _ ↦ targets_subset x

/-! ### Recursive models -/

/-- What is reached from a model is what it refers to, at once or through others. -/
theorem mem_reached_iff {name other : String} :
    other ∈ reached models name ↔ Relation.TransGen (Refers models) name other := by
  have hvisit := Visit.mem_postorder_iff (targets_closed models) (targets_subset name) (x := other)
  rw [List.length_map] at hvisit
  rw [reached, hvisit, Relation.TransGen.head'_iff]
  rfl

/-- A table that was made for some names holds what it was made of. -/
theorem lookup_map_self {α : Type} (f : String → α) {names : List String} {name : String}
    (h : name ∈ names) : (names.map fun n ↦ (n, f n)).lookup name = some (f name) := by
  induction names with
  | nil => exact absurd h List.not_mem_nil
  | cons head tail ih =>
    rw [List.map_cons, List.lookup_cons]
    by_cases heq : name = head
    · simp [heq]
    · rw [show (name == head) = false from beq_eq_false_iff_ne.2 heq]
      exact ih ((List.mem_cons.1 h).resolve_left heq)

/-- **Recursive models are those on a cycle of references.** -/
theorem mem_recursive_iff {name : String} :
    name ∈ (ofModels models).recursive ↔ Relation.TransGen (Refers models) name name := by
  rw [ofModels, NameSet.mem_ofList, List.mem_filter]
  constructor
  · rintro ⟨hname, hreached⟩
    rw [lookup_map_self _ hname] at hreached
    exact mem_reached_iff.1 (by simpa using hreached)
  · intro hcycle
    obtain ⟨next, hedge, -⟩ := Relation.TransGen.head'_iff.1 hcycle
    obtain ⟨model, hmodel, rfl, -⟩ := mem_targets hedge
    have hname : model.name ∈ models.map Model.name := List.mem_map_of_mem hmodel
    refine ⟨hname, ?_⟩
    rw [lookup_map_self _ hname]
    simpa using mem_reached_iff.2 hcycle

/-- A model that is referred to and leads back is recursive. -/
theorem mem_recursive_of_reaches {name other : String} (h : Refers models name other)
    (hback : Reaches models other name) : other ∈ (ofModels models).recursive :=
  mem_recursive_iff.2 (Relation.TransGen.tail' hback h)

/-! ### The order of declaration -/

/-- Two models lead to each other, or are the same. -/
def Together (models : List Model) (a b : String) : Prop := Reaches models a b ∧ Reaches models b a

theorem Together.symm {a b : String} (h : Together models a b) : Together models b a := ⟨h.2, h.1⟩

theorem Together.trans {a b c : String} (hab : Together models a b) (hbc : Together models b c) :
    Together models a c :=
  ⟨hab.1.trans hbc.1, hbc.2.trans hab.2⟩

section Groups

variable (models) in
/-- What every model reaches, as `ofModels` tabulates it. -/
private abbrev reachTable : List (String × List String) :=
  (models.map Model.name).map fun name ↦ (name, reached models name)

/-- The table tells which models lead to each other. -/
theorem together_iff {a b : String} (ha : a ∈ models.map Model.name)
    (hb : b ∈ models.map Model.name) :
    together (reachTable models) a b = true ↔ Together models a b := by
  have hmem : ∀ {x y : String}, (reached models x).contains y = true ↔
      Relation.TransGen (Refers models) x y := fun {x y} ↦ by
    rw [← mem_reached_iff]; simp
  rw [together, lookup_map_self _ ha, lookup_map_self _ hb, Option.getD_some, Option.getD_some,
    Bool.or_eq_true, Bool.and_eq_true, hmem, hmem, beq_iff_eq]
  constructor
  · rintro (rfl | ⟨hab, hba⟩)
    · exact ⟨.refl, .refl⟩
    · exact ⟨hab.to_reflTransGen, hba.to_reflTransGen⟩
  · rintro ⟨hab, hba⟩
    rcases Relation.reflTransGen_iff_eq_or_transGen.1 hab with heq | hab
    · exact Or.inl heq.symm
    · rcases Relation.reflTransGen_iff_eq_or_transGen.1 hba with heq | hba
      · exact Or.inl heq
      · exact Or.inr ⟨hab, hba⟩

/-- No later node stands together with the head. -/
theorem not_together_of_any_eq_false {head : String} {later : List String}
    (hsub : head :: later ⊆ models.map Model.name)
    (hany : ¬ later.any (together (reachTable models) head) = true) :
    ∀ y ∈ later, ¬ Together models head y := by
  obtain ⟨hhead, hlater⟩ := List.cons_subset.1 hsub
  intro y hy htogether
  exact hany (List.any_eq_true.2 ⟨y, hy, (together_iff hhead (hlater hy)).2 htogether⟩)

/-- A model is listed when the rest of the visit holds one that stands together with it. -/
theorem mem_groups_iff {later : List String} (hsub : later ⊆ models.map Model.name) {x : String} :
    x ∈ groups (models.map Model.name) (together (reachTable models)) later ↔
      x ∈ models.map Model.name ∧ ∃ y ∈ later, Together models y x := by
  induction later with
  | nil => simp [groups]
  | cons head later ih =>
    obtain ⟨hhead, hlater⟩ := List.cons_subset.1 hsub
    rw [groups]
    split
    · next hany =>
      -- The head is left to a later member of its group, which stands for it.
      obtain ⟨y, hy, hsame⟩ := List.any_eq_true.1 hany
      have hheady := (together_iff hhead (hlater hy)).1 hsame
      rw [ih hlater]
      refine and_congr_right fun _ ↦ ⟨?_, ?_⟩
      · rintro ⟨z, hz, hzx⟩
        exact ⟨z, List.mem_cons_of_mem _ hz, hzx⟩
      · rintro ⟨z, hz, hzx⟩
        rcases List.mem_cons.1 hz with rfl | hz
        · exact ⟨y, hy, hheady.symm.trans hzx⟩
        · exact ⟨z, hz, hzx⟩
    · rw [List.mem_append, List.mem_filter, ih hlater]
      constructor
      · rintro (⟨hx, hsame⟩ | ⟨hx, y, hy, hyx⟩)
        · exact ⟨hx, head, List.mem_cons_self, (together_iff hhead hx).1 hsame⟩
        · exact ⟨hx, y, List.mem_cons_of_mem _ hy, hyx⟩
      · rintro ⟨hx, y, hy, hyx⟩
        rcases List.mem_cons.1 hy with rfl | hy
        · exact Or.inl ⟨hx, (together_iff hhead hx).2 hyx⟩
        · exact Or.inr ⟨hx, y, hy, hyx⟩

/-- No model is listed twice. -/
theorem nodup_groups (hnames : (models.map Model.name).Nodup) {later : List String}
    (hsub : later ⊆ models.map Model.name) :
    (groups (models.map Model.name) (together (reachTable models)) later).Nodup := by
  induction later with
  | nil => exact List.nodup_nil
  | cons head later ih =>
    obtain ⟨hhead, hlater⟩ := List.cons_subset.1 hsub
    rw [groups]
    split
    · exact ih hlater
    · next hany =>
      refine List.Nodup.append (hnames.filter _) (ih hlater) fun x hx hgroups ↦ ?_
      obtain ⟨hx, hsame⟩ := List.mem_filter.1 hx
      obtain ⟨-, y, hy, hyx⟩ := (mem_groups_iff hlater).1 hgroups
      exact not_together_of_any_eq_false hsub hany y hy
        (((together_iff hhead hx).1 hsame).trans hyx.symm)

/-- A name is the last of its group if none of the later ones is in it; then all that it leads to
has been passed. -/
theorem mem_of_reaches_last {head : String} {later passed : List String}
    (hsettled : Visit.Settled (targets models) (head :: passed))
    (hall : ∀ x, x ∈ models.map Model.name ↔ x ∈ later.reverse ++ head :: passed)
    (hsub : head :: later ⊆ models.map Model.name)
    (hany : ¬later.any (together (reachTable models) head) = true) :
    ∀ y, Reaches models head y → y ∈ head :: passed := by
  refine Visit.mem_of_settled_of_last hsettled fun y hhy hyh ↦ ?_
  have hy : y ∈ models.map Model.name := by
    rcases Relation.ReflTransGen.cases_tail hhy with heq | ⟨w, -, hedge⟩
    · exact heq ▸ hsub List.mem_cons_self
    · exact targets_subset w hedge
  rcases List.mem_append.1 ((hall y).1 hy) with hy | hy
  · exact absurd ⟨hhy, hyh⟩ (not_together_of_any_eq_false hsub hany y (List.mem_reverse.1 hy))
  · exact hy

/-- **What is listed later is not referred to, or leads back.** The visit so far is `passed`, with
the node finished last in front. -/
theorem pairwise_groups {later passed : List String}
    (hsettled : Visit.Settled (targets models) (later.reverse ++ passed))
    (hnodup : (later.reverse ++ passed).Nodup)
    (hall : ∀ x, x ∈ models.map Model.name ↔ x ∈ later.reverse ++ passed) :
    (groups (models.map Model.name) (together (reachTable models)) later).Pairwise
      fun a b ↦ Refers models a b → Reaches models b a := by
  induction later generalizing passed with
  | nil => exact List.Pairwise.nil
  | cons head later ih =>
    rw [List.reverse_cons, List.append_assoc, List.singleton_append] at hsettled hnodup hall
    have hsub : head :: later ⊆ models.map Model.name := fun x hx ↦ (hall x).2 (by
      rw [List.mem_append, List.mem_reverse, List.mem_cons]
      rcases List.mem_cons.1 hx with hx | hx
      · exact Or.inr (Or.inl hx)
      · exact Or.inl hx)
    obtain ⟨hhead, hlater⟩ := List.cons_subset.1 hsub
    rw [groups]
    split
    · exact ih hsettled hnodup hall
    · next hany =>
      have hgroup : ∀ {x : String}, x ∈ (models.map Model.name).filter
          (together (reachTable models) head) → Together models head x := fun hx ↦
        (together_iff hhead (List.mem_filter.1 hx).1).1 (List.mem_filter.1 hx).2
      -- Here the head closes its group, and all that it leads to has been passed.
      have hpassed := mem_of_reaches_last hsettled.of_append hall hsub hany
      refine List.pairwise_append.2 ⟨?_, ih hsettled hnodup hall, fun a ha b hb hedge ↦ ?_⟩
      · exact List.pairwise_of_forall_mem_list fun a ha b hb _ ↦
          ((hgroup hb).symm.trans (hgroup ha)).1
      · obtain ⟨-, y, hy, hyb⟩ := (mem_groups_iff hlater).1 hb
        have hreach : Reaches models head y := ((hgroup ha).1.tail hedge).trans hyb.2
        exact absurd (hpassed y hreach)
          (List.disjoint_of_nodup_append hnodup (List.mem_reverse.2 hy))

end Groups

/-! ### The order that `ofModels` computes -/

/-- The visit of all models, as `ofModels` makes it. -/
private abbrev visitOrder (models : List Model) : List String :=
  Visit.postorder (targets models) (models.length + 1) (models.map Model.name)

/-- The visit passes exactly the models. -/
theorem mem_visitOrder_iff {x : String} :
    x ∈ visitOrder models ↔ x ∈ models.map Model.name := by
  have hvisit := Visit.mem_postorder_iff (targets_closed models) (List.Subset.refl _) (x := x)
  rw [List.length_map] at hvisit
  rw [hvisit]
  constructor
  · rintro ⟨name, hname, hpath⟩
    rcases Relation.ReflTransGen.cases_tail hpath with rfl | ⟨w, -, hedge⟩
    · exact hname
    · exact targets_subset w hedge
  · exact fun hx ↦ ⟨x, hx, .refl⟩

/-- **The order lists exactly the models.** -/
theorem mem_order_iff {x : String} :
    x ∈ (ofModels models).order ↔ x ∈ models.map Model.name := by
  rw [ofModels, mem_groups_iff fun x hx ↦ mem_visitOrder_iff.1 hx]
  exact ⟨And.left, fun hx ↦ ⟨hx, x, mem_visitOrder_iff.2 hx, .refl, .refl⟩⟩

/-- **The order lists no model twice.** -/
theorem nodup_order (hnames : (models.map Model.name).Nodup) : (ofModels models).order.Nodup :=
  nodup_groups hnames fun _ hx ↦ mem_visitOrder_iff.1 hx

/-- **What a model refers to stands in front of it, unless it leads back to the model.** -/
theorem pairwise_order :
    (ofModels models).order.Pairwise fun a b ↦ Refers models a b → Reaches models b a := by
  have hnodup := Visit.nodup_postorder (targets_closed models) (List.Subset.refl _)
  have hsettled := Visit.settled_reverse_postorder (targets_closed models) (List.Subset.refl _)
  rw [List.length_map] at hnodup hsettled
  refine @pairwise_groups models (visitOrder models) [] ?_ ?_ fun x ↦ ?_
  · rwa [List.append_nil]
  · rw [List.append_nil]
    exact List.nodup_reverse.2 hnodup
  · rw [List.append_nil, List.mem_reverse]
    exact mem_visitOrder_iff.symm

end ApiContract.ModelGraph
