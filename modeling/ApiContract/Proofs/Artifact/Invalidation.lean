import ApiContract.Proofs.Artifact.QueryKeys

/-!
# What mutations invalidate

The key of a query begins with its tag and its id, and the key of a tag is the tag alone. So the key
of a tag is the beginning of the keys of its own queries and of no others, and the keys of two
queries differ in their first two items (`KeysApart`). A mutation invalidates what begins with the
key that it finds for its tag.

## What can go wrong

The key is found under a name of the tag, in an object whose later entries hide earlier ones. It is
the key of the tag unless something else has taken its place: another tag with the same name in
camel case, or a query of the tag with the id `all`. `IsVisible` says that nothing has.

## Main result

`invalidation_reaches_iff`: whenever the hooks of a contract can be made, the hook of each mutation
invalidates one key. It reaches each query of its own tag exactly if the key of the tag is visible,
and then it reaches no query of another tag.

## Proof

Keys are compared as the arrays that they are when they are built (`Expr.builtItems?`), by their
leading items (`BeginsWith`). What is found for a mutation is a value along a path in the object of
keys, and `Proofs.Artifact.QueryKeys` says which entry that is. If the entry is not that of the tag,
it is the key of another tag, which is no beginning of the query's key, or the builder of a query's
key, which is no array at all.

Two tags that differ in a capital, and a mutation that reaches a query of the other tag only, are at
the end.
-/

namespace ApiContract.HooksModule

open TypeScript

/-! ### The items of keys -/

/-- The array that a key is, or is built as, begins with the items of another one. -/
def BeginsWith (key front : Expr) : Prop :=
  ∃ items shared, key.builtItems? = some items ∧ front.items? = some shared ∧ shared <+: items

theorem builtItems?_keyFunction (op : Operation) :
    (keyFunction (.standard op)).builtItems? =
      some (.text op.primaryTag :: .text op.id :: arguments (.standard op)) := rfl

theorem text_injective : Function.Injective Expr.text := fun _ _ h ↦
  Json.string.inj (Expr.literal.inj h)

/-- **The key of a query begins with that of its tag**, and with that of no other. -/
theorem beginsWith_tag_iff {op : Operation} {g : OperationGroup} :
    BeginsWith (keyFunction (.standard op)) (entryValue g none) ↔ g.tag = op.primaryTag := by
  have hfront : (entryValue g none).items? = some [.text g.tag] := rfl
  constructor
  · rintro ⟨items, shared, hitems, hshared, hprefix⟩
    obtain rfl := Option.some.inj ((builtItems?_keyFunction op).symm.trans hitems)
    obtain rfl := Option.some.inj (hfront.symm.trans hshared)
    exact text_injective (List.cons_prefix_cons.1 hprefix).1
  · intro htag
    refine ⟨_, _, builtItems?_keyFunction op, hfront, ?_⟩
    rw [htag]
    exact List.cons_prefix_cons.2 ⟨rfl, List.nil_prefix⟩

/-- A function has to be called for its items, so the key of a query is not the beginning of any. -/
theorem not_beginsWith_query {key : Expr} {g : OperationGroup} {op : Operation} :
    ¬BeginsWith key (entryValue g (some op)).withoutConst := by
  rintro ⟨_, shared, -, hshared, -⟩
  exact absurd hshared nofun

/-! ### What is found under the key of a tag -/

/-- What is invalidated under a path of the keys reaches a key: it is found, and the key begins with
it. -/
def Reaches (plan : Plan) (path : List String) (key : Expr) : Prop :=
  ∃ found, (keysValue plan).valueAt? path = some found ∧ BeginsWith key found

/-- What is found in the keys is the value of an entry of a group. -/
theorem exists_of_valueAt?_keysValue {plan : Plan} {key name : String} {found : Expr}
    (h : (keysValue plan).valueAt? [key, name] = some found) :
    ∃ g ∈ plan.groups, ∃ entry ∈ entriesOf g, found = (entryValue g entry).withoutConst := by
  rw [Expr.valueAt?] at h
  split at h
  · obtain ⟨value, hvalue, hfound⟩ := Option.bind_eq_some_iff.1 h
    rw [property?_keysValue, ← List.map_reverse, lookup_map_eq_find?] at hvalue
    obtain ⟨g, hg, rfl⟩ := Option.map_eq_some_iff.1 hvalue
    have hname : Identifier.isPlainProperty name = true := by
      by_contra hnot
      rw [Expr.valueAt?, if_neg hnot] at hfound
      exact absurd hfound.symm (Option.some_ne_none _)
    obtain ⟨entry, hentry, heq⟩ := exists_of_valueAt?_groupKeys hname hfound
    exact ⟨g, List.mem_reverse.1 (List.mem_of_find?_eq_some hg), entry, hentry, heq⟩
  · exact absurd h.symm (Option.some_ne_none _)

/-- A query is reached exactly from the key of its tag. -/
theorem reaches_query_iff {plan : Plan} {key name : String} {query : Operation} :
    Reaches plan [key, name] (keyFunction (.standard query)) ↔
      (keysValue plan).valueAt? [key, name] = some (.array [.text query.primaryTag]) := by
  constructor
  · rintro ⟨found, hfound, hbegins⟩
    obtain ⟨g, -, entry, -, rfl⟩ := exists_of_valueAt?_keysValue hfound
    cases entry with
    | none =>
      have htag : g.tag = query.primaryTag := beginsWith_tag_iff.1 hbegins
      rw [hfound, ← htag]
      rfl
    | some op => exact absurd hbegins not_beginsWith_query
  · intro hfound
    exact ⟨_, hfound, beginsWith_tag_iff.2 (Eq.refl (OperationGroup.mk query.primaryTag []).tag)⟩

/-! ### Hooks -/

/-- The hook of a mutation invalidates what it finds under a path of the keys. -/
structure InvalidatesAt (op : Operation) (path : List String) (hook : Declaration) : Prop where
  name : hook.functionName? = some ("use" ++ typeName op.id)
  use : ∃ use key, hook.uses "queryClient" = [use] ∧ use.path = ["invalidateQueries"] ∧
    use.arguments = some [.object [.keyed "queryKey" key]] ∧ key.path? "queryKeys" = some path

/-- What a mutation invalidates are the queries of its tag, exactly if the key of the tag is not
hidden by something else. -/
structure ReachesOwn (plan : Plan) (g : OperationGroup) (op : Operation) (path : List String) :
    Prop where
  /-- A query of its own tag is reached if the key of the tag is visible, and only then. -/
  own : ∀ query ∈ g.operations, query.method.isRead = true →
    (Reaches plan path (keyFunction (.standard query)) ↔ IsVisible plan g op)
  /-- No query of another tag is then reached. -/
  other : IsVisible plan g op → ∀ g' ∈ plan.groups, g' ≠ g → ∀ query ∈ g'.operations,
    query.method.isRead = true → ¬Reaches plan path (keyFunction (.standard query))

section

variable {spec : Spec} {options : RenderOptions} {plan : Plan}
  (hplan : Plan.ofSpec spec options = .ok plan)
  (hnames : ∀ op ∈ plan.operations, typeName op.id ≠ "") {g : OperationGroup}
  (hg : g ∈ plan.groups)

include hplan hnames hg

/-- **A mutation reaches the queries of its tag exactly if the key of the tag is visible.** -/
theorem reachesOwn {op : Operation} (hop : op ∈ g.operations)
    (hmutation : op.method.isRead = false) :
    ReachesOwn plan g op [tagKey g.tag, "all"] := by
  have hvisible : (keysValue plan).valueAt? [tagKey g.tag, "all"] = some (.array [.text g.tag]) ↔
      IsVisible plan g op := by
    have hiff := valueAt?_keysValue_iff hplan hnames hg hop
    rwa [soughtEntry, meantKey, hmutation, if_neg Bool.false_ne_true, if_neg Bool.false_ne_true]
      at hiff
  constructor
  case own =>
    intro query hquery _
    rw [reaches_query_iff, Plan.primaryTag_of_mem_operations hplan hg hquery, hvisible]
  case other =>
    intro hop g' hg' hne query hquery _ hreaches
    rw [reaches_query_iff, Plan.primaryTag_of_mem_operations hplan hg' hquery,
      hvisible.2 hop, Option.some.injEq, Expr.array.injEq, List.cons.injEq] at hreaches
    have htag : g.tag = g'.tag := text_injective hreaches.1
    exact hne (List.inj_on_of_nodup_map (Plan.nodup_tags hplan) hg' hg htag.symm)

end

/-- The key of a mutation's tag is what its hook invalidates. -/
theorem IsMutation.invalidatesAt {key : String} {op : Operation} {hook : Declaration}
    (h : IsMutation key (.standard op) hook) : InvalidatesAt op [key, "all"] hook where
  name := h.name
  use := ⟨_, _, h.invalidation, rfl, rfl, rfl⟩

/-- The keys are laid out by tag, and told apart by it. -/
structure KeysApart (plan : Plan) : Prop where
  groups : (keysValue plan).fields? =
    some (plan.groups.map fun g ↦ (tagKey g.tag, groupKeys g))
  entries : ∀ g ∈ plan.groups, (groupKeys g).fields? =
    some ((entriesOf g).map fun entry ↦ (entryKey entry, entryValue g entry))
  /-- The key of a query begins with the key of its own tag only. -/
  begins : ∀ g ∈ plan.groups, ∀ op ∈ g.operations, op.method.isRead = true →
    ∀ other ∈ plan.groups,
      (BeginsWith (entryValue g (some op)) (entryValue other none) ↔ other = g)
  /-- The keys of two queries differ in their first two items. -/
  distinct : ((plan.operations.filter fun op ↦ op.method.isRead).map fun op ↦
    (keyFunction (.standard op)).builtItems?.map (List.take 2)).Nodup

/-- The keys of a plan's queries are laid out by tag and told apart by it. -/
theorem keysApart {spec : Spec} {options : RenderOptions} {plan : Plan}
    (hplan : Plan.ofSpec spec options = .ok plan)
    (hnames : ∀ op ∈ plan.operations, typeName op.id ≠ "") : KeysApart plan := by
  constructor
  case groups => exact fields?_keysValue plan
  case entries => exact fun g _ ↦ fields?_groupKeys g
  case begins =>
    intro g hg op hop _ other hother
    have hkey : entryValue g (some op) = keyFunction (.standard op) := rfl
    rw [hkey, beginsWith_tag_iff, Plan.primaryTag_of_mem_operations hplan hg hop]
    exact ⟨List.inj_on_of_nodup_map (Plan.nodup_tags hplan) hother hg, congrArg _⟩
  case distinct =>
    have hperm := Plan.perm_operations hplan
    have hids : (plan.operations.map Operation.id).Nodup :=
      (hperm.map _).nodup_iff.2 <| Plan.nodup_ids (Plan.ofSpec_eq_ok_iff.1 hplan).1 fun op hop ↦
        hnames op (hperm.symm.subset hop)
    refine List.pairwise_map.2 <|
      ((List.pairwise_map.1 hids).filter _).imp fun {op other} hne heq ↦ ?_
    rw [builtItems?_keyFunction, builtItems?_keyFunction] at heq
    simp only [Option.map_some, List.take_succ_cons, List.take_zero, Option.some.injEq,
      List.cons.injEq, and_true] at heq
    exact hne (text_injective heq.2)

/-- **A mutation reaches exactly the queries of its tag, unless the key of the tag is hidden.**
Whenever the hooks of a contract can be made, the key of each query begins with the key of its own
tag and of no other, and no two queries share the first two items of their keys. The hook of each
mutation invalidates one key. This reaches a query of its tag exactly if nothing hides the key of
the tag, and then it reaches no query of another tag. -/
theorem invalidation_reaches_iff {spec : Spec} {options : RenderOptions} {text : String}
    (h : spec.render .reactQuery options .standard = .ok text) :
    ∃ plan hooks, Plan.ofSpec spec options = .ok plan ∧
      declarations plan .standard = .ok hooks ∧ text = printModule hooks ∧
      keysDeclaration plan ∈ hooks ∧ KeysApart plan ∧
      ∀ g ∈ plan.groups, ∀ op ∈ g.operations, op.method.isRead = false →
        ∃ hook ∈ hooks, ∃ path, InvalidatesAt op path hook ∧ ReachesOwn plan g op path := by
  obtain ⟨plan, hooks, hplan, hhooks, htext⟩ := render_reactQuery_eq_ok_iff.1 h
  have hnames := typeName_ne_of_declarations_eq_ok hhooks
  have hmodule := isModuleOf_of_declarations_eq_ok hhooks
  refine ⟨plan, hooks, hplan, hhooks, htext, hmodule.keys, keysApart hplan hnames,
    fun g hg op hop hmutation ↦ ?_⟩
  obtain ⟨hook, hhook, hsubset⟩ := hmodule.hooks g hg op hop
  cases hhook with
  | query hread => exact absurd (hread.symm.trans hmutation) nofun
  | mutation _ hfunction =>
    exact ⟨_, hsubset (List.mem_cons_of_mem _ (List.mem_singleton_self _)), _,
      hfunction.invalidatesAt, reachesOwn hplan hnames hg hop hmutation⟩

/-- A query of a tag. -/
def listPets : Operation := { serverQuery "listPets" "/pets" with tags := ["Pets"] }

/-- A mutation of the same tag. -/
def addPet : Operation := { listPets with id := "addPet", method := .post }

/-- A query of another tag, which is told apart by a capital only. -/
def countPets : Operation := { serverQuery "countPets" "/pets/count" with tags := ["pets"] }

/-- A contract with the three. -/
def adoptionsSpec : Spec := .bare "Adoptions" [listPets, addPet, countPets] []

theorem ofSpec_adoptionsSpec : Plan.ofSpec adoptionsSpec {} = .ok (.make adoptionsSpec {}) :=
  Plan.ofSpec_eq_ok_iff.2 ⟨Option.isNone_iff_eq_none.1 (by decide +kernel), rfl⟩

theorem exists_hooks_adoptionsSpec : ∃ hooks,
    declarations (.make adoptionsSpec {}) .standard = .ok hooks ∧
      adoptionsSpec.render .reactQuery {} .standard = .ok (printModule hooks) := by
  have hnames : ∀ op ∈ (Plan.make adoptionsSpec {}).operations, typeName op.id ≠ "" := by
    decide +kernel
  obtain ⟨hooks, hhooks, -⟩ := exists_declarations hnames
  exact ⟨hooks, hhooks, render_reactQuery_eq_ok_iff.2 ⟨_, hooks, ofSpec_adoptionsSpec, hhooks, rfl⟩⟩

/-- The group of one of the tags. -/
def adoptionsGroup (tag : String) : OperationGroup :=
  ⟨tag, adoptionsSpec.operations.filter fun op ↦ op.primaryTag == tag⟩

theorem groups_adoptionsSpec :
    (Plan.make adoptionsSpec {}).groups = [adoptionsGroup "Pets", adoptionsGroup "pets"] := by
  have htags : (NameSet.ofList (adoptionsSpec.operations.map Operation.primaryTag)).toList =
      ["Pets", "pets"] := by decide +kernel
  have hgroups : (Plan.make adoptionsSpec {}).groups =
      (NameSet.ofList (adoptionsSpec.operations.map Operation.primaryTag)).toList.map
        adoptionsGroup := rfl
  rw [hgroups, htags]
  rfl

theorem pets_mem_groups : adoptionsGroup "Pets" ∈ (Plan.make adoptionsSpec {}).groups :=
  groups_adoptionsSpec ▸ List.mem_cons_self

theorem addPet_mem : addPet ∈ (adoptionsGroup "Pets").operations :=
  List.mem_filter.2 ⟨List.mem_cons_of_mem _ List.mem_cons_self, by decide⟩

theorem invalidation_reaches_iff_adoptionsSpec :
    ∃ text plan hooks, adoptionsSpec.render .reactQuery {} .standard = .ok text ∧
      Plan.ofSpec adoptionsSpec {} = .ok plan ∧ declarations plan .standard = .ok hooks ∧
      text = printModule hooks ∧ keysDeclaration plan ∈ hooks ∧ KeysApart plan ∧
      plan.groups = [adoptionsGroup "Pets", adoptionsGroup "pets"] ∧
      ∃ op ∈ (adoptionsGroup "Pets").operations, ∃ hook ∈ hooks, ∃ path,
        InvalidatesAt op path hook ∧ ReachesOwn plan (adoptionsGroup "Pets") op path := by
  obtain ⟨hooks, -, hrender⟩ := exists_hooks_adoptionsSpec
  obtain ⟨plan, hooks, hplan, hhooks, htext, hkeys, hapart, hmutations⟩ :=
    invalidation_reaches_iff hrender
  obtain rfl := Except.ok.inj (ofSpec_adoptionsSpec.symm.trans hplan)
  exact ⟨_, _, hooks, hrender, hplan, hhooks, htext, hkeys, hapart, groups_adoptionsSpec, addPet,
    addPet_mem, hmutations _ pets_mem_groups addPet addPet_mem rfl⟩

/-- What the mutation invalidates is the key of the other tag. -/
theorem valueAt?_adoptionsSpec :
    (keysValue (.make adoptionsSpec {})).valueAt? [tagKey "Pets", "all"] =
      some (.array [.text "pets"]) := by
  have hkey : tagKey "Pets" = tagKey (adoptionsGroup "pets").tag := by decide +kernel
  have hplain : Identifier.isPlainProperty (tagKey (adoptionsGroup "pets").tag) = true := by
    decide +kernel
  have hgroups : (Plan.make adoptionsSpec {}).groups =
      [adoptionsGroup "Pets"] ++ adoptionsGroup "pets" :: [] := groups_adoptionsSpec
  have hlast := lookup_reverse_map (fun g : OperationGroup ↦ tagKey g.tag) groupKeys hgroups nofun
  have hentries : entriesOf (adoptionsGroup "pets") = [] ++ none :: [some countPets] := rfl
  have hall := lookup_reverse_map entryKey (entryValue (adoptionsGroup "pets")) hentries
    (by decide +kernel)
  rw [hkey, valueAt?_keysValue_eq _ hplain hlast, valueAt?_groupKeys _ (by decide +kernel)]
  exact congrArg (Option.map Expr.withoutConst) hall

/-- The mutation of a tag reaches the query of another tag, and not that of its own. -/
theorem mutation_reaches_other_adoptionsSpec :
    ∃ hooks, adoptionsSpec.render .reactQuery {} .standard = .ok (printModule hooks) ∧
      keysDeclaration (.make adoptionsSpec {}) ∈ hooks ∧
      ∃ op ∈ adoptionsSpec.operations, op.method.isRead = false ∧
        ∃ hook ∈ hooks, ∃ path, InvalidatesAt op path hook ∧
          ∃ own ∈ adoptionsSpec.operations, ∃ other ∈ adoptionsSpec.operations,
            own.primaryTag = op.primaryTag ∧ own.method.isRead = true ∧
            ¬Reaches (.make adoptionsSpec {}) path (keyFunction (.standard own)) ∧
            other.primaryTag ≠ op.primaryTag ∧ other.method.isRead = true ∧
            Reaches (.make adoptionsSpec {}) path (keyFunction (.standard other)) := by
  obtain ⟨hooks, hhooks, hrender⟩ := exists_hooks_adoptionsSpec
  have hmodule := isModuleOf_of_declarations_eq_ok hhooks
  have hnames := typeName_ne_of_declarations_eq_ok hhooks
  obtain ⟨hook, hhook, hsubset⟩ := hmodule.hooks _ pets_mem_groups _ addPet_mem
  have hreaches := reachesOwn ofSpec_adoptionsSpec hnames pets_mem_groups addPet_mem rfl
  have hhidden : ¬IsVisible (.make adoptionsSpec {}) (adoptionsGroup "Pets") addPet := fun h ↦
    h.group [] [adoptionsGroup "pets"] groups_adoptionsSpec _ (List.mem_singleton_self _)
      (by decide +kernel)
  have hown : listPets ∈ (adoptionsGroup "Pets").operations :=
    List.mem_filter.2 ⟨List.mem_cons_self, by decide⟩
  cases hhook with
  | query hread => exact absurd hread (by decide)
  | mutation _ hfunction =>
    have hoperations : adoptionsSpec.operations = [listPets, addPet, countPets] := rfl
    refine ⟨hooks, hrender, hmodule.keys, addPet, by simp [hoperations], rfl, _,
      hsubset (List.mem_cons_of_mem _ (List.mem_singleton_self _)), _, hfunction.invalidatesAt,
      listPets, by simp [hoperations], countPets, by simp [hoperations], rfl, rfl,
      fun h ↦ hhidden ((hreaches.own listPets hown rfl).1 h), by decide, rfl, ?_⟩
    exact reaches_query_iff.2 valueAt?_adoptionsSpec

end ApiContract.HooksModule
