import ApiContract.Proofs.Artifact.Constants

/-!
# What is listed by tag

Operations are grouped by their primary tags. The groups are those that a stable sort by the tag
makes: their tags increase, and within a group the operations stay in the order of the contract
(`Plan.operations_eq_mergeSort`).

## What is read off the module

What the module of types lists is read back from its constants, as they are written: the ids in the
constants of the groups (`listedIds`), and the fields of the index (`indexes`). The predicates on
what is listed are about any table of helpers. The name of a group's constant is what `constantCase`
makes of the tag, the key of a field is the name of the operation's function, and the flag is the
answer of `requiresAuth`; each is stated as what the helpers give, so a table with other helpers
changes the names and not what is listed.

## Main results

* `TypesModule.operations_listed_once`: the groups are a stable partition of the contract's
  operations, and whenever the module can be made, with whichever helpers, each operation is listed
  once in the constants and once in the index.
* `TypesModule.listings_standard`: under the standard helpers the lists are these, name by name.

Two constants may still have one name, and two fields one key; when that is so is said in
`Proofs.Artifact.Constants`.

## Proof

A sorted list is determined by its sublists of one key each (`eq_of_filter_key_eq`), and both the
concatenated groups and the sort of the library are sorted and keep these sublists. The constants
are followed through the construction of the module by `constantsWhere`, which picks them by their
names: nothing but the groups and the index makes constants with such names, since validators end in
`Schema`.
-/

namespace ApiContract

/-! ### Stable sorting -/

section

variable {α : Type} {key : α → String} {xs ys : List α}

/-- Lists with the same elements of each key have the same elements. -/
theorem mem_iff_of_filter_key_eq
    (h : ∀ k, (xs.filter fun x ↦ key x == k) = ys.filter fun y ↦ key y == k) (x : α) :
    x ∈ xs ↔ x ∈ ys := by
  have hiff : x ∈ xs.filter (fun y ↦ key y == key x) ↔ x ∈ ys.filter fun y ↦ key y == key x := by
    rw [h]
  simpa using hiff

/-- **A stable sort is determined by its groups**: sorted lists are equal if they have the same
elements of each key, in the same order. -/
theorem eq_of_filter_key_eq (hxs : xs.Pairwise fun x y ↦ key x ≤ key y)
    (hys : ys.Pairwise fun x y ↦ key x ≤ key y)
    (h : ∀ k, (xs.filter fun x ↦ key x == k) = ys.filter fun y ↦ key y == k) : xs = ys := by
  have hmem := mem_iff_of_filter_key_eq h
  induction xs generalizing ys with
  | nil => exact (List.eq_nil_iff_forall_not_mem.2 fun y hy ↦ List.not_mem_nil ((hmem y).2 hy)).symm
  | cons x xs ih =>
    cases ys with
    | nil => exact absurd ((hmem x).1 List.mem_cons_self) List.not_mem_nil
    | cons y ys =>
      -- both heads have the least key, so each is the first element of that key
      have hle : key y ≤ key x := by
        rcases List.mem_cons.1 ((hmem x).1 List.mem_cons_self) with heq | hx
        · exact heq ▸ le_refl _
        · exact List.rel_of_pairwise_cons hys hx
      have hge : key x ≤ key y := by
        rcases List.mem_cons.1 ((hmem y).2 List.mem_cons_self) with heq | hy
        · exact heq ▸ le_refl _
        · exact List.rel_of_pairwise_cons hxs hy
      have hx : (key x == key x) = true := beq_self_eq_true _
      have hy : (key y == key x) = true := beq_iff_eq.2 (le_antisymm hle hge)
      have hhead := h (key x)
      simp only [List.filter_cons, hx, hy, if_true, List.cons.injEq] at hhead
      obtain ⟨rfl, -⟩ := hhead
      have htails (k : String) :
          (xs.filter fun z ↦ key z == k) = ys.filter fun z ↦ key z == k := by
        have hk := h k
        rw [List.filter_cons, List.filter_cons] at hk
        split at hk
        · exact List.tail_eq_of_cons_eq hk
        · exact hk
      rw [ih hxs.of_cons hys.of_cons htails (mem_iff_of_filter_key_eq htails)]

/-- What is made of the same elements has those with a property in the same order if they are a
sublist of it. -/
theorem filter_eq_of_sublist {p : α → Bool} (hperm : ys.Perm xs)
    (hsublist : (xs.filter p).Sublist ys) : ys.filter p = xs.filter p := by
  have hfilter := hsublist.filter p
  rw [List.filter_filter] at hfilter
  simp only [Bool.and_self] at hfilter
  exact (hfilter.eq_of_length ((hperm.filter p).length_eq).symm).symm

/-- Comparing by a key is transitive. -/
theorem decide_key_le_trans (x y z : α) :
    decide (key x ≤ key y) = true → decide (key y ≤ key z) = true →
      decide (key x ≤ key z) = true := by
  simpa using le_trans

theorem decide_key_le_total (x y : α) :
    (decide (key x ≤ key y) || decide (key y ≤ key x)) = true := by
  simpa using le_total (key x) (key y)

theorem sorted_mergeSort (xs : List α) :
    (xs.mergeSort fun x y ↦ key x ≤ key y).Pairwise fun x y ↦ key x ≤ key y := by
  simpa using List.pairwise_mergeSort decide_key_le_trans decide_key_le_total xs

/-- Sorting by a key keeps the elements of each key in their order. -/
theorem filter_mergeSort (xs : List α) (k : String) :
    (xs.mergeSort fun x y ↦ key x ≤ key y).filter (fun x ↦ key x == k) =
      xs.filter fun x ↦ key x == k := by
  have hgroup : (xs.filter fun x ↦ key x == k).Pairwise fun x y ↦
      decide (key x ≤ key y) = true := by
    refine List.pairwise_of_forall_mem_list fun x hx y hy ↦ decide_eq_true (le_of_eq ?_)
    rw [beq_iff_eq.1 (List.mem_filter.1 hx).2, beq_iff_eq.1 (List.mem_filter.1 hy).2]
  exact filter_eq_of_sublist (List.mergeSort_perm _ _) <|
    List.sublist_mergeSort decide_key_le_trans decide_key_le_total hgroup List.filter_sublist

end

namespace Plan

variable {spec : Spec} {options : RenderOptions} {plan : Plan}

/-! ### Groups -/

/-- The operations of a plan are sorted by their primary tags. -/
theorem sorted_operations (hplan : ofSpec spec options = .ok plan) :
    plan.operations.Pairwise fun op other ↦ op.primaryTag ≤ other.primaryTag := by
  have htag {g : OperationGroup} (hg : g ∈ plan.groups) {op : Operation}
      (hop : op ∈ g.operations) : op.primaryTag = g.tag :=
    primaryTag_of_mem_operations hplan hg hop
  refine List.pairwise_flatMap.2 ⟨fun g hg ↦ ?_, ?_⟩
  · refine List.pairwise_of_forall_mem_list fun op hop other hother ↦ le_of_eq ?_
    rw [htag hg hop, htag hg hother]
  · refine (List.pairwise_map.1 (increasing_tags hplan)).imp_of_mem
      fun hg hg' hlt op hop op' hop' ↦ ?_
    rw [htag hg hop, htag hg' hop']
    exact hlt.le

/-- The operations with one tag are in the order of the contract. -/
theorem filter_operations (hplan : ofSpec spec options = .ok plan) (tag : String) :
    plan.operations.filter (fun op ↦ op.primaryTag == tag) =
      spec.operations.filter fun op ↦ op.primaryTag == tag := by
  refine filter_eq_of_sublist (perm_operations hplan) ?_
  by_cases hmem : tag ∈ plan.groups.map OperationGroup.tag
  · obtain ⟨g, hg, rfl⟩ := List.mem_map.1 hmem
    rw [← (operations_eq_filter hplan hg).1]
    exact List.sublist_flatten_of_mem (List.mem_map_of_mem hg)
  · rw [mem_tags_iff hplan, List.mem_map] at hmem
    have hnil : (spec.operations.filter fun op ↦ op.primaryTag == tag) = [] :=
      List.filter_eq_nil_iff.2 fun op hop htag ↦ hmem ⟨op, hop, beq_iff_eq.1 htag⟩
    exact hnil ▸ List.nil_sublist _

/-- **The operations of a plan are those of its contract, stably sorted by primary tag.** -/
theorem operations_eq_mergeSort (hplan : ofSpec spec options = .ok plan) :
    plan.operations =
      spec.operations.mergeSort fun op other ↦ op.primaryTag ≤ other.primaryTag := by
  refine eq_of_filter_key_eq (sorted_operations hplan) (sorted_mergeSort _) fun tag ↦ ?_
  rw [filter_mergeSort, filter_operations hplan]

end Plan

namespace TypesModule

open TypeScript

variable {spec : Spec} {options : RenderOptions} {plan : Plan} {helpers : HelperTable}
  {declared : List Declaration} {text : String}

/-! ### Constants by name -/

/-- The constants whose names have a property, each with its value. -/
def constantsWhere (p : String → Bool) (declared : List Declaration) : List (String × Expr) :=
  (declared.filterMap Declaration.constant?).filter fun c ↦ p c.1

section

variable (p : String → Bool)

theorem constantsWhere_append (first second : List Declaration) :
    constantsWhere p (first ++ second) = constantsWhere p first ++ constantsWhere p second := by
  rw [constantsWhere, List.filterMap_append, List.filter_append]
  rfl

/-- The constants of parts are those of the whole. -/
theorem constantsWhere_flatMap {α : Type} (parts : List α) (f : α → List Declaration) :
    constantsWhere p (parts.flatMap f) = parts.flatMap fun part ↦ constantsWhere p (f part) := by
  rw [constantsWhere, List.filterMap_flatMap, List.filter_flatMap]
  rfl

/-- Types are no constants. -/
theorem constantsWhere_of_isTyping (h : ∀ d ∈ declared, d.isTyping = true) :
    constantsWhere p declared = [] := by
  have hnone : declared.filterMap Declaration.constant? = [] := by
    refine List.filterMap_eq_nil_iff.2 fun d hd ↦ ?_
    cases d with
    | const => exact absurd (h _ hd) Bool.false_ne_true
    | _ => rfl
  rw [constantsWhere, hnone]
  rfl

end

/-! ### What the module lists -/

/-- Whether a constant is one with the ids of a group, by its name. -/
def isTagConstant (name : String) : Bool := "_OPERATIONS".toList.isSuffixOf name.toList

/-- The constants with the ids of groups, each with the texts that it lists. -/
def listedIds (declared : List Declaration) : List (String × Option (List String)) :=
  (constantsWhere isTagConstant declared).map fun c ↦ (c.1, c.2.texts?)

/-- The fields of the index, for each declaration of it. -/
def indexes (declared : List Declaration) : List (Option (List (String × Expr))) :=
  (constantsWhere (· == "operations") declared).map fun c ↦ c.2.fields?

/-- The index as a constant, if it has entries. -/
def indexConstants (entries : List Entry) : List (String × Expr) :=
  if entries.isEmpty then [] else [("operations", .asConst (.object entries))]

/-- A constant lists the ids of a group, under the constant case of the group's tag. -/
def IsListOf (helpers : HelperTable) (g : OperationGroup) (c : String × Expr) : Prop :=
  ∃ name, helpers.text "constantCase" g.tag = .ok name ∧
    c = (name ++ "_OPERATIONS", .asConst (.array (g.operations.map fun op ↦ .text op.id)))

/-- What the index says about an operation under a tag. -/
def indexValue (tag : String) (op : Operation) (requiresAuth : Bool) : Expr :=
  .object
    [ .keyed "method" (.text op.method.display)
    , .keyed "path" (.text op.path)
    , .keyed "tag" (.text tag)
    , .keyed "requiresAuth" (.bool requiresAuth)
    , .keyed "deprecated" (.bool op.deprecated) ]

/-- A key and a value are those of the index for an operation under a tag: the name of the
operation's function, and the flag that the helpers give of it. -/
def IsIndexed (helpers : HelperTable) (tag : String) (op : Operation)
    (field : String × Expr) : Prop :=
  ∃ s requiresAuth, Surface.ofOperation helpers op = .ok s ∧
    helpers.flag "requiresAuth" op = .ok requiresAuth ∧
    field = (s.functionName, indexValue tag op requiresAuth)

/-- An entry of an index is for an operation under a tag. -/
def IsEntryOf (helpers : HelperTable) (tag : String) (op : Operation) (entry : Entry) : Prop :=
  ∃ field, IsIndexed helpers tag op field ∧ entry = .keyed field.1 field.2

/-- The listed ids are those of a group, under the constant case of the group's tag. -/
def ListsIdsOf (helpers : HelperTable) (g : OperationGroup)
    (listed : String × Option (List String)) : Prop :=
  ∃ name, helpers.text "constantCase" g.tag = .ok name ∧
    listed = (name ++ "_OPERATIONS", some (g.operations.map Operation.id))

/-- A field of the index is for an operation. -/
def IsFieldOf (helpers : HelperTable) (op : Operation) (field : String × Expr) : Prop :=
  IsIndexed helpers op.primaryTag op field

section

variable {p : String → Bool} (hp : ∀ name : String, p (name ++ "Schema") = false)

include hp

/-- Among the models there are no such constants, since validators have names of another kind. -/
theorem constantsWhere_models : constantsWhere p (models plan) = [] := by
  have htypes : constantsWhere p plan.modelDeclarations = [] :=
    constantsWhere_of_isTyping p fun d hd ↦ ClientModule.isTyping_of_mem_modelDeclarations hd
  have hvalidators : constantsWhere p plan.validatorDeclarations = [] := by
    refine List.filter_eq_nil_iff.2 fun c hc ↦ ?_
    obtain ⟨d, hd, hconstant⟩ := List.mem_filterMap.1 hc
    obtain ⟨model, -, rfl⟩ := List.mem_map.1 hd
    obtain rfl := Option.some.inj hconstant
    exact Bool.eq_false_iff.1 (hp (typeName model.name))
  have hbanner (title : String) : constantsWhere p [.banner title] = [] := rfl
  rw [models]
  split
  · rfl
  · rw [constantsWhere_append, constantsWhere_append, constantsWhere_append, htypes, hvalidators,
      hbanner, hbanner]
    rfl

/-- The validators of bodies have names of another kind too. -/
theorem constantsWhere_bodyValidators (s : Surface) :
    constantsWhere p (bodyValidators plan s) = [] := by
  rw [bodyValidators]
  split
  · next name _ _ _ _ =>
    exact List.filter_eq_nil_iff.2 fun c hc ↦
      List.mem_singleton.1 hc ▸ Bool.eq_false_iff.1 (hp name)
  · rfl

/-- An operation declares no such constant, and has its entry in the index. -/
theorem constantsWhere_operation {tag : String} {op : Operation} {part : List Declaration × Entry}
    (h : operation plan helpers tag op = .ok part) :
    constantsWhere p part.1 = [] ∧ IsEntryOf helpers tag op part.2 := by
  obtain ⟨s, hs, h⟩ := Except.bind_eq_ok_iff.1 h
  obtain ⟨types, htypes, h⟩ := Except.bind_eq_ok_iff.1 h
  obtain ⟨entry, hentry, h⟩ := Except.bind_eq_ok_iff.1 h
  obtain ⟨requiresAuth, hauth, hentry⟩ := Except.bind_eq_ok_iff.1 hentry
  obtain rfl := Except.ok.inj h
  obtain rfl := Except.ok.inj hentry
  obtain rfl := Surface.op_of_ofOperation_eq_ok hs
  refine ⟨?_, (s.functionName, _), ⟨s, requiresAuth, hs, hauth, rfl⟩, rfl⟩
  rw [constantsWhere_append, constantsWhere_bodyValidators hp, List.append_nil]
  exact constantsWhere_of_isTyping p fun d hd ↦
    ClientModule.isTyping_of_mem_typeDeclarations htypes hd

/-- A group declares the constant with its ids, and has an entry in the index for each operation. -/
theorem constantsWhere_group {g : OperationGroup} {part : List Declaration × List Entry}
    (h : group plan helpers g = .ok part) :
    (∃ c, IsListOf helpers g c ∧ constantsWhere p part.1 = [c].filter fun c ↦ p c.1) ∧
      List.Forall₂ (IsEntryOf helpers g.tag) g.operations part.2 := by
  obtain ⟨parts, hparts, h⟩ := Except.bind_eq_ok_iff.1 h
  obtain ⟨constant, hconstant, h⟩ := Except.bind_eq_ok_iff.1 h
  obtain rfl := Except.ok.inj h
  have hoperations : constantsWhere p (parts.flatMap Prod.fst) = [] := by
    rw [constantsWhere_flatMap]
    refine List.flatMap_eq_nil_iff.2 fun part hpart ↦ ?_
    obtain ⟨op, -, hop⟩ := Except.exists_of_mem_of_mapM_eq_ok hparts hpart
    exact (constantsWhere_operation hp hop).1
  have hbanner (title : String) : constantsWhere p [.banner title] = [] := rfl
  refine ⟨⟨_, ⟨constant, hconstant, rfl⟩, ?_⟩, ?_⟩
  · rw [constantsWhere_append, constantsWhere_append, hoperations, hbanner]
    rfl
  · refine List.forall₂_map_right_iff.2 ((Except.mapM_eq_ok_iff.1 hparts).imp fun op part hop ↦ ?_)
    exact (constantsWhere_operation hp hop).2

/-- The constants that are no validators: the address of the service, the ids of each group and the
index. -/
theorem constantsWhere_declarations (h : declarations plan helpers = .ok declared) :
    ∃ lists entries, List.Forall₂ (IsListOf helpers) plan.groups lists ∧
      List.Forall₂ (fun g part ↦ List.Forall₂ (IsEntryOf helpers g.tag) g.operations part)
        plan.groups entries ∧
      constantsWhere p declared = ((baseUrlName, Expr.text plan.baseUrl) :: lists ++
        indexConstants entries.flatten).filter fun c ↦ p c.1 := by
  obtain ⟨parts, hparts, h⟩ := Except.bind_eq_ok_iff.1 h
  obtain rfl := Except.ok.inj h
  have hgroups := (Except.mapM_eq_ok_iff.1 hparts).imp fun _ _ ↦ constantsWhere_group hp
  -- Each group has one constant, its list of ids, among its declarations.
  obtain ⟨lists, hlists, hconstants⟩ := (hgroups.imp fun _ _ ↦ And.left).exists_between
    (P := IsListOf helpers) (Q := fun c part ↦ constantsWhere p part.1 = [c].filter fun c ↦ p c.1)
    fun _ _ ↦ id
  have hfilter : constantsWhere p (parts.flatMap Prod.fst) = lists.filter fun c ↦ p c.1 := by
    have hsingle : lists.filter (fun c ↦ p c.1) =
        lists.flatMap fun c ↦ [c].filter fun c ↦ p c.1 := by
      rw [← List.filter_flatMap, List.flatMap_singleton']
    rw [constantsWhere_flatMap, hsingle]
    exact (hconstants.flatMap_eq fun _ _ heq ↦ heq.symm).symm
  have hindex (entries : List Entry) : constantsWhere p (index entries) =
      (indexConstants entries).filter fun c ↦ p c.1 := by
    rw [index, indexConstants]
    split <;> rfl
  have hopening : constantsWhere p (opening plan) =
      [(baseUrlName, Expr.text plan.baseUrl)].filter fun c ↦ p c.1 := rfl
  refine ⟨lists, parts.map Prod.snd, hlists,
    List.forall₂_map_right_iff.2 (hgroups.imp fun _ _ ↦ And.right), ?_⟩
  rw [constantsWhere_append, constantsWhere_append, constantsWhere_append, hopening,
    constantsWhere_models hp, hfilter, hindex, List.append_nil, ← List.filter_append,
    ← List.filter_append, List.flatMap_def]
  rfl

end

/-! ### What is listed is what is grouped -/

theorem isTagConstant_append (name : String) : isTagConstant (name ++ "_OPERATIONS") = true := by
  rw [isTagConstant, String.toList_append, List.isSuffixOf_iff_suffix]
  exact List.suffix_append _ _

theorem isTagConstant_validator (name : String) : isTagConstant (name ++ "Schema") = false := by
  refine Bool.eq_false_iff.2 fun hsuffix ↦ ?_
  obtain ⟨front, heq⟩ := List.isSuffixOf_iff_suffix.1 hsuffix
  have hlast : (name ++ "Schema").toList.getLast? = some 'a' := getLast?_append (by decide)
  have hending : "_OPERATIONS".toList.getLast? = some 'S' := by decide
  rw [← heq, List.getLast?_append, hending, Option.some_or] at hlast
  exact absurd hlast (by decide)

/-- **The ids are listed by group**, in the order of the groups. -/
theorem forall₂_listedIds (h : declarations plan helpers = .ok declared) :
    List.Forall₂ (ListsIdsOf helpers) plan.groups (listedIds declared) := by
  obtain ⟨lists, entries, hlists, -, heq⟩ := constantsWhere_declarations isTagConstant_validator h
  have hbase : isTagConstant baseUrlName = false := by decide +kernel
  have hname : isTagConstant "operations" = false := by decide +kernel
  have hindex : (indexConstants entries.flatten).filter (fun c ↦ isTagConstant c.1) = [] := by
    rw [indexConstants]
    split
    · rfl
    · rw [List.filter_cons, hname]
      rfl
  have hall : lists.filter (fun c ↦ isTagConstant c.1) = lists :=
    List.filter_eq_self.2 fun c hc ↦ by
      obtain ⟨g, -, name, -, rfl⟩ := hlists.exists_of_mem_right hc
      exact isTagConstant_append name
  rw [listedIds, heq, List.filter_append, hindex, List.filter_cons_of_neg (by simp [hbase]), hall,
    List.append_nil]
  refine List.forall₂_map_right_iff.2 (hlists.imp fun g c ↦ ?_)
  rintro ⟨name, hname, rfl⟩
  exact ⟨name, hname, congrArg (Prod.mk _) (Expr.mapM_text?_map Operation.id g.operations)⟩

/-- Entries of operations are fields, one for each. -/
theorem exists_fields {operations : List Operation} {entries : List Entry}
    (h : List.Forall₂ (fun op entry ↦ IsEntryOf helpers op.primaryTag op entry) operations
      entries) :
    ∃ fields, entries.mapM Entry.field? = some fields ∧
      List.Forall₂ (IsFieldOf helpers) operations fields := by
  induction h with
  | nil => exact ⟨[], rfl, .nil⟩
  | cons hentry _ ih =>
    obtain ⟨field, hfield, rfl⟩ := hentry
    obtain ⟨fields, hfields, hall⟩ := ih
    refine ⟨field :: fields, ?_, .cons hfield hall⟩
    rw [List.mapM_cons, hfields]
    rfl

/-- The entries of the groups are those of the plan's operations, each with its own primary tag. -/
theorem forall₂_isEntryOf (hplan : Plan.ofSpec spec options = .ok plan)
    {entries : List (List Entry)}
    (h : List.Forall₂ (fun g part ↦ List.Forall₂ (IsEntryOf helpers g.tag) g.operations part)
      plan.groups entries) :
    List.Forall₂ (fun op entry ↦ IsEntryOf helpers op.primaryTag op entry) plan.operations
      entries.flatten := by
  have htags : ∀ g ∈ plan.groups, ∀ op ∈ g.operations, op.primaryTag = g.tag := fun g hg op hop ↦
    Plan.primaryTag_of_mem_operations hplan hg hop
  have hgroups := (List.forall₂_and_left _ _).2 ⟨htags, h⟩
  rw [Plan.operations, List.flatMap_def]
  refine List.rel_flatten (List.forall₂_map_left_iff.2 (hgroups.imp fun g part hpart ↦ ?_))
  exact ((List.forall₂_and_left _ _).2 hpart).imp fun op entry hentry ↦ hentry.1 ▸ hentry.2

/-- **The index has a field for each operation**, in the order of the plan. -/
theorem exists_indexes (hplan : Plan.ofSpec spec options = .ok plan)
    (h : declarations plan helpers = .ok declared) :
    ∃ fields, indexes declared = (if plan.operations.isEmpty then [] else [some fields]) ∧
      List.Forall₂ (IsFieldOf helpers) plan.operations fields := by
  have hvalidator (name : String) : (name ++ "Schema" == "operations") = false := by
    refine beq_eq_false_iff_ne.2 fun heq ↦ ?_
    have hlast : (name ++ "Schema").toList.getLast? = some 'a' := getLast?_append (by decide)
    rw [heq] at hlast
    exact absurd hlast (by decide)
  obtain ⟨lists, entries, hlists, hentries, heq⟩ :=
    constantsWhere_declarations (p := (· == "operations")) hvalidator h
  have hlist : lists.filter (fun c ↦ c.1 == "operations") = [] := by
    refine List.filter_eq_nil_iff.2 fun c hc hname ↦ ?_
    obtain ⟨g, -, name, -, rfl⟩ := hlists.exists_of_mem_right hc
    have hsame : name ++ "_OPERATIONS" = "operations" := beq_iff_eq.1 hname
    exact absurd (hsame ▸ isTagConstant_append name) (by decide +kernel)
  have hall := forall₂_isEntryOf hplan hentries
  obtain ⟨fields, hfields, hfieldsOf⟩ := exists_fields hall
  refine ⟨fields, ?_, hfieldsOf⟩
  have hempty : plan.operations.isEmpty = entries.flatten.isEmpty := by
    rw [Bool.eq_iff_iff, List.isEmpty_iff_length_eq_zero, List.isEmpty_iff_length_eq_zero,
      hall.length_eq]
  have hobject : (Expr.asConst (.object entries.flatten)).fields? = some fields := hfields
  have hbase : (baseUrlName == "operations") = false := by decide
  rw [indexes, heq, List.filter_append, List.filter_cons_of_neg (by simp [hbase]), hlist,
    List.nil_append, indexConstants, hempty]
  split
  · rfl
  · exact congrArg (fun found ↦ [found]) hobject

/-- Every operation is listed once, by its id and in the index. -/
structure ListsOnce (helpers : HelperTable) (spec : Spec) (plan : Plan)
    (declared : List Declaration) : Prop where
  /-- The constants of the groups, in their order, list the ids of their operations. -/
  ids : List.Forall₂ (ListsIdsOf helpers) plan.groups (listedIds declared)
  /-- Together they list the ids of the contract. -/
  perm : ((listedIds declared).flatMap fun listed ↦ listed.2.getD []).Perm
    (spec.operations.map Operation.id)
  /-- An id that gives a name is listed once. -/
  count : ∀ op ∈ spec.operations, typeName op.id ≠ "" →
    ((listedIds declared).flatMap fun listed ↦ listed.2.getD []).count op.id = 1
  /-- If there are operations, there is one index, with one field for each. -/
  index : ∃ fields, indexes declared = (if spec.operations.isEmpty then [] else [some fields]) ∧
    List.Forall₂ (IsFieldOf helpers) plan.operations fields

/-- **Each operation is listed once**, with whichever helpers. -/
theorem listsOnce (hplan : Plan.ofSpec spec options = .ok plan)
    (h : declarations plan helpers = .ok declared) : ListsOnce helpers spec plan declared := by
  have hids := forall₂_listedIds h
  have hperm := Plan.perm_operations hplan
  have hflat : ((listedIds declared).flatMap fun listed ↦ listed.2.getD []) =
      plan.operations.map Operation.id := by
    rw [Plan.operations, List.map_flatMap]
    refine (hids.flatMap_eq fun g listed hlisted ↦ ?_).symm
    obtain ⟨name, -, rfl⟩ := hlisted
    rfl
  obtain ⟨fields, hindexes, hfields⟩ := exists_indexes hplan h
  have hempty : plan.operations.isEmpty = spec.operations.isEmpty := by
    rw [Bool.eq_iff_iff, List.isEmpty_iff_length_eq_zero, List.isEmpty_iff_length_eq_zero,
      hperm.length_eq]
  refine ⟨hids, hflat ▸ hperm.map _, fun op hop hbase ↦ ?_, fields, hempty ▸ hindexes, hfields⟩
  rw [hflat, (hperm.map Operation.id).count_eq]
  exact Plan.count_id_eq_one (Plan.ofSpec_eq_ok_iff.1 hplan).1 hop hbase

/-- Under the standard helpers the constants and the index are these lists: the names of the
constants are made of the tags in constant case, the keys of the index are the names of the
operations' functions, and the flag is the operation's own. -/
theorem listings_standard (hplan : Plan.ofSpec spec options = .ok plan)
    (h : declarations plan .standard = .ok declared) :
    listedIds declared = plan.groups.map (fun g ↦
        (Identifier.constantCase g.tag ++ "_OPERATIONS", some (g.operations.map Operation.id))) ∧
      indexes declared = if spec.operations.isEmpty then [] else
        [some (plan.operations.map fun op ↦
          ((Surface.standard op).functionName, indexValue op.primaryTag op op.requiresAuth))] := by
  have hlists := listsOnce hplan h
  obtain ⟨fields, hindexes, hfields⟩ := hlists.index
  constructor
  · rw [← List.map_id (listedIds declared)]
    refine (hlists.ids.map_eq fun g listed hlisted ↦ ?_).symm
    obtain ⟨name, hname, rfl⟩ := hlisted
    rw [HelperTable.text_constantCase] at hname
    rw [Except.ok.inj hname, id]
  · rw [hindexes, ← List.map_id fields]
    refine if_congr Iff.rfl rfl (congrArg (fun fields ↦ [some fields]) ?_)
    refine (hfields.map_eq fun op field hfield ↦ ?_).symm
    obtain ⟨s, requiresAuth, hs, hauth, rfl⟩ := hfield
    obtain ⟨-, rfl⟩ := Surface.ofOperation_eq_ok_iff.1 hs
    rw [HelperTable.flag_requiresAuth] at hauth
    rw [Except.ok.inj hauth, id]

/-- **Grouping is a stable partition, and each operation is listed once.** The tags of a plan's
groups increase, no group is empty, the operations of a group have its tag for their primary tag,
and all together are those of the contract, stably sorted by that tag. Whenever the module of types
can be made, with whichever helpers, its constants and its index list each operation once. -/
theorem operations_listed_once (hplan : Plan.ofSpec spec options = .ok plan) :
    (plan.groups.map OperationGroup.tag).Pairwise (· < ·) ∧
      (∀ g ∈ plan.groups, g.operations ≠ [] ∧ ∀ op ∈ g.operations, op.primaryTag = g.tag) ∧
      plan.operations =
        spec.operations.mergeSort (fun op other ↦ op.primaryTag ≤ other.primaryTag) ∧
      ∀ helpers text, spec.render .typescript options helpers = .ok text →
        ∃ declared, declarations plan helpers = .ok declared ∧ text = printModule declared ∧
          ListsOnce helpers spec plan declared := by
  refine ⟨Plan.increasing_tags hplan, fun g hg ↦ ?_, Plan.operations_eq_mergeSort hplan,
    fun helpers text h ↦ ?_⟩
  · exact ⟨(Plan.operations_eq_filter hplan hg).2, fun op hop ↦
      Plan.primaryTag_of_mem_operations hplan hg hop⟩
  · obtain ⟨plan', declared, hplan', hdeclared, htext⟩ := render_typescript_eq_ok_iff.1 h
    obtain rfl := Except.ok.inj (hplan.symm.trans hplan')
    exact ⟨declared, hdeclared, htext, listsOnce hplan hdeclared⟩

/-- Operations of two tags in turn, and one without a tag. -/
def clinicSpec : Spec :=
  .bare "Clinic"
    [ { Spec.query "listVisits" "/visits" [] with tags := ["visits", "pets"] }
    , { Spec.query "listPets" "/pets" [] with tags := ["pets"] }
    , Spec.query "health" "/health" []
    , { Spec.query "countVisits" "/visits/count" [] with tags := ["visits"] }
    , { Spec.query "countPets" "/pets/count" [] with tags := ["pets"] } ] []

/-- Of two tags in turn the operations are put together, in the order of the contract, and the
operation without a tag comes first, under the default one. -/
theorem operations_listed_once_clinicSpec :
    ∃ plan declared, Plan.ofSpec clinicSpec {} = .ok plan ∧
      clinicSpec.render .typescript {} .standard = .ok (printModule declared) ∧
      plan.groups.map (fun g ↦ (g.tag, g.operations.map Operation.id)) =
        [ ("default", ["health"]), ("pets", ["listPets", "countPets"])
        , ("visits", ["listVisits", "countVisits"]) ] ∧
      plan.operations =
        clinicSpec.operations.mergeSort (fun op other ↦ op.primaryTag ≤ other.primaryTag) ∧
      ListsOnce .standard clinicSpec plan declared := by
  have hplan : Plan.ofSpec clinicSpec {} = .ok (.make clinicSpec {}) :=
    Plan.ofSpec_eq_ok_iff.2 ⟨Option.isNone_iff_eq_none.1 (by decide +kernel), rfl⟩
  have hmodule : ∃ declared, declarations (.make clinicSpec {}) .standard = .ok declared ∧
      clinicSpec.render .typescript {} .standard = .ok (printModule declared) :=
    exists_module (by decide +kernel) (by decide +kernel)
  obtain ⟨_, -, hrender⟩ := hmodule
  obtain ⟨-, -, hsorted, hmodules⟩ := operations_listed_once hplan
  obtain ⟨declared, -, htext, hlists⟩ := hmodules _ _ hrender
  exact ⟨_, declared, hplan, htext ▸ hrender, by decide +kernel, hsorted, hlists⟩

end TypesModule

end ApiContract
