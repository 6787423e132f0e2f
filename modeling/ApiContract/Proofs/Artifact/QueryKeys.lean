import ApiContract.Proofs.Artifact.Hooks
import ApiContract.Proofs.Identifier
import ApiContract.Proofs.NameSet
import ApiContract.Proofs.Plan
import ApiContract.Proofs.TypeScript.Property

/-!
# What hooks find under their keys

A query takes the function that builds its key from the object of all keys, and a mutation takes the
key of its tag from there. Tags and ids become keys of that object by way of identifiers, and those
of different tags, or of different ids, may be the same; then the later entry is what both find.

## Lookups

A hook names a path of two keys, that of its group and that of its entry. `Expr.valueAt?` evaluates
such a path: at each step the last field with the name counts, and a constant assertion around an
object does not matter. What a hook is meant to find is `meantKey`, and `IsVisible` says that
nothing hides it: the tag has a name, no later group takes the key of its group, and no later entry
of the group takes its own.

## Main result

`keys_found_iff`: whenever the hooks of a contract can be made, each looks up one key, only hooks
look up keys, and a hook finds what it is meant to exactly if that is visible.

## Proof

That a visible entry is found is a computation of lookups. For the converse it has to be seen that
an entry which hides another one has a different value: a key tells its tag and its operation
(`eq_of_withoutConst_entryValue_eq`), tags of groups are distinct, and so are the ids of a group's
operations, since a plan requires it of their types.

Two queries whose ids differ in capitals, of which the earlier one finds the key of the later, are
at the end.
-/

namespace ApiContract.HooksModule

open TypeScript

/-! ### Lookups -/

/-- What the hook of an operation is meant to find: a query the function for its key, a mutation the
key of its tag. -/
def meantKey (g : OperationGroup) (op : Operation) : Expr :=
  if op.method.isRead then keyFunction (.standard op) else .array [.text g.tag]

/-- The entry that the hook of an operation looks for. -/
def soughtEntry (op : Operation) : Option Operation := if op.method.isRead then some op else none

/-- What the hook of an operation looks for is not hidden by something else. -/
structure IsVisible (plan : Plan) (g : OperationGroup) (op : Operation) : Prop where
  /-- The tag gives a key at all. -/
  named : ∃ c ∈ g.tag.toList, c.isAlphanum = true
  /-- No later group has the key of the group. -/
  group : ∀ before after, plan.groups = before ++ g :: after →
    ∀ later ∈ after, tagKey later.tag ≠ tagKey g.tag
  /-- No later entry of the group has the key of the entry. -/
  entry : ∀ before after, entriesOf g = before ++ soughtEntry op :: after →
    ∀ later ∈ after, entryKey later ≠ entryKey (soughtEntry op)

/-- The hook of an operation uses the keys once, and finds what it is meant to just if that is
visible. -/
structure LooksUp (plan : Plan) (g : OperationGroup) (op : Operation) (hook : Declaration) :
    Prop where
  name : hook.functionName? = some ("use" ++ typeName op.id)
  use : ∃ use, hook.uses "queryKeys" = [use] ∧
    ((keysValue plan).valueAt? use.path = some (meantKey g op) ↔ IsVisible plan g op)

theorem fields?_keysValue (plan : Plan) :
    (keysValue plan).fields? = some (plan.groups.map fun g ↦ (tagKey g.tag, groupKeys g)) :=
  mapM_field?_keyed _ _ _

/-- Of several groups with one key the last is found. -/
theorem property?_keysValue (plan : Plan) (key : String) :
    (keysValue plan).property? key =
      (plan.groups.map fun g ↦ (tagKey g.tag, groupKeys g)).reverse.lookup key := by
  rw [Expr.property?, fields?_keysValue, Option.bind_some]

/-- What a hook looks for is found in the last group with the key of its own. -/
theorem valueAt?_keysValue_eq (plan : Plan) {key found : String} {value : Expr}
    (hkey : Identifier.isPlainProperty key = true)
    (hlookup : (plan.groups.map fun g ↦ (tagKey g.tag, groupKeys g)).reverse.lookup key =
      some value) :
    (keysValue plan).valueAt? [key, found] = value.valueAt? [found] := by
  rw [Expr.valueAt?_cons hkey, property?_keysValue, hlookup, Option.bind_some]

theorem fields?_groupKeys (g : OperationGroup) : (groupKeys g).fields? =
    some ((entriesOf g).map fun entry ↦ (entryKey entry, entryValue g entry)) :=
  mapM_field?_keyed _ _ _

/-- Of several entries with one key the last is found. -/
theorem property?_groupKeys (g : OperationGroup) (key : String) :
    (groupKeys g).property? key =
      ((entriesOf g).map fun entry ↦ (entryKey entry, entryValue g entry)).reverse.lookup key := by
  rw [Expr.property?, fields?_groupKeys, Option.bind_some]

/-- What is found in a group is a field without its assertion. -/
theorem valueAt?_groupKeys (g : OperationGroup) {key : String}
    (hkey : Identifier.isPlainProperty key = true) :
    (groupKeys g).valueAt? [key] = (((entriesOf g).map fun entry ↦
      (entryKey entry, entryValue g entry)).reverse.lookup key).map Expr.withoutConst := by
  rw [Expr.valueAt?_cons hkey, property?_groupKeys]
  exact Option.map_eq_bind.symm

/-- What is found in a group is the value of one of its entries. -/
theorem exists_of_valueAt?_groupKeys {g : OperationGroup} {key : String} {value : Expr}
    (hkey : Identifier.isPlainProperty key = true)
    (h : (groupKeys g).valueAt? [key] = some value) :
    ∃ entry ∈ entriesOf g, value = (entryValue g entry).withoutConst := by
  rw [valueAt?_groupKeys g hkey, ← List.map_reverse, lookup_map_eq_find?, Option.map_map] at h
  obtain ⟨entry, hentry, rfl⟩ := Option.map_eq_some_iff.1 h
  exact ⟨entry, List.mem_reverse.1 (List.mem_of_find?_eq_some hentry), rfl⟩

/-- What is meant to be found is the value of the entry that is looked for. -/
theorem meantKey_eq (g : OperationGroup) (op : Operation) :
    meantKey g op = (entryValue g (soughtEntry op)).withoutConst := by
  rw [meantKey, soughtEntry]
  split <;> rfl

/-! ### Keys tell what they are for -/

/-- The tag of an entry. -/
def entryTag (g : OperationGroup) : Option Operation → String
  | none => g.tag
  | some op => op.primaryTag

/-- Two entries with one value are for one tag and one operation. -/
theorem eq_of_withoutConst_entryValue_eq {g g' : OperationGroup} {entry entry' : Option Operation}
    (h : (entryValue g entry).withoutConst = (entryValue g' entry').withoutConst) :
    entryTag g entry = entryTag g' entry' ∧ entry.map Operation.id = entry'.map Operation.id := by
  cases entry with
  | none =>
    cases entry' with
    | none =>
      simp only [entryValue, Expr.withoutConst, Expr.text, Expr.array.injEq, List.cons.injEq,
        Expr.literal.injEq, Json.string.injEq, and_true] at h
      exact ⟨h, rfl⟩
    | some op' => simp [entryValue, keyFunction, Expr.withoutConst] at h
  | some op =>
    cases entry' with
    | none => simp [entryValue, keyFunction, Expr.withoutConst] at h
    | some op' =>
      simp only [entryValue, keyFunction, Expr.withoutConst, Expr.text, Expr.arrow.injEq,
        Expr.asConst.injEq, Expr.array.injEq, List.map_cons, List.cons_append, List.cons.injEq,
        Expr.literal.injEq, Json.string.injEq] at h
      obtain ⟨-, htag, hid, -⟩ := h
      exact ⟨htag, congrArg some hid⟩

/-! ### Plans -/

variable {spec : Spec} {options : RenderOptions} {plan : Plan}

/-- The entries of a group are for its tag. -/
theorem entryTag_eq (hplan : Plan.ofSpec spec options = .ok plan) {g : OperationGroup}
    (hg : g ∈ plan.groups) {entry : Option Operation} (hentry : entry ∈ entriesOf g) :
    entryTag g entry = g.tag := by
  rcases List.mem_cons.1 hentry with rfl | hread
  · rfl
  · obtain ⟨op, hop, rfl⟩ := List.mem_map.1 hread
    exact Plan.primaryTag_of_mem_operations hplan hg (List.mem_of_mem_filter hop)

/-- The entries of a group are for different operations. -/
theorem nodup_id_entriesOf (hplan : Plan.ofSpec spec options = .ok plan)
    (hnames : ∀ op ∈ plan.operations, typeName op.id ≠ "") {g : OperationGroup}
    (hg : g ∈ plan.groups) : ((entriesOf g).map (Option.map Operation.id)).Nodup := by
  obtain ⟨hfault, rfl⟩ := Plan.ofSpec_eq_ok_iff.1 hplan
  have hbases : ∀ op ∈ spec.operations, typeName op.id ≠ "" := fun op hop ↦
    hnames op ((Plan.perm_flatMap_groupsOf spec.operations).symm.subset hop)
  have hids := Plan.nodup_ids hfault hbases
  obtain ⟨tag, -, rfl⟩ := List.mem_map.1 hg
  have hreads : ((spec.operations.filter fun op ↦ op.primaryTag == tag).filter fun op ↦
      op.method.isRead).Sublist spec.operations :=
    List.filter_sublist.trans List.filter_sublist
  rw [entriesOf, List.map_cons, List.map_map, List.nodup_cons]
  refine ⟨by simp, ?_⟩
  have hreadIds := ((hreads.map Operation.id).nodup hids).map (Option.some_injective String)
  rwa [List.map_map] at hreadIds

/-! ### What is found -/

/-- Where all values are different, nothing later has the same one. -/
theorem ne_of_mem_later {α β : Type} {f : α → β} {list before after : List α} {x y : α}
    (hnodup : (list.map f).Nodup) (hlist : list = before ++ x :: after) (hy : y ∈ after) :
    f y ≠ f x := by
  rw [hlist, List.map_append, List.map_cons, List.nodup_append', List.nodup_cons] at hnodup
  intro hsame
  exact hnodup.2.1.1 (hsame ▸ List.mem_map_of_mem hy)

section

variable (hplan : Plan.ofSpec spec options = .ok plan)
  (hnames : ∀ op ∈ plan.operations, typeName op.id ≠ "") {g : OperationGroup}
  (hg : g ∈ plan.groups) {op : Operation} (hop : op ∈ g.operations)

include hop

/-- What a hook looks for is an entry of its group. -/
theorem soughtEntry_mem : soughtEntry op ∈ entriesOf g := by
  rw [soughtEntry, entriesOf]
  split
  · next hread =>
    exact List.mem_cons_of_mem _ (List.mem_map_of_mem (List.mem_filter.2 ⟨hop, hread⟩))
  · exact List.mem_cons_self

include hnames hg

/-- The key of an entry can stand after a dot. -/
theorem isPlainProperty_soughtEntry :
    Identifier.isPlainProperty (entryKey (soughtEntry op)) = true := by
  rw [soughtEntry]
  split
  · have hname := hnames op (List.mem_flatMap.2 ⟨g, hg, hop⟩)
    rw [entryKey, Surface.standard, Identifier.isPlainProperty_binding_iff,
      Identifier.exists_isAlphanum_camelCase_iff]
    exact (Identifier.pascalCase_ne_empty_iff op.id).1 hname
  · decide +kernel

include hplan

/-- If a later group has the same key, a hook of the earlier one finds nothing of its own. -/
theorem valueAt?_ne_of_later {before after : List OperationGroup}
    (hgroups : plan.groups = before ++ g :: after) {later : OperationGroup} (hlater : later ∈ after)
    {value : Expr}
    (hvalue : (groupKeys later).valueAt? [entryKey (soughtEntry op)] = some value) :
    value ≠ meantKey g op := by
  obtain ⟨entry, hentry, rfl⟩ :=
    exists_of_valueAt?_groupKeys (isPlainProperty_soughtEntry hnames hg hop) hvalue
  rw [meantKey_eq]
  intro heq
  have htag := (eq_of_withoutConst_entryValue_eq heq).1
  have hmem : later ∈ plan.groups := by
    rw [hgroups]
    exact List.mem_append_right _ (List.mem_cons_of_mem _ hlater)
  rw [entryTag_eq hplan hmem hentry, entryTag_eq hplan hg (soughtEntry_mem hop)] at htag
  exact ne_of_mem_later (Plan.nodup_tags hplan) hgroups hlater htag

/-- In its group a hook finds what it is meant to if no later entry has the key. -/
theorem valueAt?_groupKeys_iff :
    (groupKeys g).valueAt? [entryKey (soughtEntry op)] = some (meantKey g op) ↔
      ∀ before after, entriesOf g = before ++ soughtEntry op :: after →
        ∀ later ∈ after, entryKey later ≠ entryKey (soughtEntry op) := by
  rw [valueAt?_groupKeys g (isPlainProperty_soughtEntry hnames hg hop), meantKey_eq]
  constructor
  · intro h before after hentries later hlater hsame
    obtain ⟨last, hlast, hlookup⟩ :=
      exists_lookup_reverse_map entryKey (entryValue g) hentries ⟨later, hlater, hsame⟩
    rw [hlookup, Option.map_some] at h
    have hid := (eq_of_withoutConst_entryValue_eq (Option.some.inj h)).2
    exact ne_of_mem_later (nodup_id_entriesOf hplan hnames hg) hentries hlast hid
  · intro h
    obtain ⟨before, after, hentries⟩ := List.append_of_mem (soughtEntry_mem hop)
    rw [lookup_reverse_map entryKey (entryValue g) hentries (h before after hentries),
      Option.map_some]

/-- **A hook finds what it is meant to exactly if that is visible.** -/
theorem valueAt?_keysValue_iff :
    (keysValue plan).valueAt? [tagKey g.tag, entryKey (soughtEntry op)] = some (meantKey g op) ↔
      IsVisible plan g op := by
  have hnamed : Identifier.isPlainProperty (tagKey g.tag) = true ↔
      ∃ c ∈ g.tag.toList, c.isAlphanum = true := by
    rw [tagKey, Identifier.isPlainProperty_binding_iff,
      Identifier.exists_isAlphanum_camelCase_iff]
  have hentry := valueAt?_groupKeys_iff hplan hnames hg hop
  obtain ⟨before, after, hgroups⟩ := List.append_of_mem hg
  -- as long as no later group has the key, the group itself is found under it
  have hlast (hkey : Identifier.isPlainProperty (tagKey g.tag) = true)
      (h : ∀ later ∈ after, tagKey later.tag ≠ tagKey g.tag) (name : String) :
      (keysValue plan).valueAt? [tagKey g.tag, name] = (groupKeys g).valueAt? [name] :=
    valueAt?_keysValue_eq plan hkey
      (lookup_reverse_map (fun g : OperationGroup ↦ tagKey g.tag) groupKeys hgroups h)
  constructor
  · intro h
    have hkey : Identifier.isPlainProperty (tagKey g.tag) = true := by
      by_contra hnot
      rw [Expr.valueAt?, if_neg hnot] at h
      exact absurd h nofun
    have hgroup (before after) (hgroups : plan.groups = before ++ g :: after) :
        ∀ later ∈ after, tagKey later.tag ≠ tagKey g.tag := by
      intro later hlater hsame
      obtain ⟨last, hlast, hlookup⟩ := exists_lookup_reverse_map
        (fun g : OperationGroup ↦ tagKey g.tag) groupKeys hgroups ⟨later, hlater, hsame⟩
      rw [valueAt?_keysValue_eq plan hkey hlookup] at h
      exact valueAt?_ne_of_later hplan hnames hg hop hgroups hlast h rfl
    rw [hlast hkey (hgroup before after hgroups)] at h
    exact ⟨hnamed.1 hkey, hgroup, hentry.1 h⟩
  · intro h
    rw [hlast (hnamed.2 h.named) (h.group before after hgroups)]
    exact hentry.2 h.entry

/-- What is declared for an operation looks its key up, but for what does not use the keys. -/
theorem looksUp_of_isHookOf {hook : Hook} (hhook : IsHookOf (tagKey g.tag) op hook) :
    (∃ d ∈ hook.declarations, LooksUp plan g op d) ∧
      ∀ d ∈ hook.declarations, d.uses "queryKeys" ≠ [] → LooksUp plan g op d := by
  have hiff := valueAt?_keysValue_iff hplan hnames hg hop
  cases hhook with
  | query hread hquery =>
    rw [soughtEntry, if_pos hread] at hiff
    have hlooks : LooksUp plan g op _ := ⟨hquery.name, _, hquery.keys, hiff⟩
    refine ⟨⟨_, List.mem_singleton_self _, hlooks⟩, fun d hd _ ↦ ?_⟩
    exact List.mem_singleton.1 hd ▸ hlooks
  | mutation hread hmutation =>
    rw [soughtEntry, if_neg (hread ▸ Bool.false_ne_true)] at hiff
    have hlooks : LooksUp plan g op _ := ⟨hmutation.name, _, hmutation.keys, hiff⟩
    refine ⟨⟨_, List.mem_cons_of_mem _ (List.mem_singleton_self _), hlooks⟩, fun d hd huses ↦ ?_⟩
    rcases List.mem_pair.1 hd with rfl | rfl
    · exact absurd rfl huses
    · exact hlooks

end

/-- **A hook finds the key that it is meant to exactly if nothing hides it.** Whenever the hooks of
a contract can be made, each looks up one key, and what uses the keys is the hook of an operation. A
query finds the function for its own key, and a mutation the key of its tag, exactly if the tag
gives a name, no later tag gives the same one, and no later entry of the tag has the name that is
looked for. -/
theorem keys_found_iff {spec : Spec} {options : RenderOptions} {text : String}
    (h : spec.render .reactQuery options .standard = .ok text) :
    ∃ plan hooks, Plan.ofSpec spec options = .ok plan ∧
      declarations plan .standard = .ok hooks ∧ text = printModule hooks ∧
      keysDeclaration plan ∈ hooks ∧
      (∀ g ∈ plan.groups, ∀ op ∈ g.operations, ∃ hook ∈ hooks, LooksUp plan g op hook) ∧
      ∀ hook ∈ hooks, hook.uses "queryKeys" ≠ [] →
        ∃ g ∈ plan.groups, ∃ op ∈ g.operations, LooksUp plan g op hook := by
  obtain ⟨plan, hooks, hplan, hhooks, htext⟩ := render_reactQuery_eq_ok_iff.1 h
  have hnames := typeName_ne_of_declarations_eq_ok hhooks
  have hmodule := isModuleOf_of_declarations_eq_ok hhooks
  have hroot : "queryKeys" ∉ localNames := by decide
  refine ⟨plan, hooks, hplan, hhooks, htext, hmodule.keys, fun g hg op hop ↦ ?_,
    fun d hd huses ↦ ?_⟩
  · obtain ⟨hook, hhook, hsubset⟩ := hmodule.hooks g hg op hop
    obtain ⟨⟨d, hd, hlooks⟩, -⟩ := looksUp_of_isHookOf hplan hnames hg hop hhook
    exact ⟨d, hsubset hd, hlooks⟩
  · obtain ⟨g, hg, op, hop, hook, hhook, hd, -⟩ := hmodule.uses d hd _ hroot huses
    exact ⟨g, hg, op, hop, (looksUp_of_isHookOf hplan hnames hg hop hhook).2 d hd huses⟩

/-- A query of servers. -/
def serverQuery (id path : String) : Operation :=
  { Spec.query id path [] with tags := ["servers"], requiresAuth := true }

/-- Two queries whose ids are told apart by capitals only. -/
def serversSpec : Spec :=
  { Spec.bare "Servers" [serverQuery "HTTPServer" "/secure", serverQuery "httpServer" "/plain"] []
    with tags := ["servers"] }

/-- The group of both queries. -/
def serversGroup : OperationGroup := ⟨"servers", serversSpec.operations⟩

theorem ofSpec_serversSpec : Plan.ofSpec serversSpec {} = .ok (.make serversSpec {}) :=
  Plan.ofSpec_eq_ok_iff.2 ⟨Option.isNone_iff_eq_none.1 (by decide +kernel), rfl⟩

theorem exists_hooks_serversSpec : ∃ hooks,
    declarations (.make serversSpec {}) .standard = .ok hooks ∧
      serversSpec.render .reactQuery {} .standard = .ok (printModule hooks) := by
  have hnames : ∀ op ∈ (Plan.make serversSpec {}).operations, typeName op.id ≠ "" := by
    decide +kernel
  obtain ⟨hooks, hhooks, -⟩ := exists_declarations hnames
  exact ⟨hooks, hhooks, render_reactQuery_eq_ok_iff.2 ⟨_, hooks, ofSpec_serversSpec, hhooks, rfl⟩⟩

/-- The later query has the key of the earlier one. -/
theorem not_isVisible_serversSpec :
    ¬IsVisible (.make serversSpec {}) serversGroup (serverQuery "HTTPServer" "/secure") := by
  intro h
  exact h.entry [none] [some (serverQuery "httpServer" "/plain")] rfl _
    (List.mem_singleton_self _) (by decide +kernel)

/-- The general statement at the servers, where both queries look up one key. -/
theorem keys_found_iff_serversSpec :
    ∃ text plan hooks, serversSpec.render .reactQuery {} .standard = .ok text ∧
      Plan.ofSpec serversSpec {} = .ok plan ∧
      declarations plan .standard = .ok hooks ∧ text = printModule hooks ∧
      keysDeclaration plan ∈ hooks ∧ plan.groups = [serversGroup] ∧
      ∀ g ∈ plan.groups, ∀ op ∈ g.operations, ∃ hook ∈ hooks, LooksUp plan g op hook := by
  obtain ⟨hooks, -, hrender⟩ := exists_hooks_serversSpec
  obtain ⟨plan, hooks', hplan, hhooks', htext, hkeys, hall, -⟩ := keys_found_iff hrender
  obtain rfl := Except.ok.inj (ofSpec_serversSpec.symm.trans hplan)
  exact ⟨_, _, hooks', hrender, ofSpec_serversSpec, hhooks', htext, hkeys, rfl, hall⟩

/-- The hook of the earlier query finds another key than its own. -/
theorem key_hidden_serversSpec :
    ∃ hooks, serversSpec.render .reactQuery {} .standard = .ok (printModule hooks) ∧
      keysDeclaration (.make serversSpec {}) ∈ hooks ∧
      ∃ op ∈ serversSpec.operations, op.method.isRead = true ∧ ∃ hook ∈ hooks,
        hook.functionName? = some ("use" ++ typeName op.id) ∧
        ∃ use, hook.uses "queryKeys" = [use] ∧
          (keysValue (.make serversSpec {})).valueAt? use.path ≠
            some (keyFunction (.standard op)) := by
  obtain ⟨hooks, hhooks, hrender⟩ := exists_hooks_serversSpec
  have hmodule := isModuleOf_of_declarations_eq_ok hhooks
  have hnames := typeName_ne_of_declarations_eq_ok hhooks
  have hgroup : serversGroup ∈ (Plan.make serversSpec {}).groups := List.mem_singleton_self _
  have hop : serverQuery "HTTPServer" "/secure" ∈ serversGroup.operations := List.mem_cons_self
  obtain ⟨hook, hhook, hsubset⟩ := hmodule.hooks _ hgroup _ hop
  obtain ⟨⟨d, hd, hlooks⟩, -⟩ :=
    looksUp_of_isHookOf ofSpec_serversSpec hnames hgroup hop hhook
  obtain ⟨use, huse, hiff⟩ := hlooks.use
  exact ⟨hooks, hrender, hmodule.keys, _, hop, rfl, d, hsubset hd, hlooks.name, use, huse,
    fun hfound ↦ not_isVisible_serversSpec (hiff.1 hfound)⟩

end ApiContract.HooksModule
