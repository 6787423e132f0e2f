import ApiContract.Proofs.Schema.WellFormed

/-!
# How far down resolution goes

A document may refer to itself, so resolution has to end somewhere. This module says where: at its
ceiling, whatever the document is. No condition is put on its keys or on where its references lead.

## Main result

`Schema.resolution_bounded`, for every document. The recursion of resolution on depths has one
solution; following a reference is the step of that recursion; and at a depth either gives a schema
that is no higher than the levels left.

## Height

The height of a schema is the number of items, properties, additional properties and variants that
stand inside one another below it. Every form that a schema may have is at most one level higher
than its fragments (`Form.height_node_le`). Merging adds no level of its own, for what is below the
merged node was below one of the branches (`mem_children_mergeAllOf`), and neither does a reference.
So resolution is no higher than the levels that it had left (`height_resolveAt_le`), by induction on
these.

## One solution

`resolveAt` counts the levels left, so that it is a recursion on a number. Counted from above,
resolution is a recursion that asks for the next depth only (`resolveStep_congr`) and for nothing
past the ceiling, so that its equation has one solution (`eq_resolve_iff`): any function that
resolves fragments by that step, however it is computed, is resolution. The induction for this is
from the ceiling upwards.
-/

namespace ApiContract

namespace Schema

/-! ### Heights -/

mutual

/-- The number of levels below a schema. -/
def height : Schema → Nat
  | ⟨shape, _, _, _, _, _, _⟩ => shapeHeight shape

/-- The number of levels below a shape. -/
def shapeHeight : Shape → Nat
  | .any | .string | .integer | .number | .boolean => 0
  | .array items => items.height + 1
  | .object properties _ additional => max (propertyHeight properties) (optionHeight additional)
  | .union variants _ => variantHeight variants

/-- The number of levels that properties make up. -/
def propertyHeight : List Property → Nat
  | [] => 0
  | ⟨_, schema⟩ :: rest => max (schema.height + 1) (propertyHeight rest)

/-- The number of levels that a schema makes up, if there is one. -/
def optionHeight : Option Schema → Nat
  | none => 0
  | some schema => schema.height + 1

/-- The number of levels that a list of schemas makes up. -/
def variantHeight : List Schema → Nat
  | [] => 0
  | schema :: rest => max (schema.height + 1) (variantHeight rest)

end

variable {s t : Schema} {levels : Nat}

theorem height_eq (s : Schema) : s.height = shapeHeight s.shape := by
  cases s
  rfl

/-- Schemas of one shape have one height. -/
theorem height_le_of_shape_eq (h : t.height ≤ levels) (hshape : s.shape = t.shape) :
    s.height ≤ levels := by
  rw [height_eq] at h ⊢
  rwa [hshape]

/-- Properties are so high if their schemas are lower. -/
theorem propertyHeight_le_iff {properties : List Property} :
    propertyHeight properties ≤ levels ↔
      ∀ schema ∈ properties.map Property.schema, schema.height < levels := by
  induction properties with
  | nil => simp [propertyHeight]
  | cons property rest ih =>
    obtain ⟨_, schema⟩ := property
    rw [propertyHeight, Nat.max_le, ih, List.map_cons, List.forall_mem_cons, Nat.succ_le_iff]

/-- Variants are so high if each is lower. -/
theorem variantHeight_le_iff {variants : List Schema} :
    variantHeight variants ≤ levels ↔ ∀ schema ∈ variants, schema.height < levels := by
  induction variants with
  | nil => simp [variantHeight]
  | cons schema rest ih =>
    rw [variantHeight, Nat.max_le, ih, List.forall_mem_cons, Nat.succ_le_iff]

/-- A schema that may be there is lower, if it is. -/
theorem optionHeight_le_iff {schema? : Option Schema} :
    optionHeight schema? ≤ levels ↔ ∀ schema ∈ schema?.toList, schema.height < levels := by
  cases schema? with
  | none => simp [optionHeight]
  | some schema =>
    rw [optionHeight, Option.toList_some, List.forall_mem_singleton, Nat.succ_le_iff]

/-- **A schema is at most so high if what is right below it is lower.** -/
theorem height_le_iff :
    s.height ≤ levels ↔ ∀ child ∈ s.shape.children, child.height < levels := by
  rw [height_eq]
  cases s.shape with
  | array items =>
    rw [shapeHeight, Shape.children, List.forall_mem_singleton, Nat.succ_le_iff]
  | object properties required additional =>
    rw [shapeHeight, Shape.children, Nat.max_le, propertyHeight_le_iff, optionHeight_le_iff,
      List.forall_mem_append]
  | union variants exclusive => exact variantHeight_le_iff
  | any | string | integer | number | boolean => simp [shapeHeight, Shape.children]

/-! ### Merging -/

/-- What is below merged parts is below one of them. -/
theorem mem_children_add {parts : ObjectParts} {branch child : Schema}
    (h : child ∈ (parts.add branch).toShape.children) :
    child ∈ parts.toShape.children ∨ child ∈ branch.shape.children := by
  unfold ObjectParts.add at h
  split at h
  · next properties required additional hshape =>
    rw [hshape]
    simp only [ObjectParts.toShape, Shape.children, List.mem_append] at h ⊢
    rcases h with hproperty | hadditional
    · obtain ⟨property, hmem, rfl⟩ := List.mem_map.1 hproperty
      rw [putProperty_eq_putBy] at hmem
      rcases mem_of_mem_foldl_putBy hmem with hold | hnew
      · exact .inl (.inl (List.mem_map_of_mem hold))
      · exact .inr (.inl (List.mem_map_of_mem hnew))
    · rw [Option.mem_toList] at hadditional
      rcases Option.or_eq_some_iff.1 (Option.orElse_eq_or .. ▸ hadditional) with hnew | ⟨-, hold⟩
      · exact .inr (.inr (Option.mem_toList.2 hnew))
      · exact .inl (.inr (Option.mem_toList.2 hold))
  · exact .inl h

/-- **What is below the merged node was below a branch.** -/
theorem mem_children_mergeAllOf {branches : List Schema} {child : Schema}
    (h : child ∈ (mergeAllOf branches).shape.children) :
    ∃ branch ∈ branches, child ∈ branch.shape.children := by
  have hfold (more : List Schema) (done : ObjectParts)
      (h : child ∈ (more.foldl ObjectParts.add done).toShape.children) :
      child ∈ done.toShape.children ∨ ∃ branch ∈ more, child ∈ branch.shape.children := by
    induction more generalizing done with
    | nil => exact .inl h
    | cons branch rest ih =>
      rcases ih (done.add branch) h with hfirst | ⟨later, hlater, hbelow⟩
      · exact (mem_children_add hfirst).imp_right fun hbelow ↦
          ⟨branch, List.mem_cons_self, hbelow⟩
      · exact .inr ⟨later, List.mem_cons_of_mem _ hlater, hbelow⟩
  exact (hfold branches {} h).resolve_left List.not_mem_nil

/-- **Merging adds no level.** -/
theorem height_mergeAllOf_le {branches : List Schema}
    (h : ∀ branch ∈ branches, branch.height ≤ levels) : (mergeAllOf branches).height ≤ levels := by
  refine height_le_iff.2 fun child hchild ↦ ?_
  obtain ⟨branch, hbranch, hbelow⟩ := mem_children_mergeAllOf hchild
  exact height_le_iff.1 (h branch hbranch) child hbelow

end Schema

/-! ### Forms -/

open Schema

variable {child : Json → Schema} {levels : Nat}

/-- What is below an object schema is no higher than its fragments. -/
theorem RecordForm.height_of_mem_children {form : RecordForm}
    (h : ∀ value ∈ form.fragments, (child value).height ≤ levels) {schema : Schema}
    (hschema : schema ∈ (form.shape child).children) : schema.height ≤ levels := by
  rcases List.mem_append.1 hschema with hproperty | hadditional
  · obtain ⟨property, hmem, rfl⟩ := List.mem_map.1 hproperty
    obtain ⟨entry, hentry, rfl⟩ := List.mem_map.1 hmem
    exact h _ (mem_fragments_of_property hentry)
  · obtain ⟨value, hvalue, rfl⟩ := Option.map_eq_some_iff.1 (Option.mem_toList.1 hadditional)
    cases value with
    | none => exact Nat.zero_le levels
    | some value => exact h value (mem_fragments_of_additional hvalue)

theorem TypedForm.height_of_mem_children {form : TypedForm}
    (hleaf : ∀ shape, form = .leaf shape → shape.children = [])
    (h : ∀ value ∈ form.fragments, (child value).height ≤ levels) {schema : Schema}
    (hschema : schema ∈ (form.shape child).children) : schema.height ≤ levels := by
  cases form with
  | list items =>
    obtain rfl := List.mem_singleton.1 hschema
    cases items with
    | none => exact Nat.zero_le levels
    | some value => exact h value (List.mem_singleton_self value)
  | record form => exact RecordForm.height_of_mem_children h hschema
  | leaf shape => exact absurd (hleaf shape rfl ▸ hschema) List.not_mem_nil

/-- **A form is at most one level higher than its fragments.** -/
theorem Form.height_node_le {form : Form}
    (hleaf : ∀ shape nullable, form = .typed (.leaf shape) nullable → shape.children = [])
    (h : ∀ value ∈ form.fragments, (child value).height ≤ levels) :
    (form.node child).height ≤ levels + 1 := by
  cases form with
  | wrapped branch => exact Nat.le_succ_of_le (h branch (List.mem_singleton_self branch))
  | merged branches beside =>
    refine height_mergeAllOf_le fun branch hbranch ↦ ?_
    rcases List.mem_append.1 hbranch with hown | hbeside
    · obtain ⟨value, hvalue, rfl⟩ := List.mem_map.1 hown
      exact Nat.le_succ_of_le (h value (List.mem_append_left _ hvalue))
    · -- what stands beside the branches is resolved at their depth, so it is a level higher
      obtain ⟨record, hrecord, rfl⟩ := List.mem_map.1 hbeside
      refine height_le_iff.2 fun schema hschema ↦ Nat.lt_succ_of_le ?_
      exact record.height_of_mem_children (fun value hvalue ↦
        h value (List.mem_append_right _ (List.mem_flatMap.2 ⟨record, hrecord, hvalue⟩))) hschema
  | choice branches exclusive =>
    refine height_le_iff.2 fun schema hschema ↦ Nat.lt_succ_of_le ?_
    obtain ⟨value, hvalue, rfl⟩ := List.mem_map.1 hschema
    exact h value hvalue
  | typed form nullable =>
    refine height_le_iff.2 fun schema hschema ↦ Nat.lt_succ_of_le ?_
    exact form.height_of_mem_children (fun shape hshape ↦ hleaf shape nullable (hshape ▸ rfl)) h
      hschema

namespace Schema

variable {fields : List (String × Json)} {root : Json}

/-- A type that is not one of arrays or objects has nothing below it. -/
theorem children_of_formOf_eq_leaf {shape : Shape} {nullable : Bool}
    (h : formOf fields = .typed (.leaf shape) nullable) : shape.children = [] := by
  have htyped (h : typedForm fields = .leaf shape) : shape.children = [] := by
    unfold typedForm at h
    split at h
    case h_5 | h_6 => exact absurd h nofun
    case h_8 =>
      split at h
      · exact absurd h nofun
      · exact TypedForm.leaf.inj h ▸ children_impliedShape
    all_goals exact TypedForm.leaf.inj h ▸ rfl
  unfold formOf at h
  split at h
  · unfold composedForm at h
    split at h <;> exact absurd h nofun
  · split at h
    · exact absurd h nofun
    · split at h
      · exact absurd h nofun
      · exact htyped (Form.typed.inj h).1

/-! ### Levels left -/

/-- A schema is at most one level higher than its fragments. -/
theorem height_ofFields_le
    (h : ∀ value ∈ (formOf fields).fragments, (child value).height ≤ levels) :
    (ofFields child fields).height ≤ levels + 1 := by
  have hnode := Form.height_node_le (fun _ _ hleaf ↦ children_of_formOf_eq_leaf hleaf) h
  rw [ofFields_eq]
  exact height_le_of_shape_eq hnode rfl

/-- A reference is no higher than its target. -/
theorem height_ofReference_le {left : Nat} {reference : String}
    (h : ∀ value, (child value).height ≤ levels) :
    (ofReference root left child reference).height ≤ levels := by
  rw [ofReference]
  split
  · exact Nat.zero_le levels
  · split
    · next target _ => exact height_le_of_shape_eq (h target) rfl
    · exact Nat.zero_le levels

/-- **Resolution is no higher than the levels that it has left.** -/
theorem height_resolveAt_le (root : Json) (levels : Nat) (value : Json) :
    (resolveAt root levels value).height ≤ levels := by
  induction levels generalizing value with
  | zero => exact Nat.le_refl 0
  | succ levels ih =>
    cases value with
    | object fields =>
      rw [resolveAt]
      split
      · exact Nat.le_succ_of_le (height_ofReference_le ih)
      · exact height_ofFields_le fun fragment _ ↦ ih fragment
    | _ => exact Nat.zero_le _

/-! ### Depths -/

/-- What a reference stands for at a depth, given how to resolve any fragment at any depth. -/
def referenceStep (root : Json) (resolved : Json → Nat → Schema) (reference : String)
    (depth : Nat) : Schema :=
  if maxResolveDepth < depth + 1 then any
  else
    match Pointer.resolve? root reference with
    | some target =>
      { resolved target (depth + 1) with refName := Pointer.referenceName? reference }
    | none => any

/-- What a fragment describes at a depth, given how to resolve any fragment at any depth. -/
def resolveStep (root : Json) (resolved : Json → Nat → Schema) (value : Json) (depth : Nat) :
    Schema :=
  if maxResolveDepth < depth then any
  else
    match value with
    | .object fields =>
      match field? "$ref" fields with
      | some (.string reference) => referenceStep root resolved reference depth
      | _ => ofFields (fun part ↦ resolved part (depth + 1)) fields
    | _ => any

variable {resolved resolved' : Json → Nat → Schema}

/-- **A step asks for the next depth only.** -/
theorem resolveStep_congr {depth : Nat}
    (h : depth ≤ maxResolveDepth →
      ∀ value, resolved value (depth + 1) = resolved' value (depth + 1)) (value : Json) :
    resolveStep root resolved value depth = resolveStep root resolved' value depth := by
  unfold resolveStep
  split
  · rfl
  · next hdepth =>
    have hnext : (fun part ↦ resolved part (depth + 1)) = fun part ↦ resolved' part (depth + 1) :=
      funext (h (Nat.le_of_not_lt hdepth))
    simp only [referenceStep, congrFun hnext]

theorem resolve_succ (value : Json) (depth : Nat) :
    resolve root value (depth + 1) = resolveAt root (maxResolveDepth - depth) value := by
  rw [resolve, Nat.add_sub_add_right]

/-- Following a reference is a step of the recursion. -/
theorem resolveReference_eq_step (reference : String) (depth : Nat) :
    resolveReference root reference depth = referenceStep root (resolve root) reference depth := by
  unfold resolveReference ofReference referenceStep
  dsimp only
  by_cases hdepth : maxResolveDepth < depth + 1
  · rw [if_pos hdepth, if_pos (by omega)]
  · refine (if_neg (by omega)).trans (Eq.trans ?_ (if_neg hdepth).symm)
    cases Pointer.resolve? root reference with
    | none => rfl
    | some target => simp only [resolve_succ]

/-- **Resolution solves its recursion.** -/
theorem resolve_eq_step (value : Json) (depth : Nat) :
    resolve root value depth = resolveStep root (resolve root) value depth := by
  unfold resolveStep
  split
  · next hdepth => rw [resolve, show maxResolveDepth + 1 - depth = 0 by omega, resolveAt]
  · next hdepth =>
    have hlevels : maxResolveDepth + 1 - depth = maxResolveDepth - depth + 1 := by omega
    simp only [resolve_succ]
    rw [resolve, hlevels]
    cases value with
    | object fields =>
      dsimp only
      split
      · next reference hreference =>
        rw [resolveAt_reference _ hreference]
        exact resolveReference_eq_step reference depth
      · next hno => exact resolveAt_ofFields _ hno
    | _ => rfl

/-- **The recursion of resolution has one solution.** -/
theorem eq_resolve_iff :
    (∀ value depth, resolved value depth = resolveStep root resolved value depth) ↔
      resolved = resolve root := by
  constructor
  · intro h
    -- on the levels left, over all depths that leave no more
    have hlevels (levels : Nat) (value : Json) (depth : Nat)
        (hleft : maxResolveDepth + 1 - depth ≤ levels) :
        resolved value depth = resolve root value depth := by
      induction levels generalizing value depth with
      | zero =>
        rw [h, resolve_eq_step]
        exact resolveStep_congr (fun hdepth ↦ absurd hdepth (by omega)) value
      | succ levels ih =>
        rw [h, resolve_eq_step]
        exact resolveStep_congr (fun _ part ↦ ih part (depth + 1) (by omega)) value
    exact funext fun value ↦ funext fun depth ↦ hlevels _ value depth (Nat.le_refl _)
  · rintro rfl
    exact resolve_eq_step

/-- **Resolution ends, and goes no further down than the ceiling**, on every document and wherever
its references lead. There is one way to resolve fragments by the recursion on the levels left, and
at a depth it gives a schema that is no higher than these levels; so does following a reference. -/
theorem resolution_bounded (root : Json) :
    (∀ resolved : Json → Nat → Schema,
      (∀ value depth, resolved value depth = resolveStep root resolved value depth) ↔
        resolved = resolve root) ∧
      (∀ reference depth,
        resolveReference root reference depth = referenceStep root (resolve root) reference depth) ∧
      (∀ value depth, (resolve root value depth).height ≤ maxResolveDepth + 1 - depth) ∧
      ∀ reference depth,
        (resolveReference root reference depth).height ≤ maxResolveDepth + 1 - depth := by
  refine ⟨fun _ ↦ eq_resolve_iff, resolveReference_eq_step, fun value depth ↦ ?_,
    fun reference depth ↦ ?_⟩
  · exact height_resolveAt_le root _ value
  · have hbelow (value : Json) :
        (resolveAt root (maxResolveDepth - depth) value).height ≤ maxResolveDepth + 1 - depth :=
      Nat.le_trans (height_resolveAt_le root _ value) (by omega)
    exact height_ofReference_le hbelow

/-- A document that is a list of itself is cut at the ceiling, two levels down at a time. -/
example :
    let root : Json :=
      .object [("type", .string "array"), ("items", .object [("$ref", .string "#")])]
    (resolve root root 0).height = 5 ∧ (resolve root root 8).height = 1 := by
  decide +kernel

end Schema

end ApiContract
