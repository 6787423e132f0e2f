import ApiContract.Proofs.Json.DistinctKeys
import ApiContract.Proofs.Schema.Form

/-!
# Well-formed schemas

A schema is well formed to a number of levels if no node of it is further down than that, no object
node has two properties of one name and no node lists `null` among its values. These are what
generated code relies on: it ends, members are declared once, and `null` is said by the nullability
alone.

## Main result

`Schema.wellFormed_resolveAt`: resolution with so many levels left gives a schema that is well
formed to them, whatever the references of the document are, provided that no object of the document
repeats a key. Documents that were read repeat none (`Proofs.Json.DistinctKeys`).

## Representation

Nodes are reached by `HasNode`, a number of levels down; `IsSound` is what is asked of one node by
itself, and `WellFormed` puts the two together. A node over well-formed schemas is well formed with
one level more (`WellFormed.of_children`), which is the only way in which such schemas are made.

## Proof

Every form that a schema may have is made of schemas with one level less, and the forms are gone
through once, in `Form.wellFormed_node`. Merging is the case with an argument: the properties of the
branches are put one by one, so no name is repeated (`WellFormed.ofParts_add`). What the keywords
say beside the form keeps the shape, and `null` is taken out of the listed values when they are read
(`null_not_mem_listedValues`).
-/

namespace ApiContract

/-- The schemas right below a node of that shape. -/
def Shape.children : Shape → List Schema
  | .array items => [items]
  | .object properties _ additional => properties.map Property.schema ++ additional.toList
  | .union variants _ => variants
  | .any | .string | .integer | .number | .boolean => []

namespace Schema

/-- A schema has a node that many levels down. -/
inductive HasNode : Schema → Nat → Schema → Prop
  | self (s : Schema) : HasNode s 0 s
  | descend {s child node : Schema} {n : Nat} (hchild : child ∈ s.shape.children)
      (h : HasNode child n node) : HasNode s (n + 1) node

/-- A node that is in order by itself. -/
structure IsSound (node : Schema) : Prop where
  properties : (node.properties.map Property.name).Nodup
  enumValues : .null ∉ node.enumValues

/-- The nodes of a schema are in order, and none is more levels down than that. -/
def WellFormed (levels : Nat) (s : Schema) : Prop :=
  ∀ ⦃n : Nat⦄ ⦃node : Schema⦄, s.HasNode n node → n ≤ levels ∧ node.IsSound

namespace IsSound

variable {s t : Schema}

/-- A node is in order if one of its shape is. -/
theorem of_shape_eq (h : s.IsSound) (hshape : t.shape = s.shape)
    (henum : .null ∉ t.enumValues) : t.IsSound where
  properties := by
    rw [Schema.properties, hshape]
    exact h.properties
  enumValues := henum

/-- A node without children is in order if it does not list `null`. -/
theorem of_children_eq_nil (hchildren : s.shape.children = []) (henum : .null ∉ s.enumValues) :
    s.IsSound where
  properties := by
    unfold Schema.properties
    split
    · next properties _ additional hshape =>
      rw [hshape] at hchildren
      obtain ⟨hproperties, -⟩ := List.append_eq_nil_iff.1 hchildren
      rw [List.map_eq_nil_iff.1 hproperties]
      exact List.nodup_nil
    · exact List.nodup_nil
  enumValues := henum

end IsSound

namespace WellFormed

variable {s t child : Schema} {levels : Nat}

theorem isSound (h : s.WellFormed levels) : s.IsSound := (h (.self s)).2

theorem mono {more : Nat} (h : s.WellFormed levels) (hle : levels ≤ more) : s.WellFormed more :=
  fun _ _ hnode ↦ (h hnode).imp_left fun hn ↦ Nat.le_trans hn hle

/-- What is right below a well-formed node is well formed with one level less. -/
theorem of_mem_children (h : s.WellFormed (levels + 1)) (hchild : child ∈ s.shape.children) :
    child.WellFormed levels :=
  fun _ _ hnode ↦ (h (.descend hchild hnode)).imp_left Nat.le_of_succ_le_succ

/-- A node over well-formed schemas is well formed with one level more. -/
theorem of_children (hsound : s.IsSound)
    (hchildren : ∀ child ∈ s.shape.children, child.WellFormed levels) :
    s.WellFormed (levels + 1) := by
  intro n node hnode
  cases hnode with
  | self => exact ⟨Nat.zero_le _, hsound⟩
  | descend hchild hbelow => exact (hchildren _ hchild hbelow).imp_left Nat.succ_le_succ

/-- Below a node only its shape matters. -/
theorem of_shape_eq (h : s.WellFormed levels) (hshape : t.shape = s.shape)
    (henum : .null ∉ t.enumValues) : t.WellFormed levels := by
  intro n node hnode
  cases hnode with
  | self => exact ⟨Nat.zero_le _, h.isSound.of_shape_eq hshape henum⟩
  | descend hchild hbelow => exact h (.descend (hshape ▸ hchild) hbelow)

end WellFormed

/-- A node without children is well formed at any level. -/
theorem wellFormed_of_children_eq_nil {s : Schema} (hchildren : s.shape.children = [])
    (henum : .null ∉ s.enumValues) (levels : Nat) : s.WellFormed levels := by
  intro n node hnode
  cases hnode with
  | self => exact ⟨Nat.zero_le _, .of_children_eq_nil hchildren henum⟩
  | descend hchild => exact absurd (hchildren ▸ hchild) List.not_mem_nil

theorem wellFormed_any (levels : Nat) : any.WellFormed levels :=
  wellFormed_of_children_eq_nil rfl List.not_mem_nil levels

/-! ### Annotations -/

variable {fields : List (String × Json)} {levels : Nat}

/-- The values that a schema is said to list are never `null`. -/
theorem null_not_mem_listedValues {otherwise : List Json} (h : .null ∉ otherwise) :
    .null ∉ listedValues fields otherwise := by
  unfold listedValues
  split
  · simp [Json.isNull]
  · next value _ _ =>
    split
    · exact h
    · next hnull =>
      intro hmem
      exact hnull (List.mem_singleton.1 hmem ▸ rfl)
  · exact h

theorem WellFormed.annotate {node : Schema} (h : node.WellFormed levels) :
    (annotate fields node).WellFormed levels :=
  h.of_shape_eq rfl (null_not_mem_listedValues h.isSound.enumValues)

/-! ### Merging -/

/-- A node with those object parts and nothing else. -/
def ofParts (parts : ObjectParts) : Schema := { shape := parts.toShape }

/-- A node of object parts is well formed if they repeat no property and are well formed with one
level less. -/
theorem wellFormed_ofParts_iff {parts : ObjectParts} :
    (ofParts parts).WellFormed (levels + 1) ↔
      (parts.properties.map Property.name).Nodup ∧
        (∀ property ∈ parts.properties, property.schema.WellFormed levels) ∧
        ∀ additional, parts.additional = some additional → additional.WellFormed levels := by
  constructor
  · intro h
    refine ⟨h.isSound.properties, fun property hmem ↦ ?_, fun additional hsome ↦ ?_⟩
    · exact h.of_mem_children (List.mem_append_left _ (List.mem_map_of_mem hmem))
    · exact h.of_mem_children (List.mem_append_right _ (Option.mem_toList.2 hsome))
  · rintro ⟨hnames, hproperties, hadditional⟩
    refine .of_children ⟨hnames, List.not_mem_nil⟩ fun child hchild ↦ ?_
    rcases List.mem_append.1 hchild with hproperty | hsome
    · obtain ⟨property, hmem, rfl⟩ := List.mem_map.1 hproperty
      exact hproperties property hmem
    · exact hadditional child (Option.mem_toList.1 hsome)

/-- Merging one more branch keeps the properties apart. -/
theorem WellFormed.ofParts_add {parts : ObjectParts} {branch : Schema}
    (hparts : (ofParts parts).WellFormed (levels + 1)) (hbranch : branch.WellFormed (levels + 1)) :
    (ofParts (parts.add branch)).WellFormed (levels + 1) := by
  unfold ObjectParts.add
  split
  · next properties required additional hshape =>
    have hbelow : (ofParts ⟨properties, required, additional⟩).WellFormed (levels + 1) :=
      hbranch.of_shape_eq hshape.symm List.not_mem_nil
    obtain ⟨hnames, hproperties, hadditional⟩ := wellFormed_ofParts_iff.1 hparts
    obtain ⟨-, hproperties', hadditional'⟩ := wellFormed_ofParts_iff.1 hbelow
    refine wellFormed_ofParts_iff.2 ⟨?_, fun property hmem ↦ ?_, fun schema hsome ↦ ?_⟩
    · dsimp only
      rw [putProperty_eq_putBy]
      exact nodup_map_foldl_putBy hnames
    · dsimp only at hmem
      rw [putProperty_eq_putBy] at hmem
      exact (mem_of_mem_foldl_putBy hmem).elim (hproperties property) (hproperties' property)
    · rcases Option.or_eq_some_iff.1 (Option.orElse_eq_or .. ▸ hsome) with hown | ⟨-, hbefore⟩
      · exact hadditional' schema hown
      · exact hadditional schema hbefore
  · exact hparts

/-- **Merged branches are well formed if the branches are.** -/
theorem wellFormed_mergeAllOf {branches : List Schema}
    (h : ∀ branch ∈ branches, branch.WellFormed (levels + 1)) :
    (mergeAllOf branches).WellFormed (levels + 1) := by
  have hfold (more : List Schema) (hmore : ∀ branch ∈ more, branch.WellFormed (levels + 1))
      (done : ObjectParts) (hdone : (ofParts done).WellFormed (levels + 1)) :
      (ofParts (more.foldl ObjectParts.add done)).WellFormed (levels + 1) := by
    induction more generalizing done with
    | nil => exact hdone
    | cons branch rest ih =>
      obtain ⟨hbranch, hrest⟩ := List.forall_mem_cons.1 hmore
      exact ih hrest _ (hdone.ofParts_add hbranch)
  exact hfold branches h {} (wellFormed_ofParts_iff.2
    ⟨List.nodup_nil, fun _ hmem ↦ absurd hmem List.not_mem_nil, fun _ hsome ↦ absurd hsome nofun⟩)

end Schema

/-! ### Forms -/

open Schema

variable {child : Json → Schema} {fields : List (String × Json)} {levels : Nat}

namespace RecordForm

variable {form : RecordForm}

/-- The node of an object schema is well formed if it repeats no property. -/
theorem wellFormed_shape (hnames : (form.properties.map Prod.fst).Nodup)
    (h : ∀ value ∈ form.fragments, (child value).WellFormed levels) (nullable : Bool) :
    ({ shape := form.shape child, nullable := nullable } : Schema).WellFormed (levels + 1) := by
  have hparts : (ofParts ⟨form.properties.map fun entry ↦ ⟨entry.1, child entry.2⟩, form.required,
      form.additional.map fun value ↦ (value.map child).getD Schema.any⟩).WellFormed
        (levels + 1) := by
    refine wellFormed_ofParts_iff.2 ⟨?_, fun property hmem ↦ ?_, fun schema hsome ↦ ?_⟩
    · rw [List.map_map]
      exact hnames
    · obtain ⟨entry, hentry, rfl⟩ := List.mem_map.1 hmem
      exact h _ (mem_fragments_of_property hentry)
    · obtain ⟨value, hvalue, rfl⟩ := Option.map_eq_some_iff.1 hsome
      cases value with
      | none => exact wellFormed_any levels
      | some value => exact h value (mem_fragments_of_additional hvalue)
  exact hparts.of_shape_eq rfl List.not_mem_nil

/-- The properties that an object schema declares are the fields of an object. -/
theorem nodup_recordForm (h : (Json.object fields).DistinctKeys) :
    ((recordForm fields).properties.map Prod.fst).Nodup := by
  rw [recordForm]
  dsimp only
  split
  · next hfield => exact h (.field? hfield)
  · exact List.nodup_nil

end RecordForm

/-- A form that repeats no property and has no schemas but those of its fragments. -/
def Form.IsPlain : Form → Prop
  | merged _ (some form) | typed (.record form) _ => (form.properties.map Prod.fst).Nodup
  | typed (.leaf shape) _ => shape.children = []
  | wrapped _ | merged _ none | choice _ _ | typed (.list _) _ => True

namespace Form

/-- **A plain form over well-formed schemas is well formed with one level more.** -/
theorem wellFormed_node {form : Form} (hplain : form.IsPlain)
    (h : ∀ value ∈ form.fragments, (child value).WellFormed levels) :
    (form.node child).WellFormed (levels + 1) := by
  cases form with
  | wrapped branch => exact (h branch (List.mem_singleton_self branch)).mono (Nat.le_succ levels)
  | merged branches beside =>
    refine wellFormed_mergeAllOf fun branch hbranch ↦ ?_
    rcases List.mem_append.1 hbranch with hown | hbeside
    · obtain ⟨value, hvalue, rfl⟩ := List.mem_map.1 hown
      exact (h value (List.mem_append_left _ hvalue)).mono (Nat.le_succ levels)
    · obtain ⟨record, hrecord, rfl⟩ := List.mem_map.1 hbeside
      obtain rfl := Option.mem_toList.1 hrecord
      exact record.wellFormed_shape hplain (fun value hvalue ↦
        h value (List.mem_append_right _ (List.mem_flatMap.2 ⟨record, hrecord, hvalue⟩))) false
  | choice branches exclusive =>
    refine .of_children ⟨List.nodup_nil, List.not_mem_nil⟩ fun schema hschema ↦ ?_
    obtain ⟨value, hvalue, rfl⟩ := List.mem_map.1 hschema
    exact h value hvalue
  | typed form nullable =>
    cases form with
    | list items =>
      refine .of_children ⟨List.nodup_nil, List.not_mem_nil⟩ fun schema hschema ↦ ?_
      obtain rfl := List.mem_singleton.1 hschema
      cases items with
      | none => exact wellFormed_any levels
      | some value => exact h value (List.mem_singleton_self value)
    | record form => exact form.wellFormed_shape hplain h nullable
    | leaf shape =>
      have hchildren : shape.children = [] := hplain
      exact wellFormed_of_children_eq_nil hchildren List.not_mem_nil _

end Form

namespace Schema

/-- A shape that is implied has nothing below it. -/
theorem children_impliedShape : (impliedShape fields).children = [] := by
  have hvalues (values : List Json) : (shapeOfValues values).children = [] := by
    unfold shapeOfValues
    repeat' split
    all_goals rfl
  unfold impliedShape
  split
  · exact hvalues _
  · exact hvalues _
  · rfl

/-- **The keywords of a schema give a plain form**, if no key is repeated. -/
theorem isPlain_formOf (h : (Json.object fields).DistinctKeys) : (formOf fields).IsPlain := by
  have hrecord := RecordForm.nodup_recordForm h
  have htyped : (Form.typed (typedForm fields) (declaredType fields).2).IsPlain := by
    unfold typedForm
    split
    case h_5 => trivial
    case h_6 => exact hrecord
    case h_8 =>
      split
      · exact hrecord
      · exact children_impliedShape
    all_goals rfl
  unfold formOf
  split
  · unfold composedForm
    split
    · trivial
    · trivial
    · exact hrecord
  · split
    · trivial
    · split
      · trivial
      · exact htyped

variable {root value : Json}

/-- **Resolution gives a well-formed schema**, of no more levels than it had left. -/
theorem wellFormed_resolveAt (hroot : root.DistinctKeys) (levels : Nat)
    (hpart : root.HasPart value) : (resolveAt root levels value).WellFormed levels := by
  induction levels generalizing value with
  | zero => exact wellFormed_any 0
  | succ levels ih =>
    cases value with
    | object fields =>
      rw [resolveAt]
      split
      · rw [ofReference]
        split
        · exact wellFormed_any _
        · split
          · next target htarget =>
            have htargetForm := (ih (.resolve? htarget)).mono (Nat.le_succ levels)
            exact htargetForm.of_shape_eq rfl htargetForm.isSound.enumValues
          · exact wellFormed_any _
      · rw [ofFields_eq]
        exact (Form.wellFormed_node (isPlain_formOf (hroot.of_hasPart hpart)) fun fragment hmem ↦
          ih (hpart.trans (hasPart_of_mem_fragments hmem))).annotate
    | _ => exact wellFormed_any _

end Schema

end ApiContract
