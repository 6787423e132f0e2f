import ApiContract.Proofs.Json.Pointer
import ApiContract.Proofs.Plan
import ApiContract.Proofs.Schema.Form
import ApiContract.Spec.Build

/-!
# What a named node refers to

A node that was reached through a reference carries the last segment of the reference as its name,
and generated code means the component schema of that name by it. The name alone does not say where
the reference led.

## Main result

`Spec.refName_means_component`, for every document whose contract can be rendered. The name of a
node that is seen in a schema is that of a component schema and the name of the reference; and if
the reference is one to a component schema, then it leads to the entry of that name.

## References to other places

A contract that can be rendered has a component schema of each name that is seen
(`Spec.refName_mem_componentNames`), since plans check for that. But a reference to some other place
may end in the name of a component schema too, and then the node is taken for that one. In
`named_elsewhere_statusDocument`, an answer refers to the property `status` of one component schema
and is typed as another component schema of that name.

## Seeing

A node is seen in a schema if no named node stands above it (`Schema.Shows`), for generated code
looks no further than a name. The names of the nodes that are seen are those that the schema refers
to (`Shows.mem_references`), by induction on `Shows` along the recursion that gathers the
references.
-/

namespace ApiContract

/-- A node is seen in a schema: no named node stands above it. -/
inductive Schema.Shows : Schema → Schema → Prop
  | self (s : Schema) : Schema.Shows s s
  | items {s items node : Schema} (hname : s.refName = none) (hshape : s.shape = .array items)
      (h : Schema.Shows items node) : Schema.Shows s node
  | property {s node : Schema} {properties : List Property} {required : NameSet}
      {additional : Option Schema} {property : Property} (hname : s.refName = none)
      (hshape : s.shape = .object properties required additional) (hmem : property ∈ properties)
      (h : Schema.Shows property.schema node) : Schema.Shows s node
  | additional {s node : Schema} {properties : List Property} {required : NameSet}
      {additional : Schema} (hname : s.refName = none)
      (hshape : s.shape = .object properties required (some additional))
      (h : Schema.Shows additional node) : Schema.Shows s node
  | variant {s node : Schema} {variants : List Schema} {exclusive : Bool} {variant : Schema}
      (hname : s.refName = none) (hshape : s.shape = .union variants exclusive)
      (hmem : variant ∈ variants) (h : Schema.Shows variant node) : Schema.Shows s node

/-- The schemas of a contract: of its models and of its operations. -/
def Spec.schemas (spec : Spec) : List Schema :=
  spec.models.map Model.schema ++ spec.operations.flatMap Plan.operationSchemas

namespace Schema

/-- An unnamed schema refers to what its shape refers to. -/
theorem references_of_refName_eq_none {s : Schema} (h : s.refName = none) :
    s.references = shapeReferences s.shape := by
  obtain ⟨shape, _, _, _, _, refName, _⟩ := s
  obtain rfl : refName = none := h
  rfl

/-- A named schema refers to its name. -/
theorem references_of_refName_eq_some {s : Schema} {name : String} (h : s.refName = some name) :
    s.references = [name] := by
  obtain ⟨_, _, _, _, _, refName, _⟩ := s
  obtain rfl : refName = some name := h
  rfl

/-- Properties refer to what their schemas refer to. -/
theorem propertyReferences_eq_flatMap (properties : List Property) :
    propertyReferences properties =
      properties.flatMap fun property ↦ property.schema.references := by
  induction properties with
  | nil => rfl
  | cons property rest ih =>
    obtain ⟨name, schema⟩ := property
    rw [propertyReferences, ih, List.flatMap_cons]

/-- Variants refer to what each of them refers to. -/
theorem variantReferences_eq_flatMap (variants : List Schema) :
    variantReferences variants = variants.flatMap references := by
  induction variants with
  | nil => rfl
  | cons variant rest ih => rw [variantReferences, ih, List.flatMap_cons]

/-- The name of a node that is seen is one that the schema refers to. -/
theorem Shows.mem_references {s node : Schema} (h : s.Shows node) {name : String}
    (hname : node.refName = some name) : name ∈ s.references := by
  induction h with
  | self s =>
    rw [references_of_refName_eq_some hname]
    exact List.mem_singleton_self name
  | items hnone hshape _ ih =>
    rw [references_of_refName_eq_none hnone, hshape]
    exact ih hname
  | property hnone hshape hmem _ ih =>
    rw [references_of_refName_eq_none hnone, hshape, shapeReferences, propertyReferences_eq_flatMap]
    exact List.mem_append_left _ (List.mem_flatMap.2 ⟨_, hmem, ih hname⟩)
  | additional hnone hshape _ ih =>
    rw [references_of_refName_eq_none hnone, hshape, shapeReferences]
    exact List.mem_append_right _ (ih hname)
  | variant hnone hshape hmem _ ih =>
    rw [references_of_refName_eq_none hnone, hshape, shapeReferences, variantReferences_eq_flatMap]
    exact List.mem_flatMap.2 ⟨_, hmem, ih hname⟩

/-- The name of a node that a reference leads to is that of the reference. -/
theorem referenceName?_of_refName {root : Json} {levels : Nat} {fields : List (String × Json)}
    {reference name : String} (hreference : field? "$ref" fields = some (.string reference))
    (hname : (resolveAt root levels (.object fields)).refName = some name) :
    Pointer.referenceName? reference = some name := by
  cases levels with
  | zero => exact absurd hname nofun
  | succ levels =>
    rw [resolveAt_reference levels hreference, ofReference] at hname
    split at hname
    · exact absurd hname nofun
    · split at hname
      · exact hname
      · exact absurd hname nofun

end Schema

namespace Pointer

/-- The name of a reference is its last segment. -/
theorem referenceName?_of_segments? {reference name : String} (front : List (List Char))
    {last : List Char} (hsegments : segments? reference.toList = some (front ++ [last]))
    (hname : referenceName? reference = some name) : name = String.ofList (unescape last) := by
  have hlast : (reference.toList.splitOn '/').getLast? = some last := by
    unfold segments? at hsegments
    split at hsegments
    · exact absurd hsegments (by simp)
    · next path heq =>
      have hhash : '/' ∉ ['#'] := by decide
      have hsplit : reference.toList.splitOn '/' = ['#'] :: path.splitOn '/' := by
        rw [heq]
        exact List.splitOn_append_cons_self_of_not_mem hhash path
      rw [hsplit, Option.some.inj hsegments, ← List.cons_append, List.getLast?_concat]
    · exact absurd hsegments nofun
  rw [referenceName?, hlast] at hname
  dsimp only at hname
  split at hname
  · exact absurd hname nofun
  · exact (Option.some.inj hname).symm

end Pointer

namespace Spec

variable {root : Json} {options : RenderOptions} {plan : Plan}

/-- The models of a document are named after its component schemas. -/
theorem map_name_models_ofDocument :
    (ofDocument root).models.map Model.name =
      (Build.componentEntries root "schemas").map Prod.fst := by
  rw [ofDocument, build, Build.models, List.map_map]
  rfl

/-- **A name that is seen is that of a component schema**, if the contract can be rendered. -/
theorem refName_mem_componentNames (hplan : Plan.ofSpec (ofDocument root) options = .ok plan)
    {schema node : Schema} (hschema : schema ∈ (ofDocument root).schemas)
    (hshows : schema.Shows node) {name : String} (hname : node.refName = some name) :
    name ∈ (Build.componentEntries root "schemas").map Prod.fst := by
  have hfault := (Plan.ofSpec_eq_ok_iff.1 hplan).1
  have hmem := hshows.mem_references hname
  rw [← map_name_models_ofDocument]
  rcases List.mem_append.1 hschema with hmodels | hoperation
  · obtain ⟨model, hmodel, rfl⟩ := List.mem_map.1 hmodels
    exact Plan.mem_modelNames_of_model hfault hmodel hmem
  · obtain ⟨op, hop, hschema⟩ := List.mem_flatMap.1 hoperation
    exact Plan.mem_modelNames_of_operation hfault hop hschema hmem

/-- A reference to a component schema leads to the entry of that name. -/
theorem resolve?_of_componentSegments {reference : String} {last : List Char}
    (hsegments : Pointer.segments? reference.toList =
      some ["components".toList, "schemas".toList, last])
    (hmem : String.ofList (Pointer.unescape last) ∈
      (Build.componentEntries root "schemas").map Prod.fst) :
    Pointer.resolve? root reference =
      field? (String.ofList (Pointer.unescape last)) (Build.componentEntries root "schemas") := by
  have hcomponents (value : Json) :
      Pointer.step? (Pointer.unescape "components".toList) value = value.get? "components" :=
    Pointer.step?_eq_get? (by decide +kernel) (by decide +kernel) value
  have hschemas (value : Json) :
      Pointer.step? (Pointer.unescape "schemas".toList) value = value.get? "schemas" :=
    Pointer.step?_eq_get? (by decide +kernel) (by decide +kernel) value
  have hwalk : Pointer.resolve? root reference =
      ((root.get? "components").bind fun components ↦ components.get? "schemas").bind
        (Pointer.step? (Pointer.unescape last)) := by
    rw [Pointer.resolve?, hsegments, Option.bind_some, Pointer.walk?, hcomponents,
      Option.bind_assoc]
    refine Option.bind_congr fun components _ ↦ ?_
    rw [Pointer.walk?, hschemas]
    exact Option.bind_congr fun schemas _ ↦ Option.bind_fun_some _
  rw [Build.componentEntries] at hmem ⊢
  rw [hwalk]
  -- a section with an entry of that name is an object, and a step into an object is a lookup
  generalize ((root.get? "components").bind fun components ↦ components.get? "schemas") = schemas
    at hmem ⊢
  cases schemas with
  | none => exact absurd hmem List.not_mem_nil
  | some found =>
    cases found with
    | object entries => rfl
    | _ => exact absurd hmem List.not_mem_nil

/-- **A named node is the component schema of its name** where it was referred to as one. -/
theorem refName_means_component (hplan : Plan.ofSpec (ofDocument root) options = .ok plan)
    {schema : Schema} (hschema : schema ∈ (ofDocument root).schemas) {levels : Nat}
    {fields : List (String × Json)} {reference name : String}
    (hreference : field? "$ref" fields = some (.string reference))
    (hshows : schema.Shows (Schema.resolveAt root levels (.object fields)))
    (hname : (Schema.resolveAt root levels (.object fields)).refName = some name) :
    name ∈ (Build.componentEntries root "schemas").map Prod.fst ∧
      Pointer.referenceName? reference = some name ∧
      ∀ last, Pointer.segments? reference.toList =
          some ["components".toList, "schemas".toList, last] →
        Pointer.resolve? root reference = field? name (Build.componentEntries root "schemas") := by
  have hmem := refName_mem_componentNames hplan hschema hshows hname
  have hlast := Schema.referenceName?_of_refName hreference hname
  refine ⟨hmem, hlast, fun last hsegments ↦ ?_⟩
  obtain rfl := Pointer.referenceName?_of_segments? [_, _] hsegments hlast
  exact resolve?_of_componentSegments hsegments hmem

/-- The answer of an operation is a property of one component schema and has the name of another. -/
def statusDocument : Json :=
  .object [
    ("paths", .object [("/status", .object [("get", .object [
      ("operationId", .string "getStatus"),
      ("responses", .object [("200", .object [("content", .object [("application/json", .object [
        ("schema", .object [
          ("$ref", .string "#/components/schemas/Order/properties/status")])])])])])])])]),
    ("components", .object [("schemas", .object [
      ("Order", .object [("type", .string "object"),
        ("properties", .object [("status", .object [("type", .string "string")])])]),
      ("Orders", .object [("type", .string "array"),
        ("items", .object [("$ref", .string "#/components/schemas/Order")])]),
      ("status", .object [("type", .string "integer")])])])]

theorem ofSpec_statusDocument :
    Plan.ofSpec (ofDocument statusDocument) {} = .ok (Plan.make (ofDocument statusDocument) {}) :=
  Plan.ofSpec_eq_ok_iff.2 ⟨Option.isNone_iff_eq_none.1 (by decide +kernel), rfl⟩

/-- The items of the second component schema are the first one. -/
theorem refName_means_component_statusDocument :
    ∃ schema ∈ (ofDocument statusDocument).schemas, ∃ node,
      node = Schema.resolveAt statusDocument maxResolveDepth
        (.object [("$ref", .string "#/components/schemas/Order")]) ∧
      schema.Shows node ∧ node.refName = some "Order" ∧
      Pointer.resolve? statusDocument "#/components/schemas/Order" =
        field? "Order" (Build.componentEntries statusDocument "schemas") := by
  have hschema : Schema.resolve statusDocument (.object [("type", .string "array"),
      ("items", .object [("$ref", .string "#/components/schemas/Order")])]) 0 ∈
        (ofDocument statusDocument).schemas :=
    List.mem_iff_getElem?.2 ⟨1, rfl⟩
  refine ⟨_, hschema, _, rfl, .items rfl rfl (.self _), rfl, ?_⟩
  exact (refName_means_component ofSpec_statusDocument hschema rfl (.items rfl rfl (.self _))
    rfl).2.2 "Order".toList (by decide +kernel)

/-- The answer of the operation has the name of the third component schema, which is not what it
refers to. -/
theorem named_elsewhere_statusDocument :
    Plan.ofSpec (ofDocument statusDocument) {} = .ok (Plan.make (ofDocument statusDocument) {}) ∧
    ∃ schema ∈ (ofDocument statusDocument).schemas, ∃ fields reference,
      schema = Schema.resolve statusDocument (.object fields) 0 ∧
      field? "$ref" fields = some (.string reference) ∧
      schema.refName = some "status" ∧
      Pointer.resolve? statusDocument reference ≠
        field? "status" (Build.componentEntries statusDocument "schemas") := by
  refine ⟨ofSpec_statusDocument, _, List.mem_iff_getElem?.2 ⟨3, rfl⟩,
    [("$ref", .string "#/components/schemas/Order/properties/status")], _, rfl, rfl, rfl, ?_⟩
  intro h
  -- the one is a string, the other an integer
  have htype := congrArg (Option.bind · (Json.stringAt? "type")) h
  exact absurd htype (by decide +kernel)

end Spec

end ApiContract
