import ApiContract.Proofs.Schema.WellFormed
import ApiContract.Proofs.Spec.Build
import ApiContract.Proofs.Spec.NamedReference
import ApiContract.Proofs.Spec.Operations

/-!
# Well-formed contracts

What code generation takes for granted of a contract holds of every contract that is built from a
document, however malformed the document is.

## Main result

`Spec.wellFormed_ofDocument`: operations have tags and distinct parameters, those in the path are
required, the tags are those of the operations and increase, the properties of a model are those of
its schema, and every schema is well formed to one level more than the greatest depth of resolution.
The only condition is that no object of the document repeats a key, which holds of all that are read
from a text (`DocumentSyntax.distinctKeys_of_parse`).

## Proof

The schemas of a contract are those of parts of the document, or the one that admits anything
(`Schema.IsOfPart`): there is one lemma for each place where the builder resolves a schema, and
`isOfPart_of_mem_schemas` puts them together. Of the schema of a part, `Schema.wellFormed_resolveAt`
says that it is well formed. The other parts of the statement are read off the functions that build
an operation: an operation without tags gets one, and a parameter in the path is required whatever
it says itself.

Operations are reasoned about as the builder's results for those that the linter meets
(`Spec.operations_ofDocument`); nothing is assumed of what the linter found.
-/

namespace ApiContract

open Json (HasPart)

/-- What holds of an operation. -/
structure Operation.WellFormed (op : Operation) : Prop where
  tags : op.tags ≠ []
  parameterNames : (op.parameters.map Parameter.name).Nodup
  required : ∀ parameter ∈ op.parameters, parameter.place = .path → parameter.required = true

/-- What holds of a contract. -/
structure Spec.WellFormed (spec : Spec) : Prop where
  operations : ∀ op ∈ spec.operations, op.WellFormed
  increasing : spec.tags.Pairwise (· < ·)
  mem_tags : ∀ tag, tag ∈ spec.tags ↔ ∃ op ∈ spec.operations, tag ∈ op.tags
  schemas : ∀ schema ∈ spec.schemas, schema.WellFormed (maxResolveDepth + 1)
  /-- The properties of a model are those of its schema. -/
  models : ∀ model ∈ spec.models, model.properties = model.schema.properties

/-- The schema of a part of a document, or the one that admits anything. -/
inductive Schema.IsOfPart (doc : Json) : Schema → Prop
  | any : IsOfPart doc Schema.any
  | resolved {value : Json} (hpart : doc.HasPart value) : IsOfPart doc (resolve doc value 0)

namespace Build

variable {doc value : Json}

/-- An operation has a tag, if only the one for those without. -/
theorem tags_ne_nil (op : Json) : tags op ≠ [] := by
  unfold tags
  split
  · exact List.cons_ne_nil _ _
  · assumption

/-- A parameter in the path is required, whatever it says itself. -/
theorem required_of_parameter? {resolver : Resolver} {parameter : Parameter}
    (h : parameter? resolver value = some parameter) (hplace : parameter.place = .path) :
    parameter.required = true := by
  obtain ⟨declared, -, h⟩ := Option.bind_eq_some_iff.1 h
  obtain ⟨name, -, h⟩ := Option.bind_eq_some_iff.1 h
  obtain ⟨place, -, rfl⟩ := Option.map_eq_some_iff.1 h
  obtain rfl : place = .path := hplace
  rfl

/-! ### Schemas -/

/-- The schema of a part that may be there. -/
theorem isOfPart_getD {part : Option Json} (h : ∀ value, part = some value → doc.HasPart value) :
    Schema.IsOfPart doc ((part.map (Resolver.ofDocument doc).schema).getD Schema.any) := by
  cases part with
  | none => exact .any
  | some value => exact .resolved (h value rfl)

/-- The schema of a parameter. -/
theorem isOfPart_of_parameter? {parameter : Parameter} (hpart : doc.HasPart value)
    (h : parameter? (.ofDocument doc) value = some parameter) :
    Schema.IsOfPart doc parameter.schema := by
  obtain ⟨declared, hdeclared, h⟩ := Option.bind_eq_some_iff.1 h
  obtain ⟨name, -, h⟩ := Option.bind_eq_some_iff.1 h
  obtain ⟨place, -, rfl⟩ := Option.map_eq_some_iff.1 h
  exact isOfPart_getD fun schema hschema ↦
    (hasPart_of_followReferences hpart hdeclared).trans (hasPart_of_parameterSchema? hschema)

/-- The schema of a body. -/
theorem isOfPart_of_requestBody? {body : RequestBody} (hpart : doc.HasPart value)
    (h : requestBody? (.ofDocument doc) value = some body) : Schema.IsOfPart doc body.schema := by
  obtain ⟨declared, hdeclared, h⟩ := Option.bind_eq_some_iff.1 h
  obtain ⟨media, hmedia, rfl⟩ := Option.map_eq_some_iff.1 h
  have hmediaPart := (hasPart_of_followReferences hpart hdeclared).trans
    (hasPart_of_pickMedia? hmedia)
  exact isOfPart_getD fun schema hschema ↦ hmediaPart.trans (.get? hschema)

/-- The schema of a response. -/
theorem isOfPart_of_response? {entry : String × Json} {response : Response} {schema : Schema}
    (hpart : doc.HasPart entry.2) (h : response? (.ofDocument doc) entry = some response)
    (hschema : response.schema = some schema) : Schema.IsOfPart doc schema := by
  obtain ⟨declared, hdeclared, rfl⟩ := Option.map_eq_some_iff.1 h
  obtain ⟨fragment, hfragment, rfl⟩ := Option.map_eq_some_iff.1 hschema
  obtain ⟨media, hmedia, hfield⟩ := Option.bind_eq_some_iff.1 hfragment
  have hmediaPart := (hasPart_of_followReferences hpart hdeclared).trans
    (hasPart_of_pickMedia? hmedia)
  exact .resolved (hmediaPart.trans (.get? hfield))

variable {e : Lint.OperationEntry}

/-- The parameters of an operation are read off those that are listed for it. -/
theorem exists_of_mem_parameters {parameter : Parameter}
    (h : parameter ∈ (operationOf doc e).parameters) :
    ∃ value ∈ e.parameterValues, parameter? (.ofDocument doc) value = some parameter := by
  rcases List.mem_append.1 (mem_of_mem_mergeParameters h) with hshared | hown
  · obtain ⟨value, hvalue, hread⟩ := List.mem_filterMap.1 hshared
    exact ⟨value, List.mem_append_left _ hvalue, hread⟩
  · obtain ⟨value, hvalue, hread⟩ := List.mem_filterMap.1 hown
    exact ⟨value, List.mem_append_right _ hvalue, hread⟩

/-- **Operations are well formed.** -/
theorem wellFormed_operationOf (doc : Json) (e : Lint.OperationEntry) :
    (operationOf doc e).WellFormed where
  tags := tags_ne_nil _
  parameterNames := nodup_map_name_mergeParameters _ _
  required _ hmem hplace := by
    obtain ⟨value, -, hread⟩ := exists_of_mem_parameters hmem
    exact required_of_parameter? hread hplace

/-- The schemas of an operation are those of parts of the document. -/
theorem isOfPart_of_mem_operationSchemas (he : e ∈ Lint.operations doc) {schema : Schema}
    (h : schema ∈ Plan.operationSchemas (operationOf doc e)) : Schema.IsOfPart doc schema := by
  have hop : doc.HasPart (.object e.op) := (Lint.OperationEntry.hasPart he).2
  rcases List.mem_append.1 h with hparameterOrBody | hresponse
  · rcases List.mem_append.1 hparameterOrBody with hparameter | hbody
    · obtain ⟨parameter, hmem, rfl⟩ := List.mem_map.1 hparameter
      obtain ⟨value, hvalue, hread⟩ := exists_of_mem_parameters hmem
      exact isOfPart_of_parameter? (e.hasPart_of_mem_parameterValues he hvalue) hread
    · obtain ⟨body, hmem, rfl⟩ := Option.map_eq_some_iff.1 (Option.mem_toList.1 hbody)
      obtain ⟨value, hvalue, hread⟩ := Option.bind_eq_some_iff.1 hmem
      exact isOfPart_of_requestBody? (hop.trans (.get? hvalue)) hread
  · obtain ⟨response, hmem, hschema⟩ := List.mem_filterMap.1 hresponse
    obtain ⟨entry, hentry, hread⟩ := List.mem_filterMap.1 hmem
    have hentryPart : doc.HasPart entry.2 :=
      .of_mem_asObject? (fun _ hvalue ↦ hop.trans (.get? hvalue)) hentry
    exact isOfPart_of_response? hentryPart hread hschema

end Build

namespace Spec

variable {doc : Json}

/-- **The schemas of a contract are those of parts of the document.** -/
theorem isOfPart_of_mem_schemas {schema : Schema} (h : schema ∈ (ofDocument doc).schemas) :
    Schema.IsOfPart doc schema := by
  rcases List.mem_append.1 h with hmodel | hoperation
  · obtain ⟨model, hmem, rfl⟩ := List.mem_map.1 hmodel
    obtain ⟨entry, hentry, rfl⟩ := List.mem_map.1 hmem
    exact .resolved (Build.hasPart_of_mem_componentEntries hentry)
  · rw [operations_ofDocument] at hoperation
    obtain ⟨op, hop, hschema⟩ := List.mem_flatMap.1 hoperation
    obtain ⟨e, he, rfl⟩ := List.mem_map.1 hop
    exact Build.isOfPart_of_mem_operationSchemas he hschema

/-- **A contract that is built from a document is well formed**, whatever the document says. -/
theorem wellFormed_ofDocument (h : doc.DistinctKeys) : (ofDocument doc).WellFormed where
  operations op hop := by
    rw [operations_ofDocument] at hop
    obtain ⟨e, -, rfl⟩ := List.mem_map.1 hop
    exact Build.wellFormed_operationOf doc e
  increasing := NameSet.increasing _
  mem_tags tag := by
    have hmem : tag ∈ (ofDocument doc).tags ↔
        tag ∈ (ofDocument doc).operations.flatMap Operation.tags := NameSet.mem_ofList
    rw [hmem, List.mem_flatMap]
  schemas schema hschema := by
    cases isOfPart_of_mem_schemas hschema with
    | any => exact Schema.wellFormed_any _
    | resolved hpart => exact Schema.wellFormed_resolveAt h _ hpart
  models model hmodel := by
    obtain ⟨entry, -, rfl⟩ := List.mem_map.1 hmodel
    rfl

/-- A path item and its operation share a parameter, a model merges branches that share a property,
and it refers to itself. -/
def ordersDocument : Json :=
  .object [
    ("paths", .object [("/orders/{id}", .object [
      ("parameters", .array [
        .object [("name", .string "id"), ("in", .string "path")],
        .object [("name", .string "expand"), ("in", .string "query")]]),
      ("get", .object [
        ("tags", .array [.string "orders"]),
        ("parameters", .array [
          .object [("name", .string "expand"), ("in", .string "query"),
            ("required", .bool true)],
          .object [("name", .string "page"), ("in", .string "query")]]),
        ("responses", .object [("200", .object [("content", .object [("application/json", .object [
          ("schema", .object [("$ref", .string "#/components/schemas/Order")])])])])])])])]),
    ("components", .object [("schemas", .object [
      ("Entity", .object [("type", .string "object"),
        ("properties", .object [("id", .object [("type", .string "string")])])]),
      ("Order", .object [("allOf", .array [
        .object [("$ref", .string "#/components/schemas/Entity")],
        .object [("type", .string "object"),
          ("properties", .object [
            ("id", .object [("enum", .array [.number (.int 1), .null])]),
            ("parent", .object [("$ref", .string "#/components/schemas/Order")])])]])])])])]

/-- The parameters and the properties of that document, once each. -/
theorem wellFormed_ofDocument_ordersDocument :
    ordersDocument.DistinctKeys ∧ (ofDocument ordersDocument).WellFormed ∧
      (ofDocument ordersDocument).operations.map
        (fun op ↦ op.parameters.map fun p ↦ (p.name, p.required)) =
          [[("id", true), ("expand", true), ("page", false)]] ∧
      (ofDocument ordersDocument).models.map (fun m ↦ m.properties.map Property.name) =
        [["id"], ["id", "parent"]] := by
  have hkeys : ordersDocument.DistinctKeys := Json.distinctKeys_withoutRepeats ordersDocument
  exact ⟨hkeys, wellFormed_ofDocument hkeys, by decide +kernel, by decide +kernel⟩

end Spec

end ApiContract
