import ApiContract.Artifact.Render
import ApiContract.Proofs.Json.Fields
import ApiContract.Proofs.NameSet
import ApiContract.Proofs.Plan

/-!
# Reading contracts back

What is written of a contract as JSON is read as the same contract: record by record, and for
schemas by induction along the recursion of the writer, with the depth of the tree as the reader's
measure (`Schema.readWithin_toJson`).

## Main result

`Plan.echo_roundtrip`, for every contract that can be rendered. The tree that is printed for it
decodes to the contract, with the address of the plan, in every schema, limit, listed value and
optional field; and rendering what was decoded prints the same text again.

## Proof

Records are objects whose fields have distinct names, so each of their lemmas is a simplification
with the laws of `Proofs.Json.Fields`. A schema is one object too, in which the fields of its shape
come first and those of every schema behind them; no name is in both (`Schema.field?_shapeFields`).
The reader goes down as many levels as the tree nests, and the induction for it is mutual on a
schema, its shape, its properties and its variants. What is echoed has a summary in front of the
contract, whose fields are none of the contract's (`field?_summary`), and which is made from the
contract with the address of the plan as it was from the plan.

## Numbers

The tree holds numbers as such, and the statement is about trees. Limits and listed values of a
contract that was built from a document are finite, and their integers have sixty-four bits:
`DocumentSyntax.numbersIn_of_parse` says so of every number of a document that was read, and
`DocumentSyntax.statedConstraints_inRange` of the limits that any part of it states. So a contract
has no number that could not be written.
-/

namespace ApiContract

open Json

/-! ### Schemas -/

namespace Schema

/-- The nesting of fields one after the other. -/
theorem nestingOfFields_append (front back : List (String × Json)) :
    nestingOfFields (front ++ back) = max (nestingOfFields front) (nestingOfFields back) := by
  induction front with
  | nil => exact (Nat.zero_max _).symm
  | cons field front ih =>
    rw [List.cons_append, nestingOfFields, nestingOfFields, ih, Nat.max_assoc]

end Schema

@[simp] theorem Constraints.ofJson?_object (c : Constraints) :
    Constraints.ofJson? (object c.toFields) = some c := by
  simp [-Option.bind_eq_bind, Constraints.ofJson?, Constraints.toFields, optional?_eq]

namespace Schema

/-- The names of the fields that every schema may have. -/
def commonNames : List String := ["format", "nullable", "description", "enum", "ref", "constraints"]

/-- The fields for every shape are read back behind fields of other names. -/
theorem withCommon?_append {front : List (String × Json)}
    (hfront : ∀ name ∈ commonNames, field? name front = none) (shape : Shape)
    (format : Option String) (nullable : Bool) (description : Option String)
    (enumValues : List Json) (refName : Option String) (constraints : Constraints) :
    withCommon? (front ++
        commonFields format nullable description enumValues refName constraints) shape =
      some ⟨shape, format, nullable, description, enumValues, refName, constraints⟩ := by
  simp only [commonNames, List.forall_mem_cons] at hfront
  obtain ⟨hformat, hnullable, hdescription, henum, href, hconstraints, -⟩ := hfront
  -- the three fields that are left out for a default, each read back in both cases
  have hbool : (if nullable = true then some (bool true) else none).elim (some false) asBool? =
      some nullable := by cases nullable <;> rfl
  have hvalues : (if enumValues = [] then none else some (array enumValues)).elim (some [])
      asArray? = some enumValues := by cases enumValues <;> rfl
  have hlimits : (if constraints.isEmpty = true then none
      else some (object constraints.toFields)).elim (some {}) Constraints.ofJson? =
        some constraints := by
    split
    · next hempty => rw [Option.elim_none, ← of_decide_eq_true hempty]
    · rw [Option.elim_some, Constraints.ofJson?_object]
  simp [-Option.bind_eq_bind, withCommon?, optional?_eq, defaulted?_eq, commonFields, hformat,
    hnullable, hdescription, henum, href, hconstraints, hbool, hvalues, hlimits]

/-- A shape has none of the fields that every schema may have. -/
theorem field?_shapeFields (shape : Shape) :
    ∀ name ∈ commonNames, field? name (shapeFields shape) = none := by
  simp only [commonNames, List.forall_mem_cons]
  cases shape with
  | object properties required additional =>
    cases additional <;> simp [shapeFields, additionalFields]
  | _ => simp [shapeFields]

/-- No schema is written as `null`. -/
theorem toJson_ne_null (schema : Schema) : schema.toJson ≠ null := by
  obtain ⟨_, _, _, _, _, _, _⟩ := schema
  rw [toJson]
  exact Json.noConfusion

mutual

/-- **A schema is read back**, given as many levels as its JSON nests. -/
theorem readWithin_toJson :
    ∀ (schema : Schema) (levels : Nat), nesting schema.toJson ≤ levels →
      readWithin levels schema.toJson = some schema
  | ⟨shape, format, nullable, description, enumValues, refName, constraints⟩, levels, h => by
    rw [toJson, nesting, nestingOfFields_append] at h
    -- a schema is written as an object, so there is a level for it and its parts lie deeper
    cases levels with
    | zero => exact absurd h (Nat.not_succ_le_zero _)
    | succ levels =>
      have hfields := field?_shapeFields shape
      have hadditional : field? "additional"
          (commonFields format nullable description enumValues refName constraints) = none := by
        simp [commonFields]
      have hshape := shape?_append hadditional shape levels
        (Nat.le_trans (Nat.le_max_left _ _) (Nat.le_of_succ_le_succ h))
      rw [toJson, readWithin, hshape]
      exact withCommon?_append hfields shape format nullable description enumValues refName
        constraints

/-- A shape is read back in front of fields that say nothing of what it admits besides. -/
theorem shape?_append {back : List (String × Json)} (hback : field? "additional" back = none) :
    ∀ (shape : Shape) (levels : Nat), nestingOfFields (shapeFields shape) ≤ levels →
      shape? (readWithin levels) (shapeFields shape ++ back) = some shape
  | .any, levels, _ | .string, levels, _ | .integer, levels, _ | .number, levels, _
  | .boolean, levels, _ => by
    simp [-Option.bind_eq_bind, shape?, shapeFields, required?, shapeName?]
  | .array items, levels, h => by
    have hitems : readWithin levels items.toJson = some items :=
      readWithin_toJson items levels (by simpa [shapeFields, nestingOfFields, nesting] using h)
    simp [-Option.bind_eq_bind, shape?, shapeFields, required?, shapeName?, hitems]
  | .object properties required additional, levels, h => by
    simp only [shapeFields, nestingOfFields, nestingOfFields_append, nesting] at h
    have hproperties := list?_propertiesJson properties levels (by omega)
    have hadditional := readOptional_additional additional levels (by omega)
    simp [-Option.bind_eq_bind, shape?, shapeFields, required?, shapeName?, optional?_eq,
      hproperties, hadditional, hback]
  | .union variants exclusive, levels, h => by
    simp only [shapeFields, nestingOfFields, nesting] at h
    have hvariants := list?_variantsJson variants levels (by omega)
    simp [-Option.bind_eq_bind, shape?, shapeFields, required?, shapeName?, hvariants]

theorem list?_propertiesJson :
    ∀ (properties : List Property) (levels : Nat),
      nestingOfItems (propertiesJson properties) ≤ levels →
        list? (property? (readWithin levels)) (array (propertiesJson properties)) = some properties
  | [], _, _ => rfl
  | ⟨name, schema⟩ :: rest, levels, h => by
    simp only [propertiesJson, nestingOfItems, nesting, nestingOfFields] at h
    have hschema := readWithin_toJson schema levels (by omega)
    have hrest := list?_propertiesJson rest levels (by omega)
    have hproperty : property? (readWithin levels)
        (object [("name", string name), ("schema", schema.toJson)]) = some ⟨name, schema⟩ := by
      simp [property?, propertyParts?, required?, hschema]
    rw [propertiesJson, list?_cons, hproperty, hrest]
    rfl

theorem list?_variantsJson :
    ∀ (variants : List Schema) (levels : Nat), nestingOfItems (variantsJson variants) ≤ levels →
      list? (readWithin levels) (array (variantsJson variants)) = some variants
  | [], _, _ => rfl
  | schema :: rest, levels, h => by
    simp only [variantsJson, nestingOfItems] at h
    have hschema := readWithin_toJson schema levels (by omega)
    have hrest := list?_variantsJson rest levels (by omega)
    rw [variantsJson, list?_cons, hschema, hrest]
    rfl

theorem readOptional_additional :
    ∀ (additional : Option Schema) (levels : Nat),
      nestingOfFields (additionalFields additional) ≤ levels →
        readOptional (readWithin levels) (field? "additional" (additionalFields additional)) =
          some additional
  | none, _, _ => rfl
  | some schema, levels, h => by
    simp only [additionalFields, nestingOfFields] at h
    have hschema := readWithin_toJson schema levels (by omega)
    rw [additionalFields, field?_cons, if_pos rfl, readOptional_some schema.toJson_ne_null, hschema]
    rfl

end

@[simp] theorem ofJson?_toJson (schema : Schema) : Schema.ofJson? schema.toJson = some schema :=
  readWithin_toJson schema _ (Nat.le_refl _)

@[simp] theorem readOptional_ofJson? (schema : Option Schema) :
    readOptional Schema.ofJson? (schema.map toJson) = some schema :=
  readOptional_map schema toJson_ne_null ofJson?_toJson

@[simp] theorem list?_property_ofJson? (properties : List Property) :
    list? Property.ofJson? (array (propertiesJson properties)) = some properties := by
  induction properties with
  | nil => rfl
  | cons property rest ih =>
    obtain ⟨name, schema⟩ := property
    have hproperty : Property.ofJson?
        (object [("name", string name), ("schema", schema.toJson)]) = some ⟨name, schema⟩ := by
      simp [Property.ofJson?, property?, propertyParts?, required?]
    rw [propertiesJson, list?_cons, hproperty, ih]
    rfl

end Schema

/-! ### Records -/

@[simp] theorem ParamPlace.ofName?_name (place : ParamPlace) :
    ParamPlace.ofName? place.name = some place := by cases place <;> rfl

@[simp] theorem HttpMethod.ofKey?_key (method : HttpMethod) :
    HttpMethod.ofKey? method.key = some method := by cases method <;> rfl

theorem Parameter.ofJson?_toJson (p : Parameter) : Parameter.ofJson? p.toJson = some p := by
  simp [-Option.bind_eq_bind, Parameter.ofJson?, Parameter.toJson, required?, optional?_eq]

theorem RequestBody.ofJson?_toJson (b : RequestBody) : RequestBody.ofJson? b.toJson = some b := by
  simp [-Option.bind_eq_bind, RequestBody.ofJson?, RequestBody.toJson, required?]

@[simp] theorem RequestBody.readOptional_ofJson? (body : Option RequestBody) :
    readOptional RequestBody.ofJson? (body.map RequestBody.toJson) = some body :=
  readOptional_map body (fun _ ↦ nofun) RequestBody.ofJson?_toJson

theorem Response.ofJson?_toJson (r : Response) : Response.ofJson? r.toJson = some r := by
  simp [-Option.bind_eq_bind, Response.ofJson?, Response.toJson, required?, optional?_eq]

/-- **An operation is read back.** -/
theorem Operation.ofJson?_toJson (op : Operation) : Operation.ofJson? op.toJson = some op := by
  have hparameters := list?_map fun p (_ : p ∈ op.parameters) ↦ p.ofJson?_toJson
  have hresponses := list?_map fun r (_ : r ∈ op.responses) ↦ r.ofJson?_toJson
  simp [-Option.bind_eq_bind, Operation.ofJson?, Operation.toJson, required?, optional?_eq,
    hparameters, hresponses]

/-- **A model is read back.** -/
theorem Model.ofJson?_toJson (m : Model) : Model.ofJson? m.toJson = some m := by
  simp [-Option.bind_eq_bind, Model.ofJson?, Model.toJson, required?, optional?_eq]

/-- A security scheme is read back. -/
theorem SecurityScheme.ofJson?_toJson (s : SecurityScheme) :
    SecurityScheme.ofJson? s.toJson = some s := by
  simp [-Option.bind_eq_bind, SecurityScheme.ofJson?, SecurityScheme.toJson, required?,
    optional?_eq]

namespace Spec

/-- **A contract is read back**, also behind other fields than its own. -/
theorem ofJson?_append {front : List (String × Json)}
    (hfront : ∀ name ∈ RecordKind.spec.names, field? name front = none) (spec : Spec) :
    Spec.ofJson? (object (front ++ spec.toFields)) = some spec := by
  have hoperations := list?_map fun op (_ : op ∈ spec.operations) ↦ op.ofJson?_toJson
  have hmodels := list?_map fun m (_ : m ∈ spec.models) ↦ m.ofJson?_toJson
  have hschemes := list?_map fun s (_ : s ∈ spec.securitySchemes) ↦ s.ofJson?_toJson
  simp only [RecordKind.names, RecordKind.fields, List.map_cons, List.forall_mem_cons] at hfront
  simp [-Option.bind_eq_bind, Spec.ofJson?, Spec.toFields, required?, optional?_eq, hfront,
    hoperations, hmodels, hschemes]

end Spec

/-! ### The echo -/

namespace Plan

/-- What stands in front of the contract has none of its fields. -/
theorem field?_summary (plan : Plan) :
    ∀ name ∈ RecordKind.spec.names, field? name (Echo.summary plan) = none := by
  simp [RecordKind.names, RecordKind.fields, Echo.summary]

theorem ofJson?_document (plan : Plan) :
    Spec.ofJson? (Echo.document plan) = some (Echo.specOf plan) :=
  Spec.ofJson?_append plan.field?_summary (Echo.specOf plan)

/-- A contract with the address of its plan has the same echo. -/
theorem document_make_specOf (spec : Spec) (options : RenderOptions) :
    Echo.document (make (Echo.specOf (make spec options)) options) =
      Echo.document (make spec options) := by
  have haddress : options.baseUrl.getD (options.baseUrl.getD spec.baseUrl) =
      options.baseUrl.getD spec.baseUrl := by
    cases options.baseUrl <;> rfl
  have hspec : Echo.specOf (make (Echo.specOf (make spec options)) options) =
      Echo.specOf (make spec options) := by
    show { spec with baseUrl := options.baseUrl.getD (options.baseUrl.getD spec.baseUrl) } = _
    rw [haddress]
    rfl
  rw [Echo.document, hspec]
  rfl

/-- **The echo of a contract is read as that contract**, with the address of the plan. Whatever
contract can be rendered, the tree that is printed for it decodes to it in every schema, limit,
listed value and optional field, and rendering what was decoded prints the same text again. -/
theorem echo_roundtrip {spec : Spec} {options : RenderOptions} {plan : Plan}
    (h : Plan.ofSpec spec options = .ok plan) (helpers : HelperTable) :
    ∃ decoded text, Spec.ofJson? (Echo.document plan) = some decoded ∧
      decoded = { spec with baseUrl := options.baseUrl.getD spec.baseUrl } ∧
      text = Json.pretty 0 (Echo.document plan) ++ "\n" ∧
      spec.render .openapi options helpers = .ok text ∧
      decoded.render .openapi options helpers = .ok text := by
  obtain ⟨hfault, rfl⟩ := ofSpec_eq_ok_iff.1 h
  have hrender : ∀ other : Spec, fault? other = none →
      other.render .openapi options helpers =
        .ok (Json.pretty 0 (Echo.document (make other options)) ++ "\n") := by
    intro other hother
    rw [Spec.render, ofSpec_eq_ok_iff.2 ⟨hother, rfl⟩]
    rfl
  refine ⟨_, _, ofJson?_document _, rfl, rfl, hrender spec hfault, ?_⟩
  -- whether a contract can be rendered does not depend on its address
  rw [hrender (Echo.specOf (make spec options)) hfault, document_make_specOf]

/-- A contract with limits, listed values, an open object, a union and a reference. -/
def orderSpec : Spec where
  title := "Orders"
  version := "2"
  description := none
  baseUrl := "https://orders.test"
  operations :=
    [ { id := "createOrder", method := .post, path := "/orders", summary := some "Create"
        description := none, tags := ["orders"]
        parameters := [⟨"dry_run", .query, false, { shape := .boolean }, none⟩]
        requestBody := some ⟨"application/json", { shape := .any, refName := some "Order" }, true⟩
        responses := [⟨"201", some "Created", none, none⟩]
        requiresAuth := true, deprecated := false } ]
  models :=
    let note : Schema :=
      { shape := .string, nullable := true, constraints := { maxLength := some 20 } }
    let state : Schema :=
      { shape := .string, enumValues := [.string "open", .null, .number (.int 3)] }
    [ ⟨"Order", some "An order",
        { shape := .object [⟨"note", note⟩, ⟨"state", state⟩] ⟨["state"], by simp⟩
            (some { shape := .union [note, { shape := .array Schema.any }] true }) },
        [⟨"note", note⟩, ⟨"state", state⟩], ⟨["state"], by simp⟩⟩ ]
  tags := ["orders"]
  securitySchemes := [⟨"key", "apiKey", none, none, some "header", some "X-Key"⟩]

/-- A contract with something of each kind, under an address of its own. -/
theorem echo_roundtrip_orderSpec :
    Plan.ofSpec orderSpec { baseUrl := some "/" } = .ok (make orderSpec { baseUrl := some "/" }) ∧
      Spec.ofJson? (Echo.document (make orderSpec { baseUrl := some "/" })) =
        some { orderSpec with baseUrl := "/" } := by
  have hplan : Plan.ofSpec orderSpec { baseUrl := some "/" } =
      .ok (make orderSpec { baseUrl := some "/" }) :=
    ofSpec_eq_ok_iff.2 ⟨by decide +kernel, rfl⟩
  obtain ⟨decoded, -, hdecoded, rfl, -⟩ := echo_roundtrip hplan HelperTable.standard
  exact ⟨hplan, hdecoded⟩

end Plan

end ApiContract
