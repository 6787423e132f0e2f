import ApiContract.Lint.Operations
import ApiContract.Proofs.Json.Place
import ApiContract.Proofs.Put
import ApiContract.Proofs.Schema.Fallback
import ApiContract.Spec.Build
import Mathlib.Data.List.Basic

/-!
# Operations as the linter and the contract have them

The linter and the builder walk over a document on their own, and meet the same operations in the
same order: those of the contract are what the builder makes of those that the linter meets
(`Spec.operations_ofDocument`). Everything that compares the two, or reasons about the operations of
a contract by the document, begins with this.

## Operations

An `OperationEntry` is what the linter has of an operation: its path, its path item, its method and
its own object. `Build.operationOf` is what the builder makes of it, and the statement is that both
go through the same path items and methods, in the order of the document.

## Parameters

Of the parameters that a path item and an operation list, the builder keeps those that it can read,
one of each name (`Build.mem_map_name_operationOf`). It can read a parameter that is an object with
a name and a known place, after its references (`Build.exists_parameter?_iff`). Merging drops
declarations but no name (`mem_map_name_mergeParameters`).
-/

namespace ApiContract

open Json (HasPart)

/-! ### Merged parameters -/

/-- **Merging keeps the names.** -/
theorem mem_map_name_mergeParameters {shared own : List Parameter} {name : String} :
    name ∈ (mergeParameters shared own).map Parameter.name ↔
      name ∈ (shared ++ own).map Parameter.name := by
  rw [mergeParameters, putParameter_eq_putBy, map_foldl_putBy, List.mem_eraseDups]

/-! ### Operations -/

/-- The parameters that a path item or an operation lists. -/
def parameterValues (fields : List (String × Json)) : List Json :=
  ((field? "parameters" fields).bind Json.asArray?).getD []

namespace Lint.OperationEntry

variable {doc : Json} {e : OperationEntry}

/-- The parameters that are listed for an operation: by its path item, then by itself. -/
def parameterValues (e : OperationEntry) : List Json :=
  ApiContract.parameterValues e.item ++ ApiContract.parameterValues e.op

/-- An operation under a path item is the value of a field. -/
theorem of_mem_itemOperations {template : String} {item : List (String × Json)}
    (h : e ∈ itemOperations template item) :
    e.template = template ∧ e.item = item ∧ (e.key, .object e.op) ∈ item := by
  obtain ⟨⟨key, value⟩, hfield, hentry⟩ := List.mem_filterMap.1 h
  dsimp only at hentry
  split at hentry
  · obtain rfl := Option.some.inj hentry
    exact ⟨rfl, rfl, hfield⟩
  · exact absurd hentry nofun

/-- What the linter meets are parts of the document. -/
theorem hasPart (h : e ∈ operations doc) :
    doc.HasPart (.object e.item) ∧ doc.HasPart (.object e.op) := by
  obtain ⟨⟨template, value⟩, hpath, hentry⟩ := List.mem_flatMap.1 h
  have hvalue : doc.HasPart value := .of_mem_asObject? (fun _ ↦ HasPart.get?) hpath
  dsimp only at hentry
  split at hentry
  · next item hitem =>
    obtain ⟨target, htarget, hfields⟩ := Option.bind_eq_some_iff.1 hitem
    obtain rfl : target = .object item := Json.asObject?_eq_some_iff.1 hfields
    obtain ⟨-, rfl, hfield⟩ := of_mem_itemOperations hentry
    have hpart : doc.HasPart (.object e.item) := hasPart_of_followReferences hvalue htarget
    exact ⟨hpart, hpart.trans (.of_mem_fields hfield)⟩
  · exact absurd hentry List.not_mem_nil

/-- The parameters that are listed are parts of the document. -/
theorem hasPart_of_mem_parameterValues (h : e ∈ operations doc) {value : Json}
    (hvalue : value ∈ e.parameterValues) : doc.HasPart value := by
  have hlisted {fields : List (String × Json)} (hpart : doc.HasPart (.object fields))
      (hmem : value ∈ ApiContract.parameterValues fields) : doc.HasPart value :=
    .of_mem_asArray? (fun _ hlist ↦ hpart.trans (.field? hlist)) hmem
  rcases List.mem_append.1 hvalue with hitem | hop
  · exact hlisted (hasPart h).1 hitem
  · exact hlisted (hasPart h).2 hop

end Lint.OperationEntry

namespace Build

variable {doc : Json}

/-- What the builder makes of an operation that the linter meets. -/
def operationOf (doc : Json) (e : Lint.OperationEntry) : Operation :=
  operation (.ofDocument doc) e.template
    (parameters (.ofDocument doc) (field? "parameters" e.item))
    ((asksForAuth? (doc.get? "security")).getD false) e.method (.object e.op)

/-- The builder meets the entries of a path item that the linter meets. -/
theorem methodEntries_eq_map (template : String) (item : List (String × Json)) :
    methodEntries item =
      (Lint.itemOperations template item).map fun e ↦ (e.method, .object e.op) := by
  rw [methodEntries, Lint.itemOperations, List.map_filterMap]
  refine List.filterMap_congr fun entry _ ↦ ?_
  obtain ⟨key, value⟩ := entry
  dsimp only
  cases HttpMethod.ofName? key with
  | none => rfl
  | some method => cases value <;> rfl

/-- The builder meets the operations of a path item that the linter meets. -/
theorem pathOperations_eq_map (template : String) (item : List (String × Json)) :
    pathOperations (.ofDocument doc) ((asksForAuth? (doc.get? "security")).getD false) template
      item = (Lint.itemOperations template item).map (operationOf doc) := by
  rw [pathOperations, methodEntries_eq_map template, List.map_map]
  refine List.map_congr_left fun e he ↦ ?_
  obtain ⟨htemplate, hitem, -⟩ := Lint.OperationEntry.of_mem_itemOperations he
  rw [operationOf, htemplate, hitem]
  rfl

/-- **A parameter is read off an object with a name and a known place.** -/
theorem exists_parameter?_iff {value : Json} {name : String} {place : ParamPlace} :
    (∃ parameter, parameter? (.ofDocument doc) value = some parameter ∧ parameter.name = name ∧
        parameter.place = place) ↔
      ∃ fields word, dereference? doc value = some (.object fields) ∧
        field? "name" fields = some (.string name) ∧
        field? "in" fields = some (.string word) ∧ ParamPlace.ofName? word = some place := by
  have hobject : (Resolver.ofDocument doc).object? value = dereference? doc value := rfl
  constructor
  · rintro ⟨parameter, hread, rfl, rfl⟩
    rw [parameter?, hobject] at hread
    obtain ⟨declared, hdeclared, hread⟩ := Option.bind_eq_some_iff.1 hread
    obtain ⟨name, hname, hread⟩ := Option.bind_eq_some_iff.1 hread
    obtain ⟨place, hplace, rfl⟩ := Option.map_eq_some_iff.1 hread
    obtain ⟨word, hword, hknown⟩ := Option.bind_eq_some_iff.1 hplace
    obtain ⟨fields, rfl, hnamed⟩ := Json.stringAt?_eq_some_iff.1 hname
    obtain ⟨fields', heq, hplaced⟩ := Json.stringAt?_eq_some_iff.1 hword
    obtain rfl := Json.object.inj heq
    exact ⟨fields, word, hdeclared, hnamed, hplaced, hknown⟩
  · rintro ⟨fields, word, hfields, hname, hword, hplace⟩
    have hname' : (Json.object fields).stringAt? "name" = some name :=
      Json.stringAt?_eq_some_iff.2 ⟨fields, rfl, hname⟩
    have hword' : (Json.object fields).stringAt? "in" = some word :=
      Json.stringAt?_eq_some_iff.2 ⟨fields, rfl, hword⟩
    rw [parameter?, hobject, hfields, Option.bind_some, hname', Option.bind_some, hword',
      Option.bind_some, hplace]
    exact ⟨_, rfl, rfl, rfl⟩

/-- **An operation has a parameter of each name that the builder reads off its lists.** -/
theorem mem_map_name_operationOf {e : Lint.OperationEntry} {name : String} :
    name ∈ (operationOf doc e).parameters.map Parameter.name ↔
      ∃ value ∈ e.parameterValues, ∃ parameter,
        parameter? (.ofDocument doc) value = some parameter ∧ parameter.name = name := by
  have hparameters : (operationOf doc e).parameters =
      mergeParameters ((parameterValues e.item).filterMap (parameter? (.ofDocument doc)))
        ((parameterValues e.op).filterMap (parameter? (.ofDocument doc))) := rfl
  rw [hparameters, mem_map_name_mergeParameters, ← List.filterMap_append]
  simp only [List.mem_map, List.mem_filterMap, Lint.OperationEntry.parameterValues]
  constructor
  · rintro ⟨parameter, ⟨value, hvalue, hread⟩, rfl⟩
    exact ⟨value, hvalue, parameter, hread, rfl⟩
  · rintro ⟨value, hvalue, parameter, hread, rfl⟩
    exact ⟨parameter, ⟨value, hvalue, hread⟩, rfl⟩

end Build

/-- **The contract has the operations that the linter meets.** -/
theorem Spec.operations_ofDocument (doc : Json) :
    (ofDocument doc).operations = (Lint.operations doc).map (Build.operationOf doc) := by
  show Build.operations (.ofDocument doc) doc = _
  rw [Build.operations, Build.pathItems, Lint.operations, List.map_flatMap]
  induction ((doc.get? "paths").bind Json.asObject?).getD [] with
  | nil => rfl
  | cons entry rest ih =>
    obtain ⟨template, value⟩ := entry
    have hobject : (Resolver.ofDocument doc).object? value = dereference? doc value := rfl
    dsimp only
    rw [List.filterMap_cons, List.flatMap_cons, ← ih, hobject]
    cases (dereference? doc value).bind Json.asObject? with
    | none => rfl
    | some item =>
      dsimp only [Option.map_some]
      rw [List.flatMap_cons, Build.pathOperations_eq_map]

end ApiContract
