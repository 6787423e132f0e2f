import ApiContract.Proofs.Schema.Fallback
import ApiContract.Spec.Build
import Mathlib.Data.List.Basic

/-!
# What building a contract asks for

A contract is built with a resolver, which says what schema a fragment describes and what object a
value stands for. `Spec.build` asks it for parts of the document and for parts of what it answered,
and for nothing else.

So resolvers that agree on the parts of a document build the same contract (`Spec.build_congr`).
There is one lemma for each function of `Build` that asks: a parameter, a list of them, a body, a
response, an operation, a path item, the models. Each says that two resolvers that agree on the
parts of the document (`Resolver.AgreeOn`) give the same here, if what is looked at is a part; and
the lemmas in front of them say that what the functions look at are parts.

That a contract does not depend on what is answered for references without a target is the case in
which one of the two is the resolver of the document and the other has a fallback.
-/

namespace ApiContract

open Json (HasPart)

namespace Build

variable {root : Json} {left right : Resolver} (hagree : Resolver.AgreeOn root left right)

/-- The media type that is picked is a part. -/
theorem hasPart_of_pickMedia? {value : Json} {name : String} {media : String × Json}
    (h : pickMedia? (value.get? name) = some media) : value.HasPart media.2 := by
  obtain ⟨entries, hentries, hpick⟩ := Option.bind_eq_some_iff.1 h
  have hmem : media ∈ entries := by
    rcases Option.or_eq_some_iff.1 (Option.orElse_eq_or .. ▸ hpick) with hfind | ⟨-, hhead⟩
    · exact List.mem_of_find?_eq_some hfind
    · exact List.mem_of_mem_head? hhead
  exact .of_mem_asObject? (fun _ ↦ HasPart.get?) (by rwa [hentries])

/-- The schema of a parameter is a part of it. -/
theorem hasPart_of_parameterSchema? {declared schema : Json}
    (h : parameterSchema? declared = some schema) : declared.HasPart schema := by
  rw [parameterSchema?, Option.orElse_eq_or] at h
  rcases Option.or_eq_some_iff.1 h with hown | ⟨-, hmedia⟩
  · exact .get? hown
  · obtain ⟨media, hpick, hschema⟩ := Option.bind_eq_some_iff.1 hmedia
    exact (hasPart_of_pickMedia? hpick).trans (.get? hschema)

/-- The operations of a path item are parts of it. -/
theorem hasPart_of_mem_methodEntries {item : List (String × Json)} {entry : HttpMethod × Json}
    (h : entry ∈ methodEntries item) : (Json.object item).HasPart entry.2 := by
  obtain ⟨field, hfield, hentry⟩ := List.mem_filterMap.1 h
  split at hentry
  · next op _ hop =>
    obtain rfl := Option.some.inj hentry
    exact hop ▸ .of_mem_fields hfield
  · exact absurd hentry nofun

/-- The components of a document are parts of it. -/
theorem hasPart_of_mem_componentEntries {kind : String} {entry : String × Json}
    (h : entry ∈ componentEntries root kind) : root.HasPart entry.2 := by
  refine .of_mem_asObject? (fun found hfound ↦ ?_) h
  obtain ⟨components, hcomponents, hkind⟩ := Option.bind_eq_some_iff.1 hfound
  exact (HasPart.get? hcomponents).trans (.get? hkind)

include hagree

/-- The schema of a part that may be there. -/
theorem map_schema_congr {part : Option Json}
    (hpart : ∀ value, part = some value → root.HasPart value) :
    part.map left.schema = part.map right.schema :=
  Option.map_congr fun value hvalue ↦ hagree.schema (hpart value hvalue)

/-- A parameter. -/
theorem parameter?_congr {value : Json} (hpart : root.HasPart value) :
    parameter? left value = parameter? right value := by
  rw [parameter?, parameter?, hagree.object? hpart]
  refine Option.bind_congr fun declared hdeclared ↦ ?_
  rw [map_schema_congr hagree fun schema hschema ↦
    (hagree.hasPart hpart hdeclared).trans (hasPart_of_parameterSchema? hschema)]

/-- A list of parameters. -/
theorem parameters_congr {list : Option Json}
    (hpart : ∀ value, list = some value → root.HasPart value) :
    parameters left list = parameters right list :=
  List.filterMap_congr fun _ hvalue ↦ parameter?_congr hagree (.of_mem_asArray? hpart hvalue)

/-- A body. -/
theorem requestBody?_congr {value : Json} (hpart : root.HasPart value) :
    requestBody? left value = requestBody? right value := by
  rw [requestBody?, requestBody?, hagree.object? hpart]
  refine Option.bind_congr fun body hbody ↦ Option.map_congr fun media hmedia ↦ ?_
  have hmediaPart := (hagree.hasPart hpart hbody).trans (hasPart_of_pickMedia? hmedia)
  dsimp only
  rw [map_schema_congr hagree fun schema hschema ↦ hmediaPart.trans (.get? hschema)]

/-- A response. -/
theorem response?_congr {entry : String × Json} (hpart : root.HasPart entry.2) :
    response? left entry = response? right entry := by
  rw [response?, response?, hagree.object? hpart]
  refine Option.map_congr fun response hresponse ↦ ?_
  dsimp only
  rw [map_schema_congr hagree]
  intro schema h
  obtain ⟨media, hmedia, hschema⟩ := Option.bind_eq_some_iff.1 h
  have hmediaPart := (hagree.hasPart hpart hresponse).trans (hasPart_of_pickMedia? hmedia)
  exact hmediaPart.trans (.get? hschema)

/-- **An operation is the same with both resolvers.** -/
theorem operation_congr (path : String) (shared : List Parameter) (authByDefault : Bool)
    (method : HttpMethod) {op : Json} (hpart : root.HasPart op) :
    operation left path shared authByDefault method op =
      operation right path shared authByDefault method op := by
  have hfield {name : String} {value : Json} (h : op.get? name = some value) : root.HasPart value :=
    hpart.trans (.get? h)
  have hparameters := parameters_congr hagree fun list (hlist : op.get? "parameters" = some list) ↦
    hfield hlist
  have hbody : (op.get? "requestBody").bind (requestBody? left) =
      (op.get? "requestBody").bind (requestBody? right) :=
    Option.bind_congr fun _ hvalue ↦ requestBody?_congr hagree (hfield hvalue)
  have hresponses :
      (((op.get? "responses").bind Json.asObject?).getD []).filterMap (response? left) =
        (((op.get? "responses").bind Json.asObject?).getD []).filterMap (response? right) :=
    List.filterMap_congr fun _ hentry ↦
      response?_congr hagree (.of_mem_asObject? (fun _ ↦ hfield) hentry)
  rw [operation, operation, hparameters, hbody, hresponses]

theorem pathItems_congr : pathItems left root = pathItems right root := by
  refine List.filterMap_congr fun entry hentry ↦ ?_
  rw [hagree.object? (.of_mem_asObject? (fun _ ↦ HasPart.get?) hentry)]

/-- The operations of a path item. -/
theorem pathOperations_congr (authByDefault : Bool) (path : String) {item : List (String × Json)}
    (hpart : root.HasPart (.object item)) :
    pathOperations left authByDefault path item = pathOperations right authByDefault path item := by
  rw [pathOperations, pathOperations,
    parameters_congr hagree fun _ hlist ↦ hpart.trans (.field? hlist)]
  exact List.map_congr_left fun entry hentry ↦
    operation_congr hagree _ _ _ _ (hpart.trans (hasPart_of_mem_methodEntries hentry))

/-- The path items are parts of the document. -/
theorem hasPart_of_mem_pathItems {entry : String × List (String × Json)}
    (h : entry ∈ pathItems right root) : root.HasPart (.object entry.2) := by
  obtain ⟨path, hpath, hitem⟩ := List.mem_filterMap.1 h
  obtain ⟨item, hobject, rfl⟩ := Option.map_eq_some_iff.1 hitem
  obtain ⟨value, hvalue, hfields⟩ := Option.bind_eq_some_iff.1 hobject
  obtain rfl : value = .object item := Json.asObject?_eq_some_iff.1 hfields
  exact hagree.hasPart (.of_mem_asObject? (fun _ ↦ HasPart.get?) hpath) hvalue

/-- All operations. -/
theorem operations_congr : operations left root = operations right root := by
  rw [operations, operations, pathItems_congr hagree]
  exact List.flatMap_congr fun entry hentry ↦
    pathOperations_congr hagree _ _ (hasPart_of_mem_pathItems hagree hentry)

theorem models_congr : models left root = models right root := by
  refine List.map_congr_left fun entry hentry ↦ ?_
  rw [hagree.schema (hasPart_of_mem_componentEntries hentry)]

end Build

/-- **Resolvers that agree on the parts of a document build the same contract.** -/
theorem Spec.build_congr {root : Json} {left right : Resolver}
    (hagree : Resolver.AgreeOn root left right) : Spec.build left root = Spec.build right root := by
  rw [build, build, Build.operations_congr hagree, Build.models_congr hagree]

end ApiContract
