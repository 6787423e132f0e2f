import ApiContract.Artifact.Surface
import ApiContract.Projection.Type
import ApiContract.Proofs.Except
import Mathlib.Data.String.Basic

/-!
# Surfaces under the standard helpers

A table of helpers is kept in the order of the names, but what it answers depends only on which
helper was put last under a name (`HelperTable.lookup_foldl_register`). The answers of the standard
table are read off from the list that it is made of, one equation for each question that an artifact
asks.

## Surfaces

With the standard helpers the surface of an operation fails in one way only, for an id that gives no
name, and otherwise is a known function of the operation, `Surface.standard`
(`Surface.ofOperation_eq_ok_iff`). What the artifacts make of surfaces is reasoned about from this
function, never from the helpers.

## Loops

The types and the client both go over the operations of a group, make the surface of each and then
do something that cannot fail. `OperationGroup.loop_eq_ok_iff` says of any such loop when it
succeeds and what it gives; the groups of the two modules are cases of it.
-/

namespace ApiContract

open TypeScript

/-! ### What helper tables answer -/

namespace HelperTable

theorem lookup_cons_ite (name other : String) (helper : Helper) (rest : List (String × Helper)) :
    ((name, helper) :: rest).lookup other =
      if other = name then some helper else rest.lookup other := by
  rw [List.lookup_cons]
  by_cases h : other = name
  · rw [if_pos h, beq_iff_eq.2 h]
  · rw [if_neg h, beq_eq_false_iff_ne.2 h]

/-- Putting a helper into a table changes what stands under its name, and nothing else. -/
theorem lookup_insertEntry (name other : String) (helper : Helper)
    (entries : List (String × Helper)) :
    (insertEntry name helper entries).lookup other =
      if other = name then some helper else entries.lookup other := by
  induction entries with
  | nil => exact lookup_cons_ite ..
  | cons entry rest ih =>
    obtain ⟨key, kept⟩ := entry
    rw [insertEntry]
    split
    · exact lookup_cons_ite ..
    · next hle =>
      split
      · next hlt =>
        -- a smaller name is another one, so its entry stands as it did
        rw [lookup_cons_ite, lookup_cons_ite, ih]
        by_cases hkey : other = key
        · rw [if_pos hkey, if_pos hkey, if_neg (hkey ▸ ne_of_lt hlt)]
        · rw [if_neg hkey, if_neg hkey]
      · next hge =>
        obtain rfl : key = name := le_antisymm (not_lt.1 hle) (not_lt.1 hge)
        rw [lookup_cons_ite, lookup_cons_ite]
        split <;> rfl

/-- **Of the helpers that are put into a table one by one, the last under a name stands.** -/
theorem lookup_foldl_register (entries : List (String × Helper)) (table : HelperTable)
    (name : String) :
    (entries.foldl (fun table (name, helper) ↦ table.register name helper) table).entries.lookup
      name = (entries.reverse.lookup name).or (table.entries.lookup name) := by
  induction entries generalizing table with
  | nil => rfl
  | cons entry rest ih =>
    obtain ⟨key, helper⟩ := entry
    rw [List.foldl_cons, ih, List.reverse_cons, List.lookup_append, Option.or_assoc,
      lookup_cons_ite]
    show (rest.reverse.lookup name).or ((insertEntry key helper table.entries).lookup name) = _
    rw [lookup_insertEntry]
    split <;> rfl

/-! ### What the standard table answers -/

/-- Types are named in Pascal case. -/
theorem text_pascalCase (input : String) :
    standard.text "pascalCase" input = .ok (typeName input) := by
  rw [text, call, standard, lookup_foldl_register]
  rfl

/-- Functions are named in camel case, before they are guarded. -/
theorem text_camelCase (input : String) :
    standard.text "camelCase" input = .ok (Identifier.camelCase input) := by
  rw [text, call, standard, lookup_foldl_register]
  rfl

/-- Constants of groups are named in constant case. -/
theorem text_constantCase (input : String) :
    standard.text "constantCase" input = .ok (Identifier.constantCase input) := by
  rw [text, call, standard, lookup_foldl_register]
  rfl

/-- An operation has parameters of the path if any is in that place. -/
theorem flag_hasPathParams (op : Operation) :
    standard.flag "hasPathParams" op = .ok (!(op.parametersAt .path).isEmpty) := by
  rw [flag, call, standard, lookup_foldl_register]
  rfl

theorem flag_hasQueryParams (op : Operation) :
    standard.flag "hasQueryParams" op = .ok (!(op.parametersAt .query).isEmpty) := by
  rw [flag, call, standard, lookup_foldl_register]
  rfl

theorem flag_isQuery (op : Operation) : standard.flag "isQuery" op = .ok op.method.isRead := by
  rw [flag, call, standard, lookup_foldl_register]
  rfl

/-- Every operation that is no query is a mutation. -/
theorem flag_isMutation (op : Operation) :
    standard.flag "isMutation" op = .ok (!op.method.isRead) := by
  rw [flag, call, standard, lookup_foldl_register]
  rfl

/-- The address of an operation is the template of its path. -/
theorem expr_pathTemplate (op : Operation) :
    standard.expr "pathTemplate" op = .ok (pathTemplate op.path) := by
  rw [expr, call, standard, lookup_foldl_register]
  rfl

/-- The key of a query begins with its tag and its id. -/
theorem segments_queryKey (op : Operation) :
    standard.segments "queryKey" op = .ok [op.primaryTag, op.id] := by
  rw [segments, call, standard, lookup_foldl_register]
  rfl

theorem flag_requiresAuth (op : Operation) :
    standard.flag "requiresAuth" op = .ok op.requiresAuth := by
  rw [flag, call, standard, lookup_foldl_register]
  rfl

/-- The response of an operation is its first one that stands for success. -/
theorem response_successResponse (op : Operation) :
    standard.response "successResponse" op = .ok (op.responses.find? Response.isSuccess) := by
  rw [response, call, standard, lookup_foldl_register]
  rfl

end HelperTable

/-! ### Surfaces -/

namespace Surface

/-- A surface is that of the operation it is made for, whichever helpers name its parts. -/
theorem op_of_ofOperation_eq_ok {helpers : HelperTable} {op : Operation} {s : Surface}
    (h : ofOperation helpers op = .ok s) : s.op = op := by
  obtain ⟨base, -, h⟩ := Except.bind_eq_ok_iff.1 h
  split at h
  · exact absurd h nofun
  · obtain ⟨name, -, h⟩ := Except.bind_eq_ok_iff.1 h
    obtain ⟨inPath, -, h⟩ := Except.bind_eq_ok_iff.1 h
    split at h
    · obtain rfl := Except.ok.inj h
      rfl
    · obtain ⟨hasParams, -, h⟩ := Except.bind_eq_ok_iff.1 h
      obtain rfl := Except.ok.inj h
      rfl

/-- The surface of an operation. -/
def standard (op : Operation) : Surface where
  op := op
  functionName := Identifier.binding (Identifier.camelCase op.id)
  typeBase := typeName op.id
  paramsName :=
    if op.parameters.any Plan.isSurfaceParameter then some (typeName op.id ++ "Params") else none
  body := op.requestBody.map fun body ↦ (typeName op.id ++ "Body", body.required)
  responseName := typeName op.id ++ "Response"

/-- An operation has arguments if it has parameters of the path or of the query. -/
theorem any_isSurfaceParameter (op : Operation) :
    op.parameters.any Plan.isSurfaceParameter =
      (!(op.parametersAt .path).isEmpty || !(op.parametersAt .query).isEmpty) := by
  rw [Bool.eq_iff_iff]
  simp only [List.any_eq_true, Plan.isSurfaceParameter, Operation.parametersAt, Bool.or_eq_true,
    Bool.not_eq_true', List.isEmpty_eq_false_iff_exists_mem, List.mem_filter, beq_iff_eq]
  constructor
  · rintro ⟨p, hp, hpath | hquery⟩
    · exact Or.inl ⟨p, hp, hpath⟩
    · exact Or.inr ⟨p, hp, hquery⟩
  · rintro (⟨p, hp, hpath⟩ | ⟨p, hp, hquery⟩)
    · exact ⟨p, hp, Or.inl hpath⟩
    · exact ⟨p, hp, Or.inr hquery⟩

/-- The surface that the standard helpers give, unless the operation's id gives no name. -/
theorem ofOperation_standard (op : Operation) :
    ofOperation .standard op =
      if (typeName op.id).isEmpty then .error (.render (.namelessOperation op.id op.route))
      else .ok (standard op) := by
  rw [ofOperation, HelperTable.text_pascalCase, standard, any_isSurfaceParameter]
  cases hempty : (typeName op.id).isEmpty with
  | true =>
    simp only [bind, Except.bind, hempty, if_true]
    rfl
  | false =>
    simp only [bind, Except.bind, hempty, HelperTable.text_camelCase,
      HelperTable.flag_hasPathParams, HelperTable.flag_hasQueryParams]
    cases (op.parametersAt .path).isEmpty <;> rfl

/-- **An operation has a surface if its id gives a name**, and this is the surface. -/
theorem ofOperation_eq_ok_iff {op : Operation} {s : Surface} :
    ofOperation .standard op = .ok s ↔ typeName op.id ≠ "" ∧ s = standard op := by
  rw [ofOperation_standard, ne_eq, ← String.isEmpty_iff]
  split
  · next hempty => exact ⟨nofun, fun h ↦ absurd hempty h.1⟩
  · next hgood =>
    exact ⟨fun h ↦ ⟨hgood, (Except.ok.inj h).symm⟩, fun h ↦ congrArg Except.ok h.2.symm⟩

/-- The type of an operation's response. -/
def responseType (op : Operation) : TypeExpr :=
  match (op.responses.find? Response.isSuccess).bind Response.schema with
  | some schema => schema.toType
  | none => .keyword "void"

/-- The types of an operation are those of its parameters, its body and its response. -/
theorem typeDeclarations_standard (s : Surface) :
    s.typeDeclarations .standard = .ok (s.paramsDeclarations ++ s.bodyDeclarations ++
      [.alias s.responseName (responseType s.op) none]) := by
  rw [typeDeclarations, HelperTable.response_successResponse]
  rfl

end Surface

/-! ### Loops over operations -/

/-- **A loop over the operations of a group**, of which each step begins with the surface of the
operation and cannot fail after it, nor can what follows on the loop: it succeeds if the ids of the
operations give names. -/
theorem OperationGroup.loop_eq_ok_iff {α β : Type} {g : OperationGroup}
    {step : Operation → Surface → Except Failure α} {finish : List α → Except Failure β}
    {whole part : β} (made : Operation → α)
    (hstep : ∀ op, step op (Surface.standard op) = .ok (made op))
    (hfinish : finish (g.operations.map made) = .ok whole) :
    ((g.operations.mapM fun op ↦ Surface.ofOperation .standard op >>= step op) >>= finish) =
        .ok part ↔ (∀ op ∈ g.operations, typeName op.id ≠ "") ∧ part = whole :=
  Except.bind_eq_ok_iff_of_iff
    (fun _ ↦ Except.mapM_eq_ok_iff_map fun _ _ ↦
      Except.bind_eq_ok_iff_of_iff (fun _ ↦ Surface.ofOperation_eq_ok_iff) (hstep _))
    hfinish

end ApiContract
