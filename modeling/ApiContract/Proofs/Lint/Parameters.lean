import ApiContract.Proofs.Lint.Coverage
import ApiContract.Proofs.Spec.Operations

/-!
# Parameters of a document without errors

In a document that the linter finds no error in, every listed parameter that is an object after its
references has a name and a word for its place (`exists_name_of_mem_parameterValues`), and every
placeholder that the linter sees is declared (`exists_parameter_of_mem_placeholders`). That is not
all that the builder asks of a parameter.

## Main result

`Lint.parameters_kept_or_overlooked`: in a document without errors, the builder leaves out exactly
the listed parameters that are `Overlooked`, and every other one is represented in its operation.
There are three ways to be overlooked, and no others:

* a parameter leads through more references than are followed, as every circle does;
* it stands for something that is no object;
* the word for its place is none of the four that are known.

None of them is reported. The document at the end has a parameter of the body, which was a place in
an older version of the format: nothing is reported, and the parameter is gone
(`parameter_gone_reportsDocument`).

## Proof

References are followed as a `ReferenceChain`, a number of references one after the other, without
the counter of the loop. Where every reference has a target, which the linter checks, a chain is
followed in vain exactly if it is too long (`followReferences_eq_none_iff`). What is kept may be
replaced by a later declaration of the same name, so that *represented* means that a parameter of
that name is there.
-/

namespace ApiContract

open Json (HasPart)

/-! ### Chains of references -/

/-- References lead from one value to the next, so many of them. -/
inductive ReferenceChain (root : Json) : Nat → Json → Prop
  | nil (value : Json) : ReferenceChain root 0 value
  | cons {n : Nat} {value target : Json} {reference : String}
      (hreference : value.stringAt? "$ref" = some reference)
      (htarget : Pointer.resolve? root reference = some target)
      (hrest : ReferenceChain root n target) : ReferenceChain root (n + 1) value

/-- Where every reference has a target, a chain is followed in vain exactly if it is too long. -/
theorem followReferences_eq_none_iff {root : Json} (hresolve : ReferencesResolve root) {n : Nat}
    {value : Json} (hpart : root.HasPart value) :
    followReferences root n value = none ↔ ReferenceChain root n value := by
  induction n generalizing value with
  | zero => exact ⟨fun _ ↦ .nil value, fun _ ↦ rfl⟩
  | succ n ih =>
    rw [followReferences]
    cases hreference : value.stringAt? "$ref" with
    | none =>
      have hend : ¬ ReferenceChain root (n + 1) value := by
        intro h
        cases h with
        | cons hreference' => simp [hreference] at hreference'
      exact iff_of_false (Option.some_ne_none value) hend
    | some reference =>
      obtain ⟨fields, rfl, hfield⟩ := Json.stringAt?_eq_some_iff.1 hreference
      obtain ⟨target, htarget⟩ := hresolve hpart hfield
      dsimp only
      rw [htarget, Option.bind_some, ih (.resolve? htarget)]
      refine ⟨.cons hreference htarget, fun h ↦ ?_⟩
      cases h with
      | cons hreference' htarget' hrest =>
        obtain rfl := Option.some.inj (hreference.symm.trans hreference')
        obtain rfl := Option.some.inj (htarget.symm.trans htarget')
        exact hrest

namespace Lint

variable {policy : LintPolicy} {doc : Json}

/-! ### Listed parameters -/

/-- Counting items keeps them. -/
theorem mem_indexed_iff {α : Type} {items : List α} {x : α} :
    (∃ i, (i, x) ∈ indexed items) ↔ x ∈ items := by
  simp only [indexed, List.mem_map, Prod.mk.injEq, Prod.exists]
  constructor
  · rintro ⟨i, y, j, hmem, rfl, rfl⟩
    exact List.fst_mem_of_mem_zipIdx hmem
  · intro hx
    obtain ⟨i, hi⟩ := List.mem_iff_getElem?.1 hx
    exact ⟨i, x, i, List.mem_zipIdx_iff_getElem?.2 hi, rfl, rfl⟩

/-- A text that was looked up is a field. -/
theorem bind_asString?_eq_some_iff {name text : String} {fields : List (String × Json)} :
    (field? name fields).bind Json.asString? = some text ↔
      field? name fields = some (.string text) := by
  simp only [Option.bind_eq_some_iff, Json.asString?_eq_some_iff, exists_eq_right]

theorem field?_of_parameterName? {name : String} {fields : List (String × Json)}
    (h : parameterName? fields = some name) : field? "name" fields = some (.string name) :=
  bind_asString?_eq_some_iff.1 (Option.filter_eq_some_iff.1 h).1

/-- The parameters that the linter lists are the values that stand for objects. -/
theorem mem_listedParameters_iff {fields parameter : List (String × Json)} {path : String} :
    (∃ place, (place, parameter) ∈ listedParameters doc fields path) ↔
      ∃ value ∈ parameterValues fields, dereference? doc value = some (.object parameter) := by
  have hobject (value : Json) : (dereference? doc value).bind Json.asObject? = some parameter ↔
      dereference? doc value = some (.object parameter) := by
    rw [Option.bind_eq_some_iff]
    constructor
    · rintro ⟨target, htarget, hfields⟩
      rwa [← Json.asObject?_eq_some_iff.1 hfields]
    · exact fun h ↦ ⟨_, h, rfl⟩
  constructor
  · rintro ⟨place, hmem⟩
    obtain ⟨⟨i, value⟩, hvalue, hread⟩ := List.mem_filterMap.1 hmem
    obtain ⟨parameter', hparameter, heq⟩ := Option.map_eq_some_iff.1 hread
    obtain ⟨-, rfl⟩ := Prod.mk.inj heq
    exact ⟨value, mem_indexed_iff.1 ⟨i, hvalue⟩, (hobject value).1 hparameter⟩
  · rintro ⟨value, hvalue, hread⟩
    obtain ⟨i, hi⟩ := mem_indexed_iff.2 hvalue
    refine ⟨item (child path "parameters") i, List.mem_filterMap.2 ⟨(i, value), hi, ?_⟩⟩
    exact Option.map_eq_some_iff.2 ⟨parameter, (hobject value).2 hread, rfl⟩

/-- The parameters that the linter checks for an operation. -/
def checkedParameters (doc : Json) (e : OperationEntry) : List (String × List (String × Json)) :=
  listedParameters doc e.item (child "paths" e.template) ++
    listedParameters doc e.op (child (child "paths" e.template) e.key)

/-- The parameters that are checked for an operation are its own and those of its path. -/
theorem mem_checkedParameters_iff {e : OperationEntry} {parameter : List (String × Json)} :
    (∃ place, (place, parameter) ∈ checkedParameters doc e) ↔
      ∃ value ∈ e.parameterValues, dereference? doc value = some (.object parameter) := by
  simp only [checkedParameters, OperationEntry.parameterValues, List.mem_append, exists_or,
    mem_listedParameters_iff, or_and_right]

/-! ### No errors -/

section

variable (h : (lint policy doc).errors = []) {e : OperationEntry} (he : e ∈ operations doc)

include h he

/-- Nothing that is found about an operation is an error. -/
theorem isError_eq_false_of_mem_checkOperation {f : Finding}
    (hf : f ∈ checkOperation doc e.template e.item e.key e.method e.op) : f.isError = false := by
  have hmem : f ∈ checkOperations doc := by
    rw [checkOperations]
    split
    · next hnone =>
      -- without paths there are no operations
      rw [operations, hnone] at he
      exact absurd he List.not_mem_nil
    · exact List.mem_flatMap.2 ⟨e, he, hf⟩
  have hall : f ∈ findings policy doc := by
    simp only [findings, List.mem_append]
    tauto
  exact Bool.eq_false_iff.2 (List.filter_eq_nil_iff.1 h f hall)

/-- **A parameter that is checked has a name and a word for its place.** -/
theorem exists_name_of_mem_parameterValues {value : Json} (hvalue : value ∈ e.parameterValues)
    {fields : List (String × Json)} (hfields : dereference? doc value = some (.object fields)) :
    (∃ name, field? "name" fields = some (.string name)) ∧
      ∃ word, field? "in" fields = some (.string word) := by
  obtain ⟨place, hplace⟩ := mem_checkedParameters_iff.2 ⟨value, hvalue, hfields⟩
  have hchecked : ∀ f ∈ checkParameter fields place, f.isError = false := by
    refine fun f hf ↦ isError_eq_false_of_mem_checkOperation h he ?_
    exact List.mem_append_left _ (List.mem_append_right _ (List.mem_flatMap.2 ⟨_, hplace, hf⟩))
  rw [checkParameter, List.forall_mem_append, List.forall_mem_append] at hchecked
  obtain ⟨⟨hname, hword⟩, -⟩ := hchecked
  constructor
  · cases hread : parameterName? fields with
    | none =>
      rw [if_pos (by rw [hread]; rfl)] at hname
      exact absurd (hname _ (List.mem_singleton_self _)) nofun
    | some name => exact ⟨name, field?_of_parameterName? hread⟩
  · cases hread : (field? "in" fields).bind Json.asString? with
    | none =>
      rw [if_pos (by rw [hread]; rfl)] at hword
      exact absurd (hword _ (List.mem_singleton_self _)) nofun
    | some word => exact ⟨word, bind_asString?_eq_some_iff.1 hread⟩

/-- **A placeholder that the linter sees is declared** among the parameters of the path. -/
theorem exists_value_of_mem_placeholders {name : String} (hname : name ∈ placeholders e.template) :
    ∃ value ∈ e.parameterValues, ∃ fields, dereference? doc value = some (.object fields) ∧
      field? "name" fields = some (.string name) ∧
      field? "in" fields = some (.string "path") := by
  have hdeclared : name ∈
      (checkedParameters doc e).filterMap fun entry ↦ pathParameterName? entry.2 := by
    by_contra hnot
    have hmissing : name ∈ (placeholders e.template).filter fun name ↦
        !(NameSet.ofList ((checkedParameters doc e).filterMap fun entry ↦
          pathParameterName? entry.2)).contains name := by
      refine List.mem_filter.2 ⟨hname, ?_⟩
      rw [Bool.not_eq_true', Bool.eq_false_iff, ne_eq, NameSet.contains_iff, NameSet.mem_ofList]
      exact hnot
    exact absurd (isError_eq_false_of_mem_checkOperation h he
      (List.mem_append_right _ (List.mem_append_left _ (List.mem_map_of_mem hmissing)))) nofun
  obtain ⟨⟨place, fields⟩, hplace, hread⟩ := List.mem_filterMap.1 hdeclared
  obtain ⟨value, hvalue, hfields⟩ := mem_checkedParameters_iff.1 ⟨place, hplace⟩
  refine ⟨value, hvalue, fields, hfields, ?_⟩
  rw [pathParameterName?] at hread
  split at hread
  · next hword =>
    exact ⟨field?_of_parameterName? hread, bind_asString?_eq_some_iff.1 (beq_iff_eq.1 hword)⟩
  · exact absurd hread nofun

/-! ### What the builder keeps -/

/-- **What fills a placeholder that the linter sees is a parameter of the operation**, wherever its
last declaration puts it. -/
theorem exists_parameter_of_mem_placeholders {name : String}
    (hname : name ∈ placeholders e.template) :
    ∃ parameter ∈ (Build.operationOf doc e).parameters, parameter.name = name := by
  obtain ⟨value, hvalue, fields, hfields, hdeclared, hword⟩ :=
    exists_value_of_mem_placeholders h he hname
  obtain ⟨parameter, hread, hsame, -⟩ :=
    Build.exists_parameter?_iff.2 ⟨fields, "path", hfields, hdeclared, hword, rfl⟩
  exact List.mem_map.1 (Build.mem_map_name_operationOf.2 ⟨value, hvalue, parameter, hread, hsame⟩)

end

/-- Why a listed parameter is left out although nothing is reported: it leads through more
references than are followed, it stands for no object, or the word for its place is none of the
four. -/
inductive Overlooked (doc value : Json) : Prop
  | endless (hchain : ReferenceChain doc (maxResolveDepth + 1) value)
  | noObject {target : Json} (htarget : dereference? doc value = some target)
      (hobject : target.asObject? = none)
  | noPlace {fields : List (String × Json)} {word : String}
      (hfields : dereference? doc value = some (.object fields))
      (hword : field? "in" fields = some (.string word))
      (hplace : ParamPlace.ofName? word = none)

/-- A value is represented in an operation: it declares a name, and a parameter has that name. -/
def Represented (doc value : Json) (op : Operation) : Prop :=
  ∃ fields name, dereference? doc value = some (.object fields) ∧
    field? "name" fields = some (.string name) ∧ ∃ parameter ∈ op.parameters, parameter.name = name

section

variable (h : (lint policy doc).errors = []) {e : OperationEntry} (he : e ∈ operations doc)

include h he

/-- **The builder leaves out what is overlooked**, and nothing else. -/
theorem parameter?_eq_none_iff_overlooked {value : Json} (hvalue : value ∈ e.parameterValues) :
    Build.parameter? (.ofDocument doc) value = none ↔ Overlooked doc value := by
  have herrors : ∀ f ∈ (lint policy doc).errors, f.code ≠ .unresolvedReference := by
    rw [h]
    exact nofun
  have hresolve : ReferencesResolve doc := referencesResolve_of_lint herrors
  have hchain := followReferences_eq_none_iff hresolve (n := maxResolveDepth + 1)
    (OperationEntry.hasPart_of_mem_parameterValues he hvalue)
  constructor
  -- Without an error a parameter has a name and says a place, so something else is missing.
  · intro hnone
    rcases htarget : dereference? doc value with - | target
    · exact .endless (hchain.1 htarget)
    rcases hobject : target.asObject? with - | fields
    · exact .noObject htarget hobject
    obtain rfl : target = .object fields := Json.asObject?_eq_some_iff.1 hobject
    obtain ⟨⟨name, hname⟩, ⟨word, hword⟩⟩ := exists_name_of_mem_parameterValues h he hvalue htarget
    rcases hplace : ParamPlace.ofName? word with - | place
    · exact .noPlace htarget hword hplace
    · obtain ⟨parameter, hread, -⟩ :=
        Build.exists_parameter?_iff.2 ⟨fields, word, htarget, hname, hword, hplace⟩
      exact absurd (hnone.symm.trans hread) nofun
  · intro hover
    by_contra hsome
    obtain ⟨parameter, hread⟩ := Option.ne_none_iff_exists'.1 hsome
    obtain ⟨fields, word, hfields, -, hword, hplace⟩ :=
      Build.exists_parameter?_iff.1 ⟨parameter, hread, rfl, rfl⟩
    cases hover with
    | endless hlong => exact absurd ((hchain.2 hlong).symm.trans hfields) nofun
    | noObject htarget hobject =>
      obtain rfl := Option.some.inj (htarget.symm.trans hfields)
      exact absurd hobject nofun
    | noPlace hfields' hword' hnoPlace =>
      obtain rfl := Json.object.inj (Option.some.inj (hfields'.symm.trans hfields))
      obtain rfl := Json.string.inj (Option.some.inj (hword'.symm.trans hword))
      exact absurd (hnoPlace.symm.trans hplace) nofun

/-- **What is not overlooked is represented.** -/
theorem represented_of_not_overlooked {value : Json} (hvalue : value ∈ e.parameterValues)
    (hseen : ¬Overlooked doc value) : Represented doc value (Build.operationOf doc e) := by
  rcases hread : Build.parameter? (.ofDocument doc) value with - | parameter
  · exact absurd ((parameter?_eq_none_iff_overlooked h he hvalue).1 hread) hseen
  · obtain ⟨fields, -, hfields, hname, -⟩ :=
      Build.exists_parameter?_iff.1 ⟨parameter, hread, rfl, rfl⟩
    have hmem := Build.mem_map_name_operationOf.2 ⟨value, hvalue, parameter, hread, rfl⟩
    exact ⟨fields, parameter.name, hfields, hname, List.mem_map.1 hmem⟩

end

/-- **The builder keeps what the linter accepts, unless both overlook it.** In a document without
errors, the contract has the operations that the linter meets, the builder leaves out exactly the
listed parameters that are overlooked, and every other one is represented in its operation. -/
theorem parameters_kept_or_overlooked (h : (lint policy doc).errors = []) :
    List.Forall₂ (fun e op ↦ op.path = e.template ∧ op.method = e.method ∧
        ∀ value ∈ e.parameterValues,
          (Build.parameter? (.ofDocument doc) value = none ↔ Overlooked doc value) ∧
          (¬Overlooked doc value → Represented doc value op))
      (operations doc) (Spec.ofDocument doc).operations := by
  rw [Spec.operations_ofDocument, List.forall₂_map_right_iff, List.forall₂_same]
  exact fun e he ↦ ⟨rfl, rfl, fun value hvalue ↦
    ⟨parameter?_eq_none_iff_overlooked h he hvalue, represented_of_not_overlooked h he hvalue⟩⟩

/-- A report with a parameter of the query and one of the body, which is no place for one. -/
def reportsDocument : Json :=
  .object [
    ("openapi", .string "3.0.3"),
    ("info", .object [("title", .string "Reports"), ("version", .string "1.0.0")]),
    ("paths", .object [("/reports", .object [("get", .object [
      ("parameters", .array [
        .object [("name", .string "since"), ("in", .string "query")],
        .object [("name", .string "filter"), ("in", .string "body")]])])])])]

theorem errors_reportsDocument : (lint {} reportsDocument).errors = [] := by
  decide +kernel

/-- The general statement about this document. -/
theorem parameters_kept_or_overlooked_reportsDocument :
    (lint {} reportsDocument).errors = [] ∧ (operations reportsDocument).length = 1 ∧
      List.Forall₂ (fun e op ↦ op.path = e.template ∧ op.method = e.method ∧
          ∀ value ∈ e.parameterValues,
            (Build.parameter? (.ofDocument reportsDocument) value = none ↔
              Overlooked reportsDocument value) ∧
            (¬Overlooked reportsDocument value → Represented reportsDocument value op))
        (operations reportsDocument) (Spec.ofDocument reportsDocument).operations :=
  ⟨errors_reportsDocument, rfl, parameters_kept_or_overlooked errors_reportsDocument⟩

/-- Nothing is reported, and the parameter of the body is gone. -/
theorem parameter_gone_reportsDocument :
    (lint {} reportsDocument).errors = [] ∧
    ∃ e op, operations reportsDocument = [e] ∧
      (Spec.ofDocument reportsDocument).operations = [op] ∧
      .object [("name", .string "filter"), ("in", .string "body")] ∈ e.parameterValues ∧
      op.parameters.map Parameter.name = ["since"] := by
  refine ⟨errors_reportsDocument, _, _, rfl, rfl, ?_, by decide +kernel⟩
  exact List.mem_cons_of_mem _ (List.mem_singleton_self _)

end Lint

end ApiContract
