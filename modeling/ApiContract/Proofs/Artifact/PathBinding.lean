import ApiContract.Artifact.Render
import ApiContract.Proofs.Artifact.Client
import ApiContract.Proofs.Identifier
import ApiContract.Proofs.Lint.Parameters
import ApiContract.Proofs.Plan
import ApiContract.Proofs.Projection.PathTemplate

/-!
# Placeholders and their parameters

The linter asks that every placeholder that it sees is declared among the parameters of the path,
and the client binds a variable for each parameter of the path. This module says what the one check
is worth for the other.

## Three readings of a placeholder

The linter takes any text between braces without brace or slash for the name of a placeholder; the
client asks for a parameter where braces enclose a whole segment; the address fills whatever stands
between an opening brace and the next closing one. The readings agree on a segment that is a
placeholder with a plain name, and on no more than that. Besides, an operation can declare a
parameter in another place that takes over a parameter of the path with its name.

## Main results

* `ClientModule.unbound_explained`: if an accepted contract has no client because of a placeholder,
  this is empty or holds a brace, or the operation declares a parameter of its name for another
  place.
* `ClientModule.variables_bound`: in a client of an accepted contract each address is that of an
  operation, and each variable in it is bound by the function which sends the request, wherever the
  checks see to the placeholder (`ClientModule.IsCovered`).

## Proof

A placeholder in the linter's sense is found between braces of the path, so absence of errors gives
a parameter of the path in the document; by `Proofs.Lint.Agreement` this is one of the resolved
operation, unless another declaration has taken its place. The variables of an address are those of
its pieces (`Proofs.Projection.PathTemplate`).

Two documents show that the conditions matter: two names in one segment are taken for one, and a
parameter of the query hides the one of the path.
-/

namespace ApiContract

open TypeScript

variable {policy : LintPolicy} {doc : Json} {options : RenderOptions} {plan : Plan}

/-- **What fills a placeholder is a parameter of the operation**, if the placeholder is a name for
the linter. -/
theorem exists_parameter_of_braced (h : (lint policy doc).errors = []) {op : Operation}
    (hop : op ∈ (Spec.ofDocument doc).operations) {name : List Char}
    (hbraced : Braced op.path.toList name) (hname : Lint.IsPlaceholderName name) :
    ∃ parameter ∈ op.parameters, parameter.name = String.ofList name := by
  rw [Spec.operations_ofDocument] at hop
  obtain ⟨e, he, rfl⟩ := List.mem_map.1 hop
  exact Lint.exists_parameter_of_mem_placeholders h he
    (Lint.mem_placeholders_of_braced hbraced hname)

namespace ClientModule

/-! ### Placeholders without a parameter -/

/-- A placeholder that is not bound has no parameter of the path. -/
theorem unboundPlaceholder?_eq_some {op : Operation} {name : String}
    (h : unboundPlaceholder? op = some name) :
    name ∈ placeholders op.path ∧
      ∀ parameter ∈ op.parameters, parameter.name = name → parameter.place ≠ .path := by
  refine ⟨List.mem_of_find?_eq_some h, fun parameter hparameter hname hplace ↦ ?_⟩
  have hnone := List.find?_some h
  rw [Bool.not_eq_true', List.any_eq_false] at hnone
  exact hnone parameter (List.mem_filter.2 ⟨hparameter, beq_iff_eq.2 hplace⟩) (beq_iff_eq.2 hname)

/-- Where no placeholder is unbound, what fills whole segments has parameters of the path. -/
theorem exists_parameter_of_mem_placeholders {op : Operation} (h : unboundPlaceholder? op = none)
    {name : String} (hname : name ∈ placeholders op.path) :
    ∃ parameter ∈ op.parametersAt .path, parameter.name = name := by
  have hbound := List.find?_eq_none.1 h name hname
  rw [Bool.not_eq_true', Bool.not_eq_false, List.any_eq_true] at hbound
  obtain ⟨parameter, hparameter, heq⟩ := hbound
  exact ⟨parameter, hparameter, beq_iff_eq.1 heq⟩

/-- The text of a client is that of its declarations. -/
theorem render_axios_eq_ok_iff {helpers : HelperTable} {text : String} :
    plan.render .axios helpers = .ok text ↔
      ∃ declared, declarations plan helpers = .ok declared ∧ printModule declared = text :=
  Except.map_eq_ok_iff

/-- **Why a placeholder of an accepted contract is unbound**: it is empty or holds a brace, or an
operation declares a parameter of its name for another place. -/
theorem unbound_explained (h : (lint policy doc).errors = [])
    (hplan : Plan.ofSpec (Spec.ofDocument doc) options = .ok plan) {id name : String}
    (hrender : plan.render .axios .standard = .error (.render (.unboundPlaceholder id name))) :
    ∃ op ∈ (Spec.ofDocument doc).operations, op.id = id ∧ name ∈ placeholders op.path ∧
      ((name = "" ∨ '\x7b' ∈ name.toList ∨ '\x7d' ∈ name.toList) ∨
        ∃ parameter ∈ op.parameters, parameter.name = name ∧ parameter.place ≠ .path) := by
  obtain ⟨op, hop, hnameless | hfunction⟩ :=
    exists_of_declarations_eq_error (Except.map_eq_error_iff.1 hrender)
  · exact absurd hnameless nofun
  obtain ⟨found, hunbound, hfault⟩ := exists_of_function_eq_error hfunction
  obtain ⟨rfl, rfl⟩ : id = op.id ∧ name = found := by
    simpa [Surface.standard] using hfault
  have hspec := Plan.mem_operations_of_ofSpec hplan hop
  obtain ⟨hmem, hnoPath⟩ := unboundPlaceholder?_eq_some hunbound
  refine ⟨op, hspec, rfl, hmem, ?_⟩
  obtain ⟨hbraced, hslash⟩ := braced_of_mem_placeholders hmem
  -- The linter has seen a parameter for every name that it takes for one.
  by_cases hname : Lint.IsPlaceholderName name.toList
  · obtain ⟨parameter, hparameter, hsame⟩ := exists_parameter_of_braced h hspec hbraced hname
    rw [String.ofList_toList] at hsame
    exact .inr ⟨parameter, hparameter, hsame, hnoPath parameter hparameter hsame⟩
  · left
    by_contra hproper
    simp only [not_or] at hproper
    obtain ⟨hempty, hopen, hclose⟩ := hproper
    exact hname ⟨by simpa using hempty, hopen, hclose, hslash⟩

/-- A file by its name and extension, which share a segment of the path. -/
def filesDocument : Json :=
  .object [
    ("openapi", .string "3.0.3"),
    ("info", .object [("title", .string "Files"), ("version", .string "1.0.0")]),
    ("paths", .object [("/files/\x7bname\x7d.\x7bext\x7d", .object [("get", .object [
      ("operationId", .string "getFile"),
      ("parameters", .array [
        .object [("name", .string "name"), ("in", .string "path")],
        .object [("name", .string "ext"), ("in", .string "path")]])])])])]

theorem errors_filesDocument : (lint {} filesDocument).errors = [] := by
  decide +kernel

theorem ofSpec_filesDocument : Plan.ofSpec (Spec.ofDocument filesDocument) {} =
    .ok (Plan.make (Spec.ofDocument filesDocument) {}) :=
  Plan.ofSpec_eq_ok_iff.2 ⟨Option.isNone_iff_eq_none.1 (by decide +kernel), rfl⟩

/-- The client takes the two names for one, and finds no parameter for it. -/
theorem render_filesDocument :
    (Plan.make (Spec.ofDocument filesDocument) {}).render .axios .standard =
      .error (.render (.unboundPlaceholder "getFile" "name\x7d.\x7bext")) := by
  decide +kernel

/-- Two names with what is between them are taken for one, which holds braces. -/
theorem unbound_explained_filesDocument :
    ∃ op ∈ (Spec.ofDocument filesDocument).operations, op.id = "getFile" ∧
      (("name\x7d.\x7bext" = "" ∨ '\x7b' ∈ "name\x7d.\x7bext".toList ∨
          '\x7d' ∈ "name\x7d.\x7bext".toList) ∨
        ∃ parameter ∈ op.parameters, parameter.name = "name\x7d.\x7bext" ∧
          parameter.place ≠ .path) := by
  obtain ⟨op, hop, hid, -, hreason⟩ :=
    unbound_explained errors_filesDocument ofSpec_filesDocument render_filesDocument
  exact ⟨op, hop, hid, hreason⟩

/-- The linter accepts the contract, both parameters are declared, and the client cannot be made. -/
theorem unbound_filesDocument :
    (lint {} filesDocument).errors = [] ∧
    Plan.ofSpec (Spec.ofDocument filesDocument) {} =
      .ok (Plan.make (Spec.ofDocument filesDocument) {}) ∧
    (Plan.make (Spec.ofDocument filesDocument) {}).render .axios .standard =
      .error (.render (.unboundPlaceholder "getFile" "name\x7d.\x7bext")) :=
  ⟨errors_filesDocument, ofSpec_filesDocument, render_filesDocument⟩

/-! ### Variables in addresses -/

/-- The checks see to a placeholder: it fills a whole segment of the path, or it is a name for the
linter and the operation declares no parameter of its name for another place. -/
def IsCovered (op : Operation) (name : List Char) : Prop :=
  String.ofList name ∈ placeholders op.path ∨
    Lint.IsPlaceholderName name ∧
      ∀ parameter ∈ op.parameters, parameter.name = String.ofList name → parameter.place = .path

/-- A placeholder that the checks see to has a parameter of the path. -/
theorem exists_parameter_of_isCovered (h : (lint policy doc).errors = []) {op : Operation}
    (hop : op ∈ (Spec.ofDocument doc).operations) (hbound : unboundPlaceholder? op = none)
    {name : List Char} (hbraced : Braced op.path.toList name) (hcovered : IsCovered op name) :
    ∃ parameter ∈ op.parametersAt .path, parameter.name = String.ofList name := by
  rcases hcovered with hsegment | ⟨hname, hplaces⟩
  · exact exists_parameter_of_mem_placeholders hbound hsegment
  · obtain ⟨parameter, hparameter, hsame⟩ := exists_parameter_of_braced h hop hbraced hname
    have hplace := beq_iff_eq.2 (hplaces parameter hparameter hsame)
    exact ⟨parameter, List.mem_filter.2 ⟨hparameter, hplace⟩, hsame⟩

/-- **The variables in the addresses of an accepted contract are bound** by the function that sends
the request, wherever the checks see to the placeholder. A variable is empty if the placeholder has
neither letter nor digit. -/
theorem variables_bound (h : (lint policy doc).errors = [])
    (hplan : Plan.ofSpec (Spec.ofDocument doc) options = .ok plan) {text : String}
    (hrender : plan.render .axios .standard = .ok text) :
    ∃ declared, declarations plan .standard = .ok declared ∧ printModule declared = text ∧
      ∀ d ∈ declared, ∀ url ∈ d.requestUrls, ∃ op ∈ (Spec.ofDocument doc).operations,
        url = pathTemplate op.path ∧
        ∀ o ∈ url.occurrences false, o.name ∈ globalNames ∨
          ∃ name, .placeholder name ∈ PathPiece.scan op.path.toList ∧
            o.name = PathPiece.variableOf name ∧
            (o.name ≠ "" ↔ ∃ c ∈ name, c.isAlphanum = true) ∧
            (IsCovered op name → o.name ∈ d.paramLocals) := by
  obtain ⟨declared, hdeclared, htext⟩ := render_axios_eq_ok_iff.1 hrender
  refine ⟨declared, hdeclared, htext, fun d hd url hurl ↦ ?_⟩
  -- what sends a request is the function of an operation
  obtain ⟨functions, hfunctions, rfl⟩ := exists_of_declarations_eq_ok hdeclared
  have hmem := mem_functions_of_requestUrls hd (List.ne_nil_of_mem hurl)
  obtain ⟨s, hs, hfunction⟩ := Except.exists_of_mem_of_mapM_eq_ok hfunctions hmem
  obtain ⟨op, hop, rfl⟩ := List.mem_map.1 hs
  obtain ⟨hbound, hurls, hlocals⟩ := of_function_eq_ok hfunction
  rw [hurls, List.mem_singleton] at hurl
  have hspec := Plan.mem_operations_of_ofSpec hplan hop
  refine ⟨op, hspec, hurl, fun o ho ↦ ?_⟩
  rw [hurl] at ho
  refine (mem_occurrences_pathTemplate ho).imp_right ?_
  rintro ⟨name, hscan, hvariable⟩
  refine ⟨name, hscan, hvariable, ?_, fun hcovered ↦ ?_⟩
  · rw [hvariable, PathPiece.variableOf, Identifier.binding_ne_empty_iff, String.toList_ofList]
  · obtain ⟨parameter, hparameter, hsame⟩ := exists_parameter_of_isCovered h hspec hbound
      (PathPiece.braced_of_mem_scan hscan) hcovered
    rw [hlocals, hvariable, PathPiece.variableOf, ← hsame]
    exact List.mem_map_of_mem hparameter

/-- A note by its id, and a version of it by an id that the operation takes from the query. -/
def notesDocument : Json :=
  let id (place : String) : Json := .object [("name", .string "id"), ("in", .string place)]
  .object [
    ("openapi", .string "3.0.3"),
    ("info", .object [("title", .string "Notes"), ("version", .string "1.0.0")]),
    ("paths", .object [
      ("/notes/\x7bid\x7d", .object [
        ("parameters", .array [id "path"]),
        ("get", .object [("operationId", .string "getNote")])]),
      ("/notes/v\x7bid\x7d", .object [
        ("parameters", .array [id "path"]),
        ("get", .object [
          ("operationId", .string "getVersion"),
          ("parameters", .array [id "query"])])])])]

theorem errors_notesDocument : (lint {} notesDocument).errors = [] := by
  decide +kernel

theorem ofSpec_notesDocument : Plan.ofSpec (Spec.ofDocument notesDocument) {} =
    .ok (Plan.make (Spec.ofDocument notesDocument) {}) :=
  Plan.ofSpec_eq_ok_iff.2 ⟨Option.isNone_iff_eq_none.1 (by decide +kernel), rfl⟩

/-- The client of the notes binds the variable of the one address and not that of the other. -/
theorem exists_client_notesDocument :
    ∃ declared, declarations (Plan.make (Spec.ofDocument notesDocument) {}) .standard =
        .ok declared ∧
      (∃ d ∈ declared, ∃ url ∈ d.requestUrls, ∃ o ∈ url.occurrences false,
        o.name = "id" ∧ o.name ∈ d.paramLocals) ∧
      ∃ d ∈ declared, ∃ url ∈ d.requestUrls, ∃ o ∈ url.occurrences false,
        o.name = "id" ∧ o.name ∉ d.paramLocals := by
  have hclient : (match declarations (Plan.make (Spec.ofDocument notesDocument) {}) .standard with
      | .ok declared => decide (
        (∃ d ∈ declared, ∃ url ∈ d.requestUrls, ∃ o ∈ url.occurrences false,
          o.name = "id" ∧ o.name ∈ d.paramLocals) ∧
        ∃ d ∈ declared, ∃ url ∈ d.requestUrls, ∃ o ∈ url.occurrences false,
          o.name = "id" ∧ o.name ∉ d.paramLocals)
      | .error _ => false) = true := by
    decide +kernel
  split at hclient
  · next declared hdeclared => exact ⟨declared, hdeclared, of_decide_eq_true hclient⟩
  · exact absurd hclient nofun

/-- The general statement at the notes, of which one address reads a bound variable. -/
theorem variables_bound_notesDocument :
    ∃ text declared,
      (Plan.make (Spec.ofDocument notesDocument) {}).render .axios .standard = .ok text ∧
      printModule declared = text ∧ (∃ d ∈ declared, d.requestUrls ≠ []) ∧
      ∀ d ∈ declared, ∀ url ∈ d.requestUrls, ∃ op ∈ (Spec.ofDocument notesDocument).operations,
        url = pathTemplate op.path ∧
        ∀ o ∈ url.occurrences false, o.name ∈ globalNames ∨
          ∃ name, .placeholder name ∈ PathPiece.scan op.path.toList ∧
            o.name = PathPiece.variableOf name ∧
            (o.name ≠ "" ↔ ∃ c ∈ name, c.isAlphanum = true) ∧
            (IsCovered op name → o.name ∈ d.paramLocals) := by
  obtain ⟨declared, hdeclared, ⟨d, hd, url, hurl, -⟩, -⟩ := exists_client_notesDocument
  have hrender : (Plan.make (Spec.ofDocument notesDocument) {}).render .axios .standard =
      .ok (printModule declared) :=
    render_axios_eq_ok_iff.2 ⟨declared, hdeclared, rfl⟩
  obtain ⟨declared', hdeclared', htext, hall⟩ :=
    variables_bound errors_notesDocument ofSpec_notesDocument hrender
  obtain rfl := Except.ok.inj (hdeclared.symm.trans hdeclared')
  exact ⟨_, declared, hrender, rfl, ⟨d, hd, List.ne_nil_of_mem hurl⟩, hall⟩

/-- The linter accepts the contract and the client can be made, and the address of a version reads a
variable that the function does not take out of its parameters. -/
theorem variable_free_notesDocument :
    (lint {} notesDocument).errors = [] ∧
    Plan.ofSpec (Spec.ofDocument notesDocument) {} =
      .ok (Plan.make (Spec.ofDocument notesDocument) {}) ∧
    ∃ declared,
      (Plan.make (Spec.ofDocument notesDocument) {}).render .axios .standard =
        .ok (printModule declared) ∧
      ∃ d ∈ declared, ∃ url ∈ d.requestUrls, ∃ o ∈ url.occurrences false,
        o.name = "id" ∧ o.name ∉ d.paramLocals := by
  obtain ⟨declared, hdeclared, -, hfree⟩ := exists_client_notesDocument
  refine ⟨errors_notesDocument, ofSpec_notesDocument, declared, ?_, hfree⟩
  exact render_axios_eq_ok_iff.2 ⟨declared, hdeclared, rfl⟩

end ClientModule

end ApiContract
