import ApiContract.Proofs.Lint.Codes
import ApiContract.Proofs.Spec.Build

/-!
# The linter and the resolver meet the same references

The linter looks at every `$ref` of a document once and the resolver at those on its way, again and
again and only so deep. A contract that is built from an accepted document should owe nothing to
what the resolver does about a reference that leads nowhere.

## Main result

`Lint.references_covered`, for every document and policy. What the resolver answers where a
reference leads nowhere is a parameter of building (`Fallback`); in a document without an error
about references, the contract is the same for every such answer. And the errors about references
are one for each `$ref` with a text that leads nowhere, wherever it stands, in the order of the
document.

## Proof

What the resolver reaches are parts of the document (`Json.HasPart`), and so what the linter does
not complain about has a target wherever it is met (`referencesResolve_of_lint`). The places of
references are distinct (`nodup_map_danglingPlaces`), so that no error is reported twice.

## Limits

A reference counts here if its value is a text; a `$ref` with another value is not followed by
anyone. That a reference *has* a target does not mean that following it ends: the example at the end
is a document in which references run in a circle, and its contract depends on no fallback either.
-/

namespace ApiContract

open Json (Step)

namespace Lint

/-- The error about a reference at a place that leads nowhere. -/
def unresolvedError (doc : Json) (place : List Step) (reference : String) : Finding :=
  ⟨.unresolvedReference, location "" place, unresolvedMessage (componentPointers doc) reference⟩

/-- The references of a document that lead nowhere, each with its place. -/
def danglingPlaces (doc : Json) : List (List Step × String) :=
  (referencePlaces doc).filter fun found ↦ (Pointer.resolve? doc found.2).isNone

/-- The dangling places are those of references that lead nowhere. -/
theorem mem_danglingPlaces_iff {doc : Json} {place : List Step} {reference : String} :
    (place, reference) ∈ danglingPlaces doc ↔
      ReferenceAt doc place reference ∧ Pointer.resolve? doc reference = none := by
  rw [danglingPlaces, List.mem_filter, mem_referencePlaces_iff, Option.isNone_iff_eq_none]

theorem nodup_map_danglingPlaces (doc : Json) : ((danglingPlaces doc).map Prod.fst).Nodup :=
  (nodup_map_referencePlaces doc).sublist (List.filter_sublist.map Prod.fst)

/-- One error for each reference that leads nowhere, in the order of the document. -/
theorem checkReferences_eq_map (doc : Json) :
    checkReferences doc =
      (danglingPlaces doc).map fun found ↦ unresolvedError doc found.1 found.2 := by
  rw [checkReferences, references_eq_map, danglingPlaces, List.filterMap_map]
  induction referencePlaces doc with
  | nil => rfl
  | cons found rest ih =>
    rw [List.filterMap_cons, List.filter_cons, ih, Function.comp_apply]
    cases hresolve : Pointer.resolve? doc found.2 with
    | none => simp [hresolve, unresolvedError]
    | some target => simp [hresolve]

/-- Without errors about references, every reference has a target. -/
theorem referencesResolve_of_lint {policy : LintPolicy} {doc : Json}
    (h : ∀ f ∈ (lint policy doc).errors, f.code ≠ .unresolvedReference) :
    ReferencesResolve doc := by
  intro fields reference hpart hentry
  obtain ⟨place, hplace⟩ := ReferenceAt.of_hasPart hpart hentry
  cases hresolve : Pointer.resolve? doc reference with
  | some target => exact ⟨target, rfl⟩
  | none =>
    -- the reference stands somewhere, so that the linter has met it and has complained
    have hmem : unresolvedError doc place reference ∈ checkReferences doc := by
      rw [checkReferences_eq_map]
      exact List.mem_map_of_mem (mem_danglingPlaces_iff.2 ⟨hplace, hresolve⟩)
    rw [← filter_errors_unresolvedReference policy doc] at hmem
    exact absurd rfl (h _ (List.mem_filter.1 hmem).1)

/-- **The check of references covers the resolver.** A document without an error about references
gives the same contract whatever the resolver answers where a reference leads nowhere, and the
errors about references are one for each `$ref` with a text that leads nowhere, wherever it
stands. -/
theorem references_covered (policy : LintPolicy) (doc : Json) :
    ((∀ f ∈ (lint policy doc).errors, f.code ≠ .unresolvedReference) →
      ∀ fallback : Fallback, Spec.build (.withFallback fallback doc) doc = Spec.ofDocument doc) ∧
    ∃ entries : List (List Step × String),
      (entries.map Prod.fst).Nodup ∧
      (∀ place reference, (place, reference) ∈ entries ↔
        ReferenceAt doc place reference ∧ Pointer.resolve? doc reference = none) ∧
      (lint policy doc).errors.filter (fun f ↦ f.code == .unresolvedReference) =
        entries.map fun entry ↦ unresolvedError doc entry.1 entry.2 := by
  constructor
  · intro h fallback
    exact Spec.build_congr (Resolver.withFallback_agreeOn (referencesResolve_of_lint h))
  · refine ⟨danglingPlaces doc, nodup_map_danglingPlaces doc, fun _ _ ↦ mem_danglingPlaces_iff, ?_⟩
    rw [filter_errors_unresolvedReference, checkReferences_eq_map]

/-- A document whose references run in a circle, through a path item and through a parameter. -/
def treeDocument : Json :=
  .object [
    ("paths", .object [("/nodes", .object [("$ref", .string "#/x-items/nodes")])]),
    ("x-items", .object [("nodes", .object [("get", .object [
      ("parameters", .array [.object [("$ref", .string "#/components/parameters/root")]])])])]),
    ("components", .object [
      ("parameters", .object [("root", .object [("name", .string "root"), ("in", .string "query"),
        ("schema", .object [("$ref", .string "#/components/schemas/Node")])])]),
      ("schemas", .object [("Node", .object [("type", .string "object"),
        ("properties", .object [("next", .object [
          ("$ref", .string "#/components/schemas/Node")])])])])])]

/-- References in a circle have targets. -/
theorem references_covered_treeDocument :
    (∀ f ∈ (lint {} treeDocument).errors, f.code ≠ .unresolvedReference) ∧
    ∀ fallback : Fallback,
      Spec.build (.withFallback fallback treeDocument) treeDocument =
        Spec.ofDocument treeDocument := by
  have herrors : ∀ f ∈ (lint {} treeDocument).errors, f.code ≠ .unresolvedReference := by
    decide +kernel
  exact ⟨herrors, (references_covered {} treeDocument).1 herrors⟩

end Lint

end ApiContract
