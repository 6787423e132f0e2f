import ApiContract.Proofs.Schema.Form

/-!
# References without target

Resolution answers a reference that leads nowhere with the schema that admits anything, and gives up
an object that stands for one. A `Fallback` puts other answers in these two places, and only there.

## Main results

* `Resolver.withFallback_standard`: with the standard answers, the resolver is that of the document.
  So the recursion with a fallback is resolution, and not another one beside it.
* `Resolver.withFallback_agreeOn`: if every reference of a document has a target, no answer of a
  fallback is ever asked for, for no part of the document and not by what the targets refer to
  either.

## Proof

The targets of references are parts of the document, so what holds for the parts holds along every
chain (`hasPart_of_followReferences`). Both statements are inductions on the levels that are left,
or on the number of references that may still be followed. `Resolver.AgreeOn` says that two
resolvers answer alike for all parts, and is what the builder of the contract needs to know: it asks
a resolver for nothing but parts.

An answer may depend on the reference and on the levels left, so no answer of a fixed kind is
assumed. What happens at the ceiling is not a matter of fallbacks: a reference that is cut is not
followed, whether it has a target or not.
-/

namespace ApiContract

open Json (HasPart)

/-- What to answer for references that lead nowhere. -/
structure Fallback where
  /-- The schema for a reference that was met with so many levels left. -/
  schema : String → Nat → Schema
  /-- The object for a reference after which a chain might go on for so many references. -/
  object? : String → Nat → Option Json

/-- The answers of resolution itself. -/
def Fallback.standard : Fallback where
  schema _ _ := Schema.any
  object? _ _ := none

variable (fallback : Fallback) (root : Json)

/-- The target of a reference under its name, as `Schema.ofReference` has it, with a fallback. -/
def Schema.ofReferenceOr (levels : Nat) (child : Json → Schema) (reference : String) : Schema :=
  if levels = 0 then any
  else
    match Pointer.resolve? root reference with
    | some target => { child target with refName := Pointer.referenceName? reference }
    | none => fallback.schema reference levels

/-- Resolves a fragment with so many levels left and with a fallback. -/
def Schema.resolveAtOr : Nat → Json → Schema
  | 0, _ => any
  | levels + 1, value =>
    match value with
    | .object fields =>
      match field? "$ref" fields with
      | some (.string reference) =>
        ofReferenceOr fallback root levels (resolveAtOr levels) reference
      | _ => ofFields (resolveAtOr levels) fields
    | _ => any

/-- The value at the end of a chain of references, with a fallback. -/
def followReferencesOr : Nat → Json → Option Json
  | 0, _ => none
  | n + 1, value =>
    match value.stringAt? "$ref" with
    | some reference =>
      match Pointer.resolve? root reference with
      | some target => followReferencesOr n target
      | none => fallback.object? reference n
    | none => some value

/-- The resolver of a document with a fallback. -/
def Resolver.withFallback : Resolver where
  schema := Schema.resolveAtOr fallback root (maxResolveDepth + 1)
  object? := followReferencesOr fallback root (maxResolveDepth + 1)

/-- Every reference in a document has a target. -/
def ReferencesResolve : Prop :=
  ∀ ⦃fields : List (String × Json)⦄ ⦃reference : String⦄, root.HasPart (.object fields) →
    field? "$ref" fields = some (.string reference) →
      ∃ target, Pointer.resolve? root reference = some target

variable {root}

/-! ### The standard answers -/

/-- With the standard answers, fragments are resolved as they are. -/
theorem Schema.resolveAtOr_standard (levels : Nat) (value : Json) :
    resolveAtOr .standard root levels value = resolveAt root levels value := by
  induction levels generalizing value with
  | zero => rfl
  | succ levels ih =>
    have hchild : resolveAtOr .standard root levels = resolveAt root levels := funext ih
    cases value with
    | object fields =>
      rw [resolveAtOr, resolveAt, hchild]
      rfl
    | _ => rfl

/-- With the standard answers, chains are followed as they are. -/
theorem followReferencesOr_standard (n : Nat) (value : Json) :
    followReferencesOr .standard root n value = followReferences root n value := by
  induction n generalizing value with
  | zero => rfl
  | succ n ih =>
    rw [followReferencesOr, followReferences]
    cases value.stringAt? "$ref" with
    | none => rfl
    | some reference =>
      dsimp only
      cases Pointer.resolve? root reference with
      | none => rfl
      | some target => exact ih target

/-- With the standard answers, the resolver is that of the document. -/
theorem Resolver.withFallback_standard : withFallback .standard root = ofDocument root := by
  rw [withFallback, ofDocument, funext (Schema.resolveAtOr_standard _),
    funext (followReferencesOr_standard _)]
  rfl

/-! ### Documents whose references resolve -/

variable {fallback} (hresolve : ReferencesResolve root)
include hresolve

/-- No answer of a fallback is in the schema of a part. -/
theorem Schema.resolveAtOr_eq (levels : Nat) {value : Json} (hpart : root.HasPart value) :
    resolveAtOr fallback root levels value = resolveAt root levels value := by
  -- on the levels left, over all parts: the target of a reference may be any of them
  induction levels generalizing value with
  | zero => rfl
  | succ levels ih =>
    cases value with
    | object fields =>
      rw [resolveAtOr]
      split
      · next reference hreference =>
        obtain ⟨target, htarget⟩ := hresolve hpart hreference
        simp only [resolveAt_reference levels hreference, ofReferenceOr, ofReference, htarget,
          ih (.resolve? htarget)]
      · next hno =>
        rw [resolveAt_ofFields levels hno]
        exact ofFields_congr fun fragment hfragment ↦
          ih (hpart.trans (hasPart_of_mem_fragments hfragment))
    | _ => rfl

/-- No answer of a fallback ends a chain that begins at a part. -/
theorem followReferencesOr_eq (n : Nat) {value : Json} (hpart : root.HasPart value) :
    followReferencesOr fallback root n value = followReferences root n value := by
  induction n generalizing value with
  | zero => rfl
  | succ n ih =>
    rw [followReferencesOr, followReferences]
    cases hreference : value.stringAt? "$ref" with
    | none => rfl
    | some reference =>
      obtain ⟨fields, rfl, hfield⟩ := Json.stringAt?_eq_some_iff.1 hreference
      obtain ⟨target, htarget⟩ := hresolve hpart hfield
      simp only [htarget, Option.bind_some]
      exact ih (.resolve? htarget)

omit hresolve

/-- What a part stands for is a part. -/
theorem hasPart_of_followReferences {n : Nat} {value object : Json} (hpart : root.HasPart value)
    (h : followReferences root n value = some object) : root.HasPart object := by
  induction n generalizing value with
  | zero => exact absurd h nofun
  | succ n ih =>
    rw [followReferences] at h
    split at h
    · obtain ⟨target, htarget, hrest⟩ := Option.bind_eq_some_iff.1 h
      exact ih (.resolve? htarget) hrest
    · exact Option.some.inj h ▸ hpart

/-- Two resolvers answer alike for the parts of a document, and the objects are parts again. -/
structure Resolver.AgreeOn (root : Json) (left right : Resolver) : Prop where
  schema : ∀ {value}, root.HasPart value → left.schema value = right.schema value
  object? : ∀ {value}, root.HasPart value → left.object? value = right.object? value
  hasPart : ∀ {value object}, root.HasPart value → right.object? value = some object →
    root.HasPart object

/-- **A fallback is never asked in a document whose references resolve.** -/
theorem Resolver.withFallback_agreeOn (hresolve : ReferencesResolve root) :
    AgreeOn root (withFallback fallback root) (ofDocument root) where
  schema hpart := Schema.resolveAtOr_eq hresolve _ hpart
  object? hpart := followReferencesOr_eq hresolve _ hpart
  hasPart hpart h := hasPart_of_followReferences hpart h

end ApiContract
