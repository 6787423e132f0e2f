import ApiContract.Proofs.Lint.Parameters

/-!
# The linter and the contract tell the same operations

The linter reads the operations of a document on its own, and so does the builder of the contract.
They could disagree without anyone noticing: a warning about an operation that is never generated,
or a generated operation that was never checked.

## Main result

`Lint.agrees_with_contract`: for every document and policy, the two agree on the operations and
their order, on how many operations and models there are, and on which operations need
authentication, so that a warning about a protected prefix stands for an operation of the contract.
The parts of the statement are the fields of `Lint.Agreement`.

## Path items

Behind this is one rule for path items, stated here without the loop that follows references.
`ReferencePath` counts the references between two values; a path item is the object at the end of at
most `maxResolveDepth` of them (`pathItem?_eq_some_iff`), and one whose references go on for longer,
or in a circle, gives no operation. A circle can be run through as often as one likes, so it is
longer than any limit (`ReferenceChain.of_circle`).

## Authentication

Whether an operation needs authentication is asked of the document by the linter and of the contract
by everything else. `checkSecurity_eq_map` says that the check could as well look at the operations
of the contract.

The models are counted as entries of the components; that what the linter says about a *schema* is
right is not part of this.
-/

namespace ApiContract

/-! ### Paths along references -/

/-- So many references lead from one value to another. -/
inductive ReferencePath (root : Json) : Nat → Json → Json → Prop
  | nil (value : Json) : ReferencePath root 0 value value
  | cons {n : Nat} {value target final : Json} {reference : String}
      (hreference : value.stringAt? "$ref" = some reference)
      (htarget : Pointer.resolve? root reference = some target)
      (hrest : ReferencePath root n target final) : ReferencePath root (n + 1) value final

namespace ReferencePath

variable {root value via final : Json} {m n : Nat}

/-- Two paths of references, one behind the other. -/
theorem trans (h : ReferencePath root m value via) (hrest : ReferencePath root n via final) :
    ReferencePath root (m + n) value final := by
  induction h with
  | nil value => rwa [Nat.zero_add]
  | cons hreference htarget _ ih =>
    rw [Nat.add_right_comm]
    exact .cons hreference htarget (ih hrest)

/-- A path is a chain, and a chain may stop early. -/
theorem chain (h : ReferencePath root n value final) (hle : m ≤ n) :
    ReferenceChain root m value := by
  induction h generalizing m with
  | nil value =>
    obtain rfl := Nat.le_zero.1 hle
    exact .nil value
  | cons hreference htarget _ ih =>
    cases m with
    | zero => exact .nil _
    | succ m => exact .cons hreference htarget (ih (Nat.le_of_succ_le_succ hle))

/-- A circle can be run through so often that no chain is too long. -/
theorem exists_of_circle (h : ReferencePath root (m + 1) value value) (n : Nat) :
    ∃ k, n ≤ k ∧ ReferencePath root k value value := by
  induction n with
  | zero => exact ⟨0, Nat.le_refl 0, .nil value⟩
  | succ n ih =>
    obtain ⟨k, hle, hpath⟩ := ih
    exact ⟨m + 1 + k, by omega, h.trans hpath⟩

end ReferencePath

/-- References that run into a circle go on for as long as one likes. -/
theorem ReferenceChain.of_circle {root value via : Json} {m n : Nat}
    (h : ReferencePath root m value via) (hcircle : ReferencePath root (n + 1) via via) (k : Nat) :
    ReferenceChain root k value := by
  obtain ⟨l, hle, hrest⟩ := hcircle.exists_of_circle k
  exact (h.trans hrest).chain (by omega)

variable {root value final : Json} {n : Nat}

/-- **Following references is walking along a path to its end**, if that is near enough. -/
theorem followReferences_eq_some_iff :
    followReferences root n value = some final ↔
      ∃ k < n, ReferencePath root k value final ∧ final.stringAt? "$ref" = none := by
  induction n generalizing value with
  | zero =>
    refine iff_of_false (Option.some_ne_none _).symm ?_
    rintro ⟨k, hk, -⟩
    exact absurd hk (Nat.not_lt_zero k)
  | succ n ih =>
    rw [followReferences]
    cases hreference : value.stringAt? "$ref" with
    | none =>
      constructor
      · intro h
        obtain rfl := Option.some.inj h
        exact ⟨0, Nat.succ_pos n, .nil value, hreference⟩
      · rintro ⟨k, -, hpath, -⟩
        cases hpath with
        | nil => rfl
        | cons hreference' =>
          exact absurd (hreference'.symm.trans hreference) (Option.some_ne_none _)
    | some reference =>
      dsimp only
      rw [Option.bind_eq_some_iff]
      constructor
      · rintro ⟨target, htarget, hrest⟩
        obtain ⟨k, hk, hpath, hend⟩ := ih.1 hrest
        exact ⟨k + 1, Nat.succ_lt_succ hk, .cons hreference htarget hpath, hend⟩
      · rintro ⟨k, hk, hpath, hend⟩
        cases hpath with
        | nil => exact absurd (hreference.symm.trans hend) (Option.some_ne_none _)
        | cons hreference' htarget hrest =>
          obtain rfl := Option.some.inj (hreference.symm.trans hreference')
          exact ⟨_, htarget, ih.2 ⟨_, Nat.lt_of_succ_lt_succ hk, hrest, hend⟩⟩

/-- A chain that is too long is followed in vain. -/
theorem followReferences_of_chain (h : ReferenceChain root n value) :
    followReferences root n value = none := by
  induction h with
  | nil value => rfl
  | cons hreference htarget _ ih =>
    rw [followReferences, hreference]
    dsimp only
    rw [htarget, Option.bind_some, ih]

namespace Lint

variable {doc : Json}

/-! ### Path items -/

/-- The entries under `paths`. -/
def pathEntries (doc : Json) : List (String × Json) :=
  ((doc.get? "paths").bind Json.asObject?).getD []

/-- The path item that an entry under `paths` stands for. -/
def pathItem? (doc value : Json) : Option (List (String × Json)) :=
  (dereference? doc value).bind Json.asObject?

/-- **A path item is at the end of few enough references.** -/
theorem pathItem?_eq_some_iff {value : Json} {item : List (String × Json)} :
    pathItem? doc value = some item ↔
      ∃ k ≤ maxResolveDepth, ReferencePath doc k value (.object item) ∧
        (Json.object item).stringAt? "$ref" = none := by
  have hobject :
      pathItem? doc value = some item ↔ dereference? doc value = some (.object item) := by
    rw [pathItem?, Option.bind_eq_some_iff]
    simp only [Json.asObject?_eq_some_iff, exists_eq_right]
  rw [hobject, dereference?, followReferences_eq_some_iff]
  simp only [Nat.lt_succ_iff]

theorem pathItem?_of_chain {value : Json} (h : ReferenceChain doc (maxResolveDepth + 1) value) :
    pathItem? doc value = none := by
  rw [pathItem?, dereference?, followReferences_of_chain h, Option.bind_none]

/-- The operations of a document are those of its path items, in their order. -/
theorem operations_eq_flatMap (doc : Json) :
    operations doc = (pathEntries doc).flatMap fun entry ↦
      ((pathItem? doc entry.2).map (itemOperations entry.1)).getD [] := by
  refine List.flatMap_congr fun entry _ ↦ ?_
  dsimp only
  rw [← pathItem?]
  cases pathItem? doc entry.2 <;> rfl

/-! ### Authentication -/

/-- The method and the path of an operation. -/
def OperationEntry.route (e : OperationEntry) : Route := ⟨e.method, e.template⟩

/-- The warning about an operation under a protected prefix that needs no authentication. -/
def unprotectedWarning (op : Operation) : Finding :=
  ⟨.unprotectedRoute, child (child "paths" op.path) op.method.key,
    op.route.display ++ " is under a protected prefix but has no security requirement"⟩

/-- Whether an operation is under one of the prefixes. -/
def IsUnder (prefixes : List String) (op : Operation) : Prop :=
  ∃ beginning ∈ prefixes, beginning.toList <+: op.path.toList

instance (prefixes : List String) (op : Operation) : Decidable (IsUnder prefixes op) :=
  inferInstanceAs (Decidable (∃ beginning ∈ prefixes, _))

/-- A path is protected if one of the prefixes begins it. -/
theorem isProtected_eq_decide (policy : LintPolicy) (op : Operation) :
    isProtected policy op.path = decide (IsUnder policy.protectedPrefixes op) := by
  rw [Bool.eq_iff_iff, decide_eq_true_iff, isProtected, List.any_eq_true]
  simp only [Text.startsWith, List.isPrefixOf_iff_prefix, IsUnder]

/-- **The check of protected prefixes looks at the operations of the contract.** -/
theorem checkSecurity_eq_map (policy : LintPolicy) (doc : Json) :
    checkSecurity policy doc =
      ((Spec.ofDocument doc).operations.filter fun op ↦
        !op.requiresAuth && decide (IsUnder policy.protectedPrefixes op)).map
          unprotectedWarning := by
  have htest (e : OperationEntry) :
      (isProtected policy e.template &&
        !(asksForAuth? (field? "security" e.op)).getD
          ((asksForAuth? (doc.get? "security")).getD false)) =
      (!(Build.operationOf doc e).requiresAuth &&
        decide (IsUnder policy.protectedPrefixes (Build.operationOf doc e))) := by
    rw [← isProtected_eq_decide, Bool.and_comm]
    rfl
  rw [Spec.operations_ofDocument, List.filter_map, List.map_map, checkSecurity]
  simp only [htest]
  refine List.map_congr_left fun e _ ↦ ?_
  rfl

/-! ### Agreement -/

/-- The linter, under a policy, and the contract say the same of a document. -/
structure Agreement (policy : LintPolicy) (doc : Json) : Prop where
  /-- Both meet the same operations, in the same order. -/
  routes : (operations doc).map OperationEntry.route =
    (Spec.ofDocument doc).operations.map Operation.route
  operationCount : (lint policy doc).operationCount = (Spec.ofDocument doc).operations.length
  modelCount : (lint policy doc).modelCount = (Spec.ofDocument doc).models.length
  /-- One warning for each operation that needs no authentication and is under a protected prefix,
  in the order of the contract. -/
  unprotected : (lint policy doc).warnings.filter (fun f ↦ f.code == .unprotectedRoute) =
    ((Spec.ofDocument doc).operations.filter fun op ↦
      !op.requiresAuth && decide (IsUnder policy.protectedPrefixes op)).map unprotectedWarning
  /-- Both have the operations of the path items, and of nothing else. -/
  entries : operations doc = (pathEntries doc).flatMap fun entry ↦
    ((pathItem? doc entry.2).map (itemOperations entry.1)).getD []
  operations : (Spec.ofDocument doc).operations = (pathEntries doc).flatMap fun entry ↦
    ((pathItem? doc entry.2).map (Build.pathOperations (.ofDocument doc)
      ((Build.asksForAuth? (doc.get? "security")).getD false) entry.1)).getD []
  /-- A path item is at the end of a few references. -/
  followed : ∀ value item, pathItem? doc value = some item ↔
    ∃ k ≤ maxResolveDepth, ReferencePath doc k value (.object item) ∧
      (Json.object item).stringAt? "$ref" = none
  tooLong : ∀ value, ReferenceChain doc (maxResolveDepth + 1) value → pathItem? doc value = none
  circular : ∀ value via m n, ReferencePath doc m value via → ReferencePath doc (n + 1) via via →
    pathItem? doc value = none

/-- **The linter and the contract agree** on the operations of every document, on their number and
that of the models, and under every policy on the operations that lack protection. -/
theorem agrees_with_contract (policy : LintPolicy) (doc : Json) : Agreement policy doc where
  routes := by
    rw [Spec.operations_ofDocument, List.map_map]
    rfl
  operationCount := by
    rw [Spec.operations_ofDocument, List.length_map]
    rfl
  modelCount := (List.length_map _).symm
  unprotected := (filter_warnings_unprotectedRoute policy doc).trans
    (checkSecurity_eq_map policy doc)
  entries := operations_eq_flatMap doc
  operations := by
    rw [Spec.operations_ofDocument, operations_eq_flatMap, List.map_flatMap]
    refine List.flatMap_congr fun entry _ ↦ ?_
    cases pathItem? doc entry.2 with
    | none => rfl
    | some item => exact (Build.pathOperations_eq_map entry.1 item).symm
  followed _ _ := pathItem?_eq_some_iff
  tooLong _ := pathItem?_of_chain
  circular _ _ _ _ hpath hcircle := pathItem?_of_chain (.of_circle hpath hcircle _)

end Lint

end ApiContract
