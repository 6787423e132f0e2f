import ApiContract.Proofs.Schema.Height

/-!
# Resolution without a ceiling

Resolution has a ceiling because references may run in a circle. Where they do not, and are not too
deep, the ceiling should not show.

## Main result

`Schema.unreached_ceiling_invisible`: if a fragment stays within a ceiling, then every higher one
gives the same schema, and it is the one schema that the fragment describes without a ceiling.

## Three notions

* `Resolves root value schema` says what a fragment describes if its references are followed as far
  as they lead. It is a relation, for references may run in a circle: a fragment has at most one
  such schema (`Resolves.unique`) and may have none.
* `resolveWithin` is resolution with its ceiling at any depth; `resolve` is the one with the ceiling
  at `maxResolveDepth` (`resolveWithin_maxResolveDepth`).
* A fragment stays within a ceiling (`StaysWithin`) if resolving it passes both tests that cut
  wherever it comes to them, that of a fragment's depth and that of the depth of a reference's
  target.

## Proof

What stays within a ceiling has the schema without one (`StaysWithin.resolves`), by induction on
`StaysWithin`. The other way round, a fragment that has a schema without a ceiling stays within some
ceiling (`Resolves.exists_staysWithin`): each of its finitely many fragments stays within one, and
the highest of these will do. So the two are equivalent (`resolves_iff`), and the notion does not
depend on any particular bound.

`StaysWithin` can be decided for a document at hand, by counting the levels left
(`staysWithin_iff`).
-/

namespace ApiContract

namespace Schema

/-- Resolves a fragment at a depth, with the ceiling at any depth. -/
def resolveWithin (root : Json) (ceiling : Nat) (value : Json) (depth : Nat) : Schema :=
  if ceiling < depth then any
  else
    match value with
    | .object fields =>
      match field? "$ref" fields with
      | some (.string reference) =>
        if ceiling < depth + 1 then any
        else
          match Pointer.resolve? root reference with
          | some target =>
            { resolveWithin root ceiling target (depth + 1) with
              refName := Pointer.referenceName? reference }
          | none => any
      | _ => ofFields (fun part ↦ resolveWithin root ceiling part (depth + 1)) fields
    | _ => any
termination_by ceiling + 1 - depth
decreasing_by all_goals omega

/-- Resolving a fragment at a depth never comes to a depth beyond the ceiling. -/
inductive StaysWithin (root : Json) (ceiling : Nat) : Json → Nat → Prop
  /-- Nothing is below a value that is no object. -/
  | value {value : Json} {depth : Nat} (hdepth : depth ≤ ceiling)
      (hvalue : ∀ fields, value ≠ .object fields) : StaysWithin root ceiling value depth
  | reference {fields : List (String × Json)} {reference : String} {depth : Nat}
      (hdepth : depth + 1 ≤ ceiling) (href : field? "$ref" fields = some (.string reference))
      (h : ∀ target, Pointer.resolve? root reference = some target →
        StaysWithin root ceiling target (depth + 1)) :
      StaysWithin root ceiling (.object fields) depth
  | fields {fields : List (String × Json)} {depth : Nat} (hdepth : depth ≤ ceiling)
      (href : ∀ reference, field? "$ref" fields ≠ some (.string reference))
      (h : ∀ part ∈ (formOf fields).fragments, StaysWithin root ceiling part (depth + 1)) :
      StaysWithin root ceiling (.object fields) depth

/-- A fragment describes a schema, with every reference followed as far as it leads. -/
inductive Resolves (root : Json) : Json → Schema → Prop
  | value {value : Json} (hvalue : ∀ fields, value ≠ .object fields) : Resolves root value any
  | dangling {fields : List (String × Json)} {reference : String}
      (href : field? "$ref" fields = some (.string reference))
      (htarget : Pointer.resolve? root reference = none) : Resolves root (.object fields) any
  | reference {fields : List (String × Json)} {reference : String} {target : Json} {schema : Schema}
      (href : field? "$ref" fields = some (.string reference))
      (htarget : Pointer.resolve? root reference = some target)
      (h : Resolves root target schema) :
      Resolves root (.object fields)
        { schema with refName := Pointer.referenceName? reference }
  | fields {fields : List (String × Json)} {child : Json → Schema}
      (href : ∀ reference, field? "$ref" fields ≠ some (.string reference))
      (h : ∀ part ∈ (formOf fields).fragments, Resolves root part (child part)) :
      Resolves root (.object fields) (ofFields child fields)

variable {root value : Json} {fields : List (String × Json)} {reference : String}
  {ceiling higher depth : Nat} {schema : Schema}

/-! ### One step -/

/-- With its ceiling at `maxResolveDepth` it is resolution. -/
theorem resolveWithin_maxResolveDepth (root : Json) :
    resolveWithin root maxResolveDepth = resolve root :=
  eq_resolve_iff.1 fun value depth ↦ resolveWithin.eq_def root maxResolveDepth value depth

/-- A value that is no object admits anything. -/
theorem resolveWithin_value (hvalue : ∀ fields, value ≠ .object fields) :
    resolveWithin root ceiling value depth = any := by
  rw [resolveWithin.eq_def]
  split
  · rfl
  · split
    · exact absurd rfl (hvalue _)
    · rfl

/-- Below the ceiling, a reference is followed. -/
theorem resolveWithin_reference (hdepth : depth + 1 ≤ ceiling)
    (href : field? "$ref" fields = some (.string reference)) :
    resolveWithin root ceiling (.object fields) depth =
      match Pointer.resolve? root reference with
      | some target =>
        { resolveWithin root ceiling target (depth + 1) with
          refName := Pointer.referenceName? reference }
      | none => any := by
  rw [resolveWithin.eq_def, if_neg (by omega)]
  simp only [href]
  rw [if_neg (by omega)]

/-- Up to the ceiling, any other schema resolves its fragments. -/
theorem resolveWithin_fields (hdepth : depth ≤ ceiling)
    (href : ∀ reference, field? "$ref" fields ≠ some (.string reference)) :
    resolveWithin root ceiling (.object fields) depth =
      ofFields (fun part ↦ resolveWithin root ceiling part (depth + 1)) fields := by
  rw [resolveWithin.eq_def, if_neg (by omega)]
  dsimp only
  split
  · next reference hfield => exact absurd hfield (href reference)
  · rfl

/-! ### Without a ceiling -/

theorem reference_unique {other : String} (h : field? "$ref" fields = some (.string reference))
    (hother : field? "$ref" fields = some (.string other)) : reference = other :=
  Json.string.inj (Option.some.inj (h.symm.trans hother))

/-- **A fragment has at most one schema without a ceiling.** -/
theorem Resolves.unique {other : Schema} (h : Resolves root value schema)
    (hother : Resolves root value other) : schema = other := by
  induction h generalizing other with
  | value hvalue =>
    -- The cases exclude each other by what the value is and by where its reference leads.
    cases hother with
    | value => rfl
    | dangling | reference | fields => exact absurd rfl (hvalue _)
  | dangling href htarget =>
    cases hother with
    | value hvalue => exact absurd rfl (hvalue _)
    | dangling => rfl
    | reference href' htarget' =>
      obtain rfl := reference_unique href href'
      exact absurd (htarget.symm.trans htarget') nofun
    | fields href' => exact absurd href (href' _)
  | reference href htarget _ ih =>
    cases hother with
    | value hvalue => exact absurd rfl (hvalue _)
    | dangling href' htarget' =>
      obtain rfl := reference_unique href href'
      exact absurd (htarget.symm.trans htarget') nofun
    | reference href' htarget' h' =>
      obtain rfl := reference_unique href href'
      obtain rfl := Option.some.inj (htarget.symm.trans htarget')
      rw [ih h']
    | fields href' => exact absurd href (href' _)
  | fields href _ ih =>
    cases hother with
    | value hvalue => exact absurd rfl (hvalue _)
    | dangling href' => exact absurd href' (href _)
    | reference href' => exact absurd href' (href _)
    | fields href' h' => exact ofFields_congr fun part hpart ↦ ih part hpart (h' part hpart)

/-! ### Within a ceiling -/

/-- **What stays within a ceiling is resolved as without one.** -/
theorem StaysWithin.resolves (h : StaysWithin root ceiling value depth) :
    Resolves root value (resolveWithin root ceiling value depth) := by
  induction h with
  | value _ hvalue =>
    rw [resolveWithin_value hvalue]
    exact .value hvalue
  | reference hdepth href _ ih =>
    rw [resolveWithin_reference hdepth href]
    split
    · next target htarget => exact .reference href htarget (ih target htarget)
    · next htarget => exact .dangling href htarget
  | fields hdepth href _ ih =>
    rw [resolveWithin_fields hdepth href]
    exact .fields href ih

/-- What stays within a ceiling stays within a higher one. -/
theorem StaysWithin.mono (h : StaysWithin root ceiling value depth) (hle : ceiling ≤ higher) :
    StaysWithin root higher value depth := by
  induction h with
  | value hdepth hvalue => exact .value (Nat.le_trans hdepth hle) hvalue
  | reference hdepth href _ ih => exact .reference (Nat.le_trans hdepth hle) href ih
  | fields hdepth href _ ih => exact .fields (Nat.le_trans hdepth hle) href ih

/-- Finitely many fragments that each stay within a ceiling stay within one. -/
theorem exists_staysWithin_of_forall_mem {parts : List Json}
    (h : ∀ part ∈ parts, ∃ ceiling, StaysWithin root ceiling part depth) :
    ∃ ceiling, ∀ part ∈ parts, StaysWithin root ceiling part depth := by
  induction parts with
  | nil => exact ⟨0, fun _ hpart ↦ absurd hpart List.not_mem_nil⟩
  | cons first rest ih =>
    obtain ⟨⟨ceiling, hfirst⟩, hrest⟩ := List.forall_mem_cons.1 h
    obtain ⟨other, hother⟩ := ih hrest
    refine ⟨max ceiling other, List.forall_mem_cons.2 ⟨hfirst.mono (Nat.le_max_left _ _), ?_⟩⟩
    exact fun part hpart ↦ (hother part hpart).mono (Nat.le_max_right _ _)

/-- **What has a schema without a ceiling stays within some ceiling**, from whatever depth. -/
theorem Resolves.exists_staysWithin (h : Resolves root value schema) (depth : Nat) :
    ∃ ceiling, StaysWithin root ceiling value depth := by
  induction h generalizing depth with
  | value hvalue => exact ⟨depth, .value (Nat.le_refl _) hvalue⟩
  | dangling href htarget =>
    exact ⟨depth + 1, .reference (Nat.le_refl _) href fun target hsome ↦
      absurd (htarget.symm.trans hsome) nofun⟩
  | reference href htarget _ ih =>
    obtain ⟨ceiling, hceiling⟩ := ih (depth + 1)
    refine ⟨max ceiling (depth + 1), .reference (Nat.le_max_right _ _) href fun target hsome ↦ ?_⟩
    obtain rfl := Option.some.inj (htarget.symm.trans hsome)
    exact hceiling.mono (Nat.le_max_left _ _)
  | fields href _ ih =>
    obtain ⟨ceiling, hceiling⟩ :=
      exists_staysWithin_of_forall_mem fun part hpart ↦ ih part hpart (depth + 1)
    exact ⟨max ceiling depth, .fields (Nat.le_max_right _ _) href fun part hpart ↦
      (hceiling part hpart).mono (Nat.le_max_left _ _)⟩

/-- **A schema without a ceiling is what a ceiling gives that is not reached.** -/
theorem resolves_iff (depth : Nat) :
    Resolves root value schema ↔
      ∃ ceiling, StaysWithin root ceiling value depth ∧
        resolveWithin root ceiling value depth = schema := by
  constructor
  · intro h
    obtain ⟨ceiling, hceiling⟩ := h.exists_staysWithin depth
    exact ⟨ceiling, hceiling, hceiling.resolves.unique h⟩
  · rintro ⟨ceiling, hceiling, rfl⟩
    exact hceiling.resolves

/-! ### Levels left -/

/-- Whether a fragment is resolved without a cut with so many levels left. -/
def isUncut (root : Json) : Nat → Json → Bool
  | 0, _ => false
  | levels + 1, .object fields =>
    match field? "$ref" fields with
    | some (.string reference) =>
      levels != 0 && (Pointer.resolve? root reference).all (isUncut root levels)
    | _ => (formOf fields).fragments.all (isUncut root levels)
  | _ + 1, _ => true

/-- A fragment beyond the ceiling does not stay within it. -/
theorem StaysWithin.depth_le (h : StaysWithin root ceiling value depth) : depth ≤ ceiling := by
  cases h with
  | value hdepth | fields hdepth => exact hdepth
  | reference hdepth => exact Nat.le_of_succ_le hdepth

/-- A reference stays within a ceiling if its target does, one step further. -/
theorem staysWithin_reference_iff (href : field? "$ref" fields = some (.string reference)) :
    StaysWithin root ceiling (.object fields) depth ↔
      depth + 1 ≤ ceiling ∧ ∀ target, Pointer.resolve? root reference = some target →
        StaysWithin root ceiling target (depth + 1) := by
  refine ⟨fun h ↦ ?_, fun ⟨hdepth, h⟩ ↦ .reference hdepth href h⟩
  cases h with
  | value _ hvalue => exact absurd rfl (hvalue fields)
  | reference hdepth href' h =>
    obtain rfl := reference_unique href href'
    exact ⟨hdepth, h⟩
  | fields _ hno => exact absurd href (hno reference)

/-- Any other schema does if its fragments do, one step further. -/
theorem staysWithin_fields_iff
    (href : ∀ reference, field? "$ref" fields ≠ some (.string reference)) :
    StaysWithin root ceiling (.object fields) depth ↔
      depth ≤ ceiling ∧ ∀ part ∈ (formOf fields).fragments,
        StaysWithin root ceiling part (depth + 1) := by
  refine ⟨fun h ↦ ?_, fun ⟨hdepth, h⟩ ↦ .fields hdepth href h⟩
  cases h with
  | value _ hvalue => exact absurd rfl (hvalue fields)
  | reference _ href' => exact absurd href' (href _)
  | fields hdepth _ h => exact ⟨hdepth, h⟩

/-- A fragment stays within a ceiling if it is not cut with the levels left below it. -/
theorem staysWithin_iff :
    StaysWithin root ceiling value depth ↔ isUncut root (ceiling + 1 - depth) value = true := by
  induction hlevels : ceiling + 1 - depth generalizing value depth with
  | zero =>
    refine iff_of_false (fun h ↦ ?_) nofun
    have hdepth := h.depth_le
    omega
  | succ levels ih =>
    have hdepth : depth ≤ ceiling := by omega
    have hnext : ceiling + 1 - (depth + 1) = levels := by omega
    cases value with
    | object fields =>
      rw [isUncut]
      split
      · next reference href =>
        have hlevel : depth + 1 ≤ ceiling ↔ levels ≠ 0 := by omega
        rw [staysWithin_reference_iff href, Bool.and_eq_true, bne_iff_ne, hlevel]
        refine and_congr_right fun _ ↦ ?_
        cases Pointer.resolve? root reference with
        | none => simp
        | some target => simp [ih hnext]
      · next href =>
        rw [staysWithin_fields_iff href, and_iff_right hdepth, List.all_eq_true]
        exact forall₂_congr fun part _ ↦ ih hnext
    | _ => exact iff_of_true (.value hdepth nofun) rfl

instance : Decidable (StaysWithin root ceiling value depth) :=
  decidable_of_iff _ staysWithin_iff.symm

/-- **A ceiling that is not reached does not show.** If a fragment stays within a ceiling, then
every higher one gives the same schema, and it is the one schema that the fragment describes without
a ceiling. Resolution has its ceiling at `maxResolveDepth`. -/
theorem unreached_ceiling_invisible (root : Json) {ceiling : Nat} {value : Json} {depth : Nat}
    (h : StaysWithin root ceiling value depth) :
    resolveWithin root maxResolveDepth = resolve root ∧
      (∀ higher, ceiling ≤ higher →
        resolveWithin root higher value depth = resolveWithin root ceiling value depth) ∧
      ∀ schema, Resolves root value schema ↔ schema = resolveWithin root ceiling value depth := by
  refine ⟨resolveWithin_maxResolveDepth root, fun higher hle ↦ ?_, fun schema ↦ ?_⟩
  · exact (h.mono hle).resolves.unique h.resolves
  · constructor
    · exact fun hschema ↦ hschema.unique h.resolves
    · rintro rfl
      exact h.resolves

/-- A pet with a list of tags. -/
def petDocument : Json :=
  .object [("components", .object [("schemas", .object [
    ("Tag", .object [("type", .string "string")]),
    ("Pet", .object [("type", .string "object"),
      ("properties", .object [("tags", .object [("type", .string "array"),
        ("items", .object [("$ref", .string "#/components/schemas/Tag")])])])])])])]

/-- A reference to the pet. -/
def petReference : Json := .object [("$ref", .string "#/components/schemas/Pet")]

/-- A tag is four steps below the reference to the pet, so that no ceiling from there on shows. -/
theorem unreached_ceiling_invisible_petReference :
    StaysWithin petDocument 4 petReference 0 ∧
      resolve petDocument petReference 0 = resolveWithin petDocument 4 petReference 0 ∧
      Resolves petDocument petReference (resolve petDocument petReference 0) := by
  have hstays : StaysWithin petDocument 4 petReference 0 := by decide +kernel
  obtain ⟨hresolve, hhigher, hschema⟩ := unreached_ceiling_invisible petDocument hstays
  have heq : resolve petDocument petReference 0 = resolveWithin petDocument 4 petReference 0 := by
    rw [← hresolve]
    exact hhigher maxResolveDepth (by decide)
  exact ⟨hstays, heq, (hschema _).2 heq⟩

/-- A lower ceiling cuts the tag. -/
example : ¬StaysWithin petDocument 3 petReference 0 := by decide +kernel

end Schema

end ApiContract
