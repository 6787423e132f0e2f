import ApiContract.Document
import ApiContract.Proofs.Except
import ApiContract.Proofs.Json.Place
import ApiContract.Proofs.Put

/-!
# Documents without repeated keys

The trees of documents are lists of fields, which could repeat a key. A document that was read from
a text does not, in either syntax, and at no depth (`DocumentSyntax.distinctKeys_of_parse`): what a
text says twice is there once, with the value that was said last. Statements about documents have
`Json.DistinctKeys` as their hypothesis, and this is where it comes from.

## Representation

`Json.DistinctKeys` asks of every object that is a part of the value, at whatever place, that its
keys are distinct. The parts of a value are the value and the parts of what is right below it
(`Json.hasPart_iff`), so it is enough to look at one level at a time (`DistinctKeys.of_parts`).

## Proof

Both readers put the entries of an object one by one: an entry replaces the one with its key, or
comes last, and so putting never repeats a key (`DistinctKeys.putField`). In JSON the tree is read
as it stands and repeats are taken out afterwards; in YAML they go when values become a tree. Either
way the induction is mutual, on a value, its items and its fields, with the fields that were put so
far as a parameter.

Where no key is repeated, a field that is there is the one that is found (`field?_of_mem`).
-/

namespace ApiContract

/-- Where no key is repeated, a field that is there is found. -/
theorem field?_of_mem {fields : List (String × Json)} {name : String} {value : Json}
    (hkeys : (fields.map Prod.fst).Nodup) (h : (name, value) ∈ fields) :
    field? name fields = some value := by
  induction fields with
  | nil => exact absurd h List.not_mem_nil
  | cons entry rest ih =>
    obtain ⟨hentry, hrest⟩ := List.nodup_cons.1 hkeys
    rw [field?]
    rcases List.mem_cons.1 h with rfl | hmem
    · exact if_pos rfl
    · have hne : entry.1 ≠ name := fun heq ↦ hentry (heq ▸ List.mem_map_of_mem hmem)
      rw [if_neg hne, ih hrest hmem]

namespace Json

/-- The values right below a value. -/
def parts : Json → List Json
  | array items => items
  | object fields => fields.map Prod.snd
  | _ => []

/-- A step leads to a part right below. -/
theorem step?_mem_parts {step : Step} {value part : Json} (h : step? step value = some part) :
    part ∈ value.parts := by
  unfold step? at h
  split at h
  · obtain ⟨entry, hentry, hkey⟩ := Option.bind_eq_some_iff.1 h
    split at hkey
    · exact Option.some.inj hkey ▸ List.mem_map_of_mem (List.mem_of_getElem? hentry)
    · exact absurd hkey nofun
  · exact List.mem_of_getElem? h
  · exact absurd h nofun

/-- What is right below a value is a part of it. -/
theorem HasPart.of_mem_parts {value part : Json} (h : part ∈ value.parts) :
    value.HasPart part := by
  cases value with
  | array items => exact .of_mem_items h
  | object fields =>
    obtain ⟨⟨key, value⟩, hmem, rfl⟩ := List.mem_map.1 h
    exact .of_mem_fields hmem
  | _ => exact absurd h List.not_mem_nil

/-- A part is the value itself or a part of what is right below it. -/
theorem hasPart_iff {value part : Json} :
    value.HasPart part ↔ value = part ∨ ∃ next ∈ value.parts, next.HasPart part := by
  constructor
  · rintro ⟨place, hplace⟩
    cases place with
    | nil => exact .inl (Option.some.inj hplace)
    | cons step rest =>
      obtain ⟨next, hstep, hrest⟩ := Option.bind_eq_some_iff.1 hplace
      exact .inr ⟨next, step?_mem_parts hstep, rest, hrest⟩
  · rintro (rfl | ⟨next, hnext, hpart⟩)
    · exact .refl value
    · exact (HasPart.of_mem_parts hnext).trans hpart

/-- No object in a value repeats a key. -/
def DistinctKeys (value : Json) : Prop :=
  ∀ ⦃fields : List (String × Json)⦄, value.HasPart (object fields) → (fields.map Prod.fst).Nodup

namespace DistinctKeys

variable {value part : Json} {fields : List (String × Json)} {items : List Json}

theorem of_hasPart (h : value.DistinctKeys) (hpart : value.HasPart part) : part.DistinctKeys :=
  fun _ hfields ↦ h (hpart.trans hfields)

/-- A value repeats no key if neither it does nor anything right below it. -/
theorem of_parts (hkeys : ∀ fields, value = object fields → (fields.map Prod.fst).Nodup)
    (hparts : ∀ next ∈ value.parts, next.DistinctKeys) : value.DistinctKeys := by
  intro fields hpart
  rcases hasPart_iff.1 hpart with hself | ⟨next, hnext, hbelow⟩
  · exact hkeys fields hself
  · exact hparts next hnext hbelow

theorem array (h : ∀ item ∈ items, item.DistinctKeys) : (array items).DistinctKeys :=
  of_parts (fun _ heq ↦ absurd heq nofun) h

theorem nil : (object []).DistinctKeys :=
  of_parts (fun _ heq ↦ Json.object.inj heq ▸ List.nodup_nil) (fun _ h ↦ absurd h List.not_mem_nil)

/-- Putting a field repeats no key. -/
theorem putField {name : String} (h : (object fields).DistinctKeys) (hvalue : value.DistinctKeys) :
    (object (putField name value fields)).DistinctKeys := by
  rw [putField_eq_putBy]
  refine of_parts (fun _ heq ↦ Json.object.inj heq ▸ nodup_map_putBy (h (.refl _)) _) ?_
  intro next hnext
  obtain ⟨entry, hentry, rfl⟩ := List.mem_map.1 hnext
  rcases mem_of_mem_putBy hentry with rfl | hmem
  · exact hvalue
  · exact h.of_hasPart (.of_mem_parts (List.mem_map_of_mem hmem))

end DistinctKeys

/-! ### Reading -/

mutual

/-- **A tree repeats no key once repeats are taken out.** -/
theorem distinctKeys_withoutRepeats : ∀ value : Json, value.withoutRepeats.DistinctKeys
  | .array items => .array (distinctKeys_itemsWithoutRepeats items)
  | .object fields => distinctKeys_fieldsWithoutRepeats .nil fields
  | .null | .bool _ | .number _ | .string _ =>
    .of_parts (fun _ heq ↦ absurd heq nofun) (fun _ h ↦ absurd h List.not_mem_nil)

theorem distinctKeys_itemsWithoutRepeats :
    ∀ items : List Json, ∀ item ∈ itemsWithoutRepeats items, item.DistinctKeys
  | [], _, h => absurd h List.not_mem_nil
  | item :: rest, _, h =>
    (List.mem_cons.1 h).elim (fun heq ↦ heq ▸ distinctKeys_withoutRepeats item)
      (distinctKeys_itemsWithoutRepeats rest _)

theorem distinctKeys_fieldsWithoutRepeats {done : List (String × Json)}
    (h : (object done).DistinctKeys) :
    ∀ fields, (object (fieldsWithoutRepeats done fields)).DistinctKeys
  | [] => h
  | (_, value) :: rest =>
    distinctKeys_fieldsWithoutRepeats (h.putField (distinctKeys_withoutRepeats value)) rest

end

end Json

namespace Yaml.Value

mutual

/-- **The tree of a value repeats no key.** -/
theorem distinctKeys_toJson : ∀ value : Value, value.toJson.DistinctKeys
  | .sequence items => .array (distinctKeys_itemsJson items)
  | .mapping entries => distinctKeys_entriesJson .nil entries
  | .tagged _ value => distinctKeys_toJson value
  | .null | .bool _ | .int _ | .text _ | .float (.finite _) | .float .notANumber
  | .float (.infinite _) =>
    .of_parts (fun _ heq ↦ absurd heq nofun) (fun _ h ↦ absurd h List.not_mem_nil)

theorem distinctKeys_itemsJson :
    ∀ items : List Value, ∀ item ∈ itemsJson items, item.DistinctKeys
  | [], _, h => absurd h List.not_mem_nil
  | item :: rest, _, h =>
    (List.mem_cons.1 h).elim (fun heq ↦ heq ▸ distinctKeys_toJson item)
      (distinctKeys_itemsJson rest _)

theorem distinctKeys_entriesJson {done : List (String × Json)}
    (h : (Json.object done).DistinctKeys) :
    ∀ entries, (Json.object (entriesJson done entries)).DistinctKeys
  | [] => h
  | (_, value) :: rest =>
    distinctKeys_entriesJson (h.putField (distinctKeys_toJson value)) rest

end

end Yaml.Value

/-- **A document that was read repeats no key.** -/
theorem DocumentSyntax.distinctKeys_of_parse {stx : DocumentSyntax} {text : String} {doc : Json}
    (h : stx.parse text = .ok doc) : doc.DistinctKeys := by
  have hjson {doc : Json} (h : Json.ofText text = .ok doc) : doc.DistinctKeys := by
    obtain ⟨tree, -, rfl⟩ := Except.map_eq_ok_iff.1 h
    exact Json.distinctKeys_withoutRepeats tree
  have hyaml (h : Yaml.ofText text = .ok doc) : doc.DistinctKeys := by
    unfold Yaml.ofText at h
    split at h
    · next value hread =>
      obtain rfl := Except.ok.inj h
      obtain ⟨_, -, hread⟩ := Except.bind_eq_ok_iff.1 hread
      obtain ⟨_, -, hread⟩ := Except.bind_eq_ok_iff.1 hread
      obtain ⟨value, -, hread⟩ := Except.bind_eq_ok_iff.1 hread
      exact Except.ok.inj hread ▸ Yaml.Value.distinctKeys_toJson value
    · exact absurd h nofun
  cases stx with
  | json => exact hjson h
  | yaml => exact hyaml h
  | unknown =>
    unfold parse at h
    dsimp only at h
    split at h
    · next hread => exact hjson (hread.trans h)
    · exact hyaml h

end ApiContract
