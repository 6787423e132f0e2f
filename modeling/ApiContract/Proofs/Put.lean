import ApiContract.Spec.Build
import Mathlib.Data.List.Induction
import Mathlib.Data.List.Nodup

/-!
# Putting elements by a key

Fields, merged properties and merged parameters are kept in the same way, as are settings and the
entries of a draft: a new element takes the place of the one of its key, and stands at the end if
there is none. `putBy` says so for any key, and what follows from it holds for all of them.

## Results

* No key is repeated, however many elements are put (`nodup_map_foldl_putBy`), and nothing is there
  that was not put (`mem_of_mem_foldl_putBy`).
* Keys stand in the order in which they were put first (`map_foldl_putBy`), and of each key the
  element that was put last is found (`find?_foldl_putBy`). So the list has, of each key, the last
  element at the place of the first one (`foldl_putBy_eq`).
* Elements with keys of their own are put at the end, so that a list without repeated keys is put as
  it is (`foldl_putBy_of_nodup`).

## Proof

The first two are inductions on what is put, with what is there already as a parameter. The order of
the keys is an induction from the other end: the last element is put to what the others gave, and
`List.eraseDups` takes a further key in the same way (`eraseDups_concat`). A list that repeats no
key is determined by its keys and what is found for them, from which the third statement follows.

## Where it is used

The functions that put fields, properties and parameters were not defined by `putBy`, as each is
what the program does in its place; that they are `putBy` with a key is one lemma for each
(`putField_eq_putBy`, `putProperty_eq_putBy`, `putParameter_eq_putBy`).
-/

namespace ApiContract

section

variable {α : Type} (key : α → String)

/-- The list with one more element, or with the element in the place of the first one of its key. -/
def putBy : List α → α → List α
  | [], x => [x]
  | head :: rest, x => if key head = key x then x :: rest else head :: putBy rest x

variable {key} {list more : List α} {x y : α}

/-- Putting an element adds its key at the end, unless the key is there. -/
theorem map_putBy (list : List α) (x : α) :
    (putBy key list x).map key =
      if key x ∈ list.map key then list.map key else list.map key ++ [key x] := by
  induction list with
  | nil => rfl
  | cons head rest ih =>
    rw [putBy]
    by_cases hkey : key head = key x
    · rw [if_pos hkey, List.map_cons, List.map_cons, hkey, if_pos List.mem_cons_self]
    · have hmem : key x ∈ (head :: rest).map key ↔ key x ∈ rest.map key := by
        rw [List.map_cons, List.mem_cons, or_iff_right (Ne.symm hkey)]
      rw [if_neg hkey, List.map_cons, ih, if_congr hmem rfl rfl]
      split <;> rfl

/-- Putting an element repeats no key. -/
theorem nodup_map_putBy (h : (list.map key).Nodup) (x : α) :
    ((putBy key list x).map key).Nodup := by
  rw [map_putBy]
  split
  · exact h
  · next hmem =>
    exact List.Nodup.append h (List.nodup_singleton _) (List.disjoint_singleton.2 hmem)

/-- What is there after an element was put is that element, or was there before. -/
theorem mem_of_mem_putBy (h : y ∈ putBy key list x) : y = x ∨ y ∈ list := by
  induction list with
  | nil => exact .inl (List.mem_singleton.1 h)
  | cons head rest ih =>
    rw [putBy] at h
    split at h
    · exact (List.mem_cons.1 h).imp_right (List.mem_cons_of_mem _)
    · rcases List.mem_cons.1 h with rfl | hrest
      · exact .inr List.mem_cons_self
      · exact (ih hrest).imp_right (List.mem_cons_of_mem _)

/-- **No key is repeated**, however many elements are put. -/
theorem nodup_map_foldl_putBy (h : (list.map key).Nodup) :
    ((more.foldl (putBy key) list).map key).Nodup := by
  induction more generalizing list with
  | nil => exact h
  | cons x rest ih => exact ih (nodup_map_putBy h x)

/-- **Nothing is there that was not put.** -/
theorem mem_of_mem_foldl_putBy (h : y ∈ more.foldl (putBy key) list) : y ∈ list ∨ y ∈ more := by
  induction more generalizing list with
  | nil => exact .inl h
  | cons x rest ih =>
    rcases ih h with hput | hrest
    · rcases mem_of_mem_putBy hput with rfl | hlist
      · exact .inr List.mem_cons_self
      · exact .inl hlist
    · exact .inr (List.mem_cons_of_mem _ hrest)

/-! ### First places and last elements -/

/-- A further key comes after the distinct ones before it, unless it is one of them. -/
theorem eraseDups_concat (keys : List String) (k : String) :
    (keys ++ [k]).eraseDups = if k ∈ keys then keys.eraseDups else keys.eraseDups ++ [k] := by
  have hremove : [k].removeAll keys = if k ∈ keys then [] else [k] := by
    by_cases hk : k ∈ keys <;> simp [List.removeAll, hk]
  rw [List.eraseDups_append, hremove]
  split
  · exact List.append_nil _
  · rfl

/-- The keys stand in the order in which they were put first. -/
theorem map_foldl_putBy (more : List α) :
    (more.foldl (putBy key) []).map key = (more.map key).eraseDups := by
  induction more using List.reverseRecOn with
  | nil => rfl
  | append_singleton before x ih =>
    rw [List.foldl_append, List.foldl_cons, List.foldl_nil, map_putBy, ih, List.map_append,
      List.map_singleton, eraseDups_concat]
    exact if_congr List.mem_eraseDups rfl rfl

/-- The element that was put is found under its key, and the others are found as before. -/
theorem find?_putBy (list : List α) (x : α) (k : String) :
    (putBy key list x).find? (key · = k) =
      if key x = k then some x else list.find? (key · = k) := by
  induction list with
  | nil => by_cases hk : key x = k <;> simp [putBy, hk]
  | cons head rest ih =>
    rw [putBy]
    split
    · next hkey =>
      rw [List.find?_cons, List.find?_cons, hkey]
      by_cases hk : key x = k <;> simp [hk]
    · next hkey =>
      rw [List.find?_cons, List.find?_cons, ih]
      by_cases hk : key head = k
      · have hx : key x ≠ k := fun hx ↦ hkey (hk.trans hx.symm)
        simp [hk, hx]
      · simp [hk]

/-- Of each key the element that was put last is found. -/
theorem find?_foldl_putBy (more list : List α) (k : String) :
    (more.foldl (putBy key) list).find? (key · = k) =
      (more.findRev? (key · = k)).or (list.find? (key · = k)) := by
  induction more generalizing list with
  | nil => rfl
  | cons x rest ih =>
    rw [List.foldl_cons, ih, find?_putBy, List.findRev?]
    cases rest.findRev? (key · = k) with
    | some last => rfl
    | none => by_cases hk : key x = k <;> simp [hk]

/-- A list that repeats no key is made up of what is found for its keys. -/
theorem filterMap_find?_of_nodup (h : (list.map key).Nodup) :
    ((list.map key).filterMap fun k ↦ list.find? (key · = k)) = list := by
  induction list with
  | nil => rfl
  | cons head rest ih =>
    obtain ⟨hhead, hrest⟩ := List.nodup_cons.1 h
    have hfind : ∀ k ∈ rest.map key,
        (head :: rest).find? (key · = k) = rest.find? (key · = k) := fun k hk ↦ by
      have hne : key head ≠ k := fun hkey ↦ hhead (hkey ▸ hk)
      rw [List.find?_cons]
      simp [hne]
    rw [List.map_cons, List.filterMap_cons, List.filterMap_congr hfind, ih hrest]
    simp

/-- **Putting elements keeps of each key the last one, at the place of the first one.** -/
theorem foldl_putBy_eq (more : List α) :
    more.foldl (putBy key) [] =
      (more.map key).eraseDups.filterMap fun k ↦ more.findRev? (key · = k) := by
  have hfind (k : String) :
      (more.foldl (putBy key) []).find? (key · = k) = more.findRev? (key · = k) := by
    rw [find?_foldl_putBy, List.find?_nil, Option.or_none]
  have hnodup : ((more.foldl (putBy key) []).map key).Nodup := nodup_map_foldl_putBy List.nodup_nil
  rw [← filterMap_find?_of_nodup hnodup, map_foldl_putBy]
  simp only [hfind]

/-- An element with a new key stands at the end. -/
theorem putBy_of_not_mem (h : key x ∉ list.map key) : putBy key list x = list ++ [x] := by
  induction list with
  | nil => rfl
  | cons head rest ih =>
    obtain ⟨hhead, hrest⟩ := not_or.1 (List.mem_cons.not.1 h)
    rw [putBy, if_neg (Ne.symm hhead), ih hrest, List.cons_append]

/-- Elements with keys of their own are put at the end. -/
theorem foldl_putBy_of_nodup (h : ((list ++ more).map key).Nodup) :
    more.foldl (putBy key) list = list ++ more := by
  induction more generalizing list with
  | nil => exact (List.append_nil list).symm
  | cons x rest ih =>
    have hx : key x ∉ list.map key := fun hmem ↦ by
      rw [List.map_append] at h
      exact List.disjoint_of_nodup_append h hmem List.mem_cons_self
    rw [List.append_cons] at h
    rw [List.foldl_cons, putBy_of_not_mem hx, ih h, List.append_assoc, List.singleton_append]

/-- Of two elements with one key, the one that is put later stands. -/
theorem putBy_putBy (h : key x = key y) : putBy key (putBy key list x) y = putBy key list y := by
  induction list with
  | nil => exact if_pos h
  | cons head rest ih =>
    rw [putBy, putBy]
    by_cases hkey : key head = key y
    · rw [if_pos (hkey.trans h.symm), if_pos hkey, putBy, if_pos h]
    · rw [if_neg (h ▸ hkey), if_neg hkey, putBy, if_neg hkey, ih]

end

/-! ### Entries with a name -/

section

variable {α : Type} {entries : List (String × α)} {name : String} {value : α}

/-- An entry under a new name stands at the end. -/
theorem putBy_of_lookup_eq_none (h : entries.lookup name = none) :
    putBy Prod.fst entries (name, value) = entries ++ [(name, value)] := by
  refine putBy_of_not_mem fun hmem ↦ ?_
  obtain ⟨e, he, heq⟩ := List.mem_map.1 hmem
  exact bne_iff_ne.1 (List.lookup_eq_none_iff.1 h e he) heq.symm

/-- Putting an entry that is there changes nothing. -/
theorem putBy_of_lookup_eq_some (h : entries.lookup name = some value) :
    putBy Prod.fst entries (name, value) = entries := by
  induction entries with
  | nil => exact absurd h nofun
  | cons e rest ih =>
    obtain ⟨other, old⟩ := e
    rw [putBy]
    by_cases hname : other = name
    · subst hname
      rw [List.lookup_cons_self] at h
      rw [if_pos rfl, Option.some.inj h]
    · rw [List.lookup_cons, beq_eq_false_iff_ne.2 (Ne.symm hname)] at h
      rw [if_neg hname, ih h]

/-- An entry that was put is found. -/
theorem lookup_putBy_self (name : String) (value : α) (entries : List (String × α)) :
    (putBy Prod.fst entries (name, value)).lookup name = some value := by
  induction entries with
  | nil => exact List.lookup_cons_self
  | cons e rest ih =>
    obtain ⟨other, old⟩ := e
    rw [putBy]
    split
    · exact List.lookup_cons_self
    · next hname => rw [List.lookup_cons, beq_eq_false_iff_ne.2 (Ne.symm hname), ih]

end

/-! ### Fields, properties and parameters -/

/-- Fields are put by their keys. -/
theorem putField_eq_putBy (name : String) (value : Json) (fields : List (String × Json)) :
    putField name value fields = putBy Prod.fst fields (name, value) := by
  induction fields with
  | nil => rfl
  | cons field rest ih =>
    obtain ⟨key, old⟩ := field
    rw [putField, putBy, ih]
    dsimp only
    split
    · next hkey => rw [hkey]
    · rfl

/-- Properties are put by their names. -/
theorem putProperty_eq_putBy : putProperty = putBy Property.name := by
  funext properties property
  induction properties with
  | nil => rfl
  | cons head rest ih =>
    rw [putProperty, putBy, ih]
    split
    · next hname =>
      obtain ⟨name, schema⟩ := property
      rw [hname]
    · rfl

/-- Parameters are put by their names. -/
theorem putParameter_eq_putBy : putParameter = putBy Parameter.name := by
  funext parameters parameter
  induction parameters with
  | nil => rfl
  | cons head rest ih => rw [putParameter, putBy, ih]

variable {shared own : List Parameter}

/-- No two merged parameters have one name. -/
theorem nodup_map_name_mergeParameters (shared own : List Parameter) :
    ((mergeParameters shared own).map Parameter.name).Nodup := by
  rw [mergeParameters, putParameter_eq_putBy]
  exact nodup_map_foldl_putBy List.nodup_nil

/-- A merged parameter is one of those on either side. -/
theorem mem_of_mem_mergeParameters {parameter : Parameter}
    (h : parameter ∈ mergeParameters shared own) : parameter ∈ shared ++ own := by
  rw [mergeParameters, putParameter_eq_putBy] at h
  exact (mem_of_mem_foldl_putBy h).resolve_left List.not_mem_nil

end ApiContract
