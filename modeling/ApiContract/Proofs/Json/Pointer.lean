import ApiContract.Proofs.Json.Place
import ApiContract.Proofs.Text
import Mathlib.Data.List.Forall2

/-!
# References and the paths that they name

A path leads into a document by keys and indices, and `Pointer.ofPath` writes it as a reference: the
keys escaped, the indices in decimal.

## Main result

`Pointer.references_name_paths`, for every document. The reference for a path that is there leads to
the value at its end, whatever the keys are; and a text that leads anywhere begins with a hash and
leads to a part of the document, at the end of a path that is written in it.

## Escapes

A segment is read in one pass, and written in one pass. This is what the two replacements over the
whole text do that the rules for references ask for, in their order: reading replaces the escape of
the slash first (`toList_replaceAll_eq_unescape`), writing replaces the tilde first
(`toList_replaceAll_eq_escape`). In the other order, the text `~01` would be read as a slash.

## Segments

No segment has a slash in it, so that cutting at slashes gives the segments back
(`segments?_ofPath`), and each is read as the step that it was written for (`spells_segment`). An
index that is read is below the bound of sixty-four bits, and an index that was written has that
many.

## Walks

A path may be written in other ways too, with a sign in front of an index or a tilde that is not
escaped. `Spells` allows for them, and then resolving is nothing but following a path that is
written in the reference (`resolve?_eq_some_iff`), an induction on the segments.

A key that looks like an index is a key where the value is an object, and an index where it is an
array; so one reference may be written for two paths, but only one of them is there in a given
document.
-/

namespace ApiContract

/-- A step to a part of a value as a reference takes it: by the key of a field, or by the index of
an item, which has sixty-four bits. -/
inductive PathStep where
  | key (name : String)
  | index (position : UInt64)
  deriving DecidableEq, Repr

namespace PathStep

/-- The part of a value that a step leads to. -/
def child? : PathStep → Json → Option Json
  | key name, .object fields => field? name fields
  | index position, .array items => items[position.toNat]?
  | _, _ => none

/-- A step as a segment of a reference. -/
def segment : PathStep → List Char
  | key name => Pointer.escape name.toList
  | index position => Nat.toDigits 10 position.toNat

end PathStep

/-- The value at the end of a path. -/
def Json.follow? : List PathStep → Json → Option Json
  | [], value => some value
  | step :: rest, value => (step.child? value).bind (follow? rest)

/-- The reference for a path: a hash, and each step behind a slash. -/
def Pointer.ofPath (path : List PathStep) : String :=
  String.ofList ('#' :: path.flatMap fun step ↦ '/' :: step.segment)

/-! ### Escapes -/

namespace Pointer

open Text (replaceFrom)

/-- What the first of the two replacements makes begins with a zero only if the text does. -/
theorem head?_of_replaceFrom_slash {n : Nat} {cs : List Char}
    (h : (replaceFrom ['~', '1'] ['/'] n cs).head? = some '0') : cs.head? = some '0' := by
  fun_cases replaceFrom ['~', '1'] ['/'] n cs with
  | case1 => exact h
  | case2 => exact h
  | case3 n c rest after hafter =>
    rw [Text.replaceFrom_of_afterPrefix? hafter] at h
    exact absurd h (by simp)
  | case4 n c rest hnone =>
    rw [replaceFrom, hnone] at h
    exact h

/-- Both replacements, one after the other over the whole text, read a segment: the first one makes
no escape for the second one to find, as it writes no tilde and no zero. -/
theorem replaceFrom_replaceFrom_eq_unescape {n m : Nat} {cs : List Char} (hn : cs.length ≤ n)
    (hm : (replaceFrom ['~', '1'] ['/'] n cs).length ≤ m) :
    replaceFrom ['~', '0'] ['~'] m (replaceFrom ['~', '1'] ['/'] n cs) = unescape cs := by
  fun_induction unescape cs generalizing n m with
  | case1 rest ih =>
    obtain ⟨n, rfl⟩ := Nat.exists_eq_add_of_le' hn
    have hfirst : replaceFrom ['~', '1'] ['/'] (n + ('~' :: '1' :: rest).length)
        ('~' :: '1' :: rest) = '/' :: replaceFrom ['~', '1'] ['/'] (n + 1 + rest.length) rest := by
      rw [show n + ('~' :: '1' :: rest).length = n + 1 + rest.length + 1 by
        simp only [List.length_cons]; omega]
      exact Text.replaceFrom_append (List.cons_ne_nil _ _)
    rw [hfirst] at hm ⊢
    obtain ⟨m, rfl⟩ := Nat.exists_eq_add_of_le' hm
    rw [List.length_cons, ← Nat.add_assoc, Text.replaceFrom_cons_of_ne (by decide),
      ih (Nat.le_add_left _ _) (Nat.le_add_left _ _)]
  | case2 rest ih =>
    obtain ⟨n, rfl⟩ := Nat.exists_eq_add_of_le' hn
    have hfirst : replaceFrom ['~', '1'] ['/'] (n + ('~' :: '0' :: rest).length)
        ('~' :: '0' :: rest) =
          '~' :: '0' :: replaceFrom ['~', '1'] ['/'] (n + rest.length) rest := by
      rw [List.length_cons, List.length_cons, ← Nat.add_assoc, ← Nat.add_assoc,
        Text.replaceFrom_of_not_isPrefix fun hbegin ↦
          absurd (List.cons_prefix_cons.1 (List.cons_prefix_cons.1 hbegin).2).1 (by decide),
        Text.replaceFrom_cons_of_ne (by decide)]
    rw [hfirst] at hm ⊢
    obtain ⟨m, rfl⟩ := Nat.exists_eq_add_of_le' hm
    rw [List.length_cons, ← Nat.add_assoc]
    exact (Text.replaceFrom_append (List.cons_ne_nil _ _)).trans
      (congrArg ('~' :: ·) (ih (Nat.le_add_left _ _) (by simp only [List.length_cons]; omega)))
  | case3 c rest hslash htilde ih =>
    obtain ⟨n, rfl⟩ := Nat.exists_eq_add_of_le' hn
    have hfirst : replaceFrom ['~', '1'] ['/'] (n + (c :: rest).length) (c :: rest) =
        c :: replaceFrom ['~', '1'] ['/'] (n + rest.length) rest := by
      rw [List.length_cons, ← Nat.add_assoc, Text.replaceFrom_of_not_isPrefix]
      rintro ⟨later, hlater⟩
      obtain ⟨rfl, rfl⟩ := List.cons.inj hlater
      exact hslash later rfl rfl
    rw [hfirst] at hm ⊢
    obtain ⟨m, rfl⟩ := Nat.exists_eq_add_of_le' hm
    -- behind a tilde there is a zero only if there was one before the first replacement
    have hbegin : ¬['~', '0'] <+: c :: replaceFrom ['~', '1'] ['/'] (n + rest.length) rest := by
      rintro ⟨later, hlater⟩
      obtain ⟨hc, hlater⟩ := List.cons.inj hlater
      have hzero : (replaceFrom ['~', '1'] ['/'] (n + rest.length) rest).head? = some '0' :=
        congrArg List.head? hlater.symm
      obtain ⟨more, rfl⟩ := List.head?_eq_some_iff.1 (head?_of_replaceFrom_slash hzero)
      exact htilde more hc.symm rfl
    rw [List.length_cons, ← Nat.add_assoc, Text.replaceFrom_of_not_isPrefix hbegin,
      ih (Nat.le_add_left _ _) (Nat.le_add_left _ _)]
  | case4 => cases n <;> cases m <;> rfl

/-- **Reading a segment is to replace both escapes in the whole text**, that of the slash first. -/
theorem toList_replaceAll_eq_unescape (s : String) :
    (Text.replaceAll (Text.replaceAll s "~1" "/") "~0" "~").toList = unescape s.toList := by
  rw [Text.toList_replaceAll (by decide), Text.toList_replaceAll (by decide)]
  exact replaceFrom_replaceFrom_eq_unescape (Nat.le_refl _) (Nat.le_refl _)

/-- **Writing a segment is to replace both characters in the whole text**, the tilde first. -/
theorem toList_replaceAll_eq_escape (s : String) :
    (Text.replaceAll (Text.replaceAll s "~" "~0") "/" "~1").toList = escape s.toList := by
  rw [Text.toList_replaceAll_singleton (show "/".toList = ['/'] from rfl),
    Text.toList_replaceAll_singleton (show "~".toList = ['~'] from rfl), List.flatMap_assoc]
  induction s.toList with
  | nil => rfl
  | cons c rest ih =>
    rw [List.flatMap_cons, ih, escape]
    by_cases htilde : c = '~'
    · rw [if_pos htilde, if_pos htilde]
      rfl
    · rw [if_neg htilde, if_neg htilde, List.flatMap_singleton]
      split <;> rfl

end Pointer

/-! ### Numbers in decimal -/

namespace Text

/-- A digit is read as its value. -/
theorem digitValue?_digitChar {d : Nat} (h : d < 10) :
    digitValue? 10 (Nat.digitChar d) = some d := by
  revert d
  decide

/-- The digits of a number are read as that number. -/
theorem readNat?_toDigits (n : Nat) : readNat? 10 (Nat.toDigits 10 n) = some n := by
  have hne (m : Nat) : (Nat.toDigits 10 m).isEmpty = false :=
    List.isEmpty_eq_false_iff.2 Nat.toDigits_ne_nil
  induction n using Nat.strongRecOn with
  | ind n ih =>
    rcases Nat.lt_or_ge n 10 with hsmall | hlarge
    · rw [Nat.toDigits_of_lt_base hsmall]
      simp [readNat?, digitValue?_digitChar hsmall]
    · have hfront := ih (n / 10) (by omega)
      have hlast : n % 10 < 10 := Nat.mod_lt n (by omega)
      rw [readNat?, hne, if_neg Bool.false_ne_true] at hfront
      rw [readNat?, hne, if_neg Bool.false_ne_true, Nat.toDigits_of_base_le (by omega) hlarge,
        List.foldlM_append, hfront]
      simp only [List.foldlM_cons, List.foldlM_nil, digitValue?_digitChar hlast]
      exact congrArg some (Nat.div_add_mod' n 10)

end Text

namespace Pointer

variable {root value : Json} {path : List PathStep} {reference : String}

/-! ### Segments -/

/-- A segment without a tilde is read as it is. -/
theorem unescape_of_not_mem {segment : List Char} (h : '~' ∉ segment) :
    unescape segment = segment := by
  fun_induction unescape segment with
  | case1 rest _ => exact absurd List.mem_cons_self h
  | case2 rest _ => exact absurd List.mem_cons_self h
  | case3 c rest _ _ ih => rw [ih fun hrest ↦ h (List.mem_cons_of_mem c hrest)]
  | case4 => rfl

theorem isDigit_of_mem_segment {position : UInt64} {c : Char}
    (h : c ∈ (PathStep.index position).segment) : c.isDigit = true :=
  Nat.isDigit_of_mem_toDigits (by decide) (by decide) h

/-- An index in decimal is read as that index. -/
theorem index?_segment (position : UInt64) :
    index? (PathStep.index position).segment = some position.toNat := by
  have hdigits : (PathStep.index position).segment.all Char.isDigit = true :=
    List.all_eq_true.2 fun _ ↦ isDigit_of_mem_segment
  have hbound : position.toNat < Nat.pow 2 64 := position.toNat_lt
  have hread : Text.readNat? 10 (PathStep.index position).segment = some position.toNat :=
    Text.readNat?_toDigits _
  unfold index?
  split
  · next rest hsign =>
    -- a sign is no digit
    rw [hsign] at hdigits
    exact absurd hdigits Bool.false_ne_true
  · rw [if_pos hdigits, hread, Option.filter_some, if_pos (decide_eq_true hbound)]

/-- An index that is read has sixty-four bits. -/
theorem lt_of_index? {segment : List Char} {position : Nat} (h : index? segment = some position) :
    position < Nat.pow 2 64 := by
  simp only [index?, Option.ite_none_right_eq_some, Option.filter_eq_some_iff] at h
  exact of_decide_eq_true h.2.2

/-- A segment is read as a step: as its key, or as its index. -/
def Spells (segment : List Char) : PathStep → Prop
  | .key name => unescape segment = name.toList
  | .index position => index? (unescape segment) = some position.toNat

/-- **A segment is read as the step that it was written for.** -/
theorem spells_segment (step : PathStep) : Spells step.segment step := by
  cases step with
  | key name => exact unescape_escape name.toList
  | index position =>
    have htilde : '~' ∉ (PathStep.index position).segment := fun hmem ↦
      absurd (isDigit_of_mem_segment hmem) (by decide)
    rw [Spells, unescape_of_not_mem htilde, index?_segment]

/-- A segment leads wherever a step leads that it spells, and nowhere else. -/
theorem step?_eq_some_iff {segment : List Char} :
    step? (unescape segment) root = some value ↔
      ∃ step, Spells segment step ∧ step.child? root = some value := by
  constructor
  · intro h
    cases root with
    | object fields =>
      exact ⟨.key (String.ofList (unescape segment)), String.toList_ofList.symm, h⟩
    | array items =>
      obtain ⟨position, hposition, hitem⟩ := Option.bind_eq_some_iff.1 h
      -- An index that is read fits into sixty-four bits.
      have hsame : (UInt64.ofNat position).toNat = position :=
        UInt64.toNat_ofNat_of_lt' (lt_of_index? hposition)
      refine ⟨.index (UInt64.ofNat position), ?_, ?_⟩
      · rwa [Spells, hsame]
      · rwa [PathStep.child?, hsame]
    | _ => cases h
  · rintro ⟨step, hspells, hchild⟩
    cases step with
    | key name =>
      cases root with
      | object fields => rwa [hspells, step?, String.ofList_toList]
      | _ => cases hchild
    | index position =>
      cases root with
      | array items =>
        have hindex : index? (unescape segment) = some position.toNat := hspells
        rwa [step?, hindex, Option.bind_some]
      | _ => cases hchild

/-- A segment for a key that is no index names the field of that key. -/
theorem step?_eq_get? {segment : List Char} {key : String} (hkey : unescape segment = key.toList)
    (hindex : index? key.toList = none) (value : Json) :
    step? (unescape segment) value = value.get? key := by
  rw [hkey]
  cases value with
  | object fields => rw [step?, String.ofList_toList]; rfl
  | array items => rw [step?, hindex]; rfl
  | _ => rfl

/-- No segment has a slash in it. -/
theorem slash_not_mem_segment (step : PathStep) : '/' ∉ step.segment := by
  cases step with
  | key name => exact not_mem_escape name.toList
  | index position => exact fun hmem ↦ absurd (isDigit_of_mem_segment hmem) (by decide)

/-- Segments with slashes between them are read back by cutting at the slashes. -/
theorem splitOn_slash {first : List Char} {rest : List (List Char)} (hfirst : '/' ∉ first)
    (hrest : ∀ segment ∈ rest, '/' ∉ segment) :
    (first ++ rest.flatMap fun segment ↦ '/' :: segment).splitOn '/' = first :: rest := by
  induction rest generalizing first with
  | nil => rw [List.flatMap_nil, List.append_nil, List.splitOn_eq_singleton hfirst]
  | cons second rest ih =>
    obtain ⟨hsecond, hrest⟩ := List.forall_mem_cons.1 hrest
    rw [List.flatMap_cons, List.cons_append, List.splitOn_append_cons_self_of_not_mem hfirst,
      ih hsecond hrest]

/-- A hash and segments behind slashes are read back as the segments. -/
theorem segments?_flatMap {segments : List (List Char)}
    (h : ∀ segment ∈ segments, '/' ∉ segment) :
    segments? ('#' :: segments.flatMap fun segment ↦ '/' :: segment) = some segments := by
  cases segments with
  | nil => rfl
  | cons first rest =>
    obtain ⟨hfirst, hrest⟩ := List.forall_mem_cons.1 h
    rw [List.flatMap_cons, List.cons_append, segments?, splitOn_slash hfirst hrest]

/-- The reference for a path has the segments of the path. -/
theorem segments?_ofPath (path : List PathStep) :
    segments? (ofPath path).toList = some (path.map PathStep.segment) := by
  have hslash : ∀ segment ∈ path.map PathStep.segment, '/' ∉ segment :=
    List.forall_mem_map.2 fun _ _ ↦ slash_not_mem_segment _
  rw [ofPath, String.toList_ofList, ← segments?_flatMap hslash, List.flatMap_map]

/-! ### Walks -/

/-- A reference is written for a path, in one way or another. -/
def IsWrittenFor (reference : String) (path : List PathStep) : Prop :=
  ∃ segments, segments? reference.toList = some segments ∧ List.Forall₂ Spells segments path

theorem ofPath_isWrittenFor (path : List PathStep) : IsWrittenFor (ofPath path) path :=
  ⟨path.map PathStep.segment, segments?_ofPath path,
    List.forall₂_map_left_iff.2 (List.forall₂_same.2 fun step _ ↦ spells_segment step)⟩

/-- Walking along segments is following a path that they spell. -/
theorem walk?_eq_some_iff {segments : List (List Char)} :
    walk? segments root = some value ↔
      ∃ path, List.Forall₂ Spells segments path ∧ root.follow? path = some value := by
  induction segments generalizing root with
  | nil => simp [walk?, Json.follow?]
  | cons segment rest ih =>
    rw [walk?, Option.bind_eq_some_iff]
    constructor
    · rintro ⟨next, hstep, hrest⟩
      obtain ⟨step, hspells, hchild⟩ := step?_eq_some_iff.1 hstep
      obtain ⟨path, hpath, hfollow⟩ := ih.1 hrest
      refine ⟨step :: path, .cons hspells hpath, ?_⟩
      rw [Json.follow?, hchild, Option.bind_some, hfollow]
    · rintro ⟨_, hpath, hfollow⟩
      cases hpath with
      | cons hspells hrest =>
        obtain ⟨next, hchild, hfollow⟩ := Option.bind_eq_some_iff.1 hfollow
        exact ⟨next, step?_eq_some_iff.2 ⟨_, hspells, hchild⟩, ih.2 ⟨_, hrest, hfollow⟩⟩

/-- **Resolving a reference is following a path that it is written for.** -/
theorem resolve?_eq_some_iff :
    resolve? root reference = some value ↔
      ∃ path, IsWrittenFor reference path ∧ root.follow? path = some value := by
  rw [resolve?, Option.bind_eq_some_iff]
  simp only [walk?_eq_some_iff, IsWrittenFor]
  constructor
  · rintro ⟨segments, hsegments, path, hpath, hfollow⟩
    exact ⟨path, ⟨segments, hsegments, hpath⟩, hfollow⟩
  · rintro ⟨path, ⟨segments, hsegments, hpath⟩, hfollow⟩
    exact ⟨segments, hsegments, path, hpath, hfollow⟩

/-- **The reference for a path leads where the path leads.** -/
theorem resolve?_ofPath (h : root.follow? path = some value) :
    resolve? root (ofPath path) = some value :=
  resolve?_eq_some_iff.2 ⟨path, ofPath_isWrittenFor path, h⟩

/-- Only a text that begins with a hash leads anywhere. -/
theorem head?_of_resolve? (h : resolve? root reference = some value) :
    reference.toList.head? = some '#' := by
  obtain ⟨segments, hsegments, -⟩ := Option.bind_eq_some_iff.1 h
  unfold segments? at hsegments
  split at hsegments
  · next heq => rw [heq]; rfl
  · next path heq => rw [heq]; rfl
  · exact absurd hsegments nofun

/-- **References name paths.** In every document, the reference for a path that is there leads to
the value at its end; and a text that leads anywhere begins with a hash and leads to a part of the
document, at the end of a path that it is written for. -/
theorem references_name_paths (root : Json) :
    (∀ path value, root.follow? path = some value → resolve? root (ofPath path) = some value) ∧
      ∀ reference value, resolve? root reference = some value →
        reference.toList.head? = some '#' ∧ root.HasPart value ∧
          ∃ path, IsWrittenFor reference path ∧ root.follow? path = some value :=
  ⟨fun _ _ ↦ resolve?_ofPath, fun _ _ h ↦
    ⟨head?_of_resolve? h, .resolve? h, resolve?_eq_some_iff.1 h⟩⟩

/-- Keys with a slash, with what looks like an escape, without any character and like an index. -/
def keysDocument : Json :=
  .object [("a/b", .object [("~1", .array [.null, .object [("", .object [("0", .bool true)])]])])]

def keysPath : List PathStep := [.key "a/b", .key "~1", .index 1, .key "", .key "0"]

/-- Keys that have to be escaped, and an array, on one path. -/
theorem references_name_paths_keysDocument :
    ofPath keysPath = "#/a~1b/~01/1//0" ∧
      keysDocument.follow? keysPath = some (.bool true) ∧
      resolve? keysDocument "#/a~1b/~01/1//0" = some (.bool true) ∧
      keysDocument.HasPart (.bool true) := by
  have hreference : ofPath keysPath = "#/a~1b/~01/1//0" := by decide +kernel
  have hpath : keysDocument.follow? keysPath = some (.bool true) := rfl
  have hresolve := (references_name_paths keysDocument).1 keysPath _ hpath
  obtain ⟨-, hpart, -⟩ := (references_name_paths keysDocument).2 _ _ hresolve
  exact ⟨hreference, hpath, hreference ▸ hresolve, hpart⟩

end Pointer

end ApiContract
