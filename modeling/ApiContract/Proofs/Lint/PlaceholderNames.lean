import ApiContract.Lint.Report
import ApiContract.Proofs.Projection.PathTemplate
import Mathlib.Data.List.Forall2

/-!
# Names of placeholders

Two paths may differ in nothing but the names of placeholders (`SameButNames`), placeholders being
what the linter takes for them wherever they stand (`mem_placeholders_of_braced`). Such paths stand
for the same routes, so it should not matter which of them is written.

## Main result

For required routes the linter compares paths in another form, in which a segment counts as a
placeholder if it begins with an opening brace and ends with a closing one, and any other as it is.
So the names of some placeholders matter: two such paths have the same form exactly if every segment
in which they differ is enclosed in braces (`normalPath_eq_iff`).

## Proof

A name may have any character but braces and slashes, so renaming neither makes nor joins segments:
`SameButNames` of two paths is `SameButNames` of their segments, one by one
(`SameButNames.splitOn`). Renaming keeps the first and the last character of a segment, since a name
has a brace on either side, and with them whether the segment is enclosed. The inductions are on
`SameButNames`, whose constructors are a character that stays and a placeholder with two names.

The condition is decidable (`DiffersEnclosed`), as is whether a segment is enclosed; whether two
paths differ only in names is given as a derivation and not decided here.
-/

namespace ApiContract

namespace Lint

/-- Two paths that differ in nothing but the names of placeholders. -/
inductive SameButNames : List Char → List Char → Prop
  | nil : SameButNames [] []
  | char {path other : List Char} (c : Char) (h : SameButNames path other) :
      SameButNames (c :: path) (c :: other)
  | placeholder {name new path other : List Char} (hname : IsPlaceholderName name)
      (hnew : IsPlaceholderName new) (h : SameButNames path other) :
      SameButNames ('\x7b' :: (name ++ '\x7d' :: path)) ('\x7b' :: (new ++ '\x7d' :: other))

namespace SameButNames

variable {path other : List Char}

/-- A path differs in nothing from itself. -/
theorem refl (path : List Char) : SameButNames path path := by
  induction path with
  | nil => exact .nil
  | cons c path ih => exact .char c ih

/-- Either path has the names of the other replaced. -/
theorem symm (h : SameButNames path other) : SameButNames other path := by
  induction h with
  | nil => exact .nil
  | char c _ ih => exact .char c ih
  | placeholder hname hnew _ ih => exact .placeholder hnew hname ih

/-- The same may stand in front of both. -/
theorem append (front : List Char) (h : SameButNames path other) :
    SameButNames (front ++ path) (front ++ other) := by
  induction front with
  | nil => exact h
  | cons c front ih => exact .char c ih

/-- The name between two braces is replaced by another one. -/
theorem replace {path other front name new rest : List Char}
    (hpath : path = front ++ '\x7b' :: (name ++ '\x7d' :: rest))
    (hother : other = front ++ '\x7b' :: (new ++ '\x7d' :: rest))
    (hname : IsPlaceholderName name) (hnew : IsPlaceholderName new) : SameButNames path other := by
  rw [hpath, hother]
  exact (placeholder hname hnew (.refl rest)).append front

/-- Without a brace there is nothing to rename. -/
theorem eq_of_not_mem (h : SameButNames path other) (hbrace : '\x7b' ∉ path) : path = other := by
  induction h with
  | nil => rfl
  | char c _ ih => rw [ih fun hmem ↦ hbrace (List.mem_cons_of_mem c hmem)]
  | placeholder _ _ _ _ => exact absurd List.mem_cons_self hbrace

theorem head?_eq (h : SameButNames path other) : path.head? = other.head? := by
  cases h <;> rfl

theorem getLast?_eq (h : SameButNames path other) : path.getLast? = other.getLast? := by
  induction h with
  | nil => rfl
  | char c _ ih => rw [List.getLast?_cons, List.getLast?_cons, ih]
  | placeholder _ _ _ ih =>
    simp only [List.getLast?_cons, List.getLast?_append, ih, Option.some_or, Option.getD_some]

end SameButNames

/-! ### Segments -/

/-- What is cut off at the front of a text without the separator is cut off in the first piece. -/
theorem splitOn_append_of_not_mem {separator : Char} {front : List Char} (h : separator ∉ front)
    (rest : List Char) :
    (front ++ rest).splitOn separator = (rest.splitOn separator).modifyHead (front ++ ·) := by
  induction front with
  | nil => exact (congrFun List.modifyHead_id (rest.splitOn separator)).symm
  | cons c front ih =>
    obtain ⟨hc, hfront⟩ := not_or.1 (List.mem_cons.not.1 h)
    rw [List.cons_append, List.splitOn_cons_eq_if_modifyHead, if_neg (by simpa using Ne.symm hc),
      ih hfront, List.modifyHead_modifyHead]
    rfl

/-- The segments of such paths differ in nothing but names either. -/
theorem SameButNames.splitOn {path other : List Char} (h : SameButNames path other) :
    List.Forall₂ SameButNames (path.splitOn '/') (other.splitOn '/') := by
  -- what is put in front of both goes to the first segment
  have hfront {front front' rest rest' : List Char} (hslash : '/' ∉ front) (hslash' : '/' ∉ front')
      (hpair : ∀ {s t}, SameButNames s t → SameButNames (front ++ s) (front' ++ t))
      (hrest : List.Forall₂ SameButNames (rest.splitOn '/') (rest'.splitOn '/')) :
      List.Forall₂ SameButNames ((front ++ rest).splitOn '/') ((front' ++ rest').splitOn '/') := by
    rw [splitOn_append_of_not_mem hslash, splitOn_append_of_not_mem hslash']
    generalize rest.splitOn '/' = segments at hrest
    generalize rest'.splitOn '/' = segments' at hrest
    cases hrest with
    | nil => exact .nil
    | cons hfirst hmore => exact .cons (hpair hfirst) hmore
  induction h with
  | nil => exact .cons .nil .nil
  | @char path other c _ ih =>
    by_cases hc : c = '/'
    · rw [hc, ← List.nil_append ('/' :: path), ← List.nil_append ('/' :: other),
        List.splitOn_append_cons_self_of_not_mem List.not_mem_nil,
        List.splitOn_append_cons_self_of_not_mem List.not_mem_nil]
      exact .cons .nil ih
    · have hslash : '/' ∉ [c] := fun hmem ↦ hc (List.mem_singleton.1 hmem).symm
      exact hfront hslash hslash (.char c) ih
  | @placeholder name new path other hname hnew _ ih =>
    have hslash {name : List Char} (hname : IsPlaceholderName name) :
        '/' ∉ '\x7b' :: (name ++ ['\x7d']) := by
      simp [hname.not_slash]
    have hpair {s t : List Char} (hst : SameButNames s t) :
        SameButNames ('\x7b' :: (name ++ ['\x7d']) ++ s) ('\x7b' :: (new ++ ['\x7d']) ++ t) := by
      simpa using SameButNames.placeholder hname hnew hst
    simpa using hfront (hslash hname) (hslash hnew) hpair ih

/-- A segment that begins with an opening brace and ends with a closing one. -/
def IsEnclosed (segment : List Char) : Prop :=
  segment.head? = some '\x7b' ∧ segment.getLast? = some '\x7d'

instance (segment : List Char) : Decidable (IsEnclosed segment) :=
  inferInstanceAs (Decidable (_ ∧ _))

/-- What stands between two braces is taken out of enclosed segments. -/
theorem isSome_between?_iff {segment : List Char} :
    (Text.between? '\x7b' '\x7d' segment).isSome = true ↔ IsEnclosed segment := by
  cases segment with
  | nil => exact iff_of_false Bool.false_ne_true fun h ↦ absurd h.1.symm (Option.some_ne_none _)
  | cons c rest =>
    have hlast (hc : c = '\x7b') : (c :: rest).getLast? = some '\x7d' ↔
        rest.getLast? = some '\x7d' := by
      -- an opening brace alone does not end with a closing one
      cases rest with
      | nil => exact iff_of_false (by simp [hc]) (Option.some_ne_none _).symm
      | cons d rest => rw [List.getLast?_cons_cons]
    have hguard : (c = '\x7b' && rest.getLast? == some '\x7d') = true ↔ IsEnclosed (c :: rest) := by
      rw [Bool.and_eq_true, decide_eq_true_iff, beq_iff_eq, IsEnclosed, List.head?_cons,
        Option.some_inj]
      exact and_congr_right fun hc ↦ (hlast hc).symm
    rw [← hguard, Text.between?]
    split
    · next h => exact iff_of_true rfl h
    · next h => exact iff_of_false Bool.false_ne_true h

theorem SameButNames.isEnclosed_iff {segment other : List Char} (h : SameButNames segment other) :
    IsEnclosed segment ↔ IsEnclosed other := by
  rw [IsEnclosed, IsEnclosed, h.head?_eq, h.getLast?_eq]

/-- A name may change where braces enclose the segment, and nowhere else. -/
theorem SameButNames.normalSegment_eq_iff {segment other : List Char}
    (h : SameButNames segment other) :
    normalSegment segment = normalSegment other ↔ segment = other ∨ IsEnclosed segment := by
  by_cases henclosed : IsEnclosed segment
  · rw [normalSegment, normalSegment, if_pos (isSome_between?_iff.2 henclosed),
      if_pos (isSome_between?_iff.2 (h.isEnclosed_iff.1 henclosed))]
    exact iff_of_true rfl (.inr henclosed)
  · rw [normalSegment, normalSegment, if_neg (isSome_between?_iff.not.2 henclosed),
      if_neg (isSome_between?_iff.not.2 (h.isEnclosed_iff.not.1 henclosed)),
      or_iff_left henclosed]

/-- The paths differ only in segments that are enclosed in braces. -/
def DiffersEnclosed (path other : String) : Prop :=
  List.Forall₂ (fun segment segment' ↦ segment = segment' ∨ IsEnclosed segment)
    (path.toList.splitOn '/') (other.toList.splitOn '/')

instance (path other : String) : Decidable (DiffersEnclosed path other) :=
  inferInstanceAs (Decidable (List.Forall₂ _ _ _))

/-- **Paths that differ in names have the same form exactly if they differ in enclosed
segments.** -/
theorem normalPath_eq_iff {path other : String} (h : SameButNames path.toList other.toList) :
    normalPath path = normalPath other ↔ DiffersEnclosed path other := by
  rw [normalPath, normalPath, ← List.forall₂_eq_eq_eq, List.forall₂_map_left_iff,
    List.forall₂_map_right_iff, DiffersEnclosed]
  have hsegments := h.splitOn
  generalize path.toList.splitOn '/' = segments at hsegments
  generalize other.toList.splitOn '/' = segments' at hsegments
  induction hsegments with
  | nil => exact iff_of_true .nil .nil
  | cons hfirst _ ih =>
    rw [List.forall₂_cons, List.forall₂_cons]
    exact and_congr hfirst.normalSegment_eq_iff ih

end Lint

end ApiContract
