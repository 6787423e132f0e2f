import ApiContract.Artifact.Client
import ApiContract.Lint.Operations
import ApiContract.Proofs.Text
import ApiContract.Proofs.TypeScript.Use
import Mathlib.Data.List.Infix

/-!
# What is taken for a placeholder

Three functions look for placeholders in a path, and each has a rule of its own:

* the linter takes names between braces that are not empty and hold neither brace nor slash;
* the client takes what fills a whole segment;
* the template takes what stands between an opening brace and the next closing one.

So a path may have a placeholder for one of them and not for another, and where they differ a
generated function may mention a variable that it does not bind. This module relates the rules.

## Results

Whatever one of the latter two takes stands in the path between braces
(`PathPiece.braced_of_mem_scan`, `ClientModule.braced_of_mem_placeholders`), and the linter takes it
too if it is a name for the linter at all (`Lint.mem_placeholders_of_braced`). The identifiers in
the address that a path gives are the variables of what the template takes, beside the functions
that encode them (`mem_occurrences_pathTemplate`).

## Proof

The linter reads a path from one character to the next and keeps the name that has begun, if one
has. A name is found where it ends, and what is found from there on is not affected by what came
before (`exists_suffix_placeholdersFrom`); so a name between braces is found by going to its opening
brace first.
-/

namespace ApiContract

open TypeScript

/-- A name stands in a path between an opening and a closing brace. -/
def Braced (path name : List Char) : Prop :=
  ∃ front rest, path = front ++ '\x7b' :: (name ++ '\x7d' :: rest)

/-- A name between braces in a part is between braces in the whole. -/
theorem Braced.of_isInfix {part path name : List Char} (h : Braced part name)
    (hpart : part <:+: path) : Braced path name := by
  obtain ⟨before, after, rfl⟩ := hpart
  obtain ⟨front, rest, rfl⟩ := h
  exact ⟨before ++ front, rest ++ after, by simp⟩

/-! ### Placeholders of the linter -/

namespace Lint

/-- A name that the linter takes for a placeholder, where it stands between braces. -/
structure IsPlaceholderName (name : List Char) : Prop where
  ne_nil : name ≠ []
  not_open : '\x7b' ∉ name
  not_close : '\x7d' ∉ name
  not_slash : '/' ∉ name

/-- An opening brace begins a name anew. -/
theorem placeholdersFrom_open (begun : Option (List Char)) (rest : List Char) :
    placeholdersFrom begun ('\x7b' :: rest) = placeholdersFrom (some []) rest := by
  rw [placeholdersFrom.eq_def]
  rfl

/-- One more character of a name that has begun. -/
theorem placeholdersFrom_some_cons {c : Char} (hc : c ≠ '\x7b' ∧ c ≠ '\x7d' ∧ c ≠ '/')
    (before rest : List Char) :
    placeholdersFrom (some before) (c :: rest) = placeholdersFrom (some (c :: before)) rest := by
  rw [placeholdersFrom.eq_def]
  dsimp only
  rw [if_neg hc.1, if_neg hc.2.1, if_neg hc.2.2, Option.map_some]

/-- What is found behind a character is found with it in front. -/
theorem exists_suffix_placeholdersFrom_cons (begun : Option (List Char)) (c : Char)
    (rest : List Char) :
    ∃ begun', placeholdersFrom begun' rest <:+ placeholdersFrom begun (c :: rest) := by
  rw [placeholdersFrom.eq_def]
  dsimp only
  split
  · exact ⟨_, List.suffix_refl _⟩
  · split
    · split
      · exact ⟨_, List.suffix_cons _ _⟩
      · exact ⟨_, List.suffix_refl _⟩
    · split <;> exact ⟨_, List.suffix_refl _⟩

/-- What is found behind a text is found with it in front. -/
theorem exists_suffix_placeholdersFrom (begun : Option (List Char)) (front rest : List Char) :
    ∃ begun', placeholdersFrom begun' rest <:+ placeholdersFrom begun (front ++ rest) := by
  induction front generalizing begun with
  | nil => exact ⟨begun, List.suffix_refl _⟩
  | cons c front ih =>
    obtain ⟨between, hfirst⟩ := exists_suffix_placeholdersFrom_cons begun c (front ++ rest)
    obtain ⟨begun', hrest⟩ := ih between
    exact ⟨begun', hrest.trans hfirst⟩

/-- A name is found where it ends. -/
theorem mem_placeholdersFrom_append {before name rest : List Char}
    (hne : before.reverse ++ name ≠ [])
    (hname : ∀ c ∈ name, c ≠ '\x7b' ∧ c ≠ '\x7d' ∧ c ≠ '/') :
    String.ofList (before.reverse ++ name) ∈
      placeholdersFrom (some before) (name ++ '\x7d' :: rest) := by
  -- on what is left of the name: its characters go over to what has begun
  induction name generalizing before with
  | nil =>
    cases before with
    | nil => exact absurd rfl hne
    | cons c before =>
      rw [List.nil_append, placeholdersFrom.eq_def, List.append_nil]
      exact List.mem_cons_self
  | cons c name ih =>
    obtain ⟨hc, hrest⟩ := List.forall_mem_cons.1 hname
    have hmove : before.reverse ++ c :: name = (c :: before).reverse ++ name := by
      rw [List.reverse_cons, List.append_assoc, List.singleton_append]
    rw [List.cons_append, placeholdersFrom_some_cons hc, hmove]
    exact ih (hmove ▸ hne) hrest

/-- **The linter takes every name between braces**, if it is a name for the linter. -/
theorem mem_placeholders_of_braced {path : String} {name : List Char}
    (h : Braced path.toList name) (hname : IsPlaceholderName name) :
    String.ofList name ∈ placeholders path := by
  obtain ⟨front, rest, hpath⟩ := h
  obtain ⟨begun, hsuffix⟩ :=
    exists_suffix_placeholdersFrom none front ('\x7b' :: (name ++ '\x7d' :: rest))
  rw [placeholders, hpath]
  refine hsuffix.subset ?_
  rw [placeholdersFrom_open]
  exact mem_placeholdersFrom_append hname.ne_nil fun c hc ↦
    ⟨ne_of_mem_of_not_mem hc hname.not_open, ne_of_mem_of_not_mem hc hname.not_close,
      ne_of_mem_of_not_mem hc hname.not_slash⟩

end Lint

/-! ### Placeholders of the template -/

namespace PathPiece

/-- A list up to a character, and from it on. -/
theorem eq_takeWhile_append {c d : Char} {cs rest : List Char}
    (h : cs.dropWhile (· ≠ c) = d :: rest) : cs = cs.takeWhile (· ≠ c) ++ c :: rest := by
  have hd : d = c := by
    have hhead := List.head_dropWhile_not (· ≠ c) (l := cs) (by rw [h]; exact List.cons_ne_nil _ _)
    simp only [h, List.head_cons] at hhead
    simpa using hhead
  calc cs = cs.takeWhile (· ≠ c) ++ cs.dropWhile (· ≠ c) := List.takeWhile_append_dropWhile.symm
    _ = cs.takeWhile (· ≠ c) ++ c :: rest := by rw [h, hd]

theorem placeholder_not_mem_ofText (name value : List Char) : placeholder name ∉ ofText value := by
  rw [ofText]
  split <;> simp

/-- **What the template takes for a placeholder stands between braces.** -/
theorem braced_of_mem_scan {path name : List Char} (h : placeholder name ∈ scan path) :
    Braced path name := by
  fun_induction scan path with
  | case1 path hopen => exact absurd h (placeholder_not_mem_ofText _ _)
  | case2 path c inside hopen hclose => exact absurd h (placeholder_not_mem_ofText _ _)
  | case3 path c inside hopen d rest hclose ih =>
    have hpath : path = path.takeWhile (· ≠ '\x7b') ++
        '\x7b' :: (inside.takeWhile (· ≠ '\x7d') ++ '\x7d' :: rest) :=
      (eq_takeWhile_append hopen).trans
        (congrArg (_ ++ '\x7b' :: ·) (eq_takeWhile_append hclose))
    rcases List.mem_append.1 h with htext | hplaceholder
    · exact absurd htext (placeholder_not_mem_ofText _ _)
    rcases List.mem_cons.1 hplaceholder with heq | hrest
    · obtain rfl := placeholder.inj heq
      exact ⟨_, rest, hpath⟩
    · have hsuffix : rest <:+ path := by
        rw [hpath]
        exact (List.suffix_cons _ _).trans <| (List.suffix_append _ _).trans <|
          (List.suffix_cons _ _).trans (List.suffix_append _ _)
      exact (ih hrest).of_isInfix hsuffix.isInfix

end PathPiece

/-! ### Placeholders of the client -/

/-- What stands between two characters. -/
theorem eq_of_between?_eq_some {first last : Char} {cs name : List Char}
    (h : Text.between? first last cs = some name) : cs = first :: (name ++ [last]) := by
  cases cs with
  | nil => exact absurd h nofun
  | cons c rest =>
    rw [Text.between?] at h
    split at h
    · next hends =>
      obtain ⟨hfirst, hlast⟩ := Bool.and_eq_true_iff.1 hends
      obtain rfl := Option.some.inj h
      rw [of_decide_eq_true hfirst, List.dropLast_append_getLast? last (beq_iff_eq.1 hlast)]
    · exact absurd h nofun

namespace ClientModule

/-- **What the client takes for a placeholder stands between braces.** -/
theorem braced_of_mem_placeholders {path name : String} (h : name ∈ placeholders path) :
    Braced path.toList name.toList ∧ '/' ∉ name.toList := by
  obtain ⟨inside, hmem, rfl⟩ := List.mem_map.1 h
  obtain ⟨segment, hsegment, hinside⟩ := List.mem_filterMap.1 hmem
  obtain ⟨hpart, hslash⟩ := isInfix_of_mem_splitOn hsegment
  obtain rfl := eq_of_between?_eq_some hinside
  rw [String.toList_ofList]
  have hbraced : Braced ('\x7b' :: (inside ++ ['\x7d'])) inside := ⟨[], [], rfl⟩
  exact ⟨hbraced.of_isInfix hpart, fun hin ↦
    hslash (List.mem_cons_of_mem _ (List.mem_append_left _ hin))⟩

end ClientModule

/-! ### Addresses -/

/-- The global functions that encode a value. -/
def globalNames : List String := ["encodeURIComponent", "String"]

/-- The identifiers in the parts are the variables of placeholders, and the functions that
encode. -/
theorem mem_partOccurrences_map_toPart {pieces : List PathPiece} {o : Occurrence}
    (h : o ∈ partOccurrences false (pieces.map PathPiece.toPart)) :
    o.name ∈ globalNames ∨
      ∃ name, .placeholder name ∈ pieces ∧ o.name = PathPiece.variableOf name := by
  induction pieces with
  | nil => exact absurd h (by simp [partOccurrences])
  | cons piece rest ih =>
    have hrest (h : o ∈ partOccurrences false (rest.map PathPiece.toPart)) :
        o.name ∈ globalNames ∨
          ∃ name, .placeholder name ∈ piece :: rest ∧ o.name = PathPiece.variableOf name :=
      (ih h).imp_right fun ⟨name, hmem, heq⟩ ↦ ⟨name, List.mem_cons_of_mem _ hmem, heq⟩
    cases piece with
    | text value =>
      rw [List.map_cons, PathPiece.toPart, partOccurrences] at h
      exact hrest h
    | placeholder name =>
      rw [List.map_cons, PathPiece.toPart, partOccurrences] at h
      rcases List.mem_append.1 h with hhole | hlater
      · simp only [Expr.apply, Expr.occurrences, itemOccurrences, List.append_nil, List.mem_append,
          List.mem_singleton] at hhole
        rcases hhole with rfl | rfl | rfl
        · exact .inl List.mem_cons_self
        · exact .inl (List.mem_cons_of_mem _ (List.mem_singleton_self _))
        · exact .inr ⟨name, List.mem_cons_self, rfl⟩
      · exact hrest hlater

/-- **The identifiers in an address are the variables of its placeholders**, beside the functions
that encode them. -/
theorem mem_occurrences_pathTemplate {path : String} {o : Occurrence}
    (h : o ∈ (pathTemplate path).occurrences false) :
    o.name ∈ globalNames ∨
      ∃ name, .placeholder name ∈ PathPiece.scan path.toList ∧
        o.name = PathPiece.variableOf name := by
  rw [pathTemplate] at h
  split at h
  · exact absurd h (by simp [Expr.text, Expr.occurrences])
  · exact absurd h (by simp [Expr.text, Expr.occurrences])
  · rw [Expr.occurrences] at h
    exact mem_partOccurrences_map_toPart h

end ApiContract
