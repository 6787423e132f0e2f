import ApiContract.FilePath
import ApiContract.Proofs.Text
import ApiContract.Proofs.Text.Delimited

/-!
# Paths that name a file

A path that names a file is cut into the segments above the name, the name, and segments behind it
that count for nothing (`FilePath.NamesFile`). Everything that is asked of a path is read off this
cut: its file name, its extension, its directory and its components.

## The cut

Just the paths that name a file have a cut (`fileName?_eq_some_iff`), and it is unique, because the
name is the last segment that counts. A path that names no file is empty, is the root or the current
directory, or ends in `..`.

## Extensions

An extension is put behind the name and takes the place of what counted for nothing
(`NamesFile.withExtension`), so it changes the name of the file and nothing above it: the components
up to the last one and the directory are the same (`components_withExtension`,
`parent?_withExtension`). It is the extension of the path from then on (`extension?_withExtension`),
if it has no point in it.
-/

namespace ApiContract.FilePath

/-! ### Segments -/

theorem slash_not_mem_of_mem_segments {p : FilePath} {segment : List Char}
    (h : segment ∈ p.segments) : '/' ∉ segment :=
  (isInfix_of_mem_splitOn h).2

/-- A path begins at the root if its first segment is empty and not its only one. -/
theorem isAbsolute_iff {p : FilePath} :
    p.isAbsolute = true ↔ ∃ rest, rest ≠ [] ∧ p.segments = [] :: rest := by
  have htext : ['/'].intercalate p.segments = p.text.toList := List.intercalate_splitOn _
  rw [isAbsolute, beq_iff_eq]
  constructor
  · intro h
    obtain ⟨rest, hrest⟩ := List.head?_eq_some_iff.1 h
    refine ⟨rest.splitOn '/', List.splitOn_ne_nil _ _, ?_⟩
    rw [segments, hrest, ← List.nil_append ('/' :: rest),
      List.splitOn_append_cons_self_of_not_mem List.not_mem_nil]
  · rintro ⟨rest, hrest, hsegments⟩
    obtain ⟨next, rest, rfl⟩ := List.exists_cons_of_ne_nil hrest
    rw [← htext, hsegments, List.intercalate_cons_cons]
    rfl

/-- What a path leads through: the root or the current directory, if it begins there, and the
segments that count. -/
def components (p : FilePath) : List String :=
  (if p.isAbsolute then ["/"] else if p.segments.head? == some ['.'] then ["."] else []) ++
    (p.segments.filter fun segment ↦ !isIdle segment).map String.ofList

/-! ### Names of files -/

/-- The path names a file: the segments above it, its name, and segments behind it that count for
nothing. -/
structure NamesFile (p : FilePath) (above : List (List Char)) (name : List Char)
    (idle : List (List Char)) : Prop where
  segments_eq : p.segments = above ++ name :: idle
  isIdle_of_mem : ∀ segment ∈ idle, isIdle segment = true
  isIdle_name : isIdle name = false
  name_ne : name ≠ ['.', '.']

namespace NamesFile

variable {p : FilePath} {above idle : List (List Char)} {name : List Char}

/-- Read from behind, a path begins with its file name. -/
theorem backwards_eq (h : NamesFile p above name idle) : p.backwards = name :: above.reverse := by
  have hidle : ∀ segment ∈ idle.reverse, isIdle segment = true := fun segment hmem ↦
    h.isIdle_of_mem segment (List.mem_reverse.1 hmem)
  rw [backwards, h.segments_eq, List.reverse_append, List.reverse_cons, List.append_assoc,
    List.dropWhile_append_of_pos hidle, List.singleton_append,
    List.dropWhile_cons_of_neg (Bool.eq_false_iff.1 h.isIdle_name)]

/-- The file name is the name at the cut. -/
theorem fileName?_eq (h : NamesFile p above name idle) :
    p.fileName? = some (String.ofList name) := by
  rw [fileName?, h.backwards_eq]
  exact if_neg h.name_ne

theorem name_ne_nil (h : NamesFile p above name idle) : name ≠ [] := by
  rintro rfl
  exact absurd h.isIdle_name (by decide)

theorem name_ne_dot (h : NamesFile p above name idle) : name ≠ ['.'] := by
  rintro rfl
  exact absurd h.isIdle_name (by decide)

/-- Whether such a path begins at the root is told by what is above the name. -/
theorem isAbsolute_iff_above (h : NamesFile p above name idle) :
    p.isAbsolute = true ↔ above.head? = some [] := by
  rw [isAbsolute_iff, h.segments_eq]
  cases above with
  | nil =>
    refine ⟨fun ⟨_, _, heq⟩ ↦ absurd (List.cons.inj heq).1 h.name_ne_nil, nofun⟩
  | cons first above =>
    constructor
    · rintro ⟨_, -, heq⟩
      exact congrArg some (List.cons.inj heq).1
    · intro hfirst
      exact ⟨above ++ name :: idle, by simp, by rw [Option.some.inj hfirst, List.cons_append]⟩

/-- Whether such a path begins with the current directory is told by what is above the name. -/
theorem head?_segments_iff (h : NamesFile p above name idle) :
    p.segments.head? = some ['.'] ↔ above.head? = some ['.'] := by
  rw [h.segments_eq]
  cases above with
  | nil => exact ⟨fun heq ↦ absurd (Option.some.inj heq) h.name_ne_dot, nofun⟩
  | cons first above => exact Iff.rfl

end NamesFile

/-- Just the paths that name a file have a file name. -/
theorem fileName?_eq_some_iff {p : FilePath} {name : List Char} :
    p.fileName? = some (String.ofList name) ↔ ∃ above idle, NamesFile p above name idle := by
  refine ⟨fun h ↦ ?_, fun ⟨above, idle, h⟩ ↦ h.fileName?_eq⟩
  rw [fileName?] at h
  split at h
  · exact absurd h nofun
  · next last above hbackwards =>
    split at h
    · exact absurd h nofun
    · next hne =>
      obtain rfl : last = name := String.ofList_injective (Option.some.inj h)
      refine ⟨above.reverse, (p.segments.reverse.takeWhile isIdle).reverse, ?_, ?_, ?_, hne⟩
      · rw [← List.reverse_inj, List.reverse_append, List.reverse_cons, List.reverse_reverse,
          List.reverse_reverse, List.append_assoc, List.singleton_append, ← hbackwards]
        exact List.takeWhile_append_dropWhile.symm
      · exact fun segment hmem ↦ List.mem_takeWhile_imp (List.mem_reverse.1 hmem)
      · exact Text.not_of_head?_dropWhile (congrArg List.head? hbackwards)

/-! ### Extensions -/

/-- What is written behind joined segments is written behind the last one. -/
theorem intercalate_concat_append (above : List (List Char)) (name tail : List Char) :
    ['/'].intercalate (above ++ [name]) ++ tail = ['/'].intercalate (above ++ [name ++ tail]) := by
  by_cases hroot : above = []
  · rw [hroot, List.nil_append, List.nil_append, List.intercalate_singleton,
      List.intercalate_singleton]
  · rw [Text.intercalate_append hroot (List.cons_ne_nil _ _),
      Text.intercalate_append hroot (List.cons_ne_nil _ _), List.intercalate_singleton,
      List.intercalate_singleton, List.append_assoc]

variable {p : FilePath} {extension : String}

theorem withExtension_of_fileName?_eq_none (h : p.fileName? = none) :
    p.withExtension extension = p := by
  rw [withExtension, h]

namespace NamesFile

variable {above idle : List (List Char)} {name : List Char}

/-- The text of a path with an extension. -/
theorem toList_withExtension (h : NamesFile p above name idle) :
    (p.withExtension extension).text.toList =
      ['/'].intercalate (above ++ [name ++ '.' :: extension.toList]) := by
  rw [FilePath.withExtension, h.fileName?_eq]
  dsimp only
  rw [h.backwards_eq, ofBackwards, List.reverse_cons, List.reverse_reverse, String.append_assoc,
    String.toList_append, String.toList_ofList, intercalate_concat_append, String.toList_append]
  rfl

/-- The extension takes the place of what counts for nothing behind the name. -/
theorem withExtension (h : NamesFile p above name idle) (hslash : '/' ∉ extension.toList) :
    NamesFile (p.withExtension extension) above (name ++ '.' :: extension.toList) [] := by
  have hplain : ∀ segment ∈ above ++ name :: idle, '/' ∉ segment := fun segment hmem ↦
    slash_not_mem_of_mem_segments (h.segments_eq ▸ hmem)
  have hplain' : ∀ segment ∈ above ++ [name ++ '.' :: extension.toList], '/' ∉ segment := by
    intro segment hmem
    rcases List.mem_append.1 hmem with habove | hname
    · exact hplain segment (List.mem_append_left _ habove)
    · obtain rfl := List.mem_singleton.1 hname
      rw [List.mem_append, List.mem_cons]
      rintro (hfirst | hdot | hlast)
      · exact hplain name (List.mem_append_right _ List.mem_cons_self) hfirst
      · exact absurd hdot (by decide)
      · exact hslash hlast
  obtain ⟨c, rest, rfl⟩ := List.exists_cons_of_ne_nil h.name_ne_nil
  constructor
  · rw [segments, h.toList_withExtension, List.splitOn_intercalate '/' hplain' (by simp)]
  · exact fun _ hmem ↦ absurd hmem List.not_mem_nil
  · simp [isIdle]
  · -- only a name that is a point could become the directory above
    intro heq
    obtain ⟨rfl, htail⟩ := List.cons.inj heq
    cases rest with
    | nil => exact h.name_ne_dot rfl
    | cons d rest => simpa using congrArg List.length htail

/-- A path with an extension begins where it began. -/
theorem isAbsolute_withExtension (h : NamesFile p above name idle)
    (hslash : '/' ∉ extension.toList) :
    (p.withExtension extension).isAbsolute = p.isAbsolute := by
  rw [Bool.eq_iff_iff, (h.withExtension hslash).isAbsolute_iff_above, h.isAbsolute_iff_above]

/-- A path with an extension begins with the current directory if it did. -/
theorem head?_segments_withExtension (h : NamesFile p above name idle)
    (hslash : '/' ∉ extension.toList) :
    ((p.withExtension extension).segments.head? == some ['.']) =
      (p.segments.head? == some ['.']) := by
  rw [Bool.eq_iff_iff, beq_iff_eq, beq_iff_eq, (h.withExtension hslash).head?_segments_iff,
    h.head?_segments_iff]

end NamesFile

/-- The cases of a path: it names no file, or it is cut at its file name. -/
theorem fileName?_eq_none_or (p : FilePath) :
    p.fileName? = none ∨ ∃ above name idle, NamesFile p above name idle := by
  cases hname : p.fileName? with
  | none => exact .inl rfl
  | some name =>
    obtain ⟨above, idle, h⟩ := fileName?_eq_some_iff.1
      (hname.trans (congrArg some String.ofList_toList.symm))
    exact .inr ⟨above, name.toList, idle, h⟩

/-- **An extension is put behind the name of the file.** -/
theorem fileName?_withExtension (p : FilePath) (hslash : '/' ∉ extension.toList) :
    (p.withExtension extension).fileName? = p.fileName?.map (· ++ "." ++ extension) := by
  rcases p.fileName?_eq_none_or with hnone | ⟨above, name, idle, h⟩
  · rw [withExtension_of_fileName?_eq_none hnone, hnone, Option.map_none]
  · rw [(h.withExtension hslash).fileName?_eq, h.fileName?_eq, Option.map_some, Option.some_inj,
      ← String.toList_inj, String.append_assoc, String.toList_append, String.toList_append,
      String.toList_ofList, String.toList_ofList]
    rfl

/-- **An extension does not change the directory.** -/
theorem parent?_withExtension (p : FilePath) (hslash : '/' ∉ extension.toList) :
    (p.withExtension extension).parent? = p.parent? := by
  rcases p.fileName?_eq_none_or with hnone | ⟨above, name, idle, h⟩
  · rw [withExtension_of_fileName?_eq_none hnone]
  · rw [parent?, parent?, (h.withExtension hslash).backwards_eq, h.backwards_eq,
      h.isAbsolute_withExtension hslash, h.head?_segments_withExtension hslash]

/-- **An extension changes no component but the last.** -/
theorem components_withExtension (p : FilePath) (hslash : '/' ∉ extension.toList) :
    (p.withExtension extension).components.dropLast = p.components.dropLast := by
  rcases p.fileName?_eq_none_or with hnone | ⟨above, name, idle, h⟩
  · rw [withExtension_of_fileName?_eq_none hnone]
  · have hidle : idle.filter (fun segment ↦ !isIdle segment) = [] :=
      List.filter_eq_nil_iff.2 fun segment hmem ↦ by simp [h.isIdle_of_mem segment hmem]
    have hnew := h.withExtension hslash
    rw [components, components, h.isAbsolute_withExtension hslash,
      h.head?_segments_withExtension hslash, hnew.segments_eq, h.segments_eq, List.filter_append,
      List.filter_append, List.filter_cons_of_pos (by rw [hnew.isIdle_name]; rfl),
      List.filter_cons_of_pos (by rw [h.isIdle_name]; rfl), hidle, List.filter_nil, List.map_append,
      List.map_append, ← List.append_assoc, ← List.append_assoc]
    exact (List.dropLast_concat ..).trans (List.dropLast_concat ..).symm

/-- What follows the last point of a name that does not begin with it is the extension. -/
theorem cutAtDot_append {name tail : List Char} (hname : name ≠ []) (htail : '.' ∉ tail)
    (hup : name ++ '.' :: tail ≠ ['.', '.']) :
    cutAtDot (name ++ '.' :: tail) = (name, some tail) := by
  have hword : ∀ c ∈ tail.reverse, decide (c ≠ '.') = true := fun c hc ↦
    decide_eq_true (ne_of_mem_of_not_mem (List.mem_reverse.1 hc) htail)
  have hreverse : (name ++ '.' :: tail).reverse = tail.reverse ++ '.' :: name.reverse := by
    rw [List.reverse_append, List.reverse_cons, List.append_assoc, List.singleton_append]
  obtain ⟨c, rest, hrest⟩ := List.exists_cons_of_ne_nil (mt List.reverse_eq_nil_iff.1 hname)
  have hback : rest.reverse ++ [c] = name := by
    rw [← List.reverse_cons, ← hrest, List.reverse_reverse]
  rw [cutAtDot, if_neg hup, hreverse, List.dropWhile_append_of_pos hword,
    List.takeWhile_append_of_pos hword, List.dropWhile_cons_of_neg (by decide),
    List.takeWhile_cons_of_neg (by decide), hrest]
  dsimp only
  rw [List.reverse_cons, hback, List.append_nil, List.reverse_reverse]

/-- A path that names a file has the extension that it was given. -/
theorem extension?_withExtension (hfile : p.fileName? ≠ none) (hslash : '/' ∉ extension.toList)
    (hdot : '.' ∉ extension.toList) : (p.withExtension extension).extension? = some extension := by
  rcases p.fileName?_eq_none_or with hnone | ⟨above, name, idle, h⟩
  · exact absurd hnone hfile
  · have hnew := h.withExtension hslash
    rw [extension?, hnew.fileName?_eq, Option.bind_some, String.toList_ofList,
      cutAtDot_append h.name_ne_nil hdot hnew.name_ne, Option.map_some, String.ofList_toList]

end ApiContract.FilePath
