import ApiContract.Proofs.Except
import ApiContract.Workspace.Basic
import Mathlib.Logic.Relation

/-!
# What reading depends on and what writing changes

Programs read and write files by paths, and later runs read what earlier ones wrote. This module
says what a read depends on and what a write changes, for all workspaces and paths.

## Reading

A path is walked through directories to the location that it leads to, and nothing else is looked up
on the way: workspaces that agree along a path read it alike (`AgreesAlong.text_eq`). The locations
that are crossed are directories, and `..` leads to the one above.

## Changes

Making a directory, writing a file and removing one change one location, where no directory was
(`ChangesAt`), and one such change after the other does not show along a path that leads to another
file (`Edits.agreesAlong`). A text that was written is read back (`text_of_write`), and a file that
was removed is not found (`text_of_removeFile`).

## Directories

Directories are made for a file as far as they are not there. Whatever happens on the way, each one
is made where nothing was (`Grows`), so nothing that is there is changed, and what is new is a
directory (`Grows.get?_eq`).

## What workspaces leave out

A write succeeds and sets the whole content of a file, or fails and leaves the workspace as it was;
there are no links, no permissions and no other programs, apart from formatters, which are modelled
as functions on workspaces where they are run.
-/

namespace ApiContract

namespace Workspace

variable {w later : Workspace} {path other : FilePath} {l m : Location} {content : ByteArray}

/-! ### Walking -/

/-- Where one step of a path leads. -/
def stepTo (l : Location) (name : String) : Location :=
  if name = "" ∨ name = "." then l else if name = ".." then l.dropLast else l ++ [name]

/-- The locations that must be directories for a walk to get on. -/
def crossedFrom (l : Location) : List String → List Location
  | [] => []
  | name :: rest => l :: crossedFrom (stepTo l name) rest

/-- A walk goes on by one name, through a directory. -/
theorem walk_cons (w : Workspace) (l : Location) (name : String) (rest : List String) :
    w.walk l (name :: rest) =
      match w.get? l with
      | none => .error .notFound
      | some (.file _) => .error .notDirectory
      | some .directory =>
        if nameLimit < name.utf8ByteSize then .error .nameTooLong
        else w.walk (stepTo l name) rest := by
  rw [walk]
  cases w.get? l with
  | none => rfl
  | some entry =>
    cases entry with
    | file _ => rfl
    | directory =>
      dsimp only
      -- the names that lead nowhere new are short
      by_cases hidle : name = "" ∨ name = "."
      · have hshort : ¬nameLimit < name.utf8ByteSize := by
          rcases hidle with rfl | rfl <;> decide
        rw [if_pos hidle, if_neg hshort, stepTo, if_pos hidle]
      · by_cases habove : name = ".."
        · have hshort : ¬nameLimit < name.utf8ByteSize := by
            subst habove
            decide
          rw [if_neg hidle, if_pos habove, if_neg hshort, stepTo, if_neg hidle, if_pos habove]
        · rw [if_neg hidle, if_neg habove, stepTo, if_neg hidle, if_neg habove]

/-- A walk depends only on what it crosses. -/
theorem walk_congr {names : List String}
    (h : ∀ k ∈ crossedFrom l names, later.get? k = w.get? k) :
    later.walk l names = w.walk l names := by
  induction names generalizing l with
  | nil => rfl
  | cons name rest ih =>
    obtain ⟨hfirst, hrest⟩ := List.forall_mem_cons.1 h
    rw [walk_cons, walk_cons, hfirst, ih hrest]

/-- What a walk crosses are directories. -/
theorem get?_of_mem_crossedFrom {names : List String} (h : w.walk l names = .ok m) :
    ∀ k ∈ crossedFrom l names, w.get? k = some .directory := by
  induction names generalizing l with
  | nil => exact fun _ hk ↦ absurd hk List.not_mem_nil
  | cons name rest ih =>
    rw [walk_cons] at h
    split at h
    · exact absurd h nofun
    · exact absurd h nofun
    · next hdirectory =>
      split at h
      · exact absurd h nofun
      · exact List.forall_mem_cons.2 ⟨hdirectory, ih h⟩

/-! ### Reading -/

/-- Where a path begins. -/
def start (w : Workspace) (path : FilePath) : Location := if path.isAbsolute then [] else w.current

/-- The locations that must be directories for a path to lead anywhere. -/
def crossed (w : Workspace) (path : FilePath) : List Location :=
  crossedFrom (w.start path) (path.segments.map String.ofList)

/-- What a path crosses are directories. -/
theorem get?_of_mem_crossed (h : w.locate path = .ok l) :
    ∀ k ∈ w.crossed path, w.get? k = some .directory := by
  rw [locate] at h
  split at h
  · exact absurd h nofun
  · exact get?_of_mem_crossedFrom h

/-- What reading gives of what is at a location. -/
def contentOf : Option Entry → Except FileFault ByteArray
  | none => .error .notFound
  | some .directory => .error .isDirectory
  | some (.file content) => .ok content

/-- A path is read by locating it and reading what is there. -/
theorem bytes_eq_bind (w : Workspace) (path : FilePath) :
    w.bytes path = w.locate path >>= fun l ↦ contentOf (w.get? l) := by
  rw [bytes]
  refine congrArg (w.locate path >>= ·) (funext fun l ↦ ?_)
  match w.get? l with
  | none | some .directory | some (.file _) => rfl

/-- A path can be read if it leads to a file. -/
theorem bytes_eq_ok_iff :
    w.bytes path = .ok content ↔
      ∃ l, w.locate path = .ok l ∧ w.get? l = some (.file content) := by
  rw [bytes_eq_bind, Except.bind_eq_ok_iff]
  refine exists_congr fun l ↦ and_congr_right fun _ ↦ ?_
  match w.get? l with
  | none | some .directory => simp [contentOf]
  | some (.file _) => simp [contentOf]

/-- A text is what the bytes of a file encode. -/
theorem text_eq_ok_iff {text : String} :
    w.text path = .ok text ↔ ∃ content, w.bytes path = .ok content ∧
      String.fromUTF8? content = some text := by
  rw [Workspace.text, Except.bind_eq_ok_iff]
  refine exists_congr fun content ↦ and_congr_right fun _ ↦ ?_
  match String.fromUTF8? content with
  | none => exact ⟨nofun, nofun⟩
  | some read =>
    exact ⟨fun h ↦ congrArg some (Except.ok.inj h), fun h ↦ congrArg Except.ok (Option.some.inj h)⟩

/-- Two workspaces have the same at the locations that a path goes through and at the one that it
leads to. -/
structure AgreesAlong (w later : Workspace) (path : FilePath) : Prop where
  current : later.current = w.current
  crossed : ∀ k ∈ w.crossed path, later.get? k = w.get? k
  reached : ∀ k, w.locate path = .ok k → later.get? k = w.get? k

/-- Where a path leads depends only on what it crosses. -/
theorem locate_congr (hcurrent : later.current = w.current)
    (hcrossed : ∀ k ∈ w.crossed path, later.get? k = w.get? k) :
    later.locate path = w.locate path := by
  rw [locate, locate, hcurrent]
  split
  · rfl
  · exact walk_congr hcrossed

namespace AgreesAlong

theorem refl (w : Workspace) (path : FilePath) : AgreesAlong w w path :=
  ⟨rfl, fun _ _ ↦ rfl, fun _ _ ↦ rfl⟩

variable (h : AgreesAlong w later path)

include h

/-- The path leads to the same location. -/
theorem locate_eq : later.locate path = w.locate path := locate_congr h.current h.crossed

/-- Agreement goes on to a later workspace. -/
theorem trans {last : Workspace} (hlast : AgreesAlong later last path) :
    AgreesAlong w last path where
  current := hlast.current.trans h.current
  crossed k hk := by
    have hk' : k ∈ later.crossed path := by
      rwa [Workspace.crossed, start, h.current]
    exact (hlast.crossed k hk').trans (h.crossed k hk)
  reached k hk := (hlast.reached k (h.locate_eq.trans hk)).trans (h.reached k hk)

/-- The path is read alike. -/
theorem bytes_eq : later.bytes path = w.bytes path := by
  rw [bytes_eq_bind, bytes_eq_bind, h.locate_eq]
  cases hlocate : w.locate path with
  | error _ => rfl
  | ok k => exact congrArg contentOf (h.reached k hlocate)

/-- **Workspaces that agree along a path read it alike.** -/
theorem text_eq : later.text path = w.text path := by
  rw [text, text, h.bytes_eq]

end AgreesAlong

/-! ### Changes to files -/

/-- One location has something else in a later workspace, where no directory was. -/
structure ChangesAt (w later : Workspace) (m : Location) : Prop where
  current : later.current = w.current
  others : ∀ k, k ≠ m → later.get? k = w.get? k
  get?_ne_directory : w.get? m ≠ some .directory

/-- Files at other locations than these were made, written or removed one after the other, and
directories were made where nothing was. -/
def Edits (kept : List Location) : Workspace → Workspace → Prop :=
  Relation.ReflTransGen fun w later ↦ ∃ m, m ∉ kept ∧ ChangesAt w later m

theorem ne_nil_of_get?_ne_directory (h : w.get? l ≠ some .directory) : l ≠ [] := by
  rintro rfl
  exact h (if_pos rfl)

/-- Setting a location changes it, and nothing else. -/
theorem changesAt_set {entry : Entry} (h : w.get? m ≠ some .directory) :
    ChangesAt w (w.set m entry) m where
  current := rfl
  others k hk := by rw [get?_set w (ne_nil_of_get?_ne_directory h), if_neg hk]
  get?_ne_directory := h

/-- Erasing a location changes it, and nothing else. -/
theorem changesAt_erase (h : w.get? m ≠ some .directory) : ChangesAt w (w.erase m) m where
  current := rfl
  others k hk := by rw [get?, get?, erase, lookup_filter_ne hk]
  get?_ne_directory := h

namespace ChangesAt

variable (h : ChangesAt w later m)

include h

/-- A change to a file leaves every path leading where it led. -/
theorem locate_eq (hother : w.locate other = .ok l) : later.locate other = .ok l := by
  rw [← hother]
  refine locate_congr h.current fun k hk ↦ h.others k ?_
  rintro rfl
  exact h.get?_ne_directory (get?_of_mem_crossed hother k hk)

/-- A change to another file does not show along a path. -/
theorem agreesAlong (hother : w.locate other = .ok l) (hne : l ≠ m) :
    AgreesAlong w later other where
  current := h.current
  crossed k hk := h.others k fun heq ↦
    h.get?_ne_directory (heq ▸ get?_of_mem_crossed hother k hk)
  reached k hk := h.others k (Except.ok.inj (hother.symm.trans hk) ▸ hne)

end ChangesAt

namespace Edits

variable {kept : List Location}

/-- What is kept is there as it was. -/
theorem get?_eq (h : Edits kept w later) {k : Location} (hk : k ∈ kept) :
    later.get? k = w.get? k := by
  induction h with
  | refl => rfl
  | tail _ hstep ih =>
    obtain ⟨m, hm, hchange⟩ := hstep
    rw [hchange.others k fun heq ↦ hm (heq ▸ hk), ih]

/-- **Changes to other files do not show along a path.** -/
theorem agreesAlong (h : Edits kept w later) (hpath : w.locate path = .ok l) (hl : l ∈ kept) :
    AgreesAlong w later path := by
  induction h with
  | refl => exact .refl w path
  | tail _ hstep ih =>
    obtain ⟨m, hm, hchange⟩ := hstep
    have hne : l ≠ m := fun heq ↦ hm (heq ▸ hl)
    exact ih.trans (hchange.agreesAlong (ih.locate_eq.trans hpath) hne)

end Edits

/-! ### Writing -/

/-- **Writing a file sets one location**, where no directory was. -/
theorem exists_of_write_eq_ok (h : w.write path content = .ok later) :
    ∃ l, w.locate path = .ok l ∧ ChangesAt w later l ∧
      later.get? l = some (.file content) := by
  rw [write] at h
  obtain ⟨l, hlocate, h⟩ := Except.bind_eq_ok_iff.1 h
  have hset (hnew : w.get? l ≠ some .directory) (hlater : w.set l (.file content) = later) :
      ChangesAt w later l ∧ later.get? l = some (.file content) := by
    subst hlater
    exact ⟨changesAt_set hnew, by rw [get?_set w (ne_nil_of_get?_ne_directory hnew), if_pos rfl]⟩
  refine ⟨l, ?_⟩
  split at h
  · exact absurd h nofun
  all_goals
    next hentry =>
      split at h
      · next hbare => exact ⟨hbare ▸ hlocate, hset (by rw [hentry]; exact nofun) (Except.ok.inj h)⟩
      · exact absurd h nofun

/-- **What was written is read back.** -/
theorem bytes_of_write (h : w.write path content = .ok later) : later.bytes path = .ok content := by
  obtain ⟨l, hlocate, hchange, hfile⟩ := exists_of_write_eq_ok h
  exact bytes_eq_ok_iff.2 ⟨l, hchange.locate_eq hlocate, hfile⟩

/-- A text that was written is read back. -/
theorem text_of_write {text : String} (h : w.write path text.toUTF8 = .ok later) :
    later.text path = .ok text :=
  text_eq_ok_iff.2 ⟨_, bytes_of_write h, dif_pos text.isValidUTF8⟩

/-! ### Removing -/

/-- Nothing is at a location that was erased. -/
theorem get?_erase (h : l ≠ []) : (w.erase l).get? l = none := by
  rw [get?, if_neg h, erase, List.lookup_eq_none_iff]
  intro entry hentry
  exact bne_iff_ne.2 (Ne.symm (of_decide_eq_true (List.mem_filter.1 hentry).2))

/-- **Removing a file leaves nothing at one location**, where no directory was. -/
theorem exists_of_removeFile_eq_ok (h : w.removeFile path = .ok later) :
    ∃ l, w.locate path = .ok l ∧ ChangesAt w later l ∧ later.get? l = none := by
  rw [removeFile] at h
  obtain ⟨l, hlocate, h⟩ := Except.bind_eq_ok_iff.1 h
  refine ⟨l, hlocate, ?_⟩
  split at h
  · exact absurd h nofun
  · exact absurd h nofun
  · next hfile =>
    obtain rfl := Except.ok.inj h
    have hnew : w.get? l ≠ some .directory := by
      rw [hfile]
      exact nofun
    exact ⟨changesAt_erase hnew, get?_erase (ne_nil_of_get?_ne_directory hnew)⟩

/-- A file that was removed is not found. -/
theorem text_of_removeFile (h : w.removeFile path = .ok later) :
    later.text path = .error .notFound := by
  obtain ⟨l, hlocate, hchange, hnone⟩ := exists_of_removeFile_eq_ok h
  have hbytes : later.bytes path = .error .notFound := by
    rw [bytes_eq_bind, hchange.locate_eq hlocate]
    exact congrArg contentOf hnone
  rw [Workspace.text, hbytes]
  rfl
/-! ### Making directories -/

/-- A directory was made where nothing was. -/
structure MakesDirectory (w later : Workspace) (l : Location) : Prop where
  changesAt : ChangesAt w later l
  get?_eq_none : w.get? l = none
  get?_later : later.get? l = some .directory

/-- Directories were made one after the other, each where nothing was. -/
def Grows : Workspace → Workspace → Prop :=
  Relation.ReflTransGen fun w later ↦ ∃ l, MakesDirectory w later l

namespace Grows

/-- **Making directories changes nothing that is there.** -/
theorem edits {kept : List Location} (h : Grows w later) (hkept : ∀ k ∈ kept, w.get? k ≠ none) :
    Edits kept w later := by
  induction h with
  | refl => exact .refl
  | tail _ hstep ih =>
    obtain ⟨l, hmade⟩ := hstep
    have hl : l ∉ kept := fun hmem ↦ hkept l hmem ((ih.get?_eq hmem).symm.trans hmade.get?_eq_none)
    exact ih.tail ⟨l, hl, hmade.changesAt⟩

/-- **Where something is new, it is a directory.** -/
theorem get?_eq (h : Grows w later) (k : Location) :
    later.get? k = w.get? k ∨ w.get? k = none ∧ later.get? k = some .directory := by
  induction h with
  | refl => exact .inl rfl
  | tail _ hstep ih =>
    obtain ⟨l, hmade⟩ := hstep
    by_cases hk : k = l
    · subst hk
      rcases ih with hsame | ⟨-, hdirectory⟩
      · exact .inr ⟨hsame.symm.trans hmade.get?_eq_none, hmade.get?_later⟩
      · exact absurd (hmade.get?_eq_none.symm.trans hdirectory) nofun
    · rwa [hmade.changesAt.others k hk]

end Grows

/-- A directory is made where nothing was. -/
theorem exists_of_makeDirectory_eq_ok (h : w.makeDirectory path = .ok later) :
    ∃ l, MakesDirectory w later l := by
  rw [makeDirectory] at h
  obtain ⟨l, -, h⟩ := Except.bind_eq_ok_iff.1 h
  refine ⟨l, ?_⟩
  split at h
  · exact absurd h nofun
  · next hnone =>
    obtain rfl := Except.ok.inj h
    have hnew : w.get? l ≠ some .directory := by
      rw [hnone]
      exact nofun
    exact ⟨changesAt_set hnew, hnone,
      by rw [get?_set w (ne_nil_of_get?_ne_directory hnew), if_pos rfl]⟩

/-- Makes a directory, unless it is there already. -/
def ensureDirectory (w : Workspace) (path : FilePath) : Except FileFault Unit × Workspace :=
  match w.makeDirectory path with
  | .ok later => (.ok (), later)
  | .error fault => if w.isDirectory path then (.ok (), w) else (.error fault, w)

/-- A directory is made, or nothing is. -/
theorem grows_ensureDirectory : Grows w (w.ensureDirectory path).2 := by
  unfold ensureDirectory
  split
  · next hmade => exact .single (exists_of_makeDirectory_eq_ok hmade)
  · split <;> exact .refl

/-- Directories are made from the one that is there on. -/
theorem makeDirectoriesFrom_succ (n : Nat) (w : Workspace) (path : FilePath) :
    makeDirectoriesFrom (n + 1) w path =
      if path.text.isEmpty then (.ok (), w)
      else
        match w.makeDirectory path, path.parent? with
        | .error .notFound, some above =>
          match makeDirectoriesFrom n w above with
          | (.ok (), between) => between.ensureDirectory path
          | (.error fault, between) => (.error fault, between)
        | _, _ => w.ensureDirectory path := by
  rw [makeDirectoriesFrom]
  rfl

/-- A path and those above it become directories as far as they are not. -/
theorem grows_makeDirectoriesFrom (n : Nat) :
    Grows w (makeDirectoriesFrom n w path).2 := by
  -- on the number of directories, over all workspaces: those above are made first
  induction n generalizing w path with
  | zero => exact .refl
  | succ n ih =>
    rw [makeDirectoriesFrom_succ]
    split
    · exact .refl
    · split
      · next above _ _ =>
        have habove : Grows w (makeDirectoriesFrom n w above).2 := ih
        split
        · next between hbetween =>
          rw [hbetween] at habove
          exact habove.trans grows_ensureDirectory
        · next hbetween => rwa [hbetween] at habove
      · exact grows_ensureDirectory

end Workspace

end ApiContract
