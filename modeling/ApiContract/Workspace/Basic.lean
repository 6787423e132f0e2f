import ApiContract.Failure

/-!
# Workspaces

The files and directories that a run works on, as a value: what is at each location, and where
relative paths begin. Reading asks a workspace; writing makes another one. A path is walked
component by component, and each one that something is looked up in must be a directory.

The view of a workspace is `get?`. Its laws say that setting one location changes no other
(`get?_set`).

## What is not modelled

Writing is all or nothing: a file has its new content, or there is a fault and the workspace is as
it was. A disk that is full, or a run that is broken off in the middle of a file, is not modelled,
and neither is what other programs do at the same time. There are no links, so a location has one
path without `.` and `..`, and no permissions: whatever is there can be read and replaced.

Making directories is the one operation that can fail and still change something, since those above
stay when one below cannot be made; its result says both (`makeDirectoriesFrom`).
-/

namespace ApiContract

/-- The names that lead from the root to a file or a directory. -/
abbrev Location := List String

/-- What is at a location. -/
inductive Entry where
  | file (content : ByteArray)
  | directory

/-- Whether two entries are the same. -/
def Entry.same : Entry → Entry → Bool
  | directory, directory => true
  | file content, file other => content.data == other.data
  | _, _ => false

/-- Files and directories. The root is always a directory. -/
structure Workspace where
  /-- Where relative paths begin. -/
  current : Location := []
  entries : List (Location × Entry) := []

namespace Workspace

/-- What is at a location. -/
def get? (w : Workspace) (l : Location) : Option Entry :=
  if l = [] then some .directory else w.entries.lookup l

/-- The workspace with something at a location. -/
def set (w : Workspace) (l : Location) (entry : Entry) : Workspace :=
  { w with entries := (l, entry) :: w.entries.filter (·.1 ≠ l) }

/-- The workspace with nothing at a location. -/
def erase (w : Workspace) (l : Location) : Workspace :=
  { w with entries := w.entries.filter (·.1 ≠ l) }

/-! ### Paths -/

/-- The length that a name may have, in bytes. -/
def nameLimit : Nat := 255

/-- Walks from a location, which must be a directory at every step. Where the last step leads there
need not be anything. -/
def walk (w : Workspace) (l : Location) : List String → Except FileFault Location
  | [] => .ok l
  | name :: rest =>
    match w.get? l with
    | none => .error .notFound
    | some (.file _) => .error .notDirectory
    | some .directory =>
      if name = "" ∨ name = "." then walk w l rest
      else if name = ".." then walk w l.dropLast rest
      else if nameLimit < name.utf8ByteSize then .error .nameTooLong
      else walk w (l ++ [name]) rest

/-- The location that a path leads to. -/
def locate (w : Workspace) (path : FilePath) : Except FileFault Location :=
  if path.text.isEmpty then .error .notFound
  else walk w (if path.isAbsolute then [] else w.current) (path.segments.map String.ofList)

/-- A path without the slashes at its end, which only say that it is one of a directory. -/
def withoutSlashes (path : FilePath) : FilePath :=
  let cs := (path.text.toList.reverse.dropWhile (· == '/')).reverse
  if cs.isEmpty && path.isAbsolute then ⟨"/"⟩ else ⟨String.ofList cs⟩

/-! ### Reading -/

/-- What a path leads to. -/
def at? (w : Workspace) (path : FilePath) : Option Entry :=
  match w.locate path with
  | .ok l => w.get? l
  | .error _ => none

/-- Whether a path leads to a file. -/
def isFile (w : Workspace) (path : FilePath) : Bool :=
  match w.at? path with
  | some (.file _) => true
  | _ => false

/-- Whether a path leads to a directory. -/
def isDirectory (w : Workspace) (path : FilePath) : Bool :=
  match w.at? path with
  | some .directory => true
  | _ => false

/-- The bytes of a file. -/
def bytes (w : Workspace) (path : FilePath) : Except FileFault ByteArray := do
  match w.get? (← w.locate path) with
  | none => throw .notFound
  | some .directory => throw .isDirectory
  | some (.file content) => return content

/-- The text of a file. -/
def text (w : Workspace) (path : FilePath) : Except FileFault String := do
  match String.fromUTF8? (← w.bytes path) with
  | some text => return text
  | none => throw .notText

/-! ### Writing -/

/-- Writes a file, in the place of the one that may be there. -/
def write (w : Workspace) (path : FilePath) (content : ByteArray) : Except FileFault Workspace := do
  let bare := withoutSlashes path
  let l ← w.locate bare
  match w.get? l with
  | some .directory => throw .isDirectory
  -- A path with a slash at its end asks for a directory, so no file can be written under it.
  | some (.file _) => if bare = path then return w.set l (.file content) else throw .notDirectory
  | none => if bare = path then return w.set l (.file content) else throw .isDirectory

/-- Makes a directory in one that is there. -/
def makeDirectory (w : Workspace) (path : FilePath) : Except FileFault Workspace := do
  let l ← w.locate (withoutSlashes path)
  match w.get? l with
  | some _ => throw .alreadyExists
  | none => return w.set l .directory

/-- Makes a directory and those above it as far as they are missing. The first argument bounds their
number. Those above it stay even if the directory itself cannot be made. -/
def makeDirectoriesFrom : Nat → Workspace → FilePath → Except FileFault Unit × Workspace
  | 0, w, _ => (.error .notFound, w)
  | n + 1, w, path =>
    if path.text.isEmpty then (.ok (), w)
    else
      let finish (w : Workspace) : Except FileFault Unit × Workspace :=
        match w.makeDirectory path with
        | .ok w => (.ok (), w)
        -- Whatever the fault was, a directory that is there is enough.
        | .error fault => if w.isDirectory path then (.ok (), w) else (.error fault, w)
      match w.makeDirectory path, path.parent? with
      | .error .notFound, some above =>
        match makeDirectoriesFrom n w above with
        | (.ok (), w) => finish w
        | (.error fault, w) => (.error fault, w)
      | _, _ => finish w

/-- Makes a directory and those above it as far as they are missing. -/
def makeDirectories (w : Workspace) (path : FilePath) : Except FileFault Unit × Workspace :=
  makeDirectoriesFrom (path.segments.length + 1) w path

/-- Removes a file. -/
def removeFile (w : Workspace) (path : FilePath) : Except FileFault Workspace := do
  let l ← w.locate path
  match w.get? l with
  | none => throw .notFound
  | some .directory => throw .isDirectory
  | some (.file _) => return w.erase l

/-! ### The view -/

theorem lookup_filter_ne {l m : Location} (h : m ≠ l) (entries : List (Location × Entry)) :
    (entries.filter (·.1 ≠ l)).lookup m = entries.lookup m := by
  induction entries with
  | nil => rfl
  | cons e rest ih =>
    obtain ⟨k, entry⟩ := e
    by_cases hk : k = l
    · have hm : (m == k) = false := by simpa [hk] using h
      rw [List.filter_cons_of_neg (by simpa using hk), ih]
      rw [List.lookup_cons, hm]
    · rw [List.filter_cons_of_pos (by simpa using hk), List.lookup_cons, List.lookup_cons, ih]

/-- Setting a location changes what is there and nothing else. -/
theorem get?_set (w : Workspace) {l : Location} (h : l ≠ []) (entry : Entry) (m : Location) :
    (w.set l entry).get? m = if m = l then some entry else w.get? m := by
  by_cases hm : m = l
  · subst hm
    simp [get?, set, h]
  · have hb : (m == l) = false := by simpa using hm
    have hw := lookup_filter_ne hm w.entries
    simp only [get?, set, List.lookup_cons, hb, hm, if_false, hw]

end Workspace

end ApiContract
