/-!
# File paths

Slash-separated paths, read by their components: empty segments and `.` count for nothing, except a
`.` that stands first. The file name is the last component unless that is `..`, and its extension is
what follows its last dot, where a dot in front of the name does not count.

A path is kept as it is written, since messages show it so; what it means is read from its segments
from behind (`backwards`), because the file name and the parent are both found there.
`withExtension` and `parent?` give texts again and write no more of the path than they have to: what
counts for nothing in front of the file name stays as it is.

Paths are texts of characters; names of other bytes, drive letters and separators other than the
slash are not modelled.
-/

namespace ApiContract

/-- A path as it is written. -/
structure FilePath where
  text : String
  deriving DecidableEq, Repr, Inhabited

namespace FilePath

/-- The segments between slashes. -/
def segments (p : FilePath) : List (List Char) := p.text.toList.splitOn '/'

/-- Whether a segment counts for nothing after the first place. -/
def isIdle (segment : List Char) : Bool := segment == [] || segment == ['.']

/-- Whether the path begins at the root. -/
def isAbsolute (p : FilePath) : Bool := p.text.toList.head? == some '/'

/-- The segments in reverse, from the last component on. -/
def backwards (p : FilePath) : List (List Char) := p.segments.reverse.dropWhile isIdle

/-- The path that reversed segments write. -/
def ofBackwards (segments : List (List Char)) : String :=
  String.ofList (List.intercalate ['/'] segments.reverse)

/-- The last component, if it names a file. -/
def fileName? (p : FilePath) : Option String :=
  match p.backwards with
  | [] => none
  | last :: _ => if last = ['.', '.'] then none else some (String.ofList last)

/-- A file name cut at its last dot; the second part is there only if the dot is neither missing nor
the first character. -/
def cutAtDot (name : List Char) : List Char × Option (List Char) :=
  if name = ['.', '.'] then (name, none)
  else
    let after := name.reverse.takeWhile (· ≠ '.')
    match name.reverse.dropWhile (· ≠ '.') with
    | [] => (name, none)
    | [_] => (name, none)
    | _ :: before => (before.reverse, some after.reverse)

/-- The extension of the file name. -/
def extension? (p : FilePath) : Option String :=
  p.fileName?.bind fun name ↦ ((cutAtDot name.toList).2).map String.ofList

/-- The path with an extension given to a file name that has none; what counts for nothing after the
file name goes. A path without a file name stays as it is. -/
def withExtension (p : FilePath) (extension : String) : FilePath :=
  match p.fileName? with
  | none => p
  | some _ => ⟨ofBackwards p.backwards ++ "." ++ extension⟩

/-- The path without its last component; `none` for the root and for the empty path. -/
def parent? (p : FilePath) : Option FilePath :=
  let above (segments : List (List Char)) : FilePath :=
    match segments.dropWhile isIdle with
    | [] => if p.isAbsolute then ⟨"/"⟩ else if p.segments.head? == some ['.'] then ⟨"."⟩ else ⟨""⟩
    | rest => ⟨ofBackwards rest⟩
  match p.backwards with
  -- A dot in the first place is a component, unlike those behind it.
  | [] => if !p.isAbsolute && p.segments.head? == some ['.'] then some ⟨""⟩ else none
  | _ :: rest => some (above rest)

/-- The path of an entry below a directory. -/
def below (directory : FilePath) (name : String) : FilePath :=
  if directory.text.isEmpty || directory.text.endsWith "/" then ⟨directory.text ++ name⟩
  else ⟨directory.text ++ "/" ++ name⟩

end FilePath

end ApiContract
