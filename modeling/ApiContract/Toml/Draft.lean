import ApiContract.Toml.Fault
import ApiContract.Toml.Value

/-!
# Tables in the making

A table may be written in parts: under a heading, through longer headings that imply it, or through
dotted keys. A draft remembers which, since each table may be given only one heading, and dotted
keys may neither extend a table with a heading nor one that headings imply.

A draft is a tree of entries in which each table has its `TableOrigin`. There is one function that
changes the table at the end of a path and makes those on the way (`change`); setting a key and
opening a table under a heading are changes of one table each. When the document is read the origins
go (`toValue`).

An array of tables is entered at its last table, by dotted keys and by headings alike.
-/

namespace ApiContract.Toml

/-- How a table came to be. -/
inductive TableOrigin where
  /-- It has a heading. -/
  | headed
  /-- A longer heading leads through it. -/
  | implied
  /-- A dotted key leads through it. -/
  | dotted
  deriving DecidableEq, Repr

/-- A value while a document is being read. -/
inductive Draft where
  | value (value : Value)
  | table (origin : TableOrigin) (entries : List (String × Draft))
  /-- An array of tables; headings and keys concern the last one. -/
  | tables (items : List (List (String × Draft)))

namespace Draft

/-- The entries of a table. -/
abbrev Entries := List (String × Draft)

/-- Entries with a key set to a draft; a new key comes last. -/
def put (key : String) (draft : Draft) : Entries → Entries
  | [] => [(key, draft)]
  | (other, old) :: rest =>
    if other = key then (other, draft) :: rest else (other, old) :: put key draft rest

/-- Changes the table that a path leads to, making the tables on the way that are not there yet.
`isDotted` says whether the path is that of a dotted key. The change is told how its table came to
be. -/
def change (isDotted : Bool) (f : TableOrigin → Entries → Except Fault Entries) :
    List String → TableOrigin → Entries → Except Fault Entries
  | [], origin, entries => f origin entries
  | key :: path, _, entries =>
    match entries.lookup key with
    | none => do
      let origin := if isDotted then TableOrigin.dotted else .implied
      return put key (.table origin (← change isDotted f path origin [])) entries
    | some (.value _) => .error (.notTable key)
    | some (.table origin inner) =>
      -- A table with a heading of its own is complete as far as dotted keys go.
      if isDotted && origin == .headed then .error (.duplicateKey key)
      else do return put key (.table origin (← change isDotted f path origin inner)) entries
    | some (.tables items) => do
      -- The table begun last is the one that is being written.
      let last ← change isDotted f path .headed (items.getLast?.getD [])
      return put key (.tables (items.dropLast ++ [last])) entries

/-- Sets a key that must be new, in a table that a dotted key may or may not have led to. -/
def setNew (isDotted : Bool) (key : String) (value : Value) (origin : TableOrigin)
    (entries : Entries) : Except Fault Entries :=
  if isDotted && origin != .dotted then .error (.duplicateKey key)
  else if (entries.lookup key).isSome then .error (.duplicateKey key)
  else .ok (put key (.value value) entries)

/-- Sets a key with the dotted path in front of it. -/
def set (path : List String) (key : String) (value : Value) (origin : TableOrigin)
    (entries : Entries) : Except Fault Entries :=
  change true (setNew (!path.isEmpty) key value) path origin entries

/-- Opens the table of a heading whose last key is given. -/
def openTable (key : String) (_ : TableOrigin) (entries : Entries) : Except Fault Entries :=
  match entries.lookup key with
  | none => .ok (put key (.table .headed []) entries)
  | some (.table .implied inner) => .ok (put key (.table .headed inner) entries)
  | some _ => .error (.duplicateKey key)

/-- Opens the next table of an array of tables. -/
def openNext (key : String) (_ : TableOrigin) (entries : Entries) : Except Fault Entries :=
  match entries.lookup key with
  | none => .ok (put key (.tables [[]]) entries)
  | some (.tables items) => .ok (put key (.tables (items ++ [[]])) entries)
  | some _ => .error (.duplicateKey key)

mutual

/-- The value that a draft stands for. -/
def toValue : Draft → Value
  | value v => v
  | table _ entries => .table (entriesToValues entries)
  | tables items => .array (tablesToValues items)

/-- The entries that drafts stand for. -/
def entriesToValues : List (String × Draft) → List (String × Value)
  | [] => []
  | (key, draft) :: rest => (key, draft.toValue) :: entriesToValues rest

/-- The tables that drafts stand for. -/
def tablesToValues : List (List (String × Draft)) → List Value
  | [] => []
  | entries :: rest => .table (entriesToValues entries) :: tablesToValues rest

end

end Draft

end ApiContract.Toml
