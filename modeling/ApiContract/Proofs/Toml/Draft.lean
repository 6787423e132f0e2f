import ApiContract.Proofs.Put
import ApiContract.Toml.Draft

/-!
# Changing a table of a draft

While a document is read, what is there so far is a draft: entries with values and with tables,
where a table remembers how it came to be. Every line changes one table of it, at the end of a path.

## Tables of a draft

A path leads to a table of a draft (`Draft.tableAt`), where tables that are not there yet count as
empty ones. `Draft.withTable` is the draft with another table in that place; the tables on the way
are made, as implied by a heading, if they are not there. `Draft.Leads` says that nothing but tables
stands on the path, which the reader checks.

## Results

Whatever changes a table, the draft is then the one with the new table in that place
(`Draft.change_eq_ok`). What was put is found there (`tableAt_withTable`), of two such changes the
later one counts (`withTable_withTable`), and paths keep leading to tables (`leads_withTable`). So a
sequence of lines under one heading can be reasoned about as a sequence of changes to one list of
entries, and the draft around it is looked at once. The last section has the same for a path that is
one key longer, as the path of a heading is.

All inductions are on the path. Entries are put by their keys, as in `Proofs.Put`.
-/

namespace ApiContract.Toml.Draft

/-! ### Entries -/

/-- Entries are put by their keys. -/
theorem put_eq_putBy (key : String) (draft : Draft) (entries : Entries) :
    put key draft entries = putBy Prod.fst entries (key, draft) := by
  induction entries with
  | nil => rfl
  | cons e rest ih =>
    obtain ⟨other, old⟩ := e
    rw [put, putBy, ih]
    dsimp only
    split
    · next heq => rw [heq]
    · rfl

theorem put_of_lookup_eq_none {key : String} {draft : Draft} {entries : Entries}
    (h : entries.lookup key = none) : put key draft entries = entries ++ [(key, draft)] := by
  rw [put_eq_putBy, putBy_of_lookup_eq_none h]

theorem lookup_put_self (key : String) (draft : Draft) (entries : Entries) :
    (put key draft entries).lookup key = some draft := by
  rw [put_eq_putBy, lookup_putBy_self]

/-- Of two entries with one key the later one counts. -/
theorem put_put (key : String) (draft later : Draft) (entries : Entries) :
    put key later (put key draft entries) = put key later entries := by
  rw [put_eq_putBy, put_eq_putBy, put_eq_putBy]
  exact putBy_putBy rfl

/-! ### Tables -/

/-- The entries of the table of that key; none if there is no table. -/
def innerAt (key : String) (entries : Entries) : Entries :=
  match entries.lookup key with
  | some (table _ inner) => inner
  | _ => []

/-- How the table of that key came to be; one that is missing is implied by a heading. -/
def originAt (key : String) (entries : Entries) : TableOrigin :=
  match entries.lookup key with
  | some (table origin _) => origin
  | _ => .implied

/-- The entries of the table that a path leads to. -/
def tableAt : List String → Entries → Entries
  | [], entries => entries
  | key :: path, entries => tableAt path (innerAt key entries)

/-- The entries with a table in the place that a path leads to. -/
def withTable (inner : Entries) : List String → Entries → Entries
  | [], _ => inner
  | key :: path, entries =>
    put key (table (originAt key entries) (withTable inner path (innerAt key entries))) entries

/-- Nothing but tables stands on the path. -/
def Leads : List String → Entries → Prop
  | [], _ => True
  | key :: path, entries =>
    (∀ draft ∈ entries.lookup key, ∃ origin inner, draft = table origin inner) ∧
      Leads path (innerAt key entries)

variable {key : String} {path : List String} {entries inner later : Entries}

theorem innerAt_of_lookup_eq_some {origin : TableOrigin}
    (h : entries.lookup key = some (table origin inner)) : innerAt key entries = inner := by
  rw [innerAt, h]

theorem originAt_of_lookup_eq_some {origin : TableOrigin}
    (h : entries.lookup key = some (table origin inner)) : originAt key entries = origin := by
  rw [originAt, h]

theorem innerAt_of_lookup_eq_none (h : entries.lookup key = none) : innerAt key entries = [] := by
  rw [innerAt, h]

theorem originAt_of_lookup_eq_none (h : entries.lookup key = none) :
    originAt key entries = .implied := by
  rw [originAt, h]

/-- **A change to a table puts what it makes of the table in its place.** -/
theorem change_eq_ok {f : TableOrigin → Entries → Except Fault Entries}
    (hleads : Leads path entries) (hf : ∀ origin, f origin (tableAt path entries) = .ok inner)
    (origin : TableOrigin) :
    change false f path origin entries = .ok (withTable inner path entries) := by
  induction path generalizing entries origin with
  | nil => exact hf origin
  | cons key path ih =>
    obtain ⟨htable, hmore⟩ := hleads
    have hchange := ih hmore hf
    rw [change, withTable]
    cases hlookup : entries.lookup key with
    | none =>
      rw [innerAt_of_lookup_eq_none hlookup] at hchange
      dsimp only
      rw [if_neg Bool.false_ne_true, hchange, originAt_of_lookup_eq_none hlookup,
        innerAt_of_lookup_eq_none hlookup]
      rfl
    | some draft =>
      -- What stands on the way is a table, so the change does not stop at it.
      obtain ⟨made, old, rfl⟩ := htable draft hlookup
      rw [innerAt_of_lookup_eq_some hlookup] at hchange
      rw [originAt_of_lookup_eq_some hlookup, innerAt_of_lookup_eq_some hlookup]
      show (change false f path made old >>= fun inner ↦
        pure (put key (table made inner) entries)) = _
      rw [hchange]
      rfl

/-- **A table that was put in a place is there.** -/
theorem tableAt_withTable : tableAt path (withTable inner path entries) = inner := by
  induction path generalizing entries with
  | nil => rfl
  | cons key path ih =>
    rw [withTable, tableAt, innerAt_of_lookup_eq_some (lookup_put_self ..), ih]

/-- Of two changes to a table the later one counts. -/
theorem withTable_withTable :
    withTable later path (withTable inner path entries) = withTable later path entries := by
  induction path generalizing entries with
  | nil => rfl
  | cons key path ih =>
    rw [withTable, withTable, innerAt_of_lookup_eq_some (lookup_put_self ..),
      originAt_of_lookup_eq_some (lookup_put_self ..), put_put, ih, withTable]

/-- The path still leads to a table. -/
theorem leads_withTable (h : Leads path entries) : Leads path (withTable inner path entries) := by
  induction path generalizing entries with
  | nil => exact h
  | cons key path ih =>
    constructor
    · intro draft hdraft
      rw [withTable, lookup_put_self] at hdraft
      exact ⟨_, _, (Option.some.inj hdraft).symm⟩
    · rw [withTable, innerAt_of_lookup_eq_some (lookup_put_self ..)]
      exact ih h.2

/-! ### One step further -/

/-- A longer path leads to a table in the table that the shorter one leads to. -/
theorem tableAt_concat (path : List String) (key : String) (entries : Entries) :
    tableAt (path ++ [key]) entries = innerAt key (tableAt path entries) := by
  induction path generalizing entries with
  | nil => rfl
  | cons first path ih => rw [List.cons_append, tableAt, ih, tableAt]

/-- A table in that place is one in the table that the shorter path leads to. -/
theorem withTable_concat (path : List String) (key : String) (entries : Entries) :
    withTable inner (path ++ [key]) entries =
      withTable (put key (table (originAt key (tableAt path entries)) inner) (tableAt path entries))
        path entries := by
  induction path generalizing entries with
  | nil => rfl
  | cons first path ih => rw [List.cons_append, withTable, ih, withTable, tableAt]

/-- A longer path leads to a table if there is one under its last key, or nothing. -/
theorem leads_concat_iff :
    Leads (path ++ [key]) entries ↔ Leads path entries ∧
      ∀ draft ∈ (tableAt path entries).lookup key, ∃ origin inner, draft = table origin inner := by
  induction path generalizing entries with
  | nil => simp [Leads, tableAt]
  | cons first path ih => rw [List.cons_append, Leads, ih, Leads, tableAt, and_assoc]

end ApiContract.Toml.Draft
