import ApiContract.Proofs.Toml.Draft
import ApiContract.Proofs.Toml.Line
import Mathlib.Data.List.Nodup

/-!
# Documents are read back

A document is a table of values and further tables. It is written with the values of each table in
front of the tables in it (`arranged`), and that is the order in which they are read.

## Main result

`read_render`: a text that is written from a plain table is read as that table, arranged. Plain
tables are those whose keys are distinct, whose values are read back by themselves, and whose tables
are plain again, not deeper than the reader goes (`IsPlainTable`).

## What is read so far

What is read so far is a draft, in which a table remembers how it came to be: by a heading of its
own or because a heading below it implied it. A part of the text that writes a table adds it to the
table that the path of its heading leads to (`exists_reads_valueParts`). A table with no values of
its own gets no heading if it has tables, and is implied by theirs (`exists_reads_impliedTable`);
any other has one (`exists_reads_headedTable`).

## Proof

The induction is on the depth of tables (`TablesRead`), for all paths to them and all drafts in
which the path leads to a table and the keys are new; within a depth it is on the entries. What the
lines and headings do to a draft is in `Proofs.Toml.Line`, and what changing one of its tables does
to it in `Proofs.Toml.Draft`. At the end the draft of the whole document is the one that `draftOf`
makes of it, and without its origins that is the document, arranged (`entriesToValues_drafts`).

The parts of a text have an empty line between them and none in front; an empty line may be left out
there without a change (`reads_intercalate`).
-/

namespace ApiContract.Toml

open Draft (Entries Leads tableAt withTable)

/-! ### The order of entries in a document -/

/-- The entries of a table that are no tables. -/
def valueEntries (entries : List (String × Value)) : List (String × Value) :=
  entries.filter fun e ↦ !e.2.isTable

mutual

/-- The value with the values of each table in front of its tables. -/
def Value.arranged : Value → Value
  | .table entries => .table (valueEntries entries ++ tableEntries entries)
  | v => v

/-- The tables among entries, arranged. -/
def tableEntries : List (String × Value) → List (String × Value)
  | [] => []
  | (key, value) :: rest =>
    if value.isTable then (key, value.arranged) :: tableEntries rest else tableEntries rest

end

/-- The entries of a document in the order in which they are written: the values of each table in
front of its tables. -/
def arranged (document : List (String × Value)) : List (String × Value) :=
  valueEntries document ++ tableEntries document

/-- Values as entries of a draft. -/
def valueDrafts (entries : List (String × Value)) : Entries :=
  (valueEntries entries).map fun e ↦ (e.1, .value e.2)

mutual

/-- The draft that reading a value makes. -/
def draftOf : Value → Draft
  | .table entries =>
    .table (if (valueLines entries).isEmpty && !entries.isEmpty then .implied else .headed)
      (valueDrafts entries ++ tableDrafts entries)
  | v => .value v

/-- The drafts that reading the tables among entries makes. -/
def tableDrafts : List (String × Value) → Entries
  | [] => []
  | (key, value) :: rest =>
    if value.isTable then (key, draftOf value) :: tableDrafts rest else tableDrafts rest

end

/-- Drafts one after the other, without their origins. -/
theorem entriesToValues_append (ds es : Entries) :
    Draft.entriesToValues (ds ++ es) = Draft.entriesToValues ds ++ Draft.entriesToValues es := by
  induction ds with
  | nil => rfl
  | cons e ds ih => rw [List.cons_append, Draft.entriesToValues, ih, Draft.entriesToValues]; rfl

/-- The drafts of values are the values. -/
theorem entriesToValues_valueDrafts (entries : List (String × Value)) :
    Draft.entriesToValues (valueDrafts entries) = valueEntries entries := by
  rw [valueDrafts]
  induction valueEntries entries with
  | nil => rfl
  | cons e rest ih => rw [List.map_cons, Draft.entriesToValues, ih, Draft.toValue]

mutual

/-- **The draft of a value is the value, arranged.** -/
theorem toValue_draftOf : (v : Value) → (draftOf v).toValue = v.arranged
  | .table entries => by
    rw [draftOf, Draft.toValue, entriesToValues_append, entriesToValues_valueDrafts,
      entriesToValues_tableDrafts entries, Value.arranged]
  | .text _ | .int _ | .float _ | .bool _ | .moment _ | .array _ => rfl

theorem entriesToValues_tableDrafts : (entries : List (String × Value)) →
    Draft.entriesToValues (tableDrafts entries) = tableEntries entries
  | [] => rfl
  | (key, value) :: rest => by
    rw [tableDrafts, tableEntries]
    split
    · rw [Draft.entriesToValues, toValue_draftOf value, entriesToValues_tableDrafts rest]
    · exact entriesToValues_tableDrafts rest

end

/-- What was read is what was written, arranged. -/
theorem entriesToValues_drafts (document : List (String × Value)) :
    Draft.entriesToValues (valueDrafts document ++ tableDrafts document) = arranged document := by
  rw [entriesToValues_append, entriesToValues_valueDrafts, entriesToValues_tableDrafts, arranged]

/-! ### Values and headings in place -/

/-- The tables that are written and read back: their keys are distinct, what is no table is read
back, and tables in them are of the same kind, with one key less left for their headings. -/
def IsPlainTable : Nat → List (String × Value) → Prop
  | 0, _ => False
  | depth + 1, entries =>
    (entries.map Prod.fst).Nodup ∧
      (∀ e ∈ entries, e.2.isTable = false → e.2.IsReadBack (nestingLimit - 1)) ∧
      ∀ key inner, (key, .table inner) ∈ entries → IsPlainTable depth inner

namespace IsPlainTable

variable {depth : Nat} {entries : List (String × Value)}

/-- A plain table has a level at least. -/
theorem pos (h : IsPlainTable depth entries) : 0 < depth := by
  cases depth with
  | zero => exact absurd h id
  | succ depth => exact depth.succ_pos

/-- Its keys are distinct. -/
theorem nodup (h : IsPlainTable depth entries) : (entries.map Prod.fst).Nodup := by
  cases depth with
  | zero => exact absurd h id
  | succ => exact h.1

/-- Its values are read back. -/
theorem isReadBack_of_mem (h : IsPlainTable depth entries) {e : String × Value}
    (he : e ∈ valueEntries entries) : e.2.IsReadBack (nestingLimit - 1) := by
  obtain ⟨hmem, hvalue⟩ := List.mem_filter.1 he
  cases depth with
  | zero => exact absurd h id
  | succ => exact h.2.1 e hmem (by simpa using hvalue)

end IsPlainTable

/-- What may stand in such a table. -/
def Value.IsPlain (depth : Nat) : Value → Prop
  | .table entries => IsPlainTable depth entries
  | v => v.IsReadBack (nestingLimit - 1)

/-- A table of what may stand in one is plain, with one level more. -/
theorem isPlainTable_succ {depth : Nat} {entries : List (String × Value)}
    (hnodup : (entries.map Prod.fst).Nodup) (hplain : ∀ e ∈ entries, e.2.IsPlain depth) :
    IsPlainTable (depth + 1) entries := by
  refine ⟨hnodup, fun e he htable ↦ ?_, fun key inner hmem ↦ hplain _ hmem⟩
  obtain ⟨key, v⟩ := e
  have h := hplain _ he
  cases v with
  | table _ => exact absurd htable Bool.noConfusion
  | _ => exact h

variable {p : Progress} {path : List String} {base inner : Entries}

/-- A line with a new key adds its value to the table of the last heading. -/
theorem set_eq_ok {key : String} (hleads : Leads path base) (hheading : p.heading = path)
    (hentries : p.entries = withTable inner path base) (hnew : inner.lookup key = none)
    (v : Value) :
    p.set [] key v =
      .ok { p with entries := withTable (inner ++ [(key, .value v)]) path base } := by
  have hset (origin : TableOrigin) :
      Draft.set [] key v origin (tableAt path p.entries) = .ok (inner ++ [(key, .value v)]) := by
    rw [hentries, Draft.tableAt_withTable, Draft.set, Draft.change, List.isEmpty_nil, Bool.not_true,
      Draft.setNew, if_neg (by simp), hnew, if_neg (by simp), Draft.put_of_lookup_eq_none hnew]
  have hchange := Draft.change_eq_ok (hentries ▸ Draft.leads_withTable hleads) hset .headed
  rw [Progress.set, hheading, hchange, hentries, Draft.withTable_withTable]
  rfl

/-- What is added under one key does not show under the keys that follow it. -/
theorem lookup_concat_of_mem {key : String} {more : List (String × Value)}
    (hnodup : (key :: more.map Prod.fst).Nodup) {e : String × Value} (he : e ∈ more)
    (draft : Draft) : (inner ++ [(key, draft)]).lookup e.1 = inner.lookup e.1 := by
  have hmem : e.1 ∈ more.map Prod.fst := List.mem_map_of_mem he
  have hne : e.1 ≠ key := fun heq ↦ (List.nodup_cons.1 hnodup).1 (heq ▸ hmem)
  rw [List.lookup_append, List.lookup_cons, beq_eq_false_iff_ne.2 hne, List.lookup_nil,
    Option.or_none]

/-- Lines with new keys add their values to the table of the last heading. -/
theorem exists_reads_entryLines {es : List (String × Value)}
    (hplain : ∀ e ∈ es, e.2.IsReadBack (nestingLimit - 1)) (hnodup : (es.map Prod.fst).Nodup)
    (hnew : ∀ e ∈ es, inner.lookup e.1 = none) (hleads : Leads path base)
    (hheading : p.heading = path) (hentries : p.entries = withTable inner path base) :
    ∃ q, Reads p (es.flatMap entryLine) q ∧
      q.entries = withTable (inner ++ es.map fun e ↦ (e.1, .value e.2)) path base := by
  induction es generalizing p inner with
  | nil => exact ⟨p, .refl p, by rw [hentries, List.map_nil, List.append_nil]⟩
  | cons e es ih =>
    obtain ⟨hfirst, hmore⟩ := List.forall_mem_cons.1 hplain
    obtain ⟨hnewfirst, hnewmore⟩ := List.forall_mem_cons.1 hnew
    have hset := set_eq_ok hleads hheading hentries hnewfirst e.2
    have hlater : ∀ e' ∈ es, (inner ++ [(e.1, Draft.value e.2)]).lookup e'.1 = none :=
      fun e' he' ↦ by rw [lookup_concat_of_mem hnodup he', hnewmore e' he']
    obtain ⟨q, hreads, hq⟩ := ih hmore (List.nodup_cons.1 hnodup).2 hlater
      (p := { p with entries := withTable (inner ++ [(e.1, .value e.2)]) path base }) hheading rfl
    refine ⟨q, (reads_entryLine hfirst hset).trans hreads, ?_⟩
    rw [hq, List.append_assoc]
    rfl

/-- The lines of a table's values make its drafts, where the table was empty. -/
theorem exists_reads_valueEntries {depth : Nat} {entries : List (String × Value)}
    (hplain : IsPlainTable depth entries) (hleads : Leads path base) (hheading : p.heading = path)
    (hentries : p.entries = withTable [] path base) :
    ∃ q, Reads p ((valueEntries entries).flatMap entryLine) q ∧
      q.entries = withTable (valueDrafts entries) path base :=
  exists_reads_entryLines (fun _ he ↦ hplain.isReadBack_of_mem he)
    (hplain.nodup.sublist (List.filter_sublist.map Prod.fst)) (fun _ _ ↦ rfl) hleads hheading
    hentries

/-- A heading with a new key opens a table. -/
theorem head_eq_ok {key : String} (hleads : Leads path p.entries)
    (hnew : (tableAt path p.entries).lookup key = none) :
    p.head path key Draft.openTable =
      .ok ⟨withTable (tableAt path p.entries ++ [(key, .table .headed [])]) path p.entries,
        path ++ [key]⟩ := by
  have hopen (origin : TableOrigin) : Draft.openTable key origin (tableAt path p.entries) =
      .ok (tableAt path p.entries ++ [(key, .table .headed [])]) := by
    rw [Draft.openTable, hnew]
    exact congrArg Except.ok (Draft.put_of_lookup_eq_none hnew)
  rw [Progress.head, Draft.change_eq_ok hleads hopen .headed]
  rfl

/-! ### Tables -/

/-- The lines of a table are those of its values. -/
theorem valueLines_eq_map (entries : List (String × Value)) :
    valueLines entries =
      (valueEntries entries).map fun e ↦ keyText e.1 ++ " = " ++ e.2.inline ++ "\n" := by
  induction entries with
  | nil => rfl
  | cons e rest ih =>
    obtain ⟨key, v⟩ := e
    rw [valueLines, valueEntries]
    by_cases htable : v.isTable = true
    · rw [if_pos htable, List.filter_cons_of_neg (by simp [htable]), ih, valueEntries]
    · rw [if_neg htable, List.filter_cons_of_pos (by simp [htable]), List.map_cons, ih,
        valueEntries]

/-- The lines of the values among entries. -/
theorem toList_join_valueLines (entries : List (String × Value)) :
    (String.join (valueLines entries)).toList = (valueEntries entries).flatMap entryLine := by
  rw [String.toList_join, valueLines_eq_map, List.flatMap_map]
  refine List.flatMap_congr fun e _ ↦ ?_
  simp [entryLine]

/-- The text of parts, each with an empty line in front. -/
def partsText (parts : List String) : List Char := parts.flatMap fun part ↦ '\n' :: part.toList

theorem partsText_append (parts more : List String) :
    partsText (parts ++ more) = partsText parts ++ partsText more :=
  List.flatMap_append

/-- The draft with drafts added to the table that a path leads to; with none it is as it was. -/
def extend (path : List String) (added entries : Entries) : Entries :=
  if added = [] then entries else withTable (tableAt path entries ++ added) path entries

/-- Drafts may be added one by one. -/
theorem extend_cons (path : List String) (e : String × Draft) (added entries : Entries) :
    extend path added (withTable (tableAt path entries ++ [e]) path entries) =
      extend path (e :: added) entries := by
  rw [extend, extend, if_neg (List.cons_ne_nil e added)]
  split
  · next hnil => rw [hnil]
  · rw [Draft.tableAt_withTable, Draft.withTable_withTable, List.append_assoc,
      List.singleton_append]

/-- The keys of the tables among entries are new in the table that a path leads to. -/
def AddsTables (entries : List (String × Value)) (path : List String) (base : Entries) : Prop :=
  ∀ e ∈ entries, e.2.isTable = true → (tableAt path base).lookup e.1 = none

/-- What reading the tables among entries makes of a draft, for tables of so many levels. -/
def TablesRead (depth : Nat) : Prop :=
  ∀ (entries : List (String × Value)) (path : List String) (p : Progress),
    IsPlainTable depth entries → path.length + depth ≤ nestingLimit → Leads path p.entries →
      AddsTables entries path p.entries →
        ∃ q, Reads p (partsText (tableParts (path.map keyText) entries)) q ∧
          q.entries = extend path (tableDrafts entries) p.entries

/-- The text of a part with a heading. -/
theorem headingText (path : List String) (lines : String) :
    partsText ["[" ++ String.intercalate "." (path.map keyText) ++ "]\n" ++ lines] =
      ['\n'] ++ (headingLine path ++ lines.toList) := by
  simp [partsText, headingLine, pathText, String.toList_intercalate, Function.comp_def]

/-- Entries that are tables alone make drafts. -/
theorem tableDrafts_ne_nil {entries : List (String × Value)} (hvalues : valueEntries entries = [])
    (hne : entries ≠ []) : tableDrafts entries ≠ [] := by
  obtain ⟨e, rest, rfl⟩ := List.exists_cons_of_ne_nil hne
  have htable : e.2.isTable = true := by
    simpa using List.filter_eq_nil_iff.1 hvalues e List.mem_cons_self
  rw [tableDrafts, if_pos htable]
  exact List.cons_ne_nil _ _

/-- No table has the key of a value. -/
theorem lookup_valueDrafts {entries : List (String × Value)}
    (hnodup : (entries.map Prod.fst).Nodup) {e : String × Value} (he : e ∈ entries)
    (htable : e.2.isTable = true) : (valueDrafts entries).lookup e.1 = none := by
  refine List.lookup_eq_none_iff.2 fun d hd ↦ ?_
  obtain ⟨e', he', rfl⟩ := List.mem_map.1 hd
  obtain ⟨hmem, hvalue⟩ := List.mem_filter.1 he'
  refine bne_iff_ne.2 fun heq ↦ ?_
  obtain rfl : e = e' := List.inj_on_of_nodup_map hnodup he hmem heq
  rw [htable] at hvalue
  exact absurd hvalue Bool.false_ne_true

/-- Changing a table that was added last changes what was added. -/
theorem withTable_concat_withTable {key : String} {origin : TableOrigin} {old new : Entries}
    (hnew : inner.lookup key = none) :
    withTable new (path ++ [key]) (withTable (inner ++ [(key, .table origin old)]) path base) =
      withTable (inner ++ [(key, .table origin new)]) path base := by
  have hlookup : (inner ++ [(key, Draft.table origin old)]).lookup key =
      some (.table origin old) := by
    rw [List.lookup_append, hnew, List.lookup_cons_self, Option.none_or]
  have hput : Draft.put key (.table origin new) (inner ++ [(key, .table origin old)]) =
      inner ++ [(key, .table origin new)] := by
    rw [← Draft.put_of_lookup_eq_none hnew, Draft.put_put, Draft.put_of_lookup_eq_none hnew]
  rw [Draft.withTable_concat, Draft.tableAt_withTable, Draft.originAt_of_lookup_eq_some hlookup,
    hput, Draft.withTable_withTable]

/-- A table that was added last is where its path leads to. -/
theorem tableAt_concat_withTable {key : String} {origin : TableOrigin} {old : Entries}
    (hnew : inner.lookup key = none) :
    tableAt (path ++ [key]) (withTable (inner ++ [(key, .table origin old)]) path base) = old := by
  rw [Draft.tableAt_concat, Draft.tableAt_withTable]
  have hlookup : (inner ++ [(key, Draft.table origin old)]).lookup key =
      some (.table origin old) := by
    rw [List.lookup_append, hnew, List.lookup_cons_self, Option.none_or]
  exact Draft.innerAt_of_lookup_eq_some hlookup

section

variable {depth : Nat} {entries : List (String × Value)} {key : String}

/-- The headings of its tables imply a table that has nothing else in it. -/
theorem exists_reads_impliedTable (hdepth : TablesRead depth) (hplain : IsPlainTable depth entries)
    (hlength : (path ++ [key]).length + depth ≤ nestingLimit) (hleads : Leads path p.entries)
    (hnew : (tableAt path p.entries).lookup key = none) (htables : tableDrafts entries ≠ []) :
    ∃ q, Reads p (partsText (tableParts ((path ++ [key]).map keyText) entries)) q ∧
      q.entries = withTable (tableAt path p.entries ++
        [(key, .table .implied (tableDrafts entries))]) path p.entries := by
  have hempty : tableAt (path ++ [key]) p.entries = [] := by
    rw [Draft.tableAt_concat, Draft.innerAt_of_lookup_eq_none hnew]
  obtain ⟨q, hreads, hq⟩ := hdepth entries (path ++ [key]) p hplain hlength
    (Draft.leads_concat_iff.2 ⟨hleads, by rw [hnew]; exact nofun⟩) (fun e _ _ ↦ by rw [hempty]; rfl)
  refine ⟨q, hreads, ?_⟩
  rw [hq, extend, if_neg htables, hempty, Draft.withTable_concat,
    Draft.originAt_of_lookup_eq_none hnew, Draft.put_of_lookup_eq_none hnew, List.nil_append]

/-- A table with a heading is read as its values and its tables. -/
theorem exists_reads_headedTable (hdepth : TablesRead depth) (hplain : IsPlainTable depth entries)
    (hlength : (path ++ [key]).length + depth ≤ nestingLimit) (hleads : Leads path p.entries)
    (hnew : (tableAt path p.entries).lookup key = none) :
    ∃ q, Reads p (headingLine (path ++ [key]) ++ (valueEntries entries).flatMap entryLine ++
        partsText (tableParts ((path ++ [key]).map keyText) entries)) q ∧
      q.entries = withTable (tableAt path p.entries ++
        [(key, .table .headed (valueDrafts entries ++ tableDrafts entries))]) path p.entries := by
  -- the draft with the table in it, as far as its entries are read
  let added (inner : Entries) : Entries :=
    withTable (tableAt path p.entries ++ [(key, .table .headed inner)]) path p.entries
  have hleads' (inner : Entries) : Leads (path ++ [key]) (added inner) := by
    refine Draft.leads_concat_iff.2 ⟨Draft.leads_withTable hleads, ?_⟩
    rw [Draft.tableAt_withTable, List.lookup_append, hnew, List.lookup_cons_self]
    rintro _ ⟨⟩
    exact ⟨_, _, rfl⟩
  have hheading : Reads p (headingLine (path ++ [key])) ⟨added [], path ++ [key]⟩ :=
    reads_headingLine (by have hpos := hplain.pos; omega) (head_eq_ok hleads hnew)
  obtain ⟨between, hlines, hbetween⟩ := exists_reads_valueEntries
    (p := ⟨added [], path ++ [key]⟩) hplain (hleads' []) rfl (withTable_concat_withTable hnew).symm
  have hvalued : between.entries = added (valueDrafts entries) := by
    rw [hbetween]
    exact withTable_concat_withTable hnew
  have hinner : tableAt (path ++ [key]) between.entries = valueDrafts entries := by
    rw [hvalued]
    exact tableAt_concat_withTable hnew
  obtain ⟨q, htables, hq⟩ := hdepth entries (path ++ [key]) between hplain hlength
    (hvalued ▸ hleads' _)
    (fun e he htable ↦ by rw [hinner]; exact lookup_valueDrafts hplain.nodup he htable)
  refine ⟨q, (hheading.trans hlines).trans htables, ?_⟩
  rw [hq, extend, hinner, hvalued]
  split
  · next hnone => rw [hnone, List.append_nil]
  · exact withTable_concat_withTable hnew

/-- A table is read with its heading, if it has one, its values and its tables. -/
theorem exists_reads_valueParts (hdepth : TablesRead depth) (hplain : IsPlainTable depth entries)
    (hlength : path.length + (depth + 1) ≤ nestingLimit) (hleads : Leads path p.entries)
    (hnew : (tableAt path p.entries).lookup key = none) :
    ∃ q, Reads p (partsText (valueParts ((path ++ [key]).map keyText) (.table entries))) q ∧
      q.entries = withTable (tableAt path p.entries ++ [(key, draftOf (.table entries))]) path
        p.entries := by
  have hlength' : (path ++ [key]).length + depth ≤ nestingLimit := by
    rw [List.length_append, List.length_singleton]
    omega
  rw [valueParts, draftOf]
  by_cases himplied : ((valueLines entries).isEmpty && !entries.isEmpty) = true
  · have hvalues : valueEntries entries = [] := by
      rw [Bool.and_eq_true, List.isEmpty_iff, valueLines_eq_map, List.map_eq_nil_iff] at himplied
      exact himplied.1
    have htables : tableDrafts entries ≠ [] := by
      refine tableDrafts_ne_nil hvalues ?_
      rintro rfl
      exact absurd himplied (by decide)
    rw [if_pos himplied, if_pos himplied, List.nil_append, valueDrafts, hvalues, List.map_nil,
      List.nil_append]
    exact exists_reads_impliedTable hdepth hplain hlength' hleads hnew htables
  · obtain ⟨q, hreads, hq⟩ := exists_reads_headedTable hdepth hplain hlength' hleads hnew
    rw [if_neg himplied, if_neg himplied, partsText_append, headingText, toList_join_valueLines,
      List.append_assoc]
    exact ⟨q, (Reads.lineFeed p).trans hreads, hq⟩

end

/-- A value that is no table has no parts. -/
theorem valueParts_eq_nil {path : List String} {v : Value} (h : v.isTable = false) :
    valueParts path v = [] := by
  cases v with
  | table _ => exact absurd h Bool.noConfusion
  | _ => rfl

/-- **The tables among entries are read back**, each with all that is in it. -/
theorem tablesRead (depth : Nat) : TablesRead depth := by
  -- on the levels of tables, and at each level on the entries
  induction depth with
  | zero => exact fun _ _ _ hplain ↦ absurd hplain id
  | succ depth ih =>
    intro entries path p hplain hlength hleads hadds
    obtain ⟨hnodup, -, htables⟩ := id hplain
    clear hplain
    induction entries generalizing p with
    | nil => exact ⟨p, .refl p, rfl⟩
    | cons e rest ihrest =>
      obtain ⟨key, v⟩ := e
      have hrestkeys : (rest.map Prod.fst).Nodup := (List.nodup_cons.1 hnodup).2
      have hmore : ∀ key inner, (key, .table inner) ∈ rest → IsPlainTable depth inner :=
        fun key inner hmem ↦ htables key inner (List.mem_cons_of_mem _ hmem)
      have hadded : AddsTables rest path p.entries := (List.forall_mem_cons.1 hadds).2
      rw [tableParts, tableDrafts]
      by_cases htable : v.isTable = true
      · obtain ⟨inner, rfl⟩ : ∃ inner, v = .table inner := by
          cases v with
          | table inner => exact ⟨inner, rfl⟩
          | _ => exact absurd htable Bool.noConfusion
        have hnew : (tableAt path p.entries).lookup key = none :=
          hadds (key, .table inner) List.mem_cons_self rfl
        obtain ⟨between, hreads, hbetween⟩ := exists_reads_valueParts ih
          (htables key inner List.mem_cons_self) hlength hleads hnew
        have hlater : AddsTables rest path between.entries := by
          intro e he htable'
          rw [hbetween, Draft.tableAt_withTable, lookup_concat_of_mem hnodup he,
            hadded e he htable']
        obtain ⟨q, hrest, hq⟩ :=
          ihrest between (hbetween ▸ Draft.leads_withTable hleads) hlater hrestkeys hmore
        rw [List.map_append, List.map_singleton] at hreads
        refine ⟨q, ?_, ?_⟩
        · rw [partsText_append]
          exact hreads.trans hrest
        · rw [hq, hbetween, extend_cons, if_pos htable]
      · rw [valueParts_eq_nil (Bool.eq_false_iff.2 htable), List.nil_append, if_neg htable]
        exact ihrest p hleads hadded hrestkeys hmore

/-! ### Documents -/

/-- Drafts that are added to the document stand at its end. -/
theorem extend_nil (added entries : Entries) : extend [] added entries = entries ++ added := by
  rw [extend]
  split
  · next hnone => rw [hnone, List.append_nil]
  · rfl

mutual

/-- Each part of the tables begins with the bracket of a heading. -/
theorem head?_of_mem_tableParts : (path : List String) → (entries : List (String × Value)) →
    ∀ part ∈ tableParts path entries, part.toList.head? = some '['
  | _, [], _, hmem => absurd hmem List.not_mem_nil
  | path, (key, v) :: rest, part, hmem => by
    rw [tableParts, List.mem_append] at hmem
    rcases hmem with hown | hmore
    · exact head?_of_mem_valueParts (path ++ [keyText key]) v part hown
    · exact head?_of_mem_tableParts path rest part hmore

theorem head?_of_mem_valueParts : (path : List String) → (v : Value) →
    ∀ part ∈ valueParts path v, part.toList.head? = some '['
  | path, .table entries, part, hmem => by
    rw [valueParts, List.mem_append] at hmem
    rcases hmem with hown | hinner
    · rw [List.mem_ite_nil_left, List.mem_singleton] at hown
      rw [hown.2, String.append_assoc, String.append_assoc, String.toList_append]
      rfl
    · exact head?_of_mem_tableParts path entries part hinner
  | _, .text _, _, hmem | _, .int _, _, hmem | _, .float _, _, hmem | _, .bool _, _, hmem
  | _, .moment _, _, hmem | _, .array _, _, hmem => absurd hmem List.not_mem_nil

end

/-- The parts of a document: its values, if there are any, and its tables. -/
def documentParts (document : List (String × Value)) : List String :=
  (if (valueLines document).isEmpty then [] else [String.join (valueLines document)]) ++
    tableParts [] document

/-- The text of a document is its parts, with empty lines between them. -/
theorem toList_render (document : List (String × Value)) :
    (render document).toList = ['\n'].intercalate ((documentParts document).map String.toList) := by
  rw [render, String.toList_intercalate]
  rfl

theorem isEmpty_valueLines_iff {entries : List (String × Value)} :
    (valueLines entries).isEmpty = true ↔ valueEntries entries = [] := by
  rw [List.isEmpty_iff, valueLines_eq_map, List.map_eq_nil_iff]

/-- Each part of a document begins with a key or with the bracket of a heading. -/
theorem head?_of_mem_documentParts {document : List (String × Value)} {part : String}
    (hmem : part ∈ documentParts document) :
    ∃ c, part.toList.head? = some c ∧ c ≠ '\uFEFF' := by
  rw [documentParts, List.mem_append] at hmem
  rcases hmem with hvalues | htables
  · rw [List.mem_ite_nil_left, List.mem_singleton, isEmpty_valueLines_iff] at hvalues
    obtain ⟨hne, rfl⟩ := hvalues
    obtain ⟨e, es, hentries⟩ := List.exists_cons_of_ne_nil hne
    obtain ⟨c, hhead, hc⟩ := exists_head?_keyText e.1
    refine ⟨c, ?_, ?_⟩
    · rw [toList_join_valueLines, hentries, List.flatMap_cons, entryLine, List.append_assoc,
        List.head?_append, hhead]
      rfl
    · rintro rfl
      exact hc.elim (absurd · (by decide)) (absurd · (by decide))
  · exact ⟨'[', head?_of_mem_tableParts [] document part htables, by decide⟩

/-- No document begins with a mark of its encoding. -/
theorem head?_render_ne_mark (document : List (String × Value)) :
    (render document).toList.head? ≠ some '\uFEFF' := by
  rw [toList_render]
  cases hparts : documentParts document with
  | nil => exact nofun
  | cons part parts =>
    obtain ⟨c, hhead, hc⟩ := head?_of_mem_documentParts (hparts ▸ List.mem_cons_self)
    rw [List.map_cons, head?_intercalate_cons hhead]
    simpa using hc

/-- The empty line in front of the first part can be left out. -/
theorem reads_intercalate {parts : List String} {q : Progress} (h : Reads p (partsText parts) q) :
    Reads p (['\n'].intercalate (parts.map String.toList)) q := by
  cases parts with
  | nil => exact h
  | cons part parts =>
    refine .of_lineFeed ?_
    have htext : partsText (part :: parts) =
        '\n' :: ['\n'].intercalate ((part :: parts).map String.toList) := by
      clear h
      induction parts generalizing part with
      | nil => simp [partsText]
      | cons next parts ih =>
        rw [List.map_cons, List.map_cons, List.intercalate_cons_cons, ← List.map_cons,
          List.append_assoc, List.singleton_append, ← ih]
        rfl
    rwa [htext] at h

/-- **The parts of a document make its drafts.** -/
theorem exists_reads_documentParts {document : List (String × Value)}
    (hplain : IsPlainTable nestingLimit document) :
    ∃ q, Reads {} (partsText (documentParts document)) q ∧
      q.entries = valueDrafts document ++ tableDrafts document := by
  have hleads : Leads [] [] := trivial
  obtain ⟨between, hlines, hvalued⟩ := exists_reads_valueEntries (p := {}) hplain hleads rfl rfl
  rw [withTable] at hvalued
  obtain ⟨q, htables, hq⟩ := tablesRead nestingLimit document [] between hplain
    (Nat.zero_add _).le trivial
    (fun e he htable ↦ hvalued ▸ lookup_valueDrafts hplain.nodup he htable)
  refine ⟨q, ?_, by rw [hq, extend_nil, hvalued]⟩
  have hfirst : Reads {} (partsText (if (valueLines document).isEmpty then [] else
      [String.join (valueLines document)])) between := by
    split
    · next hempty =>
      rwa [isEmpty_valueLines_iff.1 hempty] at hlines
    · rw [partsText, List.flatMap_singleton, toList_join_valueLines]
      exact (Reads.lineFeed {}).trans hlines
  rw [documentParts, partsText_append]
  exact hfirst.trans htables

/-- **A document is read back**, with the values of each table in front of its tables. -/
theorem read_render {document : List (String × Value)}
    (hplain : IsPlainTable nestingLimit document) :
    read (render document) = .ok (arranged document) := by
  obtain ⟨q, hreads, hq⟩ := exists_reads_documentParts hplain
  have hwhole : Reads {} (render document).toList q :=
    toList_render document ▸ reads_intercalate hreads
  rw [read_eq_ok (head?_render_ne_mark document) hwhole, hq, entriesToValues_drafts]

end ApiContract.Toml
