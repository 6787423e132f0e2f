import ApiContract.Proofs.Toml.Quoted
import ApiContract.Toml.Reader

/-!
# Values are read back

Texts, truth values and arrays of such values are read back from what is written for them, as long
as a line end, a comma or a bracket follows (`Value.IsReadBack`). Of a value it is also known that
it begins with no layout, so that the layout in front of it can be told from it.

## Main results

`isReadBack_text`, `isReadBack_bool` and `isReadBack_array` are the three cases. There is none for
tables: those are written under headings, by other functions.

## Arrays

An array of several items has a line for each, indented and with a comma behind it; an array of one
item, or of none, is on one line. Reading passes over the layout and takes the bracket behind the
last comma for the end of the array. An item is read with the layout in front of it and what ends it
(`Value.IsReadBack.items_append`), for both ways of writing, and the induction is on the items with
those that were read as a parameter (`items_itemLines`).

The reader counts the levels of nesting. An array takes one of them from its items, and what is
written has fewer levels than the reader allows.
-/

namespace ApiContract.Toml

/-- What stands behind a value: the end of its line, or a comma or bracket of an array. -/
def EndsValue (rest : List Char) : Prop := ∃ c ∈ ['\n', ',', ']'], rest.head? = some c

theorem endsValue_cons {c : Char} (h : c ∈ ['\n', ',', ']']) (rest : List Char) :
    EndsValue (c :: rest) :=
  ⟨c, h, rfl⟩

/-- Nothing else does. -/
theorem EndsValue.head?_ne {rest : List Char} (h : EndsValue rest) {c : Char}
    (hc : c ∉ ['\n', ',', ']']) : rest.head? ≠ some c := by
  obtain ⟨d, hd, hhead⟩ := h
  rw [hhead]
  rintro ⟨⟩
  exact hc hd

/-- Whether a character may begin a value: it is no layout, and begins no comment and no end of an
array. -/
def beginsValue (c : Char) : Bool :=
  !(isSpace c || c == '\n' || c == '\r' || c == '#' || c == ']')

/-- The value is read back from what is written for it, by a reader of so many levels. -/
structure Value.IsReadBack (levels : Nat) (v : Value) : Prop where
  begins : ∃ c, v.inline.toList.head? = some c ∧ beginsValue c = true
  value_append : ∀ rest, EndsValue rest → value levels (v.inline.toList ++ rest) = .ok (v, rest)

variable {levels : Nat}

/-! ### Values without parts -/

/-- A quoted text begins with a quote. -/
theorem head?_quoted (s : String) :
    (quoted s).toList.head? = some '"' ∨ (quoted s).toList.head? = some '\'' := by
  have hopen (opening body : String) {c : Char} (h : opening.toList.head? = some c) :
      (opening ++ body).toList.head? = some c := by
    rw [String.toList_append, List.head?_append, h]
    rfl
  rw [quoted]
  dsimp only
  split_ifs
  · rw [String.append_assoc]
    exact .inr (hopen "'''\n" _ (by decide))
  · rw [String.append_assoc]
    exact .inr (hopen "'''" _ (by decide))
  · rw [String.append_assoc]
    exact .inr (hopen "'" _ (by decide))
  · rw [String.append_assoc]
    exact .inl (hopen "\"\"\"\n" _ (by decide))
  · rw [String.append_assoc]
    exact .inl (hopen "\"" _ (by decide))

/-- **A text is read back.** -/
theorem isReadBack_text (levels : Nat) (s : String) : Value.IsReadBack levels (.text s) := by
  have hread (rest : List Char) (hrest : EndsValue rest) :=
    text?_quoted s (hrest.head?_ne (c := '"') (by decide)) (hrest.head?_ne (by decide))
  -- what begins with a quote is no array and no table
  have hscalar (rest : List Char) :
      value levels ((quoted s).toList ++ rest) = scalar ((quoted s).toList ++ rest) := by
    rcases head?_quoted s with hhead | hhead
    · obtain ⟨cs, hcs⟩ := List.head?_eq_some_iff.1 hhead
      rw [hcs, List.cons_append]
      cases levels <;> rfl
    · obtain ⟨cs, hcs⟩ := List.head?_eq_some_iff.1 hhead
      rw [hcs, List.cons_append]
      cases levels <;> rfl
  constructor
  · rw [Value.inline]
    exact (head?_quoted s).elim (fun h ↦ ⟨'"', h, rfl⟩) fun h ↦ ⟨'\'', h, rfl⟩
  · intro rest hrest
    rw [Value.inline, hscalar]
    unfold scalar
    rw [hread rest hrest]
    rfl

/-- **A truth value is read back.** -/
theorem isReadBack_bool (levels : Nat) (b : Bool) : Value.IsReadBack levels (.bool b) := by
  cases b with
  | true =>
    refine ⟨⟨'t', rfl, rfl⟩, fun rest _ ↦ ?_⟩
    cases levels <;> rfl
  | false =>
    refine ⟨⟨'f', rfl, rfl⟩, fun rest _ ↦ ?_⟩
    cases levels <;> rfl

/-! ### Arrays -/

/-- Layout without a comment is passed over at once. -/
theorem skipComments_of_skipLayout {cs rest : List Char} {c : Char}
    (hlayout : skipLayout cs = c :: rest) (hc : c ≠ '#') (hne : cs ≠ []) :
    skipComments cs.length cs = c :: rest := by
  obtain ⟨n, hn⟩ := Nat.exists_eq_succ_of_ne_zero (mt List.length_eq_zero_iff.1 hne)
  rw [hn, skipComments, hlayout]
  split
  · next heq => exact absurd (List.cons.inj heq).1 hc
  · rfl

/-- A value has no layout at its front. -/
theorem skipLayout_of_beginsValue {c : Char} (h : beginsValue c = true) (rest : List Char) :
    skipLayout (c :: rest) = c :: rest := by
  rw [skipLayout]
  all_goals
    intro _ heq
    obtain ⟨rfl, -⟩ := List.cons.inj heq
    exact absurd h (by decide)

/-- Items are written one by one. -/
theorem inlineItems_eq_map (items : List Value) : inlineItems items = items.map Value.inline := by
  induction items with
  | nil => rfl
  | cons item rest ih => rw [inlineItems, List.map_cons, ih]

/-- One more item is read, and then a comma or the bracket behind it. -/
theorem items_succ {read : Reader Value} {cs body after : List Char} {c : Char} {v : Value}
    (hskip : skipComments cs.length cs = c :: body) (hc : c ≠ ']')
    (hread : read (c :: body) = .ok (v, after)) (n : Nat) (before : List Value) :
    items read (n + 1) before cs =
      match skipComments after.length after with
      | ',' :: rest => items read n (v :: before) rest
      | ']' :: rest => .ok (.array (v :: before).reverse, rest)
      | _ => .error (.expected ']') := by
  rw [items, hskip]
  split
  · next heq => exact absurd (List.cons.inj heq).1 hc
  · rw [hread]
    rfl

variable {v : Value} {vs : List Value}

/-- An item is read with the layout in front of it and what ends it. -/
theorem Value.IsReadBack.items_append (h : v.IsReadBack levels) {layout rest : List Char}
    {ending : Char}
    (hlayout : ∀ cs, skipLayout (layout ++ cs) = skipLayout cs) (hending : ending ∈ [',', ']'])
    (n : Nat) (before : List Value) :
    items (value levels) (n + 1) before (layout ++ (v.inline.toList ++ ending :: rest)) =
      if ending = ',' then items (value levels) n (v :: before) rest
      else .ok (.array (v :: before).reverse, rest) := by
  obtain ⟨c, hhead, hc⟩ := h.begins
  obtain ⟨body, hbody⟩ := List.head?_eq_some_iff.1 hhead
  have hskip : skipComments (layout ++ (v.inline.toList ++ ending :: rest)).length
      (layout ++ (v.inline.toList ++ ending :: rest)) = c :: (body ++ ending :: rest) := by
    refine skipComments_of_skipLayout ?_ (by rintro rfl; exact absurd hc (by decide)) (by simp)
    rw [hlayout, hbody, List.cons_append, skipLayout_of_beginsValue hc]
  have hread : value levels (c :: (body ++ ending :: rest)) = .ok (v, ending :: rest) := by
    rw [← List.cons_append, ← hbody]
    refine h.value_append _ (endsValue_cons ?_ rest)
    exact List.mem_cons_of_mem _ hending
  rw [items_succ hskip (by rintro rfl; exact absurd hc (by decide)) hread]
  rcases List.mem_pair.1 hending with rfl | rfl <;> rfl

/-- The lines of an array's items. -/
def itemLines (vs : List Value) : List Char :=
  vs.flatMap fun v ↦ ['\n', ' ', ' ', ' ', ' '] ++ (v.inline.toList ++ [','])

/-- An item takes a character at least. -/
theorem length_le_itemLines (vs : List Value) : vs.length ≤ (itemLines vs).length := by
  induction vs with
  | nil => exact Nat.le_refl 0
  | cons v vs ih =>
    rw [itemLines] at ih
    rw [itemLines, List.flatMap_cons, List.length_append, List.length_append, List.length_cons,
      List.length_cons]
    omega

/-- The lines of items are read back up to the bracket behind them. -/
theorem items_itemLines (h : ∀ v ∈ vs, v.IsReadBack levels) (before : List Value)
    (rest : List Char) {n : Nat} (hn : vs.length < n) :
    items (value levels) n before (itemLines vs ++ '\n' :: ']' :: rest) =
      .ok (.array (before.reverse ++ vs), rest) := by
  induction vs generalizing before n with
  | nil =>
    obtain ⟨n, rfl⟩ := Nat.exists_eq_add_of_lt hn
    have hskip : skipComments ('\n' :: ']' :: rest).length ('\n' :: ']' :: rest) = ']' :: rest :=
      skipComments_of_skipLayout rfl (by decide) (List.cons_ne_nil _ _)
    rw [itemLines, List.flatMap_nil, List.nil_append, items, hskip, List.append_nil]
    rfl
  | cons v vs ih =>
    obtain ⟨n, rfl⟩ := Nat.exists_eq_add_of_lt hn
    obtain ⟨hv, hvs⟩ := List.forall_mem_cons.1 h
    have htext : itemLines (v :: vs) ++ '\n' :: ']' :: rest =
        ['\n', ' ', ' ', ' ', ' '] ++
          (v.inline.toList ++ ',' :: (itemLines vs ++ '\n' :: ']' :: rest)) := by
      rw [itemLines, List.flatMap_cons, List.append_assoc, List.append_assoc, List.append_assoc]
      rfl
    rw [htext, hv.items_append (fun _ ↦ rfl) List.mem_cons_self, if_pos rfl,
      ih hvs (v :: before) (by rw [List.length_cons]; omega), List.reverse_cons, List.append_assoc,
      List.singleton_append]

/-- An array of several items has a line for each. -/
theorem toList_bracketed (v w : Value) (vs : List Value) :
    (bracketed (inlineItems (v :: w :: vs))).toList =
      '[' :: (itemLines (v :: w :: vs) ++ ['\n', ']']) := by
  have hlines : ("[" ++ String.join ((inlineItems (v :: w :: vs)).map fun item ↦
      "\n    " ++ item ++ ",") ++ "\n]").toList =
        '[' :: (itemLines (v :: w :: vs) ++ ['\n', ']']) := by
    rw [String.toList_append, String.toList_append, String.toList_join, inlineItems_eq_map,
      List.flatMap_map, List.flatMap_map, itemLines]
    simp
  exact hlines

theorem value_array (cs : List Char) :
    value (levels + 1) ('[' :: cs) = items (value levels) (cs.length + 1) [] cs := rfl

/-- **An array is read back if its items are.** -/
theorem isReadBack_array (h : ∀ v ∈ vs, v.IsReadBack levels) :
    Value.IsReadBack (levels + 1) (.array vs) := by
  match vs with
  | [] => exact ⟨⟨'[', rfl, rfl⟩, fun rest _ ↦ rfl⟩
  | [v] =>
    have htext : (Value.inline (.array [v])).toList = '[' :: (v.inline.toList ++ [']']) := by
      show ("[" ++ v.inline ++ "]").toList = _
      simp
    refine ⟨⟨'[', by rw [htext]; rfl, rfl⟩, fun rest _ ↦ ?_⟩
    have hlayout (cs : List Char) : skipLayout ([] ++ cs) = skipLayout cs := rfl
    rw [htext, List.cons_append, value_array, List.append_assoc]
    exact (h v List.mem_cons_self).items_append hlayout
      (List.mem_cons_of_mem ',' (List.mem_singleton_self ']')) _ []
  | v :: w :: vs =>
    have htext : (Value.inline (.array (v :: w :: vs))).toList =
        '[' :: (itemLines (v :: w :: vs) ++ ['\n', ']']) := toList_bracketed v w vs
    refine ⟨⟨'[', by rw [htext]; rfl, rfl⟩, fun rest _ ↦ ?_⟩
    have hlength := length_le_itemLines (v :: w :: vs)
    rw [htext, List.cons_append, value_array, List.append_assoc]
    exact items_itemLines h [] rest (by rw [List.length_append]; omega)

end ApiContract.Toml
