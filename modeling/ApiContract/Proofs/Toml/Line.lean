import ApiContract.Proofs.Toml.Value

/-!
# Lines are read back

A document is read line by line, and each line changes what was read so far. This module says what
the two kinds of lines that are written do when they are read.

## Main results

* `reads_entryLine`: a line with a key and its value sets the key in the table of the last heading.
* `reads_headingLine`: a heading opens the table that its path leads to.

What reading a text does, whatever follows it, is told by `Reads`: it takes the progress from one
draft to the next. `Reads` composes (`Reads.trans`), so that a document may be reasoned about part
by part, and the counter of the reader, which is the length of the text, is out of the way from here
on.

## Keys

Keys of any kind are read back, quoted ones and those that are bare (`keyPart_keyText`), and paths
of keys with them (`key_pathText`). A bare key ends where its characters end, a quoted one at its
quote, so behind a key there must be none of the characters of bare keys; what stands there is a
point, a blank or the bracket of a heading.

A heading may have fewer keys than the reader nests. Whether the key of a line is new in its table
is decided by the draft and is a hypothesis here.
-/

namespace ApiContract.Toml

/-! ### Keys -/

/-- A character of bare keys begins a line that is no layout. -/
theorem beginsValue_of_isBareKeyChar {c : Char} (h : isBareKeyChar c = true) :
    beginsValue c = true := by
  rw [beginsValue, Bool.not_eq_true', ← Bool.not_eq_true]
  simp only [isSpace, Bool.or_eq_true, beq_iff_eq]
  rintro (((((rfl | rfl) | rfl) | rfl) | rfl) | rfl) <;> exact absurd h (by decide)

/-- A bare key has a character, and all of them are such. -/
theorem exists_cons_of_isBare {key : String}
    (h : (!key.isEmpty && key.toList.all isBareKeyChar) = true) :
    ∃ c cs, key.toList = c :: cs ∧ ∀ d ∈ c :: cs, isBareKeyChar d = true := by
  rw [Bool.and_eq_true, Bool.not_eq_true', List.all_eq_true] at h
  have hne : key.toList ≠ [] := fun hnil ↦
    absurd (String.isEmpty_iff.2 (String.toList_eq_nil_iff.1 hnil)) (Bool.eq_false_iff.1 h.1)
  obtain ⟨c, cs, hkey⟩ := List.exists_cons_of_ne_nil hne
  exact ⟨c, cs, hkey, hkey ▸ h.2⟩

/-- The text of a key begins with one of the characters of bare keys or with a quote. -/
theorem exists_head?_keyText (key : String) :
    ∃ c, (keyText key).toList.head? = some c ∧ (isBareKeyChar c = true ∨ c = '"') := by
  rw [keyText]
  split
  · next h =>
    obtain ⟨c, cs, hkey, hbare⟩ := exists_cons_of_isBare h
    exact ⟨c, by rw [hkey]; rfl, .inl (hbare c List.mem_cons_self)⟩
  · refine ⟨'"', ?_, .inr rfl⟩
    rw [String.append_assoc, String.toList_append]
    rfl

/-- The text of a key begins neither with layout nor with the bracket of a heading. -/
theorem exists_head?_keyText_beginsValue (key : String) :
    ∃ c, (keyText key).toList.head? = some c ∧ beginsValue c = true ∧ c ≠ '[' := by
  obtain ⟨c, hhead, hc⟩ := exists_head?_keyText key
  refine ⟨c, hhead, ?_⟩
  rcases hc with hbare | rfl
  · refine ⟨beginsValue_of_isBareKeyChar hbare, ?_⟩
    rintro rfl
    exact absurd hbare (by decide)
  · decide

/-- A key is read back up to where its characters end. -/
theorem keyPart_keyText (key : String) {rest : List Char}
    (hrest : ∀ c ∈ rest.head?, isBareKeyChar c = false) :
    keyPart ((keyText key).toList ++ rest) = .ok (key, rest) := by
  rw [keyText]
  split
  · next h =>
    obtain ⟨c, cs, hkey, hbare⟩ := exists_cons_of_isBare h
    have hline : line? (c :: cs ++ rest) = none := by
      rw [List.cons_append, line?]
      all_goals
        intro _ heq
        obtain ⟨rfl, -⟩ := List.cons.inj heq
        exact absurd (hbare _ List.mem_cons_self) (by decide)
    rw [keyPart, hkey, hline]
    dsimp only
    rw [Text.takeWhile_word_append hbare hrest, Text.dropWhile_word_append hbare hrest, ← hkey,
      String.ofList_toList, hkey]
    rfl
  · have htext :
        ("\"" ++ String.ofList (key.toList.flatMap (escaped false)) ++ "\"").toList ++ rest =
          '"' :: (key.toList.flatMap (escaped false) ++ (['"'] ++ rest)) := by
      simp
    rw [htext, keyPart, line?]
    dsimp only
    rw [basicBody_escaped _ _ (by rw [List.length_append]; omega), String.ofList_toList]

/-- There is no space in front of such a character. -/
theorem skipSpace_of_beginsValue {c : Char} (h : beginsValue c = true) {cs : List Char}
    (hhead : cs.head? = some c) : skipSpace cs = cs := by
  obtain ⟨rest, rfl⟩ := List.head?_eq_some_iff.1 hhead
  refine List.dropWhile_cons_of_neg ?_
  simp only [beginsValue, Bool.not_eq_true', Bool.or_eq_false_iff] at h
  exact Bool.eq_false_iff.1 h.1.1.1.1

/-- What stands behind a key: a blank and an equals sign, or the bracket of a heading. -/
def EndsKey (rest : List Char) : Prop :=
  (∀ c ∈ rest.head?, isBareKeyChar c = false) ∧ (skipSpace rest).head? ≠ some '.'

/-- The keys of a path with points between them. -/
def pathText (path : List String) : List Char :=
  ['.'].intercalate (path.map fun key ↦ (keyText key).toList)

/-- What is joined begins as its first part does. -/
theorem head?_intercalate_cons {α : Type} {c : α} {part : List α} (h : part.head? = some c)
    (sep : List α) (parts : List (List α)) : (sep.intercalate (part :: parts)).head? = some c := by
  cases parts with
  | nil => rw [List.intercalate_singleton, h]
  | cons next parts => rw [List.intercalate_cons_cons, List.append_assoc, List.head?_append, h]; rfl

/-- The text of a path does not begin with a second bracket. -/
theorem exists_head?_pathText (path : List String) (hne : path ≠ []) :
    ∃ c, (pathText path).head? = some c ∧ c ≠ '[' := by
  obtain ⟨name, path, rfl⟩ := List.exists_cons_of_ne_nil hne
  obtain ⟨c, hhead, -, hbracket⟩ := exists_head?_keyText_beginsValue name
  exact ⟨c, head?_intercalate_cons hhead _ _, hbracket⟩

/-- A path is read back key by key. -/
theorem keyParts_pathText {path : List String} (hne : path ≠ []) {rest : List Char}
    (hrest : EndsKey rest) {n : Nat} (hn : path.length ≤ n) :
    keyParts n (pathText path ++ rest) = .ok (path, skipSpace rest) := by
  induction path generalizing n with
  | nil => exact absurd rfl hne
  | cons name path ih =>
    obtain ⟨n, rfl⟩ : ∃ fewer, n = fewer + 1 :=
      Nat.exists_eq_succ_of_ne_zero (Nat.ne_of_gt (Nat.lt_of_lt_of_le (Nat.succ_pos _) hn))
    obtain ⟨c, hhead, hc, -⟩ := exists_head?_keyText_beginsValue name
    have hspace (more : List Char) : skipSpace ((keyText name).toList ++ more) =
        (keyText name).toList ++ more :=
      skipSpace_of_beginsValue hc (by rw [List.head?_append, hhead]; rfl)
    have hpart {more : List Char} (hmore : ∀ c ∈ more.head?, isBareKeyChar c = false) :
        keyPart (skipSpace ((keyText name).toList ++ more)) = .ok (name, more) := by
      rw [hspace, keyPart_keyText name hmore]
    cases path with
    | nil =>
      -- No dot follows the last part, so the reading stops there.
      have hdot : ∀ more, skipSpace rest ≠ '.' :: more := fun more heq ↦
        hrest.2 (by rw [heq]; rfl)
      rw [pathText, List.map_singleton, List.intercalate_singleton, keyParts, hpart hrest.1]
      dsimp only [bind, Except.bind]
      split
      · next heq => exact absurd heq (hdot _)
      · rfl
    | cons next path =>
      have htext : pathText (name :: next :: path) ++ rest =
          (keyText name).toList ++ '.' :: (pathText (next :: path) ++ rest) := by
        rw [pathText, List.map_cons, List.map_cons, List.intercalate_cons_cons, List.append_assoc,
          List.append_assoc]
        rfl
      have hmore := ih (List.cons_ne_nil next path) (Nat.le_of_succ_le_succ hn)
      rw [htext, keyParts, hpart (by rintro _ ⟨⟩; decide)]
      show (keyParts n (pathText (next :: path) ++ rest) >>= fun r ↦ pure (name :: r.1, r.2)) = _
      rw [hmore]
      rfl

/-- A path is read back as what stands in front of its last key, and that key. -/
theorem key_pathText (front : List String) (name : String) {rest : List Char} (hrest : EndsKey rest)
    (hlength : (front ++ [name]).length < nestingLimit) :
    key (pathText (front ++ [name]) ++ rest) = .ok ((front, name), skipSpace rest) := by
  have hne : front ++ [name] ≠ [] := by simp
  rw [key, keyParts_pathText hne hrest (Nat.le_sub_one_of_lt hlength)]
  show Except.ok (((front ++ [name]).dropLast, (front ++ [name]).getLast?.getD ""),
    skipSpace rest) = _
  rw [List.dropLast_concat, List.getLast?_concat, Option.getD_some]

/-! ### Lines -/

/-- Reading a text takes the progress `p` to `q`, whatever is read after it. -/
def Reads (p : Progress) (cs : List Char) (q : Progress) : Prop :=
  ∀ rest last, (∀ n, rest.length < n → Progress.lines n q rest = .ok last) →
    ∀ n, (cs ++ rest).length < n → Progress.lines n p (cs ++ rest) = .ok last

namespace Reads

variable {p q r : Progress} {cs ds : List Char}

theorem refl (p : Progress) : Reads p [] p := fun _ _ h ↦ h

/-- **One text is read after the other.** -/
theorem trans (h : Reads p cs q) (h' : Reads q ds r) : Reads p (cs ++ ds) r := by
  intro rest last hlast
  rw [List.append_assoc]
  exact h (ds ++ rest) last (h' rest last hlast)

/-- An empty line changes nothing. -/
theorem lineFeed (p : Progress) : Reads p ['\n'] p := by
  intro rest last hlast n hn
  obtain ⟨n, rfl⟩ := Nat.exists_eq_add_of_lt hn
  exact hlast _ (by simp only [List.length_append, List.length_singleton]; omega)

/-- What is read behind an empty line is read without it too. -/
theorem of_lineFeed (h : Reads p ('\n' :: cs) q) : Reads p cs q := by
  intro rest last hlast n hn
  exact h rest last hlast (n + 1) (Nat.succ_lt_succ hn)

/-- A line that begins with no layout and no comment is taken in. -/
theorem of_line {c : Char} (hhead : cs.head? = some c) (hc : beginsValue c = true)
    (hline : ∀ rest, p.line (cs ++ rest) = .ok (q, rest)) : Reads p cs q := by
  intro rest last hlast n hn
  obtain ⟨more, rfl⟩ := List.head?_eq_some_iff.1 hhead
  obtain ⟨n, rfl⟩ := Nat.exists_eq_add_of_lt hn
  have hspace : skipSpace (c :: more ++ rest) = c :: (more ++ rest) :=
    skipSpace_of_beginsValue hc rfl
  have hcomment : c ≠ '#' := by
    rintro rfl
    exact absurd hc (by decide)
  have hnewline : afterNewline? (c :: (more ++ rest)) = none := by
    rw [afterNewline?]
    all_goals
      intro _ heq
      obtain ⟨rfl, -⟩ := List.cons.inj heq
      exact absurd hc (by decide)
  rw [Progress.lines, hspace]
  split
  · next heq => exact absurd heq (List.cons_ne_nil _ _)
  · next heq => exact absurd (List.cons.inj heq).1 hcomment
  · next heq =>
    obtain ⟨rfl, rfl⟩ := List.cons.inj heq
    rw [hnewline]
    dsimp only
    rw [← List.cons_append, hline rest]
    exact hlast _ (by simp only [List.length_append, List.length_cons]; omega)

end Reads

/-- A document that is read to the end has the entries that were taken in. -/
theorem read_eq_ok {text : String} {q : Progress} (hmark : text.toList.head? ≠ some '\uFEFF')
    (h : Reads {} text.toList q) : read text = .ok (Draft.entriesToValues q.entries) := by
  have hlines := h [] q (fun n hn ↦ by obtain ⟨n, rfl⟩ := Nat.exists_eq_add_of_lt hn; rfl)
    (text.toList.length + 1) (by rw [List.append_nil]; exact Nat.lt_succ_self _)
  rw [List.append_nil] at hlines
  rw [read, if_neg (by simpa using hmark), hlines]
  rfl

/-! ### Values and headings -/

/-- The line of an entry. -/
def entryLine (e : String × Value) : List Char :=
  (keyText e.1).toList ++ (' ' :: '=' :: ' ' :: (e.2.inline.toList ++ ['\n']))

/-- The line of a heading. -/
def headingLine (path : List String) : List Char := '[' :: (pathText path ++ [']', '\n'])

variable {p q : Progress}

theorem lineEnd_lineFeed (rest : List Char) : lineEnd ('\n' :: rest) = .ok rest := rfl

/-- The key in front of an entry is read up to the sign behind it. -/
theorem key_entryLine (e : String × Value) (rest : List Char) :
    key (entryLine e ++ rest) =
      .ok (([], e.1), '=' :: ' ' :: (e.2.inline.toList ++ '\n' :: rest)) := by
  have hends : EndsKey (' ' :: '=' :: ' ' :: (e.2.inline.toList ++ '\n' :: rest)) :=
    ⟨by rintro _ ⟨⟩; decide, by rintro ⟨⟩⟩
  have htext : entryLine e ++ rest = pathText ([] ++ [e.1]) ++
      ' ' :: '=' :: ' ' :: (e.2.inline.toList ++ '\n' :: rest) := by
    rw [entryLine, pathText, List.nil_append, List.map_singleton, List.intercalate_singleton,
      List.append_assoc]
    simp only [List.cons_append, List.append_assoc, List.nil_append]
  rw [htext, key_pathText [] e.1 hends (show 1 < nestingLimit by decide)]
  rfl

/-- **A line with a key and its value is read back.** -/
theorem reads_entryLine {e : String × Value} (he : e.2.IsReadBack (nestingLimit - 1))
    (hset : p.set [] e.1 e.2 = .ok q) : Reads p (entryLine e) q := by
  obtain ⟨c, hhead, hc, hbracket⟩ := exists_head?_keyText_beginsValue e.1
  refine .of_line (by rw [entryLine, List.head?_append, hhead]; rfl) hc fun rest ↦ ?_
  obtain ⟨first, hfirst, hbegins⟩ := he.begins
  have hspace : skipSpace (e.2.inline.toList ++ '\n' :: rest) =
      e.2.inline.toList ++ '\n' :: rest := by
    refine skipSpace_of_beginsValue hbegins ?_
    rw [List.head?_append, hfirst]
    rfl
  have hvalue := he.value_append ('\n' :: rest) (endsValue_cons List.mem_cons_self rest)
  obtain ⟨more, hmore⟩ := List.head?_eq_some_iff.1 hhead
  have hplain : ∀ cs, entryLine e ++ rest ≠ '[' :: cs := by
    intro cs heq
    rw [entryLine, hmore] at heq
    exact hbracket (List.cons.inj heq).1
  rw [Progress.line, key_entryLine]
  · show (value (nestingLimit - 1) (skipSpace (e.2.inline.toList ++ '\n' :: rest)) >>=
      fun r ↦ lineEnd r.2 >>= fun rest ↦ p.set [] e.1 r.1 >>= fun q ↦ pure (q, rest)) = _
    rw [hspace, hvalue]
    show (lineEnd ('\n' :: rest) >>= fun rest ↦ p.set [] e.1 e.2 >>= fun q ↦ pure (q, rest)) = _
    rw [lineEnd_lineFeed, hset]
    rfl
  · exact fun cs heq ↦ hplain _ heq
  · exact fun cs heq ↦ hplain _ heq

/-- **A heading is read back.** -/
theorem reads_headingLine {front : List String} {name : String}
    (hlength : (front ++ [name]).length < nestingLimit)
    (hhead : p.head front name Draft.openTable = .ok q) :
    Reads p (headingLine (front ++ [name])) q := by
  refine .of_line (c := '[') rfl (by decide) fun rest ↦ ?_
  have hkey : key (pathText (front ++ [name]) ++ ']' :: '\n' :: rest) =
      .ok ((front, name), ']' :: '\n' :: rest) :=
    key_pathText front name ⟨by rintro _ ⟨⟩; decide, by rintro ⟨⟩⟩ hlength
  have htext : headingLine (front ++ [name]) ++ rest =
      '[' :: (pathText (front ++ [name]) ++ ']' :: '\n' :: rest) := by
    rw [headingLine, List.cons_append, List.append_assoc]
    rfl
  have hplain : ∀ cs, pathText (front ++ [name]) ++ ']' :: '\n' :: rest ≠ '[' :: cs := by
    intro cs heq
    obtain ⟨c, hfirst, hbracket⟩ := exists_head?_pathText (front ++ [name]) (by simp)
    obtain ⟨more, hmore⟩ := List.head?_eq_some_iff.1 hfirst
    rw [hmore] at heq
    exact hbracket (List.cons.inj heq).1
  rw [htext, Progress.line, hkey]
  · show (lineEnd ('\n' :: rest) >>= fun rest ↦
      p.head front name Draft.openTable >>= fun q ↦ pure (q, rest)) = _
    rw [lineEnd_lineFeed, hhead]
    rfl
  · exact fun cs heq ↦ hplain _ heq

end ApiContract.Toml
