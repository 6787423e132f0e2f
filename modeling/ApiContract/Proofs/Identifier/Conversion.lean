import ApiContract.Proofs.Identifier.Binding
import ApiContract.Proofs.Identifier.ConstantCase

/-!
# Names that are converted again

What a conversion makes of a name is cut into words once more when it is converted again. This
module proves that nothing is lost or moved by that: each of the four cases is reached at once, and
a binding is stable.

## Main results

* `Identifier.conversions_settle`, for every text: each case is idempotent, the words are not empty
  and are together the letters and digits of the text, and those of the snake case are the words of
  the text in small letters.
* `Identifier.binding_stable_and_safe`, for every text: the binding of a name is that of its binding
  and of its camel case, is no reserved word, and is a name of letters, digits and underscores as
  soon as there is a letter or digit in it.

## Words that are found again

A separator cuts a text as it stands (`words_append_cons`), and a text of small letters and digits
is one word (`words_eq_singleton`), so the words that snake case and kebab case join are found again
(`words_joinedLower`). Pascal case and camel case join words without a separator: their words may
differ from those of the name, but every word behind the first begins with a capital, which is all
that counts. The underscores of a binding are separators too, so they vanish when it is converted
and come back when it is bound again (`camelCase_binding`).

## Words from one character to the next

`words` is a recursion on the text. Read from one character to the next, the word so far is kept and
the character before is asked for in front of a capital; `scanWords?_eq_some` says that it is there
whenever it is asked for, and that the words are the same. The induction is on the rest of the text,
with the part that was read as a parameter: a word that goes on is an end of it
(`scanFrom?_eq_some`).

Letters are those from `a` to `z` and from `A` to `Z`, as everywhere in names; a letter of another
alphabet is a separator.
-/

namespace ApiContract.Identifier

/-! ### Words between separators -/

/-- A character that is no letter or digit adds nothing to a word. -/
theorem words_cons_of_not {c : Char} (hc : c.isAlphanum = false) (rest : List Char) :
    words (c :: rest) = words rest := by
  rw [words.eq_def]
  dsimp only
  rw [hc, if_neg Bool.false_ne_true]

/-- A letter or digit alone is a word. -/
theorem words_singleton {c : Char} (hc : c.isAlphanum = true) : words [c] = [[c]] := by
  rw [words.eq_def]
  dsimp only
  rw [if_pos hc]

/-- A letter or digit goes on with the word behind it, unless a word ends between the two. -/
theorem words_cons_cons {c : Char} (hc : c.isAlphanum = true) (d : Char) (more : List Char) :
    words (c :: d :: more) =
      if d.isAlphanum && !breaksBetween c d more.head? then consFirst c (words (d :: more))
      else [c] :: words (d :: more) := by
  rw [words.eq_def]
  dsimp only
  rw [if_pos hc]

/-- What follows a separator has no part in where a word in front of it ends. -/
theorem breaksBetween_append_cons (c d : Char) {x : Char} (hx : x.isAlphanum = false)
    (more rest : List Char) :
    breaksBetween c d (more ++ x :: rest).head? = breaksBetween c d more.head? := by
  cases more with
  | nil =>
    have hlower : x.isLower = false := by
      rw [← Bool.not_eq_true]
      intro hlower
      rw [Char.isAlphanum, Char.isAlpha_eq_or, hlower, Bool.or_true, Bool.true_or] at hx
      exact absurd hx.symm Bool.false_ne_true
    simp [breaksBetween, hlower]
  | cons e more => rfl

/-- **A separator cuts a text**: the words are those in front of it and those behind it. -/
theorem words_append_cons {x : Char} (hx : x.isAlphanum = false) (front rest : List Char) :
    words (front ++ x :: rest) = words front ++ words rest := by
  fun_induction words front with
  | case1 => exact words_cons_of_not hx rest
  | case2 c hc =>
    rw [List.singleton_append, words_cons_cons hc, hx, Bool.false_and, if_neg Bool.false_ne_true,
      words_cons_of_not hx]
    rfl
  | case3 c hc d more hjoin ih =>
    obtain ⟨word, found, hwords⟩ := exists_words_cons (Bool.and_eq_true_iff.1 hjoin).1 more
    rw [List.cons_append, List.cons_append, words_cons_cons hc,
      breaksBetween_append_cons c d hx, if_pos hjoin, ← List.cons_append, ih, hwords]
    rfl
  | case4 c hc d more hbreak ih =>
    rw [List.cons_append, List.cons_append, words_cons_cons hc,
      breaksBetween_append_cons c d hx, if_neg hbreak, ← List.cons_append, ih]
    rfl
  | case5 c cs hc ih =>
    rw [List.cons_append, words_cons_of_not (Bool.eq_false_iff.2 hc), ih]

/-- The words of joined texts are those of the texts. -/
theorem words_intercalate {x : Char} (hx : x.isAlphanum = false) (parts : List (List Char)) :
    words ([x].intercalate parts) = parts.flatMap words := by
  induction parts with
  | nil => rfl
  | cons part rest ih =>
    cases rest with
    | nil => simp only [List.intercalate_singleton, List.flatMap_cons, List.flatMap_nil,
        List.append_nil]
    | cons next rest =>
      rw [List.intercalate_cons_cons, List.append_assoc, List.singleton_append,
        words_append_cons hx, ih]
      rfl

/-- Small letters and digits are one word. -/
theorem words_eq_singleton {word : List Char} (hne : word ≠ [])
    (h : ∀ c ∈ word, c.isAlphanum = true ∧ c.isUpper = false) : words word = [word] := by
  induction word with
  | nil => exact absurd rfl hne
  | cons c rest ih =>
    obtain ⟨⟨hc, -⟩, hrest⟩ := List.forall_mem_cons.1 h
    cases rest with
    | nil => exact words_singleton hc
    | cons d more =>
      obtain ⟨hd, hupper⟩ := hrest d List.mem_cons_self
      -- what is no capital ends no word
      have hjoin : (d.isAlphanum && !breaksBetween c d more.head?) = true := by
        rw [hd, breaksBetween, hupper]
        rfl
      rw [words_cons_cons hc, if_pos hjoin, ih (List.cons_ne_nil d more) hrest]
      rfl

/-! ### Joined words -/

/-- Small letters stay small. -/
theorem lowerWord_lowerWord (word : List Char) : lowerWord (lowerWord word) = lowerWord word := by
  refine lowerWord_eq_self fun c hc ↦ ?_
  obtain ⟨d, -, rfl⟩ := List.mem_map.1 hc
  exact Char.isUpper_toLower d

/-- A word in small letters is one word. -/
theorem words_lowerWord {cs word : List Char} (h : word ∈ words cs) :
    words (lowerWord word) = [lowerWord word] := by
  refine words_eq_singleton ?_ fun c hc ↦ ?_
  · rw [lowerWord, ne_eq, List.map_eq_nil_iff]
    exact ne_nil_of_mem_words h
  · obtain ⟨d, hd, rfl⟩ := List.mem_map.1 hc
    exact ⟨Char.isAlphanum_toLower (isAlphanum_of_mem_words word h d hd),
      Char.isUpper_toLower d⟩

/-- **The words that are joined in small letters are the words of the result.** -/
theorem words_joinedLower {separator : Char} (hseparator : separator.isAlphanum = false)
    (cs : List Char) : words (joinedLower separator cs) = (words cs).map lowerWord := by
  rw [joinedLower, words_intercalate hseparator, List.flatMap_map,
    List.flatMap_congr fun word hword ↦ words_lowerWord hword]
  exact List.map_eq_flatMap.symm

/-- What is joined may be joined again, with the same separator or another. -/
theorem joinedLower_joinedLower (separator : Char) {first : Char}
    (hfirst : first.isAlphanum = false) (cs : List Char) :
    joinedLower separator (joinedLower first cs) = joinedLower separator cs := by
  have hlower : (words cs).map (lowerWord ∘ lowerWord) = (words cs).map lowerWord :=
    List.map_congr_left fun word _ ↦ lowerWord_lowerWord word
  rw [joinedLower, words_joinedLower hfirst, List.map_map, hlower, joinedLower]

/-! ### Words without a separator -/

/-- A text of letters and digits in Pascal case stays as it is if it begins with no small letter. -/
theorem pascalChars_eq_self {cs : List Char} (h : ∀ c ∈ cs, c.isAlphanum = true)
    (hhead : ∀ c ∈ cs.head?, c.isLower = false) : pascalChars cs = cs := by
  rcases cs with - | ⟨c, cs⟩
  · rfl
  obtain ⟨word, rest, hwords⟩ := exists_words_cons (h c List.mem_cons_self) cs
  have hfirst : capitalize (c :: word) = c :: word := by
    rw [capitalize, Char.toUpper_eq_self (hhead c rfl)]
  have hcapital := flatMap_capitalize_tail_words h
  rw [hwords, List.tail_cons] at hcapital
  rw [pascalChars, hwords, List.flatMap_cons, hfirst, hcapital]
  exact (eq_first_append_tail h hwords).symm

/-- **A name in Pascal case is converted to itself.** -/
theorem pascalChars_pascalChars (cs : List Char) :
    pascalChars (pascalChars cs) = pascalChars cs := by
  refine pascalChars_eq_self (fun _ ↦ isAlphanum_of_mem_pascalChars) fun c hc ↦ ?_
  rw [head?_pascalChars] at hc
  obtain ⟨d, -, rfl⟩ := Option.map_eq_some_iff.1 hc
  exact Char.isLower_toUpper d

/-! ### Words from one character to the next -/

/-- The character in front of a place; there is none in front of the first one, or behind the
end. -/
def before? (cs : List Char) : Nat → Option Char
  | 0 => none
  | i + 1 => cs[i]?

/-- A word that ends, if there is one, in front of those that follow. -/
def closeWord (word : List Char) (following : List (List Char)) : List (List Char) :=
  if word.isEmpty then following else word :: following

/-- Reads the words of a text from a place on, given the word that goes on there. In front of a
capital within a word the character before is asked for; there are no words if it is not there. -/
def scanFrom? (cs : List Char) (i : Nat) (word : List Char) : List Char → Option (List (List Char))
  | [] => some (closeWord word [])
  | c :: rest =>
    if c.isAlphanum then
      if c.isUpper && !word.isEmpty then
        (before? cs i).bind fun previous ↦
          if breaksBetween previous c cs[i + 1]? then
            (scanFrom? cs (i + 1) [c] rest).map (word :: ·)
          else scanFrom? cs (i + 1) (word ++ [c]) rest
      else scanFrom? cs (i + 1) (word ++ [c]) rest
    else (scanFrom? cs (i + 1) [] rest).map (closeWord word)

/-- The words of a text, read from one character to the next. -/
def scanWords? (s : String) : Option (List String) :=
  (scanFrom? s.toList 0 [] s.toList).map (List.map String.ofList)

theorem isEmpty_concat (word : List Char) (c : Char) : (word ++ [c]).isEmpty = false :=
  List.isEmpty_eq_false_iff.2 (List.append_ne_nil_of_right_ne_nil word (List.cons_ne_nil c []))

theorem closeWord_concat (word : List Char) (c : Char) (following : List (List Char)) :
    closeWord (word ++ [c]) following = (word ++ [c]) :: following := by
  rw [closeWord, isEmpty_concat, if_neg Bool.false_ne_true]

/-- In front of the place behind a word is the last character of the word. -/
theorem before?_length {done rest word : List Char} {c : Char} (h : word ++ [c] <:+ done) :
    before? (done ++ rest) done.length = some c := by
  obtain ⟨front, rfl⟩ := h
  rw [← List.append_assoc, List.length_append, List.length_singleton, before?,
    List.append_assoc, List.getElem?_append_right (Nat.le_refl _), Nat.sub_self]
  rfl

/-- Behind the next character is the first one of what is left. -/
theorem getElem?_length_succ (done more : List Char) (d : Char) :
    (done ++ d :: more)[done.length + 1]? = more.head? := by
  have hone : done.length + 1 - done.length = 1 := Nat.add_sub_cancel_left _ _
  rw [List.getElem?_append_right (Nat.le_succ _), Nat.succ_eq_add_one, hone,
    List.getElem?_cons_succ, List.head?_eq_getElem?]

/-- Characters that are put in front of the first word one by one stand in front of it together. -/
theorem foldr_consFirst (front word : List Char) (found : List (List Char)) :
    front.foldr consFirst (word :: found) = (front ++ word) :: found := by
  induction front with
  | nil => rfl
  | cons c front ih => rw [List.foldr_cons, ih]; rfl

/-- **What a scan reads at a place**: the words of the rest if no word goes on there, and otherwise
those of the rest with the last character of the word, the others in front of the first one. -/
theorem scanFrom?_eq_some (rest : List Char) :
    ∀ done : List Char, scanFrom? (done ++ rest) done.length [] rest = some (words rest) ∧
      ∀ (word : List Char) (c : Char), c.isAlphanum = true → word ++ [c] <:+ done →
        scanFrom? (done ++ rest) done.length (word ++ [c]) rest =
          some (word.foldr consFirst (words (c :: rest))) := by
  induction rest with
  | nil =>
    intro done
    refine ⟨rfl, fun word c hc _ ↦ ?_⟩
    rw [scanFrom?, words_singleton hc, foldr_consFirst, closeWord_concat]
  | cons d more ih =>
    intro done
    -- the scan goes on at the next place, with `d` among what is done
    obtain ⟨hfresh, hgoing⟩ := ih (done ++ [d])
    rw [List.append_assoc, List.singleton_append, List.length_append, List.length_singleton]
      at hfresh hgoing
    cases hd : d.isAlphanum with
    | false =>
      refine ⟨?_, fun word c hc _ ↦ ?_⟩
      · rw [scanFrom?, hd, if_neg Bool.false_ne_true, hfresh, words_cons_of_not hd]
        rfl
      · rw [scanFrom?, hd, if_neg Bool.false_ne_true, hfresh, words_cons_cons hc, hd,
          Bool.false_and, if_neg Bool.false_ne_true, words_cons_of_not hd, foldr_consFirst,
          Option.map_some, closeWord_concat]
    | true =>
      have halone := hgoing [] d hd (List.suffix_append done [d])
      rw [List.nil_append, List.foldr_nil] at halone
      refine ⟨?_, fun word c hc hword ↦ ?_⟩
      · rw [scanFrom?, if_pos hd, List.isEmpty_nil, Bool.not_true, Bool.and_false,
          if_neg Bool.false_ne_true]
        exact halone
      obtain ⟨front, hfront⟩ := hword
      have hlonger := hgoing (word ++ [c]) d hd ⟨front, by rw [← List.append_assoc, hfront]⟩
      rw [List.foldr_append, List.foldr_cons, List.foldr_nil] at hlonger
      rw [scanFrom?, if_pos hd, isEmpty_concat, Bool.not_false, Bool.and_true,
        before?_length ⟨front, hfront⟩, Option.bind_some, getElem?_length_succ,
        words_cons_cons hc, hd, Bool.true_and]
      cases hbreak : breaksBetween c d more.head? with
      | true =>
        -- a word ends in front of a capital only
        have hupper : d.isUpper = true := (Bool.and_eq_true_iff.1 hbreak).1
        rw [if_pos hupper, if_pos rfl, halone, Bool.not_true, if_neg Bool.false_ne_true,
          foldr_consFirst]
        rfl
      | false =>
        rw [if_neg Bool.false_ne_true, ite_self, hlonger, Bool.not_false, if_pos rfl]

/-- **A capital within a word has a character before it**, and the words are those of the text. -/
theorem scanWords?_eq_some (s : String) : scanWords? s = some (wordsOf s) := by
  have hscan := (scanFrom?_eq_some s.toList []).1
  rw [List.nil_append, List.length_nil] at hscan
  rw [scanWords?, hscan, wordsOf, Option.map_some]

example : scanWords? "HTTPServer v2Id" = some ["HTTP", "Server", "v2", "Id"] := by decide

/-! ### Conversions of texts -/

/-- No word of a text is empty. -/
theorem ne_empty_of_mem_wordsOf {s word : String} (h : word ∈ wordsOf s) : word ≠ "" := by
  obtain ⟨found, hfound, rfl⟩ := List.mem_map.1 h
  rw [ne_eq, String.ofList_eq_empty_iff]
  exact ne_nil_of_mem_words hfound

/-- The words of a text are together its letters and digits. -/
theorem join_wordsOf (s : String) :
    String.join (wordsOf s) = String.ofList (s.toList.filter Char.isAlphanum) := by
  have hback : (wordsOf s).map String.toList = words s.toList := by
    rw [wordsOf, List.map_map]
    exact (List.map_congr_left fun word _ ↦ String.toList_ofList).trans (List.map_id _)
  rw [String.join_eq, hback, flatten_words]

theorem pascalCase_pascalCase (s : String) : pascalCase (pascalCase s) = pascalCase s := by
  rw [pascalCase, pascalCase, String.toList_ofList, pascalChars_pascalChars]

theorem snakeCase_snakeCase (s : String) : snakeCase (snakeCase s) = snakeCase s := by
  rw [snakeCase, snakeCase, String.toList_ofList, joinedLower_joinedLower _ rfl]

theorem kebabCase_kebabCase (s : String) : kebabCase (kebabCase s) = kebabCase s := by
  rw [kebabCase, kebabCase, String.toList_ofList, joinedLower_joinedLower _ rfl]

theorem kebabCase_snakeCase (s : String) : kebabCase (snakeCase s) = kebabCase s := by
  rw [kebabCase, snakeCase, String.toList_ofList, joinedLower_joinedLower _ rfl, kebabCase]

/-- A text in small letters is that of its characters in small letters. -/
theorem toLower_ofList (word : List Char) :
    (String.ofList word).toLower = String.ofList (lowerWord word) := by
  show (String.ofList word).map Char.toLower = String.ofList (word.map Char.toLower)
  rw [← String.toList_inj, String.toList_map, String.toList_ofList, String.toList_ofList]

/-- The words in snake case are those of the text in small letters. -/
theorem wordsOf_snakeCase (s : String) :
    wordsOf (snakeCase s) = (wordsOf s).map String.toLower := by
  rw [wordsOf, snakeCase, String.toList_ofList, words_joinedLower rfl, wordsOf, List.map_map,
    List.map_map]
  exact List.map_congr_left fun word _ ↦ (toLower_ofList word).symm

/-- **Conversions lose nothing and settle.** Every character that is asked for is there, the words
are not empty and are together the letters and digits of the text; each case is reached at once, and
the words in snake case are those of the text in small letters. -/
theorem conversions_settle (s : String) :
    scanWords? s = some (wordsOf s) ∧
      (∀ word ∈ wordsOf s, word ≠ "") ∧
      String.join (wordsOf s) = String.ofList (s.toList.filter Char.isAlphanum) ∧
      pascalCase (pascalCase s) = pascalCase s ∧
      camelCase (camelCase s) = camelCase s ∧
      snakeCase (snakeCase s) = snakeCase s ∧
      kebabCase (kebabCase s) = kebabCase s ∧
      wordsOf (snakeCase s) = (wordsOf s).map String.toLower ∧
      kebabCase (snakeCase s) = kebabCase s :=
  ⟨scanWords?_eq_some s, fun _ ↦ ne_empty_of_mem_wordsOf, join_wordsOf s, pascalCase_pascalCase s,
    camelCase_camelCase s, snakeCase_snakeCase s, kebabCase_kebabCase s, wordsOf_snakeCase s,
    kebabCase_snakeCase s⟩

/-! ### Bindings -/

/-- The underscore in front of a digit is no part of a word. -/
theorem words_guardDigit (cs : List Char) : words (guardDigit cs) = words cs := by
  cases cs with
  | nil => rfl
  | cons c rest =>
    rw [guardDigit]
    split
    · exact words_cons_of_not rfl _
    · rfl

/-- The underscore behind a reserved word is no part of a word. -/
theorem words_guardReserved (name : String) :
    words (guardReserved name).toList = words name.toList := by
  rw [guardReserved]
  split
  · rw [String.toList_append]
    exact (words_append_cons rfl name.toList []).trans (List.append_nil _)
  · rfl

/-- **The underscores of a binding vanish when it is converted.** -/
theorem camelCase_binding (s : String) : camelCase (binding s) = camelCase s := by
  have hwords : words (binding s).toList = words (camelChars s.toList) := by
    rw [binding, words_guardReserved, String.toList_ofList, words_guardDigit]
  calc camelCase (binding s) = String.ofList (camelChars (camelChars s.toList)) := by
        rw [camelCase, camelChars, hwords, ← camelChars]
    _ = camelCase s := by rw [camelChars_camelChars, camelCase]

/-- Whether a character may stand in a name of letters, digits and underscores. -/
def isWordChar (c : Char) : Bool := c.isAlphanum || c == '_'

/-- A name of letters, digits and underscores that begins with no digit. -/
def IsWordName (name : String) : Prop :=
  (∃ c ∈ name.toList.head?, c.isAlpha = true ∨ c = '_') ∧ ∀ c ∈ name.toList, isWordChar c = true

/-- Letters and digits, guarded against a digit in front, are letters, digits and underscores. -/
theorem isWordChar_of_mem_guardDigit {cs : List Char} (h : ∀ c ∈ cs, c.isAlphanum = true) :
    ∀ c ∈ guardDigit cs, isWordChar c = true := by
  have hkept : ∀ c ∈ cs, isWordChar c = true := fun c hc ↦ by
    rw [isWordChar, h c hc, Bool.true_or]
  cases cs with
  | nil => exact hkept
  | cons c rest =>
    rw [guardDigit]
    split
    · exact List.forall_mem_cons.2 ⟨rfl, hkept⟩
    · exact hkept

/-- A binding is made of letters, digits and underscores. -/
theorem isWordChar_of_mem_binding (s : String) : ∀ c ∈ (binding s).toList, isWordChar c = true := by
  have hguarded : ∀ c ∈ guardDigit (camelChars s.toList), isWordChar c = true :=
    isWordChar_of_mem_guardDigit fun _ ↦ isAlphanum_of_mem_camelChars
  rw [binding, guardReserved]
  split
  · rw [String.toList_append, String.toList_ofList]
    exact List.forall_mem_append.2 ⟨hguarded, List.forall_mem_singleton.2 rfl⟩
  · rwa [String.toList_ofList]

theorem isPlainChar_of_isWordChar {c : Char} (h : isWordChar c = true) : isPlainChar c = true := by
  rw [isWordChar] at h
  rw [isPlainChar, h, Bool.true_or]

/-- A binding has no dollar sign, so it is a name of letters, digits and underscores just if it can
stand after a dot. -/
theorem isWordName_binding_iff (s : String) :
    IsWordName (binding s) ↔ ∃ c ∈ s.toList, c.isAlphanum = true := by
  rw [← isPlainProperty_binding_iff]
  have hchars := isWordChar_of_mem_binding s
  constructor
  · rintro ⟨⟨c, hc, hstart⟩, -⟩
    obtain ⟨rest, hname⟩ := List.head?_eq_some_iff.1 hc
    have hfirst : isPlainStart c = true := by
      rcases hstart with halpha | rfl
      · rw [isPlainStart, halpha]
        rfl
      · rfl
    refine isPlainProperty_iff.2 ⟨c, rest, hname, hfirst, fun d hd ↦ ?_⟩
    exact isPlainChar_of_isWordChar (hchars d (hname ▸ List.mem_cons_of_mem c hd))
  · intro hplain
    obtain ⟨c, rest, hname, hstart, -⟩ := isPlainProperty_iff.1 hplain
    have hword : isWordChar c = true := hchars c (hname ▸ List.mem_cons_self)
    have hdollar : c ≠ '$' := by
      rintro rfl
      exact absurd hword (by decide)
    refine ⟨⟨c, by rw [hname]; rfl, ?_⟩, hchars⟩
    simpa [isPlainStart, hdollar] using hstart

/-- **Bindings are stable and safe**: what is bound for a name is bound for its binding and for its
camel case too. It is a name of letters, digits and underscores as soon as there is a letter or
digit in the name, and no reserved word. -/
theorem binding_stable_and_safe (s : String) :
    binding (binding s) = binding s ∧ binding s = binding (camelCase s) ∧
      (IsWordName (binding s) ↔ ∃ c ∈ s.toList, c.isAlphanum = true) ∧ binding s ∉ reserved :=
  ⟨binding_eq_binding_iff.2 (camelCase_binding s), (binding_camelCase s).symm,
    isWordName_binding_iff s, binding_not_mem_reserved s⟩

end ApiContract.Identifier
