import ApiContract.Proofs.Identifier
import Mathlib.Data.List.Chain

/-!
# Names and their words

Every conversion of a name begins with its words. This module says what words are and what the camel
case and the Pascal case of a name have to do with each other.

## What words are made of

The words of a name are its letters and digits, cut into pieces (`flatten_words`), and within a word
a capital only ever follows a capital (`isChain_of_mem_words`): so a word that does not begin with a
capital has none. Both are inductions along `words`, which looks at a character, the next one and
the one behind that.

## Identifiers

In a text of letters and digits alone, every word but the first begins with a capital. So an
identifier converts to itself: camel case changes the first word and nothing else, and what it makes
of a name does not begin with a capital (`camelChars_camelChars`).

## Camel case and Pascal case

The Pascal case of a name is its camel case with a capital in front, unless the name begins with an
acronym (`pascalChars_eq_capitalize`): there the two keep different letters, and names that are told
apart in the one may agree in the other. `startsWithAcronym_of_camelCase_eq` is what other modules
use of this: it tells where identifiers that are distinct as types clash as functions.

## First letters

Pascal case puts a capital where the name has its first letter or digit, and neither drops a digit
in front nor guards it. So what it makes of a name is an identifier exactly if that first character
is a letter (`isPlainProperty_pascalCase_append_iff`), whatever ending is put behind it.
-/

namespace ApiContract.Identifier

/-! ### What words are made of -/

theorem flatten_consFirst (c : Char) (found : List (List Char)) :
    (consFirst c found).flatten = c :: found.flatten := by
  cases found <;> rfl

/-- **The words of a name are its letters and digits**, in their order. -/
theorem flatten_words (cs : List Char) : (words cs).flatten = cs.filter Char.isAlphanum := by
  fun_induction words cs with
  | case1 => rfl
  | case2 c hc => simp [hc]
  | case3 c hc d more hjoin ih => rw [flatten_consFirst, ih, List.filter_cons_of_pos hc]
  | case4 c hc d more hbreak ih =>
    rw [List.flatten_cons, ih, List.filter_cons_of_pos hc, List.singleton_append]
  | case5 c rest hc ih => rw [ih, List.filter_cons_of_neg hc]

/-- The first word of a name that begins with a letter or digit begins with it too. -/
theorem exists_words_cons {c : Char} (hc : c.isAlphanum = true) (rest : List Char) :
    ∃ word found, words (c :: rest) = (c :: word) :: found := by
  have hfirst (found : List (List Char)) :
      ∃ word later, consFirst c found = (c :: word) :: later := by
    cases found <;> exact ⟨_, _, rfl⟩
  rw [words.eq_def]
  dsimp only
  rw [if_pos hc]
  split
  · exact ⟨_, _, rfl⟩
  · split
    · exact hfirst _
    · exact ⟨_, _, rfl⟩

/-- Where a letter or digit does not end a word, the next one is a capital only after a capital. -/
theorem isUpper_of_not_breaksBetween {c d : Char} {next : Option Char} (hc : c.isAlphanum = true)
    (h : breaksBetween c d next = false) (hd : d.isUpper = true) : c.isUpper = true := by
  have hkept : c.isLower = false ∧ c.isDigit = false := by
    simp only [breaksBetween, hd, Bool.true_and, Bool.or_eq_false_iff] at h
    exact h.1
  simpa [Char.isAlphanum, Char.isAlpha_eq_or, hkept] using hc

/-- **Within a word a capital follows a capital.** -/
theorem isChain_of_mem_words {cs : List Char} :
    ∀ word ∈ words cs, word.IsChain fun c d ↦ d.isUpper = true → c.isUpper = true := by
  fun_induction words cs with
  | case1 => simp
  | case2 c hc => simp
  | case3 c hc d more hjoin ih =>
    obtain ⟨hd, hsame⟩ := Bool.and_eq_true_iff.1 hjoin
    rw [Bool.not_eq_true'] at hsame
    obtain ⟨word, found, hwords⟩ := exists_words_cons hd more
    rw [hwords] at ih ⊢
    obtain ⟨hfirst, hlater⟩ := List.forall_mem_cons.1 ih
    exact List.forall_mem_cons.2
      ⟨List.isChain_cons_cons.2 ⟨isUpper_of_not_breaksBetween hc hsame, hfirst⟩, hlater⟩
  | case4 c hc d more hbreak ih => exact List.forall_mem_cons.2 ⟨List.isChain_singleton c, ih⟩
  | case5 c rest hc ih => exact ih

/-- After something that is no capital, a word has no capitals. -/
theorem isUpper_eq_false_of_isChain {c : Char} {word : List Char}
    (h : (c :: word).IsChain fun c d ↦ d.isUpper = true → c.isUpper = true)
    (hc : c.isUpper = false) : ∀ d ∈ word, d.isUpper = false := by
  induction word generalizing c with
  | nil => simp
  | cons d word ih =>
    obtain ⟨hstep, hrest⟩ := List.isChain_cons_cons.1 h
    have hd : d.isUpper = false := by
      rw [← Bool.not_eq_true]
      intro hupper
      exact Bool.false_ne_true (hc.symm.trans (hstep hupper))
    exact List.forall_mem_cons.2 ⟨hd, ih hrest hd⟩

theorem lowerWord_eq_self {word : List Char} (h : ∀ c ∈ word, c.isUpper = false) :
    lowerWord word = word := by
  rw [lowerWord, List.map_congr_left fun c hc ↦ Char.toLower_eq_self (h c hc), List.map_id']

/-! ### Identifiers -/

/-- A capital begins every later word of a text of letters and digits. -/
theorem capitalize_of_mem_tail_words {cs : List Char} (h : ∀ c ∈ cs, c.isAlphanum = true) :
    ∀ word ∈ (words cs).tail, capitalize word = word := by
  fun_induction words cs with
  | case1 => simp
  | case2 c hc => simp
  | case3 c hc d more hjoin ih =>
    have hrest := (List.forall_mem_cons.1 h).2
    obtain ⟨word, found, hwords⟩ := exists_words_cons (hrest d List.mem_cons_self) more
    have hlater := ih hrest
    rw [hwords] at hlater ⊢
    exact hlater
  | case4 c hc d more hbreak ih =>
    have hrest := (List.forall_mem_cons.1 h).2
    have hd : d.isAlphanum = true := hrest d List.mem_cons_self
    obtain ⟨word, found, hwords⟩ := exists_words_cons hd more
    have hlater := ih hrest
    rw [hwords] at hlater
    rw [List.tail_cons, hwords]
    -- a word ends in front of a letter or digit only if this is a capital
    have hupper : d.isUpper = true := by
      have hends : breaksBetween c d more.head? = true := by simpa [hd] using hbreak
      exact (Bool.and_eq_true_iff.1 hends).1
    refine List.forall_mem_cons.2 ⟨?_, hlater⟩
    rw [capitalize, Char.toUpper_eq_self (Char.isLower_eq_false_of_isUpper hupper)]
  | case5 c rest hc ih => exact absurd (h c List.mem_cons_self) hc

/-- In a text of letters and digits, capitals at the later words change nothing. -/
theorem flatMap_capitalize_tail_words {cs : List Char} (h : ∀ c ∈ cs, c.isAlphanum = true) :
    (words cs).tail.flatMap capitalize = (words cs).tail.flatten := by
  rw [List.flatMap_def, List.map_congr_left (capitalize_of_mem_tail_words h), List.map_id']

/-- The letters and digits of a text are those of its first word and of the others. -/
theorem eq_first_append_tail {cs first : List Char} {rest : List (List Char)}
    (h : ∀ c ∈ cs, c.isAlphanum = true) (hwords : words cs = first :: rest) :
    cs = first ++ rest.flatten := by
  rw [← List.flatten_cons, ← hwords, flatten_words, List.filter_eq_self.2 h]

/-- A text of letters and digits in camel case stays as it is if it begins with no capital. -/
theorem camelChars_eq_self {cs : List Char} (h : ∀ c ∈ cs, c.isAlphanum = true)
    (hhead : ∀ c ∈ cs.head?, c.isUpper = false) : camelChars cs = cs := by
  rcases cs with - | ⟨c, cs⟩
  · rfl
  obtain ⟨word, rest, hwords⟩ := exists_words_cons (h c List.mem_cons_self) cs
  have hchain := isChain_of_mem_words (c :: word) (hwords ▸ List.mem_cons_self)
  have hc : c.isUpper = false := hhead c rfl
  have hlower : lowerWord (c :: word) = c :: word :=
    lowerWord_eq_self (List.forall_mem_cons.2 ⟨hc, isUpper_eq_false_of_isChain hchain hc⟩)
  have hcapital := flatMap_capitalize_tail_words h
  rw [hwords, List.tail_cons] at hcapital
  rw [camelChars, hwords]
  dsimp only
  rw [hlower, hcapital]
  exact (eq_first_append_tail h hwords).symm

/-- What camel case makes of a name begins with no capital. -/
theorem isUpper_head_camelChars (cs : List Char) :
    ∀ c ∈ (camelChars cs).head?, c.isUpper = false := by
  rw [camelChars]
  split
  · simp
  · next first rest hwords =>
    obtain ⟨c, word, rfl⟩ := List.exists_cons_of_ne_nil
      (ne_nil_of_mem_words (hwords ▸ List.mem_cons_self))
    intro d hd
    obtain rfl : c.toLower = d := by simpa [lowerWord] using hd
    exact Char.isUpper_toLower c

/-- **A name in camel case is converted to itself.** -/
theorem camelChars_camelChars (cs : List Char) : camelChars (camelChars cs) = camelChars cs :=
  camelChars_eq_self (fun _ ↦ isAlphanum_of_mem_camelChars) (isUpper_head_camelChars cs)

theorem camelCase_camelCase (s : String) : camelCase (camelCase s) = camelCase s := by
  rw [camelCase, camelCase, String.toList_ofList, camelChars_camelChars]

/-! ### Camel case and Pascal case -/

/-- A name begins with an acronym if a capital is the second letter of its first word. -/
def StartsWithAcronym (s : String) : Prop :=
  ∃ c d word rest, words s.toList = (c :: d :: word) :: rest ∧ d.isUpper = true

/-- **Pascal case is camel case with a capital in front**, unless the name begins with an
acronym. -/
theorem pascalChars_eq_capitalize {s : String} (h : ¬StartsWithAcronym s) :
    pascalChars s.toList = capitalize (camelChars s.toList) := by
  rw [pascalChars, camelChars]
  rcases hwords : words s.toList with - | ⟨first, rest⟩
  · rfl
  obtain ⟨c, word, rfl⟩ := List.exists_cons_of_ne_nil
    (ne_nil_of_mem_words (hwords ▸ List.mem_cons_self : first ∈ words s.toList))
  have hchain := isChain_of_mem_words (c :: word) (hwords ▸ List.mem_cons_self)
  have hword : lowerWord word = word := by
    refine lowerWord_eq_self ?_
    rcases word with - | ⟨d, word⟩
    · simp
    have hd : d.isUpper = false := by
      rw [← Bool.not_eq_true]
      exact fun hupper ↦ h ⟨c, d, word, rest, hwords, hupper⟩
    exact List.forall_mem_cons.2
      ⟨hd, isUpper_eq_false_of_isChain (List.isChain_cons_cons.1 hchain).2 hd⟩
  rw [lowerWord] at hword
  simp only [List.flatMap_cons, lowerWord, List.map_cons, hword, capitalize, List.cons_append,
    Char.toUpper_toLower]

/-- **Names with one camel case have one Pascal case**, unless one begins with an acronym. -/
theorem startsWithAcronym_of_camelCase_eq {s t : String} (hcamel : camelCase s = camelCase t)
    (hpascal : pascalCase s ≠ pascalCase t) : StartsWithAcronym s ∨ StartsWithAcronym t := by
  by_contra hneither
  obtain ⟨hs, ht⟩ := not_or.1 hneither
  have hchars : camelChars s.toList = camelChars t.toList := String.ofList_injective hcamel
  apply hpascal
  rw [pascalCase, pascalCase, pascalChars_eq_capitalize hs, pascalChars_eq_capitalize ht, hchars]

/-! ### First letters -/

/-- A name begins with a letter, whatever stands in front of its letters and digits. -/
def StartsWithLetter (s : String) : Prop :=
  ∃ c ∈ s.toList.find? Char.isAlphanum, c.isAlpha = true

instance (s : String) : Decidable (StartsWithLetter s) :=
  decidable_of_iff ((s.toList.find? Char.isAlphanum).any Char.isAlpha = true)
    (Option.any_eq_true _ _)

/-- Pascal case begins with the first letter or digit of the name, as a capital. -/
theorem head?_pascalChars (cs : List Char) :
    (pascalChars cs).head? = (cs.find? Char.isAlphanum).map Char.toUpper := by
  have hflat := flatten_words cs
  rw [← List.head?_filter, ← hflat, pascalChars]
  rcases hwords : words cs with - | ⟨first, rest⟩
  · rfl
  obtain ⟨c, word, rfl⟩ := List.exists_cons_of_ne_nil
    (ne_nil_of_mem_words (hwords ▸ List.mem_cons_self : first ∈ words cs))
  rfl

/-- Pascal case is made of letters and digits. -/
theorem isAlphanum_of_mem_pascalChars {cs : List Char} {c : Char} (h : c ∈ pascalChars cs) :
    c.isAlphanum = true := by
  obtain ⟨word, hword, hc⟩ := List.mem_flatMap.1 h
  exact isAlphanum_of_mem_capitalize (isAlphanum_of_mem_words word hword) c hc

/-- Of the letters and digits, the letters may begin an identifier. -/
theorem isPlainStart_eq_isAlpha {c : Char} (h : c.isAlphanum = true) :
    isPlainStart c = c.isAlpha := by
  have hunderscore : c ≠ '_' := by
    rintro rfl
    exact absurd h (by decide)
  have hdollar : c ≠ '$' := by
    rintro rfl
    exact absurd h (by decide)
  rw [isPlainStart, beq_false_of_ne hunderscore, beq_false_of_ne hdollar, Bool.or_false,
    Bool.or_false]

/-- **A name in Pascal case, with an ending, is an identifier if it begins with a letter.** -/
theorem isPlainProperty_pascalCase_append_iff {s ending : String} (hs : pascalCase s ≠ "")
    (hending : ∀ c ∈ ending.toList, isPlainChar c = true) :
    isPlainProperty (pascalCase s ++ ending) = true ↔ StartsWithLetter s := by
  have hne : pascalChars s.toList ≠ [] := by
    rwa [pascalCase, ne_eq, String.ofList_eq_empty_iff] at hs
  obtain ⟨c, rest, hchars⟩ := List.exists_cons_of_ne_nil hne
  have hall : ∀ d ∈ c :: rest, d.isAlphanum = true := fun d hd ↦
    isAlphanum_of_mem_pascalChars (hchars ▸ hd)
  obtain ⟨hc, hrest⟩ := List.forall_mem_cons.1 hall
  -- the first character is that of the name, as a capital, and a capital is a letter just if it is
  have hletter : isPlainStart c = true ↔ StartsWithLetter s := by
    have hhead := head?_pascalChars s.toList
    rw [hchars, List.head?_cons] at hhead
    obtain ⟨first, hfirst, rfl⟩ := Option.map_eq_some_iff.1 hhead.symm
    rw [isPlainStart_eq_isAlpha hc, Char.isAlpha_toUpper, StartsWithLetter, hfirst]
    simp
  have hlist : (pascalCase s ++ ending).toList = c :: (rest ++ ending.toList) := by
    rw [String.toList_append, pascalCase, String.toList_ofList, hchars, List.cons_append]
  rw [isPlainProperty_iff, hlist, ← hletter]
  constructor
  · rintro ⟨d, later, heq, hstart, -⟩
    exact (List.cons.inj heq).1 ▸ hstart
  · intro hstart
    exact ⟨c, _, rfl, hstart, List.forall_mem_append.2
      ⟨fun d hd ↦ isPlainChar_of_isAlphanum (hrest d hd), hending⟩⟩

end ApiContract.Identifier
