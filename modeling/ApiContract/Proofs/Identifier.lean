import ApiContract.Identifier
import Mathlib.Data.String.Basic
import Mathlib.Tactic.SplitIfs

/-!
# Names that give no identifier

What becomes of a name are its words, and these are runs of letters and digits: a name without any
has no words, and its identifier is empty (`words_eq_nil_iff`, `binding_ne_empty_iff`). Any other
name gives one that can stand after a dot (`isPlainProperty_binding_iff`).

## Letters

The first part is about single characters. Classes and conversions of ASCII letters are told by code
points, and what follows is arithmetic: a small letter and its capital are thirty-two apart, and
each conversion keeps letters and digits what they are.

## Words

The lemmas on words are by induction on the name along `words`, whose steps put a character in front
of the first word or begin one. Every property of the characters of a name's words, such as being a
letter or digit, follows from a lemma on `consFirst` and this induction.

## Guards

`guardDigit` and `guardReserved` make a name longer and never empty, so whether a name gives an
identifier is decided by its words alone. `isPlainProperty_binding_iff` is the form in which other
modules use it.
-/

namespace Char

variable {c : Char}

theorem isUpper_iff : c.isUpper = true ↔ 65 ≤ c.toNat ∧ c.toNat ≤ 90 := by
  delta isUpper
  simp [UInt32.le_iff_toNat_le]

theorem isLower_iff : c.isLower = true ↔ 97 ≤ c.toNat ∧ c.toNat ≤ 122 := by
  delta isLower
  simp [UInt32.le_iff_toNat_le]

/-- No letter is both a capital and a small one. -/
theorem isLower_eq_false_of_isUpper (h : c.isUpper = true) : c.isLower = false := by
  have hcode := isUpper_iff.1 h
  rw [← Bool.not_eq_true, isLower_iff]
  omega

theorem isAlpha_eq_or (c : Char) : c.isAlpha = (c.isUpper || c.isLower) := rfl

theorem isAlpha_iff : c.isAlpha = true ↔ c.isUpper = true ∨ c.isLower = true := by
  rw [isAlpha_eq_or, Bool.or_eq_true]

/-- Letters and digits, by their code points. -/
theorem isAlphanum_iff :
    c.isAlphanum = true ↔
      (65 ≤ c.toNat ∧ c.toNat ≤ 90) ∨ (97 ≤ c.toNat ∧ c.toNat ≤ 122) ∨
        (48 ≤ c.toNat ∧ c.toNat ≤ 57) := by
  rw [isAlphanum, Bool.or_eq_true, isAlpha_iff, isUpper_iff, isLower_iff, isDigit_iff_toNat,
    or_assoc]
  rfl

/-- The small letter of a capital is thirty-two code points above it. -/
theorem toNat_toLower : c.toLower.toNat = if c.isUpper then c.toNat + 32 else c.toNat := by
  delta toLower
  split_ifs with hrange hupper hupper
  · have hcode := isUpper_iff.1 hupper
    simp
    omega
  · obtain ⟨hlow, hhigh⟩ := hrange
    exact absurd
      (isUpper_iff.2 ⟨UInt32.le_iff_toNat_le.1 hlow, UInt32.le_iff_toNat_le.1 hhigh⟩) hupper
  · obtain ⟨hlow, hhigh⟩ := isUpper_iff.1 hupper
    exact absurd ⟨UInt32.le_iff_toNat_le.2 hlow, UInt32.le_iff_toNat_le.2 hhigh⟩ hrange
  · rfl

/-- The capital of a small letter is thirty-two code points below it. -/
theorem toNat_toUpper : c.toUpper.toNat = if c.isLower then c.toNat - 32 else c.toNat := by
  delta toUpper
  split_ifs with hrange hlower hlower
  · have hcode := isLower_iff.1 hlower
    simp
    omega
  · obtain ⟨hlow, hhigh⟩ := hrange
    exact absurd
      (isLower_iff.2 ⟨UInt32.le_iff_toNat_le.1 hlow, UInt32.le_iff_toNat_le.1 hhigh⟩) hlower
  · obtain ⟨hlow, hhigh⟩ := isLower_iff.1 hlower
    exact absurd ⟨UInt32.le_iff_toNat_le.2 hlow, UInt32.le_iff_toNat_le.2 hhigh⟩ hrange
  · rfl

theorem toLower_eq_self (h : c.isUpper = false) : c.toLower = c := by
  rw [← toNat_inj, toNat_toLower, h, if_neg Bool.false_ne_true]

theorem toUpper_eq_self (h : c.isLower = false) : c.toUpper = c := by
  rw [← toNat_inj, toNat_toUpper, h, if_neg Bool.false_ne_true]

theorem isUpper_toLower (c : Char) : c.toLower.isUpper = false := by
  rw [← Bool.not_eq_true, isUpper_iff, toNat_toLower]
  split_ifs with h <;> rw [isUpper_iff] at h <;> omega

theorem isLower_toUpper (c : Char) : c.toUpper.isLower = false := by
  rw [← Bool.not_eq_true, isLower_iff, toNat_toUpper]
  split_ifs with h <;> rw [isLower_iff] at h <;> omega

theorem isUpper_toUpper (c : Char) : c.toUpper.isUpper = c.isAlpha := by
  rw [Bool.eq_iff_iff, isAlpha_iff, isUpper_iff, isUpper_iff, toNat_toUpper]
  split_ifs with h
  · have hcode := isLower_iff.1 h
    exact ⟨fun _ ↦ .inr h, fun _ ↦ by omega⟩
  · exact ⟨.inl, fun hc ↦ hc.resolve_right h⟩

theorem isAlpha_toUpper (c : Char) : c.toUpper.isAlpha = c.isAlpha := by
  rw [isAlpha_eq_or, isLower_toUpper, Bool.or_false, isUpper_toUpper]

/-- Letters keep their capital as small ones. -/
theorem toUpper_toLower (c : Char) : c.toLower.toUpper = c.toUpper := by
  rw [← toNat_inj, toNat_toUpper, toNat_toUpper]
  simp only [isLower_iff, toNat_toLower, isUpper_iff]
  split_ifs <;> omega

/-- The small letter of a letter or digit is one. -/
theorem isAlphanum_toLower (h : c.isAlphanum = true) : c.toLower.isAlphanum = true := by
  rw [isAlphanum_iff] at h ⊢
  rw [toNat_toLower]
  split_ifs with hupper
  · have hcode := isUpper_iff.1 hupper
    omega
  · exact h

/-- The capital of a letter or digit is one. -/
theorem isAlphanum_toUpper (h : c.isAlphanum = true) : c.toUpper.isAlphanum = true := by
  rw [isAlphanum_iff] at h ⊢
  rw [toNat_toUpper]
  split_ifs with hlower
  · have hcode := isLower_iff.1 hlower
    omega
  · exact h

end Char

namespace ApiContract.Identifier

theorem consFirst_ne_nil (c : Char) (found : List (List Char)) : consFirst c found ≠ [] := by
  cases found <;> exact List.cons_ne_nil _ _

/-- A name has a word if it has a letter or digit. -/
theorem words_eq_nil_iff (cs : List Char) :
    words cs = [] ↔ ∀ c ∈ cs, c.isAlphanum = false := by
  fun_induction words cs with
  | case1 => simp
  | case2 c hc => simp [hc]
  | case3 c hc d more hjoin ih => simp [hc, consFirst_ne_nil]
  | case4 c hc d more hbreak ih => simp [hc]
  | case5 c rest hc ih => rw [ih, List.forall_mem_cons]; simp [hc]

theorem ne_nil_or_mem_of_mem_consFirst {c : Char} {found : List (List Char)} {word : List Char}
    (h : word ∈ consFirst c found) : word ≠ [] ∨ word ∈ found := by
  cases found with
  | nil => exact .inl (List.mem_singleton.1 h ▸ List.cons_ne_nil _ _)
  | cons first rest =>
    rcases List.mem_cons.1 h with rfl | hrest
    · exact .inl (List.cons_ne_nil _ _)
    · exact .inr (List.mem_cons_of_mem _ hrest)

/-- Words are not empty. -/
theorem ne_nil_of_mem_words {cs word : List Char} (h : word ∈ words cs) : word ≠ [] := by
  fun_induction words cs with
  | case1 => exact absurd h List.not_mem_nil
  | case2 c hc => exact List.mem_singleton.1 h ▸ List.cons_ne_nil _ _
  | case3 c hc d more hjoin ih => exact (ne_nil_or_mem_of_mem_consFirst h).elim id ih
  | case4 c hc d more hbreak ih =>
    rcases List.mem_cons.1 h with rfl | hrest
    · exact List.cons_ne_nil _ _
    · exact ih hrest
  | case5 c rest hc ih => exact ih h

/-- Camel case is empty if there are no words. -/
theorem camelChars_eq_nil_iff (cs : List Char) : camelChars cs = [] ↔ words cs = [] := by
  rw [camelChars]
  split
  · next hnone => simp [hnone]
  · next first rest hwords =>
    have hfirst : first ≠ [] := ne_nil_of_mem_words (by rw [hwords]; exact List.mem_cons_self)
    simp [hwords, lowerWord, hfirst]

theorem guardDigit_eq_nil_iff (cs : List Char) : guardDigit cs = [] ↔ cs = [] := by
  cases cs with
  | nil => rfl
  | cons c rest =>
    rw [guardDigit]
    split <;> simp

theorem guardReserved_eq_empty_iff (name : String) : guardReserved name = "" ↔ name = "" := by
  rw [guardReserved]
  split
  · next hmem =>
    constructor
    · intro h
      exact absurd (congrArg String.length h) (by simp)
    · rintro rfl
      exact absurd hmem (by decide)
  · rfl

/-- **A name gives a variable if it has a letter or digit.** -/
theorem binding_ne_empty_iff (s : String) :
    binding s ≠ "" ↔ ∃ c ∈ s.toList, c.isAlphanum = true := by
  rw [binding, ne_eq, guardReserved_eq_empty_iff, String.ofList_eq_empty_iff,
    guardDigit_eq_nil_iff, camelChars_eq_nil_iff, words_eq_nil_iff]
  simp

/-- A name gives a type if it has a letter or digit. -/
theorem pascalCase_ne_empty_iff (s : String) :
    pascalCase s ≠ "" ↔ ∃ c ∈ s.toList, c.isAlphanum = true := by
  have hchars : pascalChars s.toList = [] ↔ words s.toList = [] := by
    rw [pascalChars, List.flatMap_eq_nil_iff]
    constructor
    · intro h
      refine List.eq_nil_iff_forall_not_mem.2 fun word hword ↦ ?_
      obtain ⟨c, rest, rfl⟩ := List.exists_cons_of_ne_nil (ne_nil_of_mem_words hword)
      exact absurd (h _ hword) (List.cons_ne_nil _ _)
    · intro h word hword
      exact absurd (h ▸ hword) List.not_mem_nil
  rw [pascalCase, ne_eq, String.ofList_eq_empty_iff, hchars, words_eq_nil_iff]
  simp

/-- A name has a camel case if it has a letter or digit. -/
theorem camelCase_ne_empty_iff (s : String) :
    camelCase s ≠ "" ↔ ∃ c ∈ s.toList, c.isAlphanum = true := by
  rw [camelCase, ne_eq, String.ofList_eq_empty_iff, camelChars_eq_nil_iff, words_eq_nil_iff]
  simp

/-! ### Identifiers after a dot -/

theorem isAlphanum_of_mem_consFirst {c d : Char} {found : List (List Char)} {word : List Char}
    (hc : c.isAlphanum = true) (hfound : ∀ w ∈ found, ∀ d ∈ w, d.isAlphanum = true)
    (h : word ∈ consFirst c found) (hd : d ∈ word) : d.isAlphanum = true := by
  cases found with
  | nil =>
    obtain rfl := List.mem_singleton.1 h
    exact List.mem_singleton.1 hd ▸ hc
  | cons first rest =>
    obtain ⟨hfirst, hrest⟩ := List.forall_mem_cons.1 hfound
    rcases List.mem_cons.1 h with rfl | hword
    · rcases List.mem_cons.1 hd with rfl | hd
      · exact hc
      · exact hfirst d hd
    · exact hrest word hword d hd

/-- Words consist of letters and digits. -/
theorem isAlphanum_of_mem_words {cs : List Char} :
    ∀ word ∈ words cs, ∀ c ∈ word, c.isAlphanum = true := by
  fun_induction words cs with
  | case1 => simp
  | case2 c hc => simpa using hc
  | case3 c hc d more hjoin ih =>
    exact fun _ hword _ hd ↦ isAlphanum_of_mem_consFirst hc ih hword hd
  | case4 c hc d more hbreak ih =>
    refine List.forall_mem_cons.2 ⟨?_, ih⟩
    simpa using hc
  | case5 c rest hc ih => exact ih

theorem isAlphanum_of_mem_capitalize {word : List Char}
    (h : ∀ c ∈ word, c.isAlphanum = true) : ∀ c ∈ capitalize word, c.isAlphanum = true := by
  cases word with
  | nil => exact h
  | cons d word =>
    obtain ⟨hd, hword⟩ := List.forall_mem_cons.1 h
    exact List.forall_mem_cons.2 ⟨Char.isAlphanum_toUpper hd, hword⟩

/-- Camel case consists of letters and digits. -/
theorem isAlphanum_of_mem_camelChars {cs : List Char} {c : Char} (h : c ∈ camelChars cs) :
    c.isAlphanum = true := by
  rw [camelChars] at h
  split at h
  · exact absurd h List.not_mem_nil
  · next first rest hwords =>
    have hall : ∀ word ∈ words cs, ∀ c ∈ word, c.isAlphanum = true := isAlphanum_of_mem_words
    rw [hwords] at hall
    obtain ⟨hfirst, hrest⟩ := List.forall_mem_cons.1 hall
    rcases List.mem_append.1 h with hlower | hcapital
    · obtain ⟨d, hd, rfl⟩ := List.mem_map.1 hlower
      exact Char.isAlphanum_toLower (hfirst d hd)
    · obtain ⟨word, hword, hc⟩ := List.mem_flatMap.1 hcapital
      exact isAlphanum_of_mem_capitalize (hrest word hword) c hc

/-- A name in camel case has a letter or digit if the name has one. -/
theorem exists_isAlphanum_camelCase_iff (s : String) :
    (∃ c ∈ (camelCase s).toList, c.isAlphanum = true) ↔ ∃ c ∈ s.toList, c.isAlphanum = true := by
  have hlist : (camelCase s).toList = camelChars s.toList := String.toList_ofList
  have hnil : camelCase s ≠ "" ↔ camelChars s.toList ≠ [] := by
    rw [camelCase, ne_eq, String.ofList_eq_empty_iff]
  rw [← camelCase_ne_empty_iff s, hnil, hlist]
  constructor
  · rintro ⟨c, hc, -⟩
    exact List.ne_nil_of_mem hc
  · intro hne
    obtain ⟨c, hc⟩ := List.exists_mem_of_ne_nil _ hne
    exact ⟨c, hc, isAlphanum_of_mem_camelChars hc⟩

theorem isPlainChar_of_isAlphanum {c : Char} (h : c.isAlphanum = true) : isPlainChar c = true := by
  rw [isPlainChar, h, Bool.true_or, Bool.true_or]

/-- A property can be written bare if its first character may begin one and the others may
follow. -/
theorem isPlainProperty_iff {name : String} :
    isPlainProperty name = true ↔ ∃ c rest, name.toList = c :: rest ∧ isPlainStart c = true ∧
      ∀ d ∈ rest, isPlainChar d = true := by
  rw [isPlainProperty]
  cases name.toList <;> simp

/-- With its guard, a text of letters and digits can stand after a dot. -/
theorem isPlainProperty_guardDigit {cs : List Char} (hne : cs ≠ [])
    (h : ∀ c ∈ cs, c.isAlphanum = true) :
    isPlainProperty (String.ofList (guardDigit cs)) = true := by
  obtain ⟨c, rest, rfl⟩ := List.exists_cons_of_ne_nil hne
  obtain ⟨hc, hrest⟩ := List.forall_mem_cons.1 h
  rw [isPlainProperty_iff, String.toList_ofList, guardDigit]
  split
  · exact ⟨'_', c :: rest, rfl, rfl, List.forall_mem_cons.2
      ⟨isPlainChar_of_isAlphanum hc, fun d hd ↦ isPlainChar_of_isAlphanum (hrest d hd)⟩⟩
  · next hdigit =>
    have halpha : c.isAlpha = true := by simpa [Char.isAlphanum, hdigit] using hc
    exact ⟨c, rest, rfl, by rw [isPlainStart, halpha]; rfl,
      fun d hd ↦ isPlainChar_of_isAlphanum (hrest d hd)⟩

theorem isPlainProperty_guardReserved {name : String} (h : isPlainProperty name = true) :
    isPlainProperty (guardReserved name) = true := by
  rw [guardReserved]
  split
  · obtain ⟨c, rest, hname, hc, hrest⟩ := isPlainProperty_iff.1 h
    refine isPlainProperty_iff.2 ⟨c, rest ++ ['_'], ?_, hc, ?_⟩
    · rw [String.toList_append, hname]
      rfl
    · exact List.forall_mem_append.2 ⟨hrest, List.forall_mem_singleton.2 rfl⟩
  · exact h

/-- **A name gives an identifier that can stand after a dot if it has a letter or digit.** -/
theorem isPlainProperty_binding_iff (s : String) :
    isPlainProperty (binding s) = true ↔ ∃ c ∈ s.toList, c.isAlphanum = true := by
  rw [← binding_ne_empty_iff]
  constructor
  · rintro h hempty
    rw [hempty] at h
    exact absurd h Bool.false_ne_true
  · intro h
    rw [binding_ne_empty_iff] at h
    refine isPlainProperty_guardReserved (isPlainProperty_guardDigit ?_ fun _ ↦
      isAlphanum_of_mem_camelChars)
    rw [ne_eq, camelChars_eq_nil_iff, words_eq_nil_iff]
    simpa using h

theorem isPlainChar_of_isPlainStart {c : Char} (h : isPlainStart c = true) :
    isPlainChar c = true := by
  rw [isPlainStart, Bool.or_assoc] at h
  rw [isPlainChar, Char.isAlphanum, Bool.or_assoc, Bool.or_assoc, Bool.or_left_comm, h,
    Bool.or_true]

/-- The name of a variable has no characters but those of identifiers. -/
theorem isPlainChar_of_mem_binding {s : String} {c : Char} (h : c ∈ (binding s).toList) :
    isPlainChar c = true := by
  have hne : binding s ≠ "" := by
    rintro hempty
    rw [hempty] at h
    exact absurd h List.not_mem_nil
  have hplain := (isPlainProperty_binding_iff s).2 ((binding_ne_empty_iff s).1 hne)
  obtain ⟨first, rest, hname, hfirst, hrest⟩ := isPlainProperty_iff.1 hplain
  rw [hname] at h
  rcases List.mem_cons.1 h with rfl | hmem
  · exact isPlainChar_of_isPlainStart hfirst
  · exact hrest c hmem

end ApiContract.Identifier
