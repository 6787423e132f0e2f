import ApiContract.Proofs.Identifier.Words

/-!
# Names in constant case

The constant case of a name is its words in capitals with an underscore between them. Words consist
of letters and digits, so they are read back by splitting (`filter_splitOn_intercalate`), and names
have one constant case exactly if they have the same words up to capitals
(`constantCase_eq_constantCase_iff`).

## Identifiers

Other than in a binding, nothing is put in front of a digit. A constant case with an ending, as the
constants of groups have one, can be declared unless the name begins with a digit
(`isPlainProperty_constantCase_append_iff`); a name without any words leaves the ending, which can.
What a name begins with is its first letter or digit (`StartsWithDigit`), whatever stands in front
of it.
-/

/-- Texts that are joined and then converted are those that are converted and then joined. -/
theorem List.map_intercalate {α β : Type} (f : α → β) (separator : List α) (parts : List (List α)) :
    (separator.intercalate parts).map f =
      (separator.map f).intercalate (parts.map (List.map f)) := by
  induction parts with
  | nil => rfl
  | cons part rest ih =>
    cases rest with
    | nil => simp only [List.intercalate_singleton, List.map_cons, List.map_nil]
    | cons next rest =>
      rw [List.intercalate_cons_cons, List.map_append, List.map_append, ih]
      exact List.intercalate_cons_cons.symm

/-- What holds of all characters that are joined, and of those between them, holds of the result. -/
theorem List.forall_mem_intercalate {α : Type} {p : α → Prop} {separator : List α}
    {parts : List (List α)} (hseparator : ∀ x ∈ separator, p x)
    (hparts : ∀ part ∈ parts, ∀ x ∈ part, p x) : ∀ x ∈ separator.intercalate parts, p x := by
  induction parts with
  | nil => exact fun _ h ↦ absurd h List.not_mem_nil
  | cons part rest ih =>
    obtain ⟨hpart, hrest⟩ := List.forall_mem_cons.1 hparts
    cases rest with
    | nil => rwa [List.intercalate_singleton]
    | cons next rest =>
      rw [List.intercalate_cons_cons]
      exact List.forall_mem_append.2 ⟨List.forall_mem_append.2 ⟨hpart, hseparator⟩, ih hrest⟩

/-- A letter or digit is a letter just if it is no digit. -/
theorem Char.isAlpha_eq_not_isDigit {c : Char} (h : c.isAlphanum = true) :
    c.isAlpha = !c.isDigit := by
  cases hdigit : c.isDigit with
  | false => simpa [Char.isAlphanum, hdigit] using h
  | true =>
    have hcode : 48 ≤ c.toNat ∧ c.toNat ≤ 57 := Char.isDigit_iff_toNat.1 hdigit
    rw [Bool.not_true, ← Bool.not_eq_true, Char.isAlpha_iff, Char.isUpper_iff, Char.isLower_iff]
    omega

namespace ApiContract.Identifier

/-! ### The words of a name in capitals -/

/-- The words of a name in capitals. -/
def upperWords (s : String) : List (List Char) := (words s.toList).map (List.map Char.toUpper)

/-- The constant case of a name are its words in capitals, joined. -/
theorem toList_constantCase (s : String) :
    (constantCase s).toList = ['_'].intercalate (upperWords s) := by
  have hword (word : List Char) : (lowerWord word).map Char.toUpper = word.map Char.toUpper := by
    rw [lowerWord, List.map_map]
    exact List.map_congr_left fun c _ ↦ Char.toUpper_toLower c
  rw [constantCase, String.toList_ofList, joinedLower, List.map_intercalate, List.map_map]
  exact congrArg _ (List.map_congr_left fun word _ ↦ hword word)

theorem ne_nil_of_mem_upperWords {s : String} {word : List Char} (h : word ∈ upperWords s) :
    word ≠ [] := by
  obtain ⟨found, hfound, rfl⟩ := List.mem_map.1 h
  rw [ne_eq, List.map_eq_nil_iff]
  exact ne_nil_of_mem_words hfound

/-- The words of a name consist of letters and digits, in capitals too. -/
theorem isAlphanum_of_mem_upperWords {s : String} {word : List Char} (h : word ∈ upperWords s) :
    ∀ c ∈ word, c.isAlphanum = true := by
  obtain ⟨found, hfound, rfl⟩ := List.mem_map.1 h
  intro c hc
  obtain ⟨d, hd, rfl⟩ := List.mem_map.1 hc
  exact Char.isAlphanum_toUpper (isAlphanum_of_mem_words found hfound d hd)

/-- Words that are joined are read back by splitting. -/
theorem filter_splitOn_intercalate {separator : Char} {parts : List (List Char)}
    (hparts : ∀ part ∈ parts, part ≠ [] ∧ separator ∉ part) :
    (([separator].intercalate parts).splitOn separator).filter (fun part ↦ !part.isEmpty) =
      parts := by
  cases parts with
  | nil => rfl
  | cons part rest =>
    rw [List.splitOn_intercalate separator (fun part hpart ↦ (hparts part hpart).2)
      (List.cons_ne_nil _ _)]
    exact List.filter_eq_self.2 fun part hpart ↦ by simpa using (hparts part hpart).1

/-- **Names have one constant case exactly if they have the same words up to capitals.** -/
theorem constantCase_eq_constantCase_iff {s t : String} :
    constantCase s = constantCase t ↔ upperWords s = upperWords t := by
  have hback (s : String) : ((constantCase s).toList.splitOn '_').filter (fun w ↦ !w.isEmpty) =
      upperWords s := by
    rw [toList_constantCase]
    refine filter_splitOn_intercalate fun word hword ↦ ⟨ne_nil_of_mem_upperWords hword, ?_⟩
    exact fun hmem ↦ absurd (isAlphanum_of_mem_upperWords hword _ hmem) (by decide)
  constructor
  · intro h
    rw [← hback s, ← hback t, h]
  · intro h
    rw [← String.toList_inj, toList_constantCase, toList_constantCase, h]

/-! ### Identifiers -/

/-- A text in front of an identifier leaves it one just if it begins as one. -/
theorem isPlainProperty_append_iff {name ending : String}
    (hname : ∀ c ∈ name.toList, isPlainChar c = true) (hending : isPlainProperty ending = true) :
    isPlainProperty (name ++ ending) = true ↔ ∀ c ∈ name.toList.head?, isPlainStart c = true := by
  cases hchars : name.toList with
  | nil =>
    obtain rfl := String.toList_eq_nil_iff.1 hchars
    rw [String.empty_append]
    exact iff_of_true hending nofun
  | cons c rest =>
    obtain ⟨first, later, heq, hfirst, hlater⟩ := isPlainProperty_iff.1 hending
    have hstart := isPlainChar_of_isPlainStart hfirst
    have hrest : (rest ++ ending.toList).all isPlainChar = true := by
      rw [hchars] at hname
      rw [heq, List.all_eq_true]
      exact List.forall_mem_append.2
        ⟨(List.forall_mem_cons.1 hname).2, List.forall_mem_cons.2 ⟨hstart, hlater⟩⟩
    rw [isPlainProperty, String.toList_append, hchars, List.cons_append]
    simp [hrest]

/-- A name begins with a digit, whatever stands in front of its letters and digits. -/
def StartsWithDigit (s : String) : Prop :=
  ∃ c ∈ s.toList.find? Char.isAlphanum, c.isDigit = true

instance (s : String) : Decidable (StartsWithDigit s) :=
  decidable_of_iff ((s.toList.find? Char.isAlphanum).any Char.isDigit = true)
    (Option.any_eq_true _ _)

/-- A constant case begins with the first letter or digit of the name, as a capital. -/
theorem head?_constantCase (s : String) :
    (constantCase s).toList.head? = (s.toList.find? Char.isAlphanum).map Char.toUpper := by
  have hflat := flatten_words s.toList
  rw [← List.head?_filter, ← hflat, toList_constantCase, upperWords]
  rcases hwords : words s.toList with - | ⟨first, rest⟩
  · rfl
  obtain ⟨c, word, rfl⟩ := List.exists_cons_of_ne_nil
    (ne_nil_of_mem_words (hwords ▸ List.mem_cons_self : first ∈ words s.toList))
  cases rest <;> rfl

/-- All characters of a constant case may stand in a property name. -/
theorem isPlainChar_of_mem_constantCase {s : String} :
    ∀ c ∈ (constantCase s).toList, isPlainChar c = true := by
  have hwords : ∀ word ∈ upperWords s, ∀ c ∈ word, isPlainChar c = true := fun _ hword c hc ↦
    isPlainChar_of_isAlphanum (isAlphanum_of_mem_upperWords hword c hc)
  rw [toList_constantCase]
  exact List.forall_mem_intercalate (List.forall_mem_singleton.2 rfl) hwords

/-- **A name in constant case, in front of an identifier, is one unless it begins with a digit.** -/
theorem isPlainProperty_constantCase_append_iff {s ending : String}
    (hending : isPlainProperty ending = true) :
    isPlainProperty (constantCase s ++ ending) = true ↔ ¬StartsWithDigit s := by
  rw [isPlainProperty_append_iff isPlainChar_of_mem_constantCase hending, head?_constantCase,
    StartsWithDigit]
  cases hfirst : s.toList.find? Char.isAlphanum with
  | none => simp
  | some c =>
    have hc : c.isAlphanum = true := List.find?_some hfirst
    have hletter : isPlainStart c.toUpper = !c.isDigit := by
      rw [isPlainStart_eq_isAlpha (Char.isAlphanum_toUpper hc), Char.isAlpha_toUpper,
        Char.isAlpha_eq_not_isDigit hc]
    simp [hletter]

end ApiContract.Identifier
