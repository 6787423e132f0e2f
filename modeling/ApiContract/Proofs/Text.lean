import ApiContract.Text.Basic
import Mathlib.Data.List.Basic
import Mathlib.Data.List.DropRight
import Mathlib.Data.List.Infix

/-!
# Parts of texts

The texts of a program are taken apart and put together in a few ways: they are cut at characters or
into lines, trimmed, and parts of them are replaced. This module has what other modules need to know
of each.

## Cutting and trimming

The pieces between the occurrences of a character, lines, and trimmed texts are parts of the text
that they are taken from; neither pieces nor lines hold what separates them. A line ends at a line
feed, with a carriage return in front of it or without. A trimmed text neither begins nor ends with
a blank, and such a text is trimmed already (`isTrimmed_trim`, `IsTrimmed.trim_eq`).

## Replacing

`Text.replaceFrom` looks for a text at one place after the other and goes on behind what it found,
with the number of characters as its measure. Each of its steps is one lemma, so that a proof about
a particular text that is replaced is an induction on the list of characters. Replacing a single
character is done character by character (`toList_replaceAll_singleton`), which is the form in which
escaping is reasoned about.

Texts are strings, and statements about their characters are about the lists of these.
-/

namespace ApiContract

/-- A piece of a text is a part of it and holds no separator. -/
theorem isInfix_of_mem_splitOn {separator : Char} {piece text : List Char}
    (h : piece ∈ text.splitOn separator) : piece <:+: text ∧ separator ∉ piece := by
  by_cases hmem : separator ∈ text
  · obtain ⟨first, rest, htext, hfirst⟩ := List.eq_append_cons_of_mem hmem
    have hshort : rest.length < text.length := by
      rw [htext, List.length_append, List.length_cons]
      omega
    rw [htext, List.splitOn_append_cons_self_of_not_mem hfirst] at h
    rw [htext]
    rcases List.mem_cons.1 h with rfl | hrest
    · exact ⟨List.infix_append_left, hfirst⟩
    · obtain ⟨hpart, hnone⟩ := isInfix_of_mem_splitOn hrest
      exact ⟨hpart.trans ((List.suffix_cons _ _).trans (List.suffix_append _ _)).isInfix, hnone⟩
  · rw [List.splitOn_eq_singleton hmem] at h
    obtain rfl := List.mem_singleton.1 h
    exact ⟨List.infix_refl _, hmem⟩
termination_by text.length

namespace Text

/-! ### Lines -/

/-- A line without its carriage return begins the line. -/
theorem dropReturn_isPrefix (cs : List Char) : dropReturn cs <+: cs := by
  rw [dropReturn]
  split
  · exact List.dropLast_prefix cs
  · exact List.prefix_refl cs

/-- A line begins a piece. -/
theorem exists_piece_of_mem_linesOfPieces {line : List Char} {pieces : List (List Char)}
    (h : line ∈ linesOfPieces pieces) : ∃ piece ∈ pieces, line <+: piece := by
  fun_induction linesOfPieces pieces with
  | case1 => exact absurd h List.not_mem_nil
  | case2 last => exact absurd h List.not_mem_nil
  | case3 last =>
    obtain rfl := List.mem_singleton.1 h
    exact ⟨line, List.mem_singleton_self line, List.prefix_refl line⟩
  | case4 piece rest hrest ih =>
    rcases List.mem_cons.1 h with rfl | hlater
    · exact ⟨piece, List.mem_cons_self, dropReturn_isPrefix piece⟩
    · obtain ⟨found, hfound, hbegin⟩ := ih hlater
      exact ⟨found, List.mem_cons_of_mem _ hfound, hbegin⟩

/-- A line of a text is a part of it on which no line feed stands. -/
theorem isInfix_of_mem_lines {line s : String} (h : line ∈ lines s) :
    line.toList <:+: s.toList ∧ '\n' ∉ line.toList := by
  obtain ⟨chars, hchars, rfl⟩ := List.mem_map.1 h
  obtain ⟨piece, hpiece, hbegin⟩ := exists_piece_of_mem_linesOfPieces hchars
  obtain ⟨hpart, hnone⟩ := isInfix_of_mem_splitOn hpiece
  rw [String.toList_ofList]
  exact ⟨hbegin.isInfix.trans hpart, fun hmem ↦ hnone (hbegin.subset hmem)⟩

/-! ### Trimming -/

theorem dropEnd_isPrefix (p : Char → Bool) (cs : List Char) : dropEnd p cs <+: cs := by
  rw [dropEnd, ← List.reverse_suffix, List.reverse_reverse]
  exact List.dropWhile_suffix p

/-- A last character that is to be dropped is dropped. -/
theorem dropEnd_concat {p : Char → Bool} {c : Char} (h : p c = true) (cs : List Char) :
    dropEnd p (cs ++ [c]) = dropEnd p cs := by
  rw [dropEnd, List.reverse_append, List.reverse_singleton, List.singleton_append,
    List.dropWhile_cons_of_pos h, dropEnd]

theorem trimEnd_isPrefix (s : String) : (trimEnd s).toList <+: s.toList := by
  rw [trimEnd, String.toList_ofList]
  exact dropEnd_isPrefix isBlank s.toList

theorem trim_isInfix (s : String) : (trim s).toList <:+: s.toList := by
  rw [trim, String.toList_ofList]
  exact (dropEnd_isPrefix isBlank _).isInfix.trans (List.dropWhile_suffix isBlank).isInfix

/-- What is left after dropping begins with what is not dropped. -/
theorem not_of_head?_dropWhile {α : Type} {p : α → Bool} {c : α} {cs : List α}
    (h : (cs.dropWhile p).head? = some c) : p c = false := by
  have hhead := List.head?_dropWhile_not p cs
  rwa [h] at hhead

/-- The text neither begins nor ends with a blank. -/
structure IsTrimmed (s : String) : Prop where
  head : ∀ c ∈ s.toList.head?, isBlank c = false
  last : ∀ c ∈ s.toList.getLast?, isBlank c = false

/-- **A trimmed text neither begins nor ends with a blank.** -/
theorem isTrimmed_trim (s : String) : IsTrimmed (trim s) := by
  constructor
  · intro c hc
    obtain ⟨rest, hrest⟩ := dropEnd_isPrefix isBlank (s.toList.dropWhile isBlank)
    have hfront : (s.toList.dropWhile isBlank).head? = some c := by
      rw [trim, String.toList_ofList] at hc
      rw [← hrest, List.head?_append, Option.mem_def.1 hc]
      rfl
    exact not_of_head?_dropWhile hfront
  · intro c hc
    rw [trim, String.toList_ofList, dropEnd, List.getLast?_reverse] at hc
    exact not_of_head?_dropWhile hc

/-- Nothing is dropped in front of a character that is not to be dropped. -/
theorem dropWhile_eq_self_of_head? {p : Char → Bool} {cs : List Char}
    (h : ∀ c ∈ cs.head?, p c = false) : cs.dropWhile p = cs := by
  cases cs with
  | nil => rfl
  | cons c rest => exact List.dropWhile_cons_of_neg (by rw [h c rfl]; exact Bool.false_ne_true)

/-- **Such a text is trimmed already.** -/
theorem IsTrimmed.trim_eq {s : String} (h : IsTrimmed s) : trim s = s := by
  have hlast : s.toList.reverse.dropWhile isBlank = s.toList.reverse :=
    dropWhile_eq_self_of_head? (by rw [List.head?_reverse]; exact h.last)
  rw [trim, dropWhile_eq_self_of_head? h.head, dropEnd, hlast, List.reverse_reverse,
    String.ofList_toList]

/-- Only blanks are trimmed away entirely. -/
theorem isBlank_of_trim_eq_empty {s : String} (h : trim s = "") :
    ∀ c ∈ s.toList, isBlank c = true := by
  rw [trim, ← String.toList_eq_nil_iff, String.toList_ofList] at h
  have hrest : ∀ c ∈ s.toList.dropWhile isBlank, isBlank c = true :=
    List.rdropWhile_eq_nil_iff.1 h
  rw [← List.takeWhile_append_dropWhile (p := isBlank) (l := s.toList)]
  exact fun c hc ↦ (List.mem_append.1 hc).elim List.mem_takeWhile_imp (hrest c)

/-- A text of one line has no line feed left once it is trimmed. -/
theorem lineFeed_not_mem_trim {s : String} (h : (lines s).length ≤ 1) :
    '\n' ∉ (trim s).toList := by
  have hjoin : ['\n'].intercalate (s.toList.splitOn '\n') = s.toList := List.intercalate_splitOn _
  have hpieces : ∀ piece ∈ s.toList.splitOn '\n', '\n' ∉ piece :=
    fun _ hpiece ↦ (isInfix_of_mem_splitOn hpiece).2
  rw [lines, List.length_map] at h
  match hsplit : s.toList.splitOn '\n' with
  | [] => exact absurd hsplit (List.splitOn_ne_nil _ _)
  | [piece] =>
    rw [hsplit] at hjoin hpieces
    rw [List.intercalate_singleton] at hjoin
    refine fun hmem ↦ hpieces piece List.mem_cons_self ?_
    rw [hjoin]
    exact (trim_isInfix s).subset hmem
  | [piece, last] =>
    -- the text ends with its only line feed, which is a blank
    rw [hsplit] at h hjoin hpieces
    obtain rfl : last = [] := by
      by_contra hlast
      simp [linesOfPieces, hlast] at h
    have htext : s.toList = piece ++ ['\n'] := by
      rw [← hjoin]
      simp
    have hblank : isBlank '\n' = true := by decide
    rw [trim, String.toList_ofList, htext, List.dropWhile_append]
    split
    · rw [List.dropWhile_cons_of_pos hblank]
      exact List.not_mem_nil
    · rw [dropEnd_concat hblank]
      refine fun hmem ↦ hpieces piece List.mem_cons_self ?_
      exact (List.dropWhile_suffix isBlank).subset ((dropEnd_isPrefix isBlank _).subset hmem)
  | first :: second :: third :: rest =>
    rw [hsplit] at h
    exact absurd h (by simp [linesOfPieces])

/-! ### Replacing -/

variable {replacement : List Char}

/-- Where the text that is sought stands, it is replaced. -/
theorem replaceFrom_of_afterPrefix? {target cs after : List Char} {n : Nat} {c : Char}
    (h : afterPrefix? target (c :: cs) = some after) :
    replaceFrom target replacement (n + 1) (c :: cs) =
      replacement ++ replaceFrom target replacement n after := by
  rw [replaceFrom, h]

/-- Where it does not stand, a character is kept. -/
theorem replaceFrom_of_not_isPrefix {target cs : List Char} {n : Nat} {c : Char}
    (h : ¬target <+: c :: cs) :
    replaceFrom target replacement (n + 1) (c :: cs) =
      c :: replaceFrom target replacement n cs := by
  rw [replaceFrom, afterPrefix?, if_neg (mt List.isPrefixOf_iff_prefix.1 h)]

/-- Where the text that is sought begins otherwise, nothing is replaced at the first character. -/
theorem replaceFrom_cons_of_ne {target cs : List Char} {n : Nat} {c d : Char} (h : c ≠ d) :
    replaceFrom (d :: target) replacement (n + 1) (c :: cs) =
      c :: replaceFrom (d :: target) replacement n cs :=
  replaceFrom_of_not_isPrefix fun hbegin ↦ h (List.cons_prefix_cons.1 hbegin).1.symm

/-- In front of anything, it is replaced. -/
theorem replaceFrom_append {target cs : List Char} {n : Nat} (hne : target ≠ []) :
    replaceFrom target replacement (n + 1) (target ++ cs) =
      replacement ++ replaceFrom target replacement n cs := by
  obtain ⟨c, rest, rfl⟩ := List.exists_cons_of_ne_nil hne
  have hafter : afterPrefix? (c :: rest) (c :: rest ++ cs) = some cs := by
    rw [afterPrefix?, if_pos (List.isPrefixOf_iff_prefix.2 (List.prefix_append _ _)),
      List.drop_left]
  exact replaceFrom_of_afterPrefix? hafter

/-- Replacing one character replaces it wherever it is. -/
theorem replaceFrom_singleton (c : Char) {cs : List Char} {n : Nat} (hn : cs.length ≤ n) :
    replaceFrom [c] replacement n cs =
      cs.flatMap fun d ↦ if d = c then replacement else [d] := by
  induction cs generalizing n with
  | nil => cases n <;> rfl
  | cons d cs ih =>
    cases n with
    | zero => exact absurd hn (by simp)
    | succ n =>
      have hrest := ih (Nat.le_of_succ_le_succ hn)
      rw [List.flatMap_cons, ← hrest]
      by_cases hd : d = c
      · rw [if_pos hd, hd]
        exact replaceFrom_append (List.cons_ne_nil c [])
      · rw [if_neg hd, replaceFrom_cons_of_ne hd]
        rfl

/-- The characters of a text in which another one is replaced. -/
theorem toList_replaceAll {s target : String} (hne : target.toList ≠ []) (replacement : String) :
    (replaceAll s target replacement).toList =
      replaceFrom target.toList replacement.toList s.toList.length s.toList := by
  have hsome : ¬target.isEmpty := fun h ↦ hne (String.toList_eq_nil_iff.2 (String.isEmpty_iff.1 h))
  rw [replaceAll, if_neg hsome, String.toList_ofList, String.length_toList]

/-- **Replacing one character is done character by character.** -/
theorem toList_replaceAll_singleton {s target : String} {c : Char} (h : target.toList = [c])
    (replacement : String) :
    (replaceAll s target replacement).toList =
      s.toList.flatMap fun d ↦ if d = c then replacement.toList else [d] := by
  rw [toList_replaceAll (h ▸ List.cons_ne_nil c []), h, replaceFrom_singleton c (Nat.le_refl _)]

end Text

end ApiContract
