import ApiContract.Proofs.Text
import ApiContract.TypeScript.Printer
import Mathlib.Data.List.Chain

/-!
# Comments that end with their block

A block comment goes up to the first star with a slash behind it. What a contract says in a
description becomes such a comment, whatever is in it.

## Main result

`comments_end_once`, for every description at every level and for every list of lines of a heading:
the comment opens at the indentation of its level, ends where its line ends, and has no other pair
of star and slash in it.

## Proof

A text is escaped before it is cut into lines, the lines are trimmed and put behind the stars of the
block, and the block is indented. What is cut out of an escaped text is still without such a pair:
`KeepApart` holds of any two characters that stand next to each other, which is a property of chains
and passes to every part. Whatever such a line is put together with begins and ends otherwise, so it
leaves the comment open (`StaysOpen`), and open texts may be put one behind the other. So the pair
at the end of a comment is its only one (`StaysOpen.occurrences_append`).

A line feed in a description makes lines of the block; the other ends of lines stay in the text, and
do not end a block comment. Escaping is one replacement over the whole text, or one pass over its
characters; the two are the same (`toList_replaceAll_eq_escapeComment`).
-/

namespace ApiContract

/-- The number of places at which a text has another one. -/
def Text.occurrences (part : List Char) : List Char → Nat
  | [] => 0
  | c :: rest => (if part.isPrefixOf (c :: rest) then 1 else 0) + occurrences part rest

namespace TypeScript

/-- Two characters that do not end a comment together. -/
def KeepApart (c d : Char) : Prop := ¬(c = '*' ∧ d = '/')

instance : DecidableRel KeepApart := fun c d ↦ inferInstanceAs (Decidable ¬(c = '*' ∧ d = '/'))

/-- A text is a block comment on lines of a level: it ends where the line ends, and nowhere
before. -/
structure IsBlockComment (level : Nat) (text : String) : Prop where
  opens : (pad level ++ "/**").toList <+: text.toList
  closes : "*/\n".toList <:+ text.toList
  once : Text.occurrences "*/".toList text.toList = 1

/-! ### Escaped texts -/

theorem head?_escapeComment (cs : List Char) : (escapeComment cs).head? = cs.head? := by
  fun_cases escapeComment cs <;> rfl

/-- **An escaped text does not end a comment.** -/
theorem isChain_escapeComment (cs : List Char) : (escapeComment cs).IsChain KeepApart := by
  fun_induction escapeComment cs with
  | case1 rest ih =>
    have hslash : ∀ d ∈ (escapeComment rest).head?, KeepApart '/' d :=
      fun _ _ h ↦ absurd h.1 (by decide)
    exact .cons_cons (by decide) (.cons_cons (by decide) (List.isChain_cons.2 ⟨hslash, ih⟩))
  | case2 c rest hnone ih =>
    refine List.isChain_cons.2 ⟨?_, ih⟩
    rintro d hd ⟨rfl, rfl⟩
    obtain ⟨later, rfl⟩ := List.head?_eq_some_iff.1 (head?_escapeComment rest ▸ hd)
    exact hnone later rfl rfl
  | case3 => exact .nil

theorem isChain_commentText (s : String) : (commentText s).toList.IsChain KeepApart := by
  rw [commentText, String.toList_ofList]
  exact isChain_escapeComment s.toList

/-- Escaping is to put a backslash into every end of a comment. -/
theorem toList_replaceAll_eq_escapeComment (s : String) :
    (Text.replaceAll s "*/" "*\\/").toList = (commentText s).toList := by
  have hlist (cs : List Char) (n : Nat) (hn : cs.length ≤ n) :
      Text.replaceFrom ['*', '/'] ['*', '\\', '/'] n cs = escapeComment cs := by
    fun_induction escapeComment cs generalizing n with
    | case1 rest ih =>
      obtain ⟨n, rfl⟩ := Nat.exists_eq_add_of_le' hn
      rw [List.length_cons, List.length_cons, ← Nat.add_assoc, ← Nat.add_assoc]
      have hrest := ih (n + rest.length + 1) (by omega)
      exact (Text.replaceFrom_append (List.cons_ne_nil _ _)).trans
        (congrArg (['*', '\\', '/'] ++ ·) hrest)
    | case2 c rest hnone ih =>
      obtain ⟨n, rfl⟩ := Nat.exists_eq_add_of_le' hn
      have hbegin : ¬['*', '/'] <+: c :: rest := by
        rintro ⟨later, hlater⟩
        obtain ⟨hc, hlater⟩ := List.cons.inj hlater
        exact hnone later hc.symm hlater.symm
      rw [List.length_cons, ← Nat.add_assoc, Text.replaceFrom_of_not_isPrefix hbegin,
        ih _ (Nat.le_add_left _ _)]
    | case3 => cases n <;> rfl
  rw [Text.toList_replaceAll (by decide), commentText]
  exact (hlist s.toList _ (Nat.le_refl _)).trans String.toList_ofList.symm

/-! ### Texts that leave a comment open -/

/-- A text that does not end a comment, whatever follows it. -/
structure StaysOpen (cs : List Char) : Prop where
  isChain : cs.IsChain KeepApart
  getLast? : cs.getLast? ≠ some '*'

namespace StaysOpen

variable {xs ys : List Char}

/-- Texts that stay open stay open one behind the other. -/
theorem append (hxs : StaysOpen xs) (hys : StaysOpen ys) : StaysOpen (xs ++ ys) where
  isChain := by
    refine hxs.isChain.append hys.isChain ?_
    rintro c hc _ - ⟨rfl, -⟩
    exact hxs.getLast? hc
  getLast? := by
    rw [List.getLast?_append]
    cases hlast : ys.getLast? with
    | none =>
      rw [Option.none_or]
      exact hxs.getLast?
    | some c =>
      rw [Option.some_or, ← hlast]
      exact hys.getLast?

theorem flatMap {α : Type} {f : α → List Char} {list : List α}
    (h : ∀ x ∈ list, StaysOpen (f x)) : StaysOpen (list.flatMap f) := by
  induction list with
  | nil => exact ⟨.nil, nofun⟩
  | cons x list ih =>
    obtain ⟨hx, hlist⟩ := List.forall_mem_cons.1 h
    exact hx.append (ih hlist)

/-- A text without stars stays open. -/
theorem of_not_mem (h : '*' ∉ xs) : StaysOpen xs where
  isChain := by
    refine List.Pairwise.isChain (List.pairwise_of_forall_mem_list fun c hc _ _ ↦ ?_)
    rintro ⟨rfl, -⟩
    exact h hc
  getLast? hlast := h (List.mem_of_getLast? hlast)

/-- Behind a text that does not end a comment, a blank keeps it from being ended. -/
theorem concat (h : xs.IsChain KeepApart) {c : Char} (hstar : c ≠ '*') (hslash : c ≠ '/') :
    StaysOpen (xs ++ [c]) where
  isChain := by
    refine h.append (List.isChain_singleton c) ?_
    rintro d - e he ⟨-, rfl⟩
    exact hslash (Option.some.inj he)
  getLast? := by
    rw [List.getLast?_concat]
    exact fun hc ↦ hstar (Option.some.inj hc)

/-- What ends a comment behind such a text ends it there for the first time. -/
theorem occurrences_append (h : StaysOpen xs) :
    Text.occurrences "*/".toList (xs ++ "*/\n".toList) = 1 := by
  have hchain := h.isChain
  clear h
  induction xs with
  | nil => decide
  | cons c xs ih =>
    obtain ⟨hhead, hxs⟩ := List.isChain_cons.1 hchain
    have hnone : "*/".toList.isPrefixOf (c :: (xs ++ "*/\n".toList)) = false := by
      rw [Bool.eq_false_iff, ne_eq, List.isPrefixOf_iff_prefix]
      rintro ⟨later, hlater⟩
      obtain ⟨rfl, hrest⟩ := List.cons.inj hlater
      cases xs with
      | nil => exact absurd (List.cons.inj hrest).1 (by decide)
      | cons d xs =>
        obtain ⟨rfl, -⟩ := List.cons.inj hrest
        exact hhead '/' rfl ⟨rfl, rfl⟩
    rw [List.cons_append, Text.occurrences, hnone, ih hxs]
    rfl

end StaysOpen

/-- Indentation stays open. -/
theorem staysOpen_pad (level : Nat) : StaysOpen (pad level).toList := by
  refine .of_not_mem fun h ↦ ?_
  rw [pad, Json.indent, String.toList_ofList] at h
  exact absurd (List.eq_of_mem_replicate h) (by decide)

/-- A line of a block leaves it open if its text does not end a comment. -/
theorem staysOpen_commentLine (level : Nat) {line : String}
    (h : line.toList.IsChain KeepApart) : StaysOpen (commentLine level line).toList := by
  rw [commentLine]
  split
  · rw [String.toList_append]
    exact (staysOpen_pad level).append ⟨by decide, by decide⟩
  · rw [String.toList_append, String.toList_append, String.toList_append, List.append_assoc]
    have hstar : StaysOpen " * ".toList := ⟨by decide, by decide⟩
    exact ((staysOpen_pad level).append hstar).append (.concat h (by decide) (by decide))

/-- A block comment is one whose front leaves it open. -/
theorem isBlockComment_of_staysOpen {level : Nat} {text : String} {front : List Char}
    (hopens : (pad level ++ "/**").toList <+: front) (hfront : StaysOpen front)
    (htext : text.toList = front ++ "*/\n".toList) : IsBlockComment level text where
  opens := htext ▸ hopens.trans (List.prefix_append _ _)
  closes := htext ▸ List.suffix_append _ _
  once := htext ▸ hfront.occurrences_append

/-- Lines that do not end a comment make up a block comment. -/
theorem isBlockComment_lines (level : Nat) {lines : List String}
    (h : ∀ line ∈ lines, line.toList.IsChain KeepApart) :
    IsBlockComment level
      (pad level ++ "/**\n" ++ String.join (lines.map (commentLine level)) ++ pad level ++
        " */\n") := by
  have hstart : StaysOpen "/**\n".toList := ⟨by decide, by decide⟩
  have hblank : StaysOpen " ".toList := ⟨by decide, by decide⟩
  have hlines : StaysOpen ((lines.map (commentLine level)).flatMap String.toList) := by
    rw [List.flatMap_map]
    exact .flatMap fun line hline ↦ staysOpen_commentLine level (h line hline)
  refine isBlockComment_of_staysOpen ?_
    (((((staysOpen_pad level).append hstart).append hlines).append
      (staysOpen_pad level)).append hblank) ?_
  · simp [List.append_assoc]
  · simp [List.append_assoc]

/-! ### Doc comments -/

/-- **A description is a block comment.** -/
theorem isBlockComment_docComment (doc : String) (level : Nat) :
    IsBlockComment level (docComment doc level) := by
  have hescaped := isChain_commentText doc
  rw [docComment]
  split
  · next first second rest hlines =>
    refine isBlockComment_lines level fun line hline ↦ ?_
    rw [← hlines] at hline
    obtain ⟨untrimmed, huntrimmed, rfl⟩ := List.mem_map.1 hline
    exact hescaped.infix ((Text.trimEnd_isPrefix untrimmed).isInfix.trans
      (Text.isInfix_of_mem_lines huntrimmed).1)
  · have htrimmed : (Text.trim (commentText doc)).toList.IsChain KeepApart :=
      hescaped.infix (Text.trim_isInfix _)
    have hstart : StaysOpen "/** ".toList := ⟨by decide, by decide⟩
    have hcontent : StaysOpen ((Text.trim (commentText doc)).toList ++ [' ']) :=
      .concat htrimmed (by decide) (by decide)
    refine isBlockComment_of_staysOpen ?_
      (((staysOpen_pad level).append hstart).append hcontent) ?_
    · simp [List.append_assoc]
    · simp [List.append_assoc]

/-- **The lines of a heading are a block comment.** -/
theorem isBlockComment_docBlock (lines : List String) :
    IsBlockComment 0 (Declaration.docBlock lines).print := by
  have hlines : ∀ line ∈ lines.map commentText, line.toList.IsChain KeepApart :=
    List.forall_mem_map.2 fun line _ ↦ isChain_commentText line
  have hblock := isBlockComment_lines 0 hlines
  have hpad : pad 0 = "" := rfl
  rw [List.map_map, hpad, String.empty_append, String.append_empty] at hblock
  exact hblock

/-- **A comment ends where it is meant to and nowhere before**, whatever its text and its lines
are. -/
theorem comments_end_once :
    (∀ (doc : String) (level : Nat), IsBlockComment level (docComment doc level)) ∧
      ∀ lines : List String, IsBlockComment 0 (Declaration.docBlock lines).print :=
  ⟨isBlockComment_docComment, isBlockComment_docBlock⟩

end TypeScript

end ApiContract
