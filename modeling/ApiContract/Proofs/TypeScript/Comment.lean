import ApiContract.TypeScript.Printer
import Mathlib.Data.List.Basic

/-!
# Comments that end with their line

A line of a module ends with a line feed, a carriage return, or one of the two separators of
Unicode; a carriage return and the line feed behind it are one end. A comment after two slashes goes
up to there.

## Main result

`isComment_banner_iff`: a heading prints as a comment exactly if its title, at whichever ends of
lines it has, goes on as a comment does. A title on one line does (`IsOneLine.continuesComment`);
one with a line break does if two slashes, or nothing, stand behind it. Titles are made of what a
contract says, such as its tags, and are printed as they are.

## Representation

`lineStarts` lists what stands behind each end of a line, up to the end of the text, so that
`IsComment` is a condition on prefixes and can be decided. What follows a line feed does not change
what is before it (`lineStarts_append_lineFeed`), and so a heading of three lines can be looked at
line by line: the first and the last are made of one character and the title is in the middle,
behind a label that plays no part (`continuesComment_append_iff`).
-/

namespace ApiContract.TypeScript

/-! ### Lines -/

/-- The characters that end a line. -/
def lineEnds : List Char := ['\n', '\x0d', '\u2028', '\u2029']

/-- Whether a line ends with a character, given the one behind it. -/
def endsLine (c : Char) (next : Option Char) : Bool :=
  lineEnds.contains c && !(c == '\x0d' && next == some '\n')

/-- What stands behind each end of a line, up to the end of the text. -/
def lineStarts : List Char → List (List Char)
  | [] => []
  | c :: rest => if endsLine c rest.head? then rest :: lineStarts rest else lineStarts rest

/-- A text on one line. -/
def IsOneLine (text : String) : Prop := ∀ c ∈ text.toList, c ∉ lineEnds

-- by the characters of the text: an instance that goes through all characters there are would not
-- come to an end
instance (text : String) : Decidable (IsOneLine text) := List.decidableBAll _ _

/-- Each line of a text begins with two slashes. -/
def IsComment (text : String) : Prop :=
  ∀ rest ∈ text.toList :: lineStarts text.toList, rest ≠ [] → ['/', '/'] <+: rest

/-- On a line that began with two slashes, a title and a line feed leave no line that does not. -/
def ContinuesComment (title : String) : Prop :=
  ∀ rest ∈ lineStarts (title.toList ++ ['\n']), rest ≠ [] → ['/', '/'] <+: rest

instance (text : String) : Decidable (IsComment text) :=
  inferInstanceAs <| Decidable <|
    ∀ rest ∈ text.toList :: lineStarts text.toList, rest ≠ [] → ['/', '/'] <+: rest

instance (title : String) : Decidable (ContinuesComment title) :=
  inferInstanceAs <| Decidable <|
    ∀ rest ∈ lineStarts (title.toList ++ ['\n']), rest ≠ [] → ['/', '/'] <+: rest

theorem endsLine_of_not_mem {c : Char} (h : c ∉ lineEnds) (next : Option Char) :
    endsLine c next = false := by
  rw [endsLine, List.contains_eq_mem, decide_eq_false h, Bool.false_and]

theorem endsLine_lineFeed (next : Option Char) : endsLine '\n' next = true := rfl

/-- A text on one line begins none. -/
theorem IsOneLine.lineStarts_append {front : String} (h : IsOneLine front) (rest : List Char) :
    lineStarts (front.toList ++ rest) = lineStarts rest := by
  rw [IsOneLine] at h
  generalize front.toList = chars at h
  induction chars with
  | nil => rfl
  | cons c chars ih =>
    obtain ⟨hc, hchars⟩ := List.forall_mem_cons.1 h
    rw [List.cons_append, lineStarts, endsLine_of_not_mem hc]
    exact ih hchars

/-- A line feed is behind a line whatever follows it. -/
theorem lineStarts_append_lineFeed (front rest : List Char) :
    lineStarts (front ++ '\n' :: rest) =
      (lineStarts (front ++ ['\n'])).map (· ++ rest) ++ lineStarts rest := by
  -- a carriage return at the end of the front has the line feed behind it on both sides
  induction front with
  | nil => rfl
  | cons c front ih =>
    have hhead : (front ++ '\n' :: rest).head? = (front ++ ['\n']).head? := by
      cases front <;> rfl
    rw [List.cons_append, List.cons_append, lineStarts, lineStarts, hhead, ih]
    split
    · rw [List.map_cons, List.append_assoc, List.singleton_append, List.cons_append]
    · rfl

/-- What a line begins with is an end of the text. -/
theorem isSuffix_of_mem_lineStarts {text rest : List Char} (h : rest ∈ lineStarts text) :
    rest <:+ text := by
  induction text with
  | nil => exact absurd h List.not_mem_nil
  | cons c text ih =>
    rw [lineStarts] at h
    split at h
    · rcases List.mem_cons.1 h with rfl | hlater
      · exact List.suffix_cons c rest
      · exact (ih hlater).trans (List.suffix_cons c text)
    · exact (ih h).trans (List.suffix_cons c text)

/-! ### Headings -/

/-- What is appended behind a line feed does not change how the last line begins. -/
theorem slashes_isPrefix_append_iff {front rest : List Char} (hrest : rest <:+ front ++ ['\n'])
    (hne : rest ≠ []) (more : List Char) :
    ['/', '/'] <+: rest ++ more ↔ ['/', '/'] <+: rest := by
  match rest, hne with
  | [c], _ =>
    obtain ⟨before, hbefore⟩ := hrest
    obtain rfl : c = '\n' := (List.cons.inj (List.append_inj' hbefore rfl).2).1
    simp [List.cons_prefix_cons]
  | c :: d :: later, _ => simp [List.cons_prefix_cons]

/-- **A heading prints as a comment exactly if its title continues one.** -/
theorem isComment_banner_iff (title : String) :
    IsComment (Declaration.banner title).print ↔ ContinuesComment title := by
  have hrule : IsOneLine Declaration.rule := by decide +kernel
  have hlabel : IsOneLine "// " := by decide
  have hslashes : ['/', '/'] <+: Declaration.rule.toList := by decide +kernel
  have hchars : (Declaration.banner title).print.toList =
      Declaration.rule.toList ++ '\n' :: ("// ".toList ++
        (title.toList ++ '\n' :: (Declaration.rule.toList ++ ['\n']))) := by
    simp [Declaration.print]
  have hbehind : lineStarts (Declaration.rule.toList ++ ['\n']) = [[]] :=
    hrule.lineStarts_append _
  -- Neither the rules nor the label hold a line ending, so what begins a line is known but for
  -- the title.
  have hstarts : lineStarts (Declaration.banner title).print.toList =
      ("// ".toList ++ (title.toList ++ '\n' :: (Declaration.rule.toList ++ ['\n']))) ::
        ((lineStarts (title.toList ++ ['\n'])).map (· ++ (Declaration.rule.toList ++ ['\n'])) ++
          [[]]) := by
    rw [hchars, hrule.lineStarts_append, lineStarts, endsLine_lineFeed, if_pos rfl,
      hlabel.lineStarts_append, lineStarts_append_lineFeed, hbehind]
  rw [IsComment, hstarts, List.forall_mem_cons, List.forall_mem_cons, List.forall_mem_append,
    List.forall_mem_map]
  constructor
  · rintro ⟨-, -, htitle, -⟩ rest hrest hne
    have hprefix := htitle rest hrest (List.append_ne_nil_of_left_ne_nil hne _)
    exact (slashes_isPrefix_append_iff (isSuffix_of_mem_lineStarts hrest) hne _).1 hprefix
  · intro h
    refine ⟨fun _ ↦ hchars ▸ hslashes.trans (List.prefix_append _ _), fun _ ↦ ⟨_, rfl⟩,
      fun rest hrest _ ↦ ?_, List.forall_mem_singleton.2 fun hne ↦ absurd rfl hne⟩
    by_cases hempty : rest = []
    · rw [hempty]
      exact hslashes.trans (List.prefix_append _ _)
    · exact (slashes_isPrefix_append_iff (isSuffix_of_mem_lineStarts hrest) hempty _).2
        (h rest hrest hempty)

/-- What stands in front of a title on its line does not matter. -/
theorem continuesComment_append_iff {label : String} (hlabel : IsOneLine label) (title : String) :
    ContinuesComment (label ++ title) ↔ ContinuesComment title := by
  rw [ContinuesComment, ContinuesComment, String.toList_append, List.append_assoc,
    hlabel.lineStarts_append]

/-- A title on one line continues a comment. -/
theorem IsOneLine.continuesComment {title : String} (h : IsOneLine title) :
    ContinuesComment title := by
  have hstarts : lineStarts (title.toList ++ ['\n']) = [[]] := h.lineStarts_append _
  rw [ContinuesComment, hstarts]
  exact List.forall_mem_singleton.2 fun hne ↦ absurd rfl hne

end ApiContract.TypeScript
