import ApiContract.Proofs.Identifier
import ApiContract.Proofs.Json.Compact
import ApiContract.Proofs.Text
import ApiContract.Proofs.TypeScript.TypeContents

/-!
# Indentation of types

The level of a type is that of the line on which it begins, and nothing depends on it but the
indentation of the lines after that one.

## Main result

`TypeExpr.MadeOf.indented_print`: a type is printed at a deeper level by indenting its text further,
that is, by putting the indentation of the further levels behind every line feed.

## Proof

The printer writes all line feeds itself: names, values and property names have none, nor have the
lines of comments. So the text in between may be indented without a change (`indented_eq_self`).
What stands on lines of its own, such as a comment or a member, is moved to the right as a whole;
but the indentation is put behind line feeds, and such lines have theirs in front. `Deepens` is the
statement that fits: the indentation that stands in front of the first of the lines stands behind
the last one then, in front of what follows. It goes through lines that are put one below the other
(`Deepens.append`, `Deepens.join`).

The induction is on how a type is made (`MadeOf`), for all levels.
-/

namespace ApiContract.TypeScript

variable {levels level : Nat}

/-! ### Texts that are indented further -/

/-- A text with the indentation of so many levels behind every line feed. -/
def indented (levels : Nat) (s : String) : String := Text.replaceAll s "\n" ("\n" ++ pad levels)

/-- The characters of an indented text. -/
theorem toList_indented (s : String) :
    (indented levels s).toList =
      s.toList.flatMap fun c ↦ if c = '\n' then '\n' :: (pad levels).toList else [c] := by
  rw [indented, Text.toList_replaceAll_singleton rfl, String.toList_append]
  rfl

/-- Texts are indented one after the other. -/
theorem indented_append (s t : String) :
    indented levels (s ++ t) = indented levels s ++ indented levels t := by
  rw [← String.toList_inj, String.toList_append, toList_indented, toList_indented, toList_indented,
    String.toList_append, List.flatMap_append]

/-- A text without line feeds is not changed. -/
theorem indented_eq_self {s : String} (h : '\n' ∉ s.toList) : indented levels s = s := by
  have hself : ∀ c ∈ s.toList, (if c = '\n' then '\n' :: (pad levels).toList else [c]) = [c] := by
    intro c hc
    refine if_neg ?_
    rintro rfl
    exact h hc
  rw [← String.toList_inj, toList_indented, List.flatMap_congr hself, List.flatMap_singleton']

theorem indented_lineFeed : indented levels "\n" = "\n" ++ pad levels := by
  rw [← String.toList_inj, toList_indented, String.toList_append]
  exact (List.flatMap_singleton _ _).trans (if_pos rfl)

/-- Joined texts are indented one by one, if the separator has no line feed. -/
theorem indented_intercalate {separator : String} (h : '\n' ∉ separator.toList)
    (texts : List String) :
    indented levels (separator.intercalate texts) =
      separator.intercalate (texts.map (indented levels)) := by
  induction texts with
  | nil => rfl
  | cons first rest ih =>
    cases rest with
    | nil => rfl
    | cons second rest =>
      rw [List.map_cons, List.map_cons, String.intercalate_cons_cons, indented_append,
        indented_append, indented_eq_self h, ih, List.map_cons, String.intercalate_cons_cons]

theorem lineFeed_not_mem_pad (level : Nat) : '\n' ∉ (pad level).toList := by
  rw [pad, Json.indent, String.toList_ofList]
  exact fun h ↦ absurd (List.eq_of_mem_replicate h) (by decide)

/-! ### Whole lines -/

/-- Lines that begin at the left margin become others when they are moved to the right by so many
levels: the indentation that stands in front of the first of them stands behind the last one then,
in front of what follows. -/
def Deepens (levels : Nat) (lines deeper : String) : Prop :=
  pad levels ++ indented levels lines = deeper ++ pad levels

namespace Deepens

variable {s t s' t' : String}

theorem empty : Deepens levels "" "" := by
  rw [Deepens, indented_eq_self (by decide), String.append_empty, String.empty_append]

/-- Lines are moved one below the other. -/
theorem append (hs : Deepens levels s s') (ht : Deepens levels t t') :
    Deepens levels (s ++ t) (s' ++ t') := by
  calc
    _ = pad levels ++ indented levels s ++ indented levels t := by
      rw [indented_append, String.append_assoc]
    _ = s' ++ (pad levels ++ indented levels t) := by rw [hs, String.append_assoc]
    _ = s' ++ t' ++ pad levels := by rw [ht, String.append_assoc]

theorem join {α : Type} {f g : α → String} {list : List α}
    (h : ∀ x ∈ list, Deepens levels (f x) (g x)) :
    Deepens levels (String.join (list.map f)) (String.join (list.map g)) := by
  induction list with
  | nil => exact empty
  | cons x rest ih =>
    obtain ⟨hx, hrest⟩ := List.forall_mem_cons.1 h
    rw [List.map_cons, List.map_cons, String.join_cons, String.join_cons]
    exact hx.append (ih hrest)

/-- A line with its indentation, if what stands on it may be moved. -/
theorem line (level : Nat) (h : indented levels s = s') :
    Deepens levels (pad level ++ (s ++ "\n")) (pad (levels + level) ++ (s' ++ "\n")) := by
  calc
    _ = pad levels ++ (pad level ++ (s' ++ ("\n" ++ pad levels))) := by
      rw [indented_append, indented_append, indented_eq_self (lineFeed_not_mem_pad level), h,
        indented_lineFeed]
    _ = pad levels ++ pad level ++ (s' ++ "\n") ++ pad levels := by
      simp only [String.append_assoc]
    _ = _ := by rw [pad_add]

end Deepens

/-! ### Doc comments -/

/-- A line of a comment is moved. -/
theorem deepens_commentLine {text : String} (h : '\n' ∉ text.toList) :
    Deepens levels (commentLine level text) (commentLine (levels + level) text) := by
  rw [commentLine, commentLine]
  split
  · have hempty : indented levels " *" = " *" := indented_eq_self (by decide)
    have hliteral : " *\n" = " *" ++ "\n" := rfl
    rw [hliteral]
    exact .line level hempty
  · have htext : indented levels (" * " ++ text) = " * " ++ text := by
      rw [indented_append, indented_eq_self h, indented_eq_self (by decide)]
    have hline := Deepens.line level htext
    simpa only [String.append_assoc] using hline

/-- A comment has no line feeds but those at the ends of its lines, whatever its text is. -/
theorem deepens_docComment (doc : String) :
    Deepens levels (docComment doc level) (docComment doc (levels + level)) := by
  have hclosing : " */\n" = " */" ++ "\n" := rfl
  rw [docComment, docComment, hclosing]
  split
  · next first second rest hlines =>
    have hopening : "/**\n" = "/**" ++ "\n" := rfl
    have hopen : indented levels "/**" = "/**" := indented_eq_self (by decide)
    have hclose : indented levels " */" = " */" := indented_eq_self (by decide)
    -- The lines are those of the text, trimmed, so none of them holds a line feed.
    have hblock : ∀ line ∈ first :: second :: rest,
        Deepens levels (commentLine level line) (commentLine (levels + level) line) := by
      intro line hline
      rw [← hlines] at hline
      obtain ⟨untrimmed, huntrimmed, rfl⟩ := List.mem_map.1 hline
      exact deepens_commentLine fun hmem ↦ (Text.isInfix_of_mem_lines huntrimmed).2
        ((Text.trimEnd_isPrefix untrimmed).subset hmem)
    have hlines := ((Deepens.line level hopen).append (.join hblock)).append (.line level hclose)
    rw [hopening]
    simpa only [String.append_assoc] using hlines
  · next hlines =>
    have hshort : (Text.lines (commentText doc)).length ≤ 1 := by
      match hmany : Text.lines (commentText doc) with
      | [] | [_] => simp
      | first :: second :: rest => exact absurd (by rw [hmany]; rfl) (hlines _ _ _)
    have htext : indented levels ("/** " ++ Text.trim (commentText doc) ++ " */") =
        "/** " ++ Text.trim (commentText doc) ++ " */" := by
      rw [indented_append, indented_append, indented_eq_self (Text.lineFeed_not_mem_trim hshort),
        indented_eq_self (by decide), indented_eq_self (by decide)]
    have hline := Deepens.line level htext
    simpa only [String.append_assoc] using hline

/-- A comment that may be there is moved. -/
theorem deepens_docComment? (level : Nat) (doc : Option String) :
    Deepens levels (docComment? doc level) (docComment? doc (levels + level)) := by
  cases doc with
  | none => exact .empty
  | some doc =>
    rw [docComment?, docComment?]
    exact deepens_docComment doc

/-! ### Types -/

/-- A property name has no line feed, quoted or not. -/
theorem lineFeed_not_mem_propertyKey (name : String) : '\n' ∉ (propertyKey name).toList := by
  rw [propertyKey]
  split
  · next hplain =>
    obtain ⟨c, rest, hname, hstart, hrest⟩ := Identifier.isPlainProperty_iff.1 hplain
    rw [hname, List.mem_cons, not_or]
    constructor
    · rintro rfl
      exact absurd hstart (by decide)
    · exact fun hmem ↦ absurd (hrest _ hmem) (by decide)
  · exact Json.lineFeed_not_mem_quote name

/-- A member is moved, with its comment. -/
theorem deepens_member {m : Member}
    (h : indented levels (m.type.print level) = m.type.print (levels + level)) :
    Deepens levels (m.text level) (m.text (levels + level)) := by
  have hmark : indented levels (if m.isOptional then "?" else "") =
      if m.isOptional then "?" else "" := by
    refine indented_eq_self ?_
    split <;> decide
  have hcontent : indented levels
      (propertyKey m.name ++ (if m.isOptional then "?" else "") ++ ": " ++ m.type.print level ++
        ";") = propertyKey m.name ++ (if m.isOptional then "?" else "") ++ ": " ++
          m.type.print (levels + level) ++ ";" := by
    rw [indented_append, indented_append, indented_append, indented_append, hmark, h,
      indented_eq_self (lineFeed_not_mem_propertyKey m.name), indented_eq_self (by decide),
      indented_eq_self (by decide)]
  have hending : ";\n" = ";" ++ "\n" := rfl
  have hlines := (deepens_docComment? level m.doc).append (.line level hcontent)
  rw [Member.text, Member.text, Member.signature, Member.signature, hending]
  simpa only [String.append_assoc] using hlines

/-- Members are moved. -/
theorem deepens_printMembers {members : List Member}
    (h : ∀ m ∈ members, indented levels (m.type.print level) = m.type.print (levels + level)) :
    Deepens levels (printMembers level members) (printMembers (levels + level) members) := by
  induction members with
  | nil => exact .empty
  | cons m rest ih =>
    obtain ⟨hm, hrest⟩ := List.forall_mem_cons.1 h
    rw [printMembers_cons, printMembers_cons]
    exact (deepens_member hm).append (ih hrest)

namespace TypeExpr

/-- An object type is moved, but for the line on which it begins. -/
theorem indented_print_object {members : List Member} (hne : members ≠ [])
    (h : ∀ m ∈ members,
      indented levels (m.type.print (level + 1)) = m.type.print (levels + (level + 1))) :
    indented levels ((object members).print level) = (object members).print (levels + level) := by
  have hopening : indented levels "\x7b\n" = "\x7b\n" ++ pad levels := by
    have hliteral : "\x7b\n" = "\x7b" ++ "\n" := rfl
    rw [hliteral, indented_append, indented_lineFeed, indented_eq_self (by decide),
      String.append_assoc]
  have hmembers : Deepens levels (printMembers (level + 1) members)
      (printMembers (levels + level + 1) members) := deepens_printMembers h
  have hclosing : indented levels "\x7d" = "\x7d" := indented_eq_self (by decide)
  rw [print_object level hne, print_object (levels + level) hne]
  calc
    _ = "\x7b\n" ++ (pad levels ++ indented levels (printMembers (level + 1) members)) ++
        pad level ++ "\x7d" := by
      rw [indented_append, indented_append, indented_append, hopening, hclosing,
        indented_eq_self (lineFeed_not_mem_pad level)]
      simp only [String.append_assoc]
    _ = "\x7b\n" ++ printMembers (levels + level + 1) members ++ (pad levels ++ pad level) ++
        "\x7d" := by
      rw [hmembers]
      simp only [String.append_assoc]
    _ = _ := by rw [pad_add]

/-- **A type is printed at a deeper level by indenting its text further.** -/
theorem MadeOf.indented_print {c : Contents} (hnames : ∀ name ∈ c.names, '\n' ∉ name.toList)
    {type : TypeExpr} (h : MadeOf c type) (level : Nat) :
    indented levels (type.print level) = type.print (levels + level) := by
  induction h generalizing level with
  | keyword h =>
    have hwords : ∀ word ∈ keywords, '\n' ∉ word.toList := by decide
    rw [print, print, indented_eq_self (hwords _ h)]
  | @literal value _ =>
    rw [print, print, indented_eq_self (Json.lineFeed_not_mem_compact value)]
  | named h => rw [print, print, indented_eq_self (hnames _ h)]
  | array _ ih =>
    rw [print, print, indented_append, indented_append, ih, indented_eq_self (by decide),
      indented_eq_self (by decide)]
  | record _ ih =>
    rw [print, print, indented_append, indented_append, ih, indented_eq_self (by decide),
      indented_eq_self (by decide)]
  | @object members hne _ _ ih =>
    exact indented_print_object hne fun m hm ↦ ih m hm (level + 1)
  | @union members _ _ _ ih =>
    rw [print_union, print_union, indented_intercalate (by decide), List.map_map]
    exact congrArg _ (List.map_congr_left fun type htype ↦ ih type htype level)

end TypeExpr

end ApiContract.TypeScript
