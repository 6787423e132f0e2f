import ApiContract.Proofs.Identifier
import ApiContract.Proofs.Projection.PathTemplate
import ApiContract.Proofs.TypeScript.Template
import Mathlib.Data.List.Forall2
import Mathlib.Data.List.TakeWhile

/-!
# What the text of a path template says

A path is printed as a template literal in which placeholders are substitutions. What a reader of
the generated code sees there should be the path: its texts, whatever characters they have, and one
piece of code for each placeholder.

## Main result

`PathPiece.pathTemplate_read_back`, for every path. A path is taken apart in one way, at the first
opening brace and the first closing one after it, over and over, until there are no such two
(`PathPiece.Decomposes`). The expression for the path holds just these pieces, without the empty
texts; it is a template exactly if there are placeholders; and then its printed text is read back as
the texts and the code that they stand for.

## Proof

That there is one decomposition is an induction along the path (`exists_decomposes`,
`Decomposes.unique`), and the scan finds it (`Decomposes.scan_eq`). Reading a template back is a
separate function (`readFrom`) which knows the rules of template literals and nothing of paths:
escapes, substitutions and the backtick at the end. The induction for it is on the decomposition,
with any text behind.

A dollar sign in front of a placeholder is the only thing that escaping leaves to chance: it is not
escaped, since no brace follows it in the text, but one does in the literal. That brace is the one
behind the dollar sign of the substitution, so there are two dollar signs and the first is read as a
text (`readFrom_printParts`). The path at the end has this and all escapes in it.
-/

namespace ApiContract

open TypeScript

namespace PathPiece

/-! ### Taking a path apart -/

/-- A path is taken apart into texts and placeholders in turn, where texts may be empty. -/
inductive Decomposes : List Char → List PathPiece → Prop
  /-- No opening brace has a closing one after it. -/
  | last {path : List Char} (h : ∀ name, ¬Braced path name) : Decomposes path [.text path]
  /-- The first opening brace, and the first closing one after it. -/
  | step {front name rest : List Char} {pieces : List PathPiece} (hopen : '\x7b' ∉ front)
      (hclose : '\x7d' ∉ name) (h : Decomposes rest pieces) :
    Decomposes (front ++ '\x7b' :: (name ++ '\x7d' :: rest))
      (.text front :: .placeholder name :: pieces)

/-- What is left from a character on, where it stands first. -/
theorem dropWhile_ne_append {c : Char} {front : List Char} (h : c ∉ front) (rest : List Char) :
    (front ++ c :: rest).dropWhile (· ≠ c) = c :: rest := by
  rw [List.dropWhile_append_of_pos fun d hd ↦ decide_eq_true (ne_of_mem_of_not_mem hd h),
    List.dropWhile_cons_of_neg (by simp)]

/-- What stands in front of a character, where it stands first. -/
theorem takeWhile_ne_append {c : Char} {front : List Char} (h : c ∉ front) (rest : List Char) :
    (front ++ c :: rest).takeWhile (· ≠ c) = front := by
  rw [List.takeWhile_append_of_pos fun d hd ↦ decide_eq_true (ne_of_mem_of_not_mem hd h),
    List.takeWhile_cons_of_neg (by simp), List.append_nil]

/-- What stands in front of a character does not hold it. -/
theorem not_mem_takeWhile_ne (c : Char) (cs : List Char) : c ∉ cs.takeWhile (· ≠ c) := by
  intro h
  have hne := List.mem_takeWhile_imp h
  exact of_decide_eq_true hne rfl

/-- Lists with a common part up to a character are equal up to it and behind it. -/
theorem eq_of_append_cons_eq {c : Char} {front front' rest rest' : List Char} (hfront : c ∉ front)
    (hfront' : c ∉ front') (h : front ++ c :: rest = front' ++ c :: rest') :
    front = front' ∧ rest = rest' := by
  have htake := congrArg (List.takeWhile (· ≠ c)) h
  have hdrop := congrArg (List.dropWhile (· ≠ c)) h
  rw [takeWhile_ne_append hfront, takeWhile_ne_append hfront'] at htake
  rw [dropWhile_ne_append hfront, dropWhile_ne_append hfront'] at hdrop
  exact ⟨htake, (List.cons.inj hdrop).2⟩

/-- Without a name between braces, the scan finds a text. -/
theorem scan_of_not_braced {path : List Char} (h : ∀ name, ¬Braced path name) :
    scan path = ofText path := by
  fun_cases scan path with
  | case1 => rfl
  | case2 => rfl
  | case3 c inside hopen d rest hclose =>
    exact absurd ⟨_, rest, (eq_takeWhile_append hopen).trans
      (congrArg (_ ++ '\x7b' :: ·) (eq_takeWhile_append hclose))⟩ (h _)

/-- The scan finds the first opening brace and the first closing one after it. -/
theorem scan_braced {front name rest : List Char} (hopen : '\x7b' ∉ front)
    (hclose : '\x7d' ∉ name) :
    scan (front ++ '\x7b' :: (name ++ '\x7d' :: rest)) =
      ofText front ++ .placeholder name :: scan rest := by
  have hfront := dropWhile_ne_append hopen (name ++ '\x7d' :: rest)
  have hname := dropWhile_ne_append hclose rest
  have htext := takeWhile_ne_append hopen (name ++ '\x7d' :: rest)
  generalize front ++ '\x7b' :: (name ++ '\x7d' :: rest) = path at hfront htext ⊢
  fun_cases scan path with
  | case1 hnone => exact absurd (hfront.symm.trans hnone) nofun
  | case2 c inside hsome hnone =>
    obtain ⟨-, rfl⟩ := List.cons.inj (hfront.symm.trans hsome)
    exact absurd (hname.symm.trans hnone) nofun
  | case3 c inside hsome d later hlater =>
    obtain ⟨-, rfl⟩ := List.cons.inj (hfront.symm.trans hsome)
    obtain ⟨-, rfl⟩ := List.cons.inj (hname.symm.trans hlater)
    rw [htext, takeWhile_ne_append hclose]

/-- A text is a piece if it is not empty. -/
theorem ofText_eq_filter (value : List Char) :
    ofText value = [text value].filter (· ≠ text []) := by
  rw [ofText]
  cases value <;> rfl

/-- **The scan finds the pieces that a path is taken apart into**, but for empty texts. -/
theorem Decomposes.scan_eq {path : List Char} {pieces : List PathPiece}
    (h : Decomposes path pieces) : scan path = pieces.filter (· ≠ text []) := by
  induction h with
  | last hnone => rw [scan_of_not_braced hnone, ofText_eq_filter]
  | @step front name rest pieces hopen hclose _ ih =>
    have hpieces : text front :: .placeholder name :: pieces =
        [text front] ++ ([.placeholder name] ++ pieces) := rfl
    rw [scan_braced hopen hclose, ih, hpieces, List.filter_append, List.filter_append,
      ofText_eq_filter]
    rfl

/-- A name between braces ends behind the first opening brace. -/
theorem close_mem_of_braced {front inside name : List Char} (hopen : '\x7b' ∉ front)
    (h : Braced (front ++ '\x7b' :: inside) name) : '\x7d' ∈ inside := by
  obtain ⟨before, rest, heq⟩ := h
  induction front generalizing before with
  | nil =>
    cases before with
    | nil =>
      rw [(List.cons.inj heq).2]
      exact List.mem_append_right _ List.mem_cons_self
    | cons c before =>
      rw [(List.cons.inj heq).2]
      simp
  | cons c front ih =>
    obtain ⟨hc, hfront⟩ := not_or.1 (mt List.mem_cons.2 hopen)
    cases before with
    | nil => exact absurd (List.cons.inj heq).1.symm hc
    | cons d before => exact ih hfront before (List.cons.inj heq).2

/-- Every path is taken apart. -/
theorem exists_decomposes (path : List Char) : ∃ pieces, Decomposes path pieces := by
  fun_induction scan path with
  | case1 path hnone =>
    refine ⟨_, .last fun name h ↦ ?_⟩
    obtain ⟨front, rest, rfl⟩ := h
    exact of_decide_eq_true (List.dropWhile_eq_nil_iff.1 hnone '\x7b' (by simp)) rfl
  | case2 path c inside hopen hnone =>
    refine ⟨_, .last fun name h ↦ ?_⟩
    rw [eq_takeWhile_append hopen] at h
    have hmem := close_mem_of_braced (not_mem_takeWhile_ne _ _) h
    exact of_decide_eq_true (List.dropWhile_eq_nil_iff.1 hnone '\x7d' hmem) rfl
  | case3 path c inside hopen d rest hclose ih =>
    obtain ⟨pieces, hpieces⟩ := ih
    rw [eq_takeWhile_append hopen, eq_takeWhile_append hclose]
    exact ⟨_, .step (not_mem_takeWhile_ne _ _) (not_mem_takeWhile_ne _ _) hpieces⟩

/-- A path is taken apart in one way. -/
theorem Decomposes.unique {path : List Char} {pieces others : List PathPiece}
    (h : Decomposes path pieces) (hothers : Decomposes path others) : others = pieces := by
  induction h generalizing others with
  | last hnone =>
    cases hothers with
    | last => rfl
    | step => exact absurd ⟨_, _, rfl⟩ (hnone _)
  | @step front name rest pieces hopen hclose _ ih =>
    generalize hpath : front ++ '\x7b' :: (name ++ '\x7d' :: rest) = path at hothers
    cases hothers with
    | last hnone => exact absurd ⟨_, _, hpath.symm⟩ (hnone name)
    | step hopen' hclose' hrest =>
      obtain ⟨rfl, hinside⟩ := eq_of_append_cons_eq hopen hopen' hpath
      obtain ⟨rfl, rfl⟩ := eq_of_append_cons_eq hclose hclose' hinside
      rw [ih hrest]

/-! ### What a template holds -/

/-- The variable of a placeholder as text, and in an address as a text that is encoded. -/
def encodedVariable (name : List Char) : Expr :=
  .call (.identifier "encodeURIComponent") []
    [.call (.identifier "String") [] [.identifier (Identifier.binding (String.ofList name))]]

/-- A part of a template is for a piece of the path. -/
def IsPartFor : PathPiece → TemplatePart → Prop
  | .text value, .text found => found.toList = value
  | .placeholder name, .hole found => found = encodedVariable name
  | _, _ => False

/-- The code that stands for a placeholder. -/
def codeFor (name : List Char) : String :=
  "encodeURIComponent(String(" ++ Identifier.binding (String.ofList name) ++ "))"

/-- What a piece reads as in a template literal. -/
def segment : PathPiece → TemplateSegment
  | .text value => .text value
  | .placeholder name => .code (codeFor name).toList

/-- The part that is made of a piece is one for it. -/
theorem isPartFor_toPart (piece : PathPiece) : IsPartFor piece piece.toPart := by
  cases piece with
  | text value => exact String.toList_ofList
  | placeholder name => rfl

end PathPiece

/-- The parts of a template, or of a plain text that stands for one. -/
def templateParts : Expr → List TemplatePart
  | .template parts => parts
  | .literal (.string value) => if value = "" then [] else [.text value]
  | _ => []

namespace PathPiece

/-- The texts that are kept are not empty. -/
theorem text_ne_nil_of_mem_filter {value : List Char} {pieces : List PathPiece}
    (h : text value ∈ pieces.filter (· ≠ text [])) : value ≠ [] := by
  rintro rfl
  exact of_decide_eq_true (List.mem_filter.1 h).2 rfl

/-- **A path as an expression holds its pieces**, without the empty texts. -/
theorem templateParts_pathTemplate {path : String} {pieces : List PathPiece}
    (h : Decomposes path.toList pieces) :
    templateParts (pathTemplate path) = (pieces.filter (· ≠ text [])).map toPart := by
  rw [pathTemplate, h.scan_eq]
  split
  · next hnil => rw [hnil]; rfl
  · next value hone =>
    have hne : value ≠ [] := text_ne_nil_of_mem_filter (hone ▸ List.mem_singleton_self _)
    have hstring : String.ofList value ≠ "" := fun hempty ↦ hne (by simpa using hempty)
    rw [hone, Expr.text, templateParts, if_neg hstring]
    rfl
  · rfl

/-- A path is a single text, or it has a placeholder. -/
theorem Decomposes.eq_text_or_exists {path : List Char} {pieces : List PathPiece}
    (h : Decomposes path pieces) : pieces = [text path] ∨ ∃ name, placeholder name ∈ pieces := by
  cases h with
  | last => exact .inl rfl
  | step => exact .inr ⟨_, List.mem_cons_of_mem _ List.mem_cons_self⟩

/-- **A path is a template exactly if it has a placeholder.** -/
theorem exists_template_iff {path : String} {pieces : List PathPiece}
    (h : Decomposes path.toList pieces) :
    (∃ parts, pathTemplate path = .template parts) ↔ ∃ name, placeholder name ∈ pieces := by
  have hmem (name : List Char) :
      placeholder name ∈ pieces ↔ placeholder name ∈ scan path.toList := by
    rw [h.scan_eq, List.mem_filter]
    simp
  simp only [hmem]
  rw [pathTemplate]
  split
  · next hnil => simp [hnil, Expr.text]
  · next value hone => simp [hone, Expr.text]
  · next hnil hone =>
    refine iff_of_true ⟨_, rfl⟩ ?_
    rcases h.eq_text_or_exists with hpieces | ⟨name, hname⟩
    · rw [h.scan_eq, hpieces, ← ofText_eq_filter, ofText] at hnil hone
      split at hnil
      · exact absurd rfl hnil
      · next hempty => exact absurd (if_neg hempty) (hone path.toList)
    · exact ⟨name, (hmem name).1 hname⟩

/-! ### What a template reads as -/

/-- The characters of the code for a placeholder. -/
theorem toList_codeFor (name : List Char) : (codeFor name).toList =
    "encodeURIComponent(String(".toList ++ (Identifier.binding (String.ofList name)).toList ++
      "))".toList := by
  -- over variables, as the text that encodes is long to unfold
  have happend (front code back : String) :
      (front ++ code ++ back).toList = front.toList ++ code.toList ++ back.toList := by
    rw [String.toList_append, String.toList_append]
  exact happend _ _ _

/-- Code for a placeholder has parentheses and characters of identifiers. -/
theorem not_mem_codeFor {c : Char} (hopen : c ≠ '(') (hclose : c ≠ ')')
    (hplain : Identifier.isPlainChar c = false) (name : List Char) : c ∉ (codeFor name).toList := by
  have hcalls : ∀ d ∈ "encodeURIComponent(String(".toList ++ "))".toList,
      d = '(' ∨ d = ')' ∨ Identifier.isPlainChar d = true := by simp [Identifier.isPlainChar]
  have hcall (h : c ∈ "encodeURIComponent(String(".toList ++ "))".toList) : False :=
    (hcalls c h).elim hopen fun h ↦ h.elim hclose fun h ↦ Bool.false_ne_true (hplain.symm.trans h)
  rw [toList_codeFor, List.mem_append, List.mem_append]
  rintro ((hfirst | hname) | hlast)
  · exact hcall (List.mem_append_left _ hfirst)
  · exact Bool.false_ne_true (hplain.symm.trans (Identifier.isPlainChar_of_mem_binding hname))
  · exact hcall (List.mem_append_right _ hlast)

/-- The code for a placeholder is what its expression is printed as. -/
theorem print_encodedVariable (level : Nat) (name : List Char) :
    (encodedVariable name).print level = codeFor name := by
  have hcalls : "encodeURIComponent" ++ "" ++ "(" ++ ("String" ++ "" ++ "(") =
      "encodeURIComponent(String(" := by decide +kernel
  have hclosed : ")" ++ ")" = "))" := by decide +kernel
  let bound := Identifier.binding (String.ofList name)
  calc (encodedVariable name).print level
      = "encodeURIComponent" ++ "" ++ "(" ++ ("String" ++ "" ++ "(" ++ bound ++ ")") ++ ")" := by
        simp only [encodedVariable, Expr.print, printItems, printTypeArgs, List.isEmpty_nil,
          if_true, String.intercalate_singleton, bound]
    _ = "encodeURIComponent" ++ "" ++ "(" ++ ("String" ++ "" ++ "(") ++ bound ++
          (")" ++ ")") := by simp only [String.append_assoc]
    _ = codeFor name := congrArg₂ (· ++ bound ++ ·) hcalls hclosed

/-- How a substitution is printed. -/
theorem print_hole (level : Nat) (name : List Char) (rest : List TemplatePart) :
    (printParts level ((placeholder name).toPart :: rest)).toList =
      '$' :: '\x7b' :: ((codeFor name).toList ++ '\x7d' :: (printParts level rest).toList) := by
  have hpart : (placeholder name).toPart = .hole (encodedVariable name) := rfl
  have hopen : "$\x7b".toList = ['$', '\x7b'] := by decide
  have hclose : "\x7d".toList = ['\x7d'] := by decide
  rw [hpart, printParts, print_encodedVariable, String.toList_append, String.toList_append,
    String.toList_append, hopen, hclose]
  simp

/-- How a text is printed, with its escapes. -/
theorem printParts_ofText (level : Nat) (value : List Char) (rest : List TemplatePart) :
    (printParts level ((ofText value).map toPart ++ rest)).toList =
      escapeTemplate value ++ (printParts level rest).toList := by
  rw [ofText]
  cases value with
  | nil => rfl
  | cons c value =>
    rw [if_neg (by simp), List.map_singleton, List.singleton_append, toPart, printParts,
      String.toList_append, String.toList_ofList, String.toList_ofList]

/-- **The printed parts of a path are read back as its pieces.** -/
theorem readFrom_printParts {path : List Char} {pieces : List PathPiece}
    (h : Decomposes path pieces) (level : Nat) :
    readFrom none ((printParts level ((scan path).map toPart)).toList ++ ['\x60']) =
      some (pieces.map segment) := by
  induction h with
  | @last path hnone =>
    have htext := printParts_ofText level path []
    rw [List.append_nil] at htext
    have hend : readFrom none ['\x60'] = some [.text []] := by rw [readFrom]
    rw [scan_of_not_braced hnone, htext, printParts, String.toList_empty, List.append_nil,
      readFrom_escapeTemplate _ (by decide), hend, Option.map_some, TemplateSegment.prepend,
      List.append_nil]
    rfl
  | @step front name rest pieces hopen hclose _ ih =>
    have hcode := readFrom_code (not_mem_codeFor (by decide) (by decide) (by decide) name)
      (not_mem_codeFor (by decide) (by decide) (by decide) name)
    rw [scan_braced hopen hclose, List.map_append, List.map_cons, printParts_ofText, print_hole,
      List.append_assoc, readFrom_escapeTemplate _ (by simp), List.cons_append, List.cons_append,
      readFrom, List.append_assoc, List.cons_append, hcode, ih]
    simp only [Option.map_some, TemplateSegment.prepend, List.append_nil]
    rfl

/-- A printed template is read behind its backtick. -/
theorem readTemplate?_print {parts : List TemplatePart} (level : Nat) :
    readTemplate? ((Expr.template parts).print level) =
      readFrom none ((printParts level parts).toList ++ ['\x60']) := by
  have htick : "\x60".toList = ['\x60'] := by decide
  have hliteral : ((Expr.template parts).print level).toList =
      '\x60' :: ((printParts level parts).toList ++ ['\x60']) := by
    rw [Expr.print, String.toList_append, String.toList_append, htick]
    rfl
  rw [readTemplate?, hliteral]
  rfl

/-- **Path templates are faithful.** Every path is taken apart in one way, at the first opening
brace and the first closing one after it, over and over. The expression for the path holds the texts
that are not empty and an encoded variable for each placeholder, in their order. It is a template
literal if there are placeholders, and then its printed text is read back as the texts and the code
for the placeholders, in turn: no text begins a substitution, ends the literal or is changed. -/
theorem pathTemplate_read_back (path : String) :
    ∃ pieces, Decomposes path.toList pieces ∧
      (∀ others, Decomposes path.toList others → others = pieces) ∧
      List.Forall₂ IsPartFor (pieces.filter (· ≠ text [])) (templateParts (pathTemplate path)) ∧
      ((∃ parts, pathTemplate path = .template parts) ↔ ∃ name, placeholder name ∈ pieces) ∧
      ∀ parts, pathTemplate path = .template parts → ∀ level,
        readTemplate? ((pathTemplate path).print level) = some (pieces.map segment) := by
  obtain ⟨pieces, hpieces⟩ := exists_decomposes path.toList
  have hparts := templateParts_pathTemplate hpieces
  refine ⟨pieces, hpieces, fun _ hothers ↦ hpieces.unique hothers, ?_,
    exists_template_iff hpieces, fun parts htemplate level ↦ ?_⟩
  · rw [hparts]
    exact List.forall₂_map_right_iff.2 (List.forall₂_same.2 fun piece _ ↦ isPartFor_toPart piece)
  · rw [htemplate, templateParts, ← hpieces.scan_eq] at hparts
    rw [htemplate, readTemplate?_print, hparts, readFrom_printParts hpieces]

/-- A path with a dollar sign in front of a placeholder, and a text in which everything is to be
escaped, with an opening brace that is not closed. -/
def pricePath : String := "/$\x7bpet-id\x7d\x60\\$\x7b"

/-- What it is taken apart into. -/
def pricePieces : List PathPiece :=
  [text ['/', '$'], placeholder "pet-id".toList, text ['\x60', '\\', '$', '\x7b']]

/-- Dollar signs, backticks and backslashes around a placeholder. -/
theorem pathTemplate_read_back_pricePath :
    Decomposes pricePath.toList pricePieces ∧
      readTemplate? ((pathTemplate pricePath).print 0) =
        some [ .text ['/', '$'], .code "encodeURIComponent(String(petId))".toList
             , .text ['\x60', '\\', '$', '\x7b'] ] := by
  have hlast : ∀ name, ¬Braced ['\x60', '\\', '$', '\x7b'] name := by
    rintro name ⟨front, rest, heq⟩
    have hclose : '\x7d' ∈ ['\x60', '\\', '$', '\x7b'] := heq ▸ by simp
    exact absurd hclose (by decide)
  have hpath : pricePath.toList = ['/', '$'] ++
      '\x7b' :: ("pet-id".toList ++ '\x7d' :: ['\x60', '\\', '$', '\x7b']) := by decide +kernel
  have hpieces : Decomposes pricePath.toList pricePieces := by
    rw [hpath]
    exact .step (by decide) (by decide +kernel) (.last hlast)
  have hcode : codeFor "pet-id".toList = "encodeURIComponent(String(petId))" := by decide +kernel
  obtain ⟨pieces, -, hunique, -, htemplate, hread⟩ := pathTemplate_read_back pricePath
  obtain rfl := hunique _ hpieces
  obtain ⟨parts, hparts⟩ := htemplate.2 ⟨_, List.mem_cons_of_mem _ List.mem_cons_self⟩
  refine ⟨hpieces, ?_⟩
  rw [hread parts hparts 0, ← hcode]
  rfl

end PathPiece

end ApiContract
