import ApiContract.Proofs.TypeScript.Comment

/-!
# Regular expressions as text

A regular expression goes from its first slash to the next one that is neither escaped by a
backslash nor in a class, and is on one line; what begins with two slashes, or with a slash and a
star, is a comment instead (`IsRegexLiteral`). A pattern of a contract is written between two
slashes as it is, except that a slash gets a backslash unless it has one.

## Main result

`isRegexLiteral_print_iff`: what is written is one regular expression exactly if the pattern has
something to write that begins no comment, has no line end, and completes each of its escapes and
classes. Slashes are no part of the condition, wherever they stand in the pattern.
`not_isRegexLiteral_print` has an instance for each way in which a pattern can fail.

## Proof

`afterRegex` reads a text up to the slash that ends a regular expression, and keeps track of
classes; `endsInClass?` reads a pattern in the same way, with no slash in mind. The two are compared
by induction on the pattern, two characters at a time behind a backslash (`afterRegex_escapeRegex`).

Only the extent of the literal is looked at. Whether what stands between the slashes is a regular
expression that the language of the module accepts is not decided here, and depends on more than the
slashes.
-/

namespace ApiContract.TypeScript

/-! ### Reading a regular expression -/

/-- What stands behind the slash that ends a regular expression, read from within a class of
characters or not. -/
def afterRegex (inClass : Bool) : List Char → Option (List Char)
  | [] => none
  | ['\\'] => none
  | '\\' :: _ :: rest => afterRegex inClass rest
  | c :: rest =>
    if inClass then afterRegex (c != ']') rest
    else if c = '/' then some rest
    else afterRegex (c == '[') rest

/-- A text is one regular expression, and nothing follows it. -/
structure IsRegexLiteral (text : String) : Prop where
  opens : text.toList.head? = some '/'
  no_comment : ¬['/', '/'] <+: text.toList ∧ ¬['/', '*'] <+: text.toList
  one_line : IsOneLine text
  ends : afterRegex false text.toList.tail = some []

instance (text : String) : Decidable (IsRegexLiteral text) :=
  decidable_of_iff
    (text.toList.head? = some '/' ∧ (¬['/', '/'] <+: text.toList ∧ ¬['/', '*'] <+: text.toList) ∧
      IsOneLine text ∧ afterRegex false text.toList.tail = some [])
    ⟨fun ⟨hopens, hcomment, hline, hends⟩ ↦ ⟨hopens, hcomment, hline, hends⟩,
      fun h ↦ ⟨h.opens, h.no_comment, h.one_line, h.ends⟩⟩

/-! ### Patterns -/

/-- Whether a pattern ends in a class of characters, if every backslash of it has a character to
escape; read from within a class or not. -/
def endsInClass? (inClass : Bool) : List Char → Option Bool
  | [] => some inClass
  | ['\\'] => none
  | '\\' :: _ :: rest => endsInClass? inClass rest
  | c :: rest => endsInClass? (if inClass then c != ']' else c == '[') rest

/-- A pattern that can stand between two slashes. -/
structure IsRegexPattern (pattern : String) : Prop where
  ne_empty : pattern ≠ ""
  no_star : pattern.toList.head? ≠ some '*'
  one_line : IsOneLine pattern
  complete : endsInClass? false pattern.toList = some false

/-- A backslash is written together with what it escapes, be it a slash or another backslash. -/
theorem escapeRegex_escape (c : Char) (rest : List Char) :
    escapeRegex false ('\\' :: c :: rest) = '\\' :: c :: escapeRegex false rest := by
  simp [escapeRegex]

theorem escapeRegex_slash (rest : List Char) :
    escapeRegex false ('/' :: rest) = '\\' :: '/' :: escapeRegex false rest := by
  simp [escapeRegex]

/-- Any other character stands for itself. -/
theorem escapeRegex_plain {c : Char} (hescape : c ≠ '\\') (hslash : c ≠ '/') (rest : List Char) :
    escapeRegex false (c :: rest) = c :: escapeRegex false rest := by
  rw [escapeRegex, if_neg (by simp [hslash]), beq_eq_false_iff_ne.2 hescape]
  rfl

/-- Nothing is written but the pattern and backslashes. -/
theorem mem_escapeRegex_iff {c : Char} (hc : c ≠ '\\') (escaped : Bool) (pattern : List Char) :
    c ∈ escapeRegex escaped pattern ↔ c ∈ pattern := by
  induction pattern generalizing escaped with
  | nil => rfl
  | cons d rest ih =>
    rw [escapeRegex]
    split <;> simp [ih, hc]

/-- **The slash behind a written pattern ends it just if the pattern is complete**, and no slash of
the pattern does. -/
theorem afterRegex_escapeRegex (inClass : Bool) (pattern : List Char) :
    afterRegex inClass (escapeRegex false pattern ++ ['/']) = some [] ↔
      endsInClass? inClass pattern = some false := by
  fun_induction endsInClass? inClass pattern with
  | case1 inClass => cases inClass <;> simp [escapeRegex, afterRegex]
  | case2 => simp [escapeRegex, afterRegex]
  | case3 inClass c rest ih =>
    rw [escapeRegex_escape, List.cons_append, List.cons_append, afterRegex, ih]
  | case4 inClass c rest hlast hescape ih =>
    have hc : c ≠ '\\' := by
      rintro rfl
      cases rest with
      | nil => exact hlast rfl rfl
      | cons d rest => exact hescape d rest rfl rfl
    by_cases hslash : c = '/'
    · -- a slash is escaped, and neither opens nor closes a class
      subst hslash
      rw [escapeRegex_slash, List.cons_append, List.cons_append, afterRegex, ← ih]
      cases inClass <;> rfl
    · rw [escapeRegex_plain hc hslash, List.cons_append, afterRegex, ← ih]
      · cases inClass <;> simp [hslash]
      · exact fun h _ ↦ hc h
      · exact fun _ _ h _ ↦ hc h

/-! ### The written text -/

/-- The characters of a written pattern. -/
theorem toList_print_regex (level : Nat) (pattern : String) :
    ((Expr.regex pattern).print level).toList =
      '/' :: (escapeRegex false pattern.toList ++ ['/']) := by
  simp [Expr.print]

/-- What is written is on one line if the pattern is. -/
theorem isOneLine_print_regex_iff (level : Nat) (pattern : String) :
    IsOneLine ((Expr.regex pattern).print level) ↔ IsOneLine pattern := by
  have hslash : '/' ∉ lineEnds := by decide
  have hescape : '\\' ∉ lineEnds := by decide
  rw [IsOneLine, IsOneLine, toList_print_regex, List.forall_mem_cons, List.forall_mem_append,
    List.forall_mem_singleton]
  constructor
  · rintro ⟨-, hwritten, -⟩ c hc hend
    exact hwritten c ((mem_escapeRegex_iff (ne_of_mem_of_not_mem hend hescape) _ _).2 hc) hend
  · intro hpattern
    refine ⟨hslash, fun c hc hend ↦ ?_, hslash⟩
    exact hpattern c ((mem_escapeRegex_iff (ne_of_mem_of_not_mem hend hescape) _ _).1 hc) hend

/-- Slashes of the pattern open no comment, but an empty pattern and a star in front do. -/
theorem not_comment_print_regex_iff (level : Nat) (pattern : String) :
    (¬['/', '/'] <+: ((Expr.regex pattern).print level).toList ∧
      ¬['/', '*'] <+: ((Expr.regex pattern).print level).toList) ↔
      pattern ≠ "" ∧ pattern.toList.head? ≠ some '*' := by
  rw [toList_print_regex, List.cons_prefix_cons, List.cons_prefix_cons, ne_eq,
    ← String.toList_eq_nil_iff]
  cases pattern.toList with
  | nil => simp [escapeRegex]
  | cons c rest =>
    by_cases hslash : c = '/'
    · simp [hslash, escapeRegex_slash, List.cons_prefix_cons]
    · rw [escapeRegex, if_neg (by simp [hslash])]
      simp [List.cons_prefix_cons, Ne.symm hslash, eq_comm]

/-- **What is written for a pattern is one regular expression exactly if the pattern is not empty,
does not begin with a star, is on one line, and completes its escapes and classes.** -/
theorem isRegexLiteral_print_iff (level : Nat) (pattern : String) :
    IsRegexLiteral ((Expr.regex pattern).print level) ↔ IsRegexPattern pattern := by
  have hline := isOneLine_print_regex_iff level pattern
  have hcomment := not_comment_print_regex_iff level pattern
  have hends : afterRegex false ((Expr.regex pattern).print level).toList.tail = some [] ↔
      endsInClass? false pattern.toList = some false := by
    rw [toList_print_regex, List.tail_cons]
    exact afterRegex_escapeRegex false pattern.toList
  constructor
  · intro h
    obtain ⟨hempty, hstar⟩ := hcomment.1 h.no_comment
    exact ⟨hempty, hstar, hline.1 h.one_line, hends.1 h.ends⟩
  · intro h
    refine ⟨?_, hcomment.2 ⟨h.ne_empty, h.no_star⟩, hline.2 h.one_line, hends.2 h.complete⟩
    rw [toList_print_regex]
    rfl

/-- Patterns that are not written as regular expressions: with nothing between the slashes, with a
comment instead, over two lines, with an escape of the last slash, and with it in a class. -/
theorem not_isRegexLiteral_print :
    ¬IsRegexLiteral ((Expr.regex "").print 0) ∧ ¬IsRegexLiteral ((Expr.regex "*").print 0) ∧
      ¬IsRegexLiteral ((Expr.regex "a\nb").print 0) ∧
      ¬IsRegexLiteral ((Expr.regex "a\\").print 0) ∧
      ¬IsRegexLiteral ((Expr.regex "[a").print 0) := by
  decide +kernel

/-- Slashes may stand anywhere in a pattern, in a class and escaped too. -/
example : IsRegexLiteral ((Expr.regex "^/v1/[a/\\]]+\\/$").print 0) := by decide +kernel

end ApiContract.TypeScript
