import ApiContract.Proofs.Text.Delimited
import ApiContract.Toml.Printer
import ApiContract.Toml.Quoted
import Mathlib.Data.List.TakeWhile
import Mathlib.Tactic.SplitIfs

/-!
# Quoted texts are read back

A text is written between single quotes where that spares escapes, and otherwise between double
quotes with its control characters escaped; on one line or on several, as it has line feeds or not.
Either way it is read back (`text?_quoted`), as long as no further quote follows it.

## Between double quotes

Each character is read off its spelling (`Spelling`): it stands for itself, or an escape stands for
it, and in a text of several lines a line feed stands for itself too. No spelling begins with the
quote that closes the text, so a reader that takes one spelling after the other gets to the closing
quote and no further (`body_flatMap`). This is one lemma for texts of one line and of several, whose
bodies are read by different functions.

## Between single quotes

There are no escapes there, so a text stands for itself or cannot be written. Between three single
quotes a run of quotes is taken at once; since the text has no three of them in a row and does not
end with one, no such run closes it too early (`IsVerbatim`). The induction is on the runs of quotes
and not on the characters: a text is a run of quotes and what follows it, which begins with
something else (`exists_eq_replicate_append`).

## What opens a text

Three quotes open a text of several lines, and a line feed right behind them is not part of it; the
writer always puts one there, so that a line feed at the front of the text is kept. A text without
characters is written with two quotes and is not taken for such an opening, since no quote follows
it.
-/

namespace ApiContract.Toml

/-! ### Spellings between double quotes -/

/-- What a character may be written as between double quotes. -/
inductive Spelling (isMultiline : Bool) : Char → List Char → Prop
  /-- It stands for itself. -/
  | plain {c : Char} (hquote : c ≠ '"') (hback : c ≠ '\\') (hallowed : isForbidden c = false) :
      Spelling isMultiline c [c]
  /-- A line feed stands for itself in a text of several lines. -/
  | lineFeed (hlines : isMultiline = true) : Spelling isMultiline '\n' ['\n']
  /-- An escape stands for it, which does not join lines. -/
  | escape {c : Char} {cs : List Char} (hescape : ∀ rest, escape (cs ++ rest) = .ok (c, rest))
      (hjoin : ∀ rest, afterJoin? (cs ++ rest) = none) : Spelling isMultiline c ('\\' :: cs)

/-- Only control characters are forbidden. -/
theorem isForbidden_of_isControl_eq_false {c : Char} (h : isControl c = false) :
    isForbidden c = false := by
  rw [isControl, Bool.or_eq_false_iff] at h
  rw [isForbidden, h.1, h.2]
  rfl

/-- A control character is spelled by its escape. -/
theorem spelling_controlEscape {c : Char} (h : isControl c = true) (isMultiline : Bool) :
    Spelling isMultiline c (controlEscape c) := by
  have hsmall : c.toNat < 128 := by
    rw [isControl, Bool.or_eq_true, decide_eq_true_eq, beq_iff_eq] at h
    rcases h with hlow | rfl
    · omega
    · decide
  have hdigits : ∀ n < 128,
      let digits := (Nat.toDigits 16 n).map Char.toUpper
      (List.replicate (4 - digits.length) '0' ++ digits).length = 4 ∧
        Text.readNat? 16 (List.replicate (4 - digits.length) '0' ++ digits) = some n := by
    decide +kernel
  obtain ⟨hlength, hread⟩ := hdigits c.toNat hsmall
  refine .escape (fun rest ↦ ?_) fun rest ↦ rfl
  rw [List.cons_append, Toml.escape, codePoint, List.take_left' hlength, hread]
  dsimp only
  have hvalid : c.toNat.isValidChar := c.valid
  rw [List.drop_left' hlength, hlength, Char.ofNat_toNat, decide_eq_true hvalid]
  rfl

/-- What is written for a character is a spelling of it. -/
theorem spelling_escaped (isMultiline : Bool) (c : Char) :
    Spelling isMultiline c (escaped isMultiline c) := by
  rw [escaped]
  split_ifs with hback htab hfeed hlines hform hreturn hquote hslash hcontrol
  · subst hback; exact .escape (fun _ ↦ rfl) fun _ ↦ rfl
  · subst htab; exact .escape (fun _ ↦ rfl) fun _ ↦ rfl
  · subst hfeed; exact .lineFeed hlines
  · subst hfeed; exact .escape (fun _ ↦ rfl) fun _ ↦ rfl
  · subst hform; exact .escape (fun _ ↦ rfl) fun _ ↦ rfl
  · subst hreturn; exact .escape (fun _ ↦ rfl) fun _ ↦ rfl
  · subst hquote; exact .escape (fun _ ↦ rfl) fun _ ↦ rfl
  · subst hslash; exact .escape (fun _ ↦ rfl) fun _ ↦ rfl
  · exact spelling_controlEscape hcontrol isMultiline
  · exact .plain hquote hslash (isForbidden_of_isControl_eq_false (Bool.eq_false_iff.2 hcontrol))

/-! ### Between double quotes -/

theorem Spelling.ne_nil {isMultiline : Bool} {c : Char} {cs : List Char}
    (h : Spelling isMultiline c cs) : cs ≠ [] := by
  cases h <;> exact List.cons_ne_nil _ _

/-- No spelling begins with the quote that closes the text. -/
theorem Spelling.head?_ne {isMultiline : Bool} {c : Char} {cs : List Char}
    (h : Spelling isMultiline c cs) : cs.head? ≠ some '"' := by
  cases h with
  | plain hquote _ _ => exact fun heq ↦ hquote (Option.some.inj heq)
  | lineFeed _ => decide
  | escape _ _ => exact fun heq ↦ absurd (Option.some.inj heq) (by decide)

/-- On one line, a character is read off its spelling. -/
theorem Spelling.basicBody_append {c : Char} {cs : List Char} (h : Spelling false c cs) (n : Nat)
    (done rest : List Char) :
    basicBody (n + 1) done (cs ++ rest) = basicBody n (c :: done) rest := by
  cases h with
  | plain hquote hback hallowed =>
    rw [List.singleton_append, basicBody, if_neg hquote, if_neg hback, hallowed]
    rfl
  | lineFeed hlines => exact absurd hlines Bool.false_ne_true
  | escape hescape _ =>
    rw [List.cons_append, basicBody, if_neg (by decide), if_pos rfl, hescape]
    rfl

/-- Only a line end is taken for one. -/
theorem afterNewline?_of_isForbidden_eq_false {c : Char} (h : isForbidden c = false)
    (rest : List Char) : afterNewline? (c :: rest) = none := by
  rw [afterNewline?]
  · intro _ heq
    obtain ⟨rfl, -⟩ := List.cons.inj heq
    exact absurd h (by decide)
  · intro _ heq
    obtain ⟨rfl, -⟩ := List.cons.inj heq
    exact absurd h (by decide)

/-- On several lines, a character is read off its spelling. -/
theorem Spelling.multilineBody_append {c : Char} {cs : List Char} (h : Spelling true c cs) (n : Nat)
    (done rest : List Char) :
    multilineBody '"' (n + 1) done (cs ++ rest) = multilineBody '"' n (c :: done) rest := by
  cases h with
  | plain hquote hback hallowed =>
    have hescape : ¬(decide (c = '\\') && '"' == '"') = true := by simp [hback]
    rw [List.singleton_append, multilineBody, if_neg hquote, if_neg hescape,
      afterNewline?_of_isForbidden_eq_false hallowed, hallowed]
    rfl
  | lineFeed _ => rfl
  | escape hescape hjoin =>
    rw [List.cons_append, multilineBody, if_neg (by decide), if_pos (by decide), hjoin, hescape]
    rfl

/-- A reader that reads each character off what it is written as reads the text. -/
theorem body_flatMap {body : Nat → List Char → Reader String} {spell : Char → List Char}
    {closing rest : List Char} (hne : ∀ c, spell c ≠ [])
    (hstep : ∀ c n done after, body (n + 1) done (spell c ++ after) = body n (c :: done) after)
    (hclose : ∀ n done,
      body (n + 1) done (closing ++ rest) = .ok (String.ofList done.reverse, rest))
    (cs done : List Char) {n : Nat} (hn : (cs.flatMap spell).length < n) :
    body n done (cs.flatMap spell ++ (closing ++ rest)) =
      .ok (String.ofList (done.reverse ++ cs), rest) := by
  induction cs generalizing n done with
  | nil =>
    obtain ⟨n, rfl⟩ := Nat.exists_eq_add_of_lt hn
    rw [List.append_nil]
    exact hclose _ done
  | cons c cs ih =>
    have hc : 0 < (spell c).length := List.length_pos_iff.2 (hne c)
    rw [List.flatMap_cons, List.length_append] at hn
    obtain ⟨n, rfl⟩ := Nat.exists_eq_add_of_lt hn
    rw [List.flatMap_cons, List.append_assoc, hstep, ih (c :: done) (by omega), List.reverse_cons,
      List.append_assoc, List.singleton_append]

theorem escaped_ne_nil (isMultiline : Bool) (c : Char) : escaped isMultiline c ≠ [] :=
  (spelling_escaped isMultiline c).ne_nil

/-- A text of one line is read back up to its closing quote. -/
theorem basicBody_escaped (cs rest : List Char) {n : Nat}
    (hn : (cs.flatMap (escaped false)).length < n) :
    basicBody n [] (cs.flatMap (escaped false) ++ (['"'] ++ rest)) = .ok (String.ofList cs, rest) :=
  body_flatMap (escaped_ne_nil false) (fun c ↦ (spelling_escaped false c).basicBody_append)
    (fun _ _ ↦ rfl) cs [] hn

/-! ### Runs of quotes -/

/-- A run of quotes goes up to where something else follows. -/
theorem takeWhile_replicate_append {quote : Char} {rest : List Char} (k : Nat)
    (hrest : rest.head? ≠ some quote) :
    (List.replicate k quote ++ rest).takeWhile (· == quote) = List.replicate k quote := by
  refine Text.takeWhile_word_append (fun c hc ↦ beq_iff_eq.2 (List.eq_of_mem_replicate hc)) ?_
  exact fun c hc ↦ beq_eq_false_iff_ne.2 fun heq ↦ hrest (heq ▸ hc)

/-- Fewer than three quotes in a row belong to the text. -/
theorem multilineBody_quotes {quote : Char} {rest : List Char} {k : Nat} (hk : k + 1 < 3) (n : Nat)
    (done : List Char) (hrest : rest.head? ≠ some quote) :
    multilineBody quote (n + 1) done (List.replicate (k + 1) quote ++ rest) =
      multilineBody quote n (List.replicate (k + 1) quote ++ done) rest := by
  have hrun := takeWhile_replicate_append (k + 1) hrest
  rw [List.replicate_succ, List.cons_append] at hrun ⊢
  rw [multilineBody, if_pos rfl, hrun]
  dsimp only
  rw [← List.replicate_succ, List.length_replicate, if_pos hk, ← List.cons_append,
    ← List.replicate_succ, List.drop_left' List.length_replicate]

/-- Three quotes close the text. -/
theorem multilineBody_close {quote : Char} {rest : List Char} (n : Nat) (done : List Char)
    (hrest : rest.head? ≠ some quote) :
    multilineBody quote (n + 1) done (List.replicate 3 quote ++ rest) =
      .ok (String.ofList done.reverse, rest) := by
  have hrun := takeWhile_replicate_append 3 hrest
  rw [List.replicate_succ, List.cons_append] at hrun ⊢
  rw [multilineBody, if_pos rfl, hrun]
  rfl

/-- A text of several lines is read back up to its three closing quotes. -/
theorem multilineBody_escaped {cs rest : List Char} (hrest : rest.head? ≠ some '"') {n : Nat}
    (hn : (cs.flatMap (escaped true)).length < n) :
    multilineBody '"' n [] (cs.flatMap (escaped true) ++ (List.replicate 3 '"' ++ rest)) =
      .ok (String.ofList cs, rest) :=
  body_flatMap (escaped_ne_nil true) (fun c ↦ (spelling_escaped true c).multilineBody_append)
    (fun n done ↦ multilineBody_close n done hrest) cs [] hn

/-- A text is a run of quotes and what follows it, which begins with something else. -/
theorem exists_eq_replicate_append (quote : Char) (cs : List Char) :
    ∃ k rest, cs = List.replicate k quote ++ rest ∧ rest.head? ≠ some quote := by
  have hrun : cs.takeWhile (· == quote) =
      List.replicate (cs.takeWhile (· == quote)).length quote :=
    List.eq_replicate_of_mem fun c hc ↦
      beq_iff_eq.1 (List.mem_takeWhile_imp (p := (· == quote)) hc)
  refine ⟨(cs.takeWhile (· == quote)).length, cs.dropWhile (· == quote), ?_, fun hhead ↦ ?_⟩
  · rw [← hrun, List.takeWhile_append_dropWhile]
  · have hnot := List.head?_dropWhile_not (· == quote) cs
    rw [hhead] at hnot
    exact absurd (beq_self_eq_true quote) (Bool.eq_false_iff.1 hnot)

/-! ### Between single quotes -/

/-- A text that three single quotes can hold. -/
structure IsVerbatim (cs : List Char) : Prop where
  allowed : ∀ c ∈ cs, isForbidden c = false ∨ c = '\n'
  no_triple : hasTripleQuote cs = false
  last : cs.getLast? ≠ some '\''

namespace IsVerbatim

variable {cs rest : List Char}

/-- The end of such a text is such a text. -/
theorem of_append (front : List Char) (h : IsVerbatim (front ++ cs)) : IsVerbatim cs where
  allowed c hc := h.allowed c (List.mem_append_right front hc)
  no_triple := by
    have hthree := h.no_triple
    clear h
    induction front with
    | nil => exact hthree
    | cons c front ih =>
      rw [List.cons_append, hasTripleQuote, Bool.or_eq_false_iff] at hthree
      exact ih hthree.2
  last := by
    cases cs with
    | nil => exact nofun
    | cons c cs =>
      have hlast := h.last
      rwa [List.getLast?_append_of_ne_nil _ (List.cons_ne_nil c cs)] at hlast

/-- A run of quotes in it is shorter than three. -/
theorem length_lt {k : Nat} (h : IsVerbatim (List.replicate (k + 1) '\'' ++ rest)) : k + 1 < 3 := by
  match k with
  | 0 | 1 => decide
  | k + 2 => exact absurd h.no_triple Bool.noConfusion

/-- It is not made of quotes alone. -/
theorem ne_replicate (k : Nat) : ¬IsVerbatim (List.replicate (k + 1) '\'') := by
  intro h
  have hlast := h.last
  rw [List.getLast?_replicate] at hlast
  exact absurd rfl hlast

/-- Another character than a quote stands for itself. -/
theorem multilineBody_cons {c : Char} (h : IsVerbatim (c :: cs)) (hquote : c ≠ '\'') (n : Nat)
    (done rest : List Char) :
    multilineBody '\'' (n + 1) done (c :: rest) = multilineBody '\'' n (c :: done) rest := by
  have hescape : ¬(decide (c = '\\') && '\'' == '"') = true := by simp
  rw [multilineBody, if_neg hquote, if_neg hescape]
  rcases h.allowed c List.mem_cons_self with hallowed | rfl
  · rw [afterNewline?_of_isForbidden_eq_false hallowed, hallowed]
    rfl
  · rfl

/-- Between three single quotes a text stands for itself. -/
theorem multilineBody_append (h : IsVerbatim cs) (hrest : rest.head? ≠ some '\'')
    (done : List Char) {n : Nat} (hn : cs.length < n) :
    multilineBody '\'' n done (cs ++ (List.replicate 3 '\'' ++ rest)) =
      .ok (String.ofList (done.reverse ++ cs), rest) := by
  induction n generalizing cs done with
  | zero => exact absurd hn (Nat.not_lt_zero _)
  | succ n ih =>
    -- a step takes a run of quotes, or else one character
    obtain ⟨k, after, rfl, hafter⟩ := exists_eq_replicate_append '\'' cs
    match k, after with
    | 0, [] =>
      rw [List.append_nil, List.replicate_zero, List.nil_append, List.append_nil]
      exact multilineBody_close n done hrest
    | k + 1, [] =>
      rw [List.append_nil] at h
      exact absurd h (ne_replicate k)
    | 0, c :: after =>
      have hquote : c ≠ '\'' := fun heq ↦ hafter (congrArg some heq)
      rw [List.replicate_zero, List.nil_append] at h hn ⊢
      rw [List.cons_append, h.multilineBody_cons hquote,
        ih (of_append [c] h) (c :: done) (Nat.lt_of_succ_lt_succ hn), List.reverse_cons,
        List.append_assoc, List.singleton_append]
    | k + 1, c :: after =>
      rw [List.length_append, List.length_replicate] at hn
      rw [List.append_assoc, multilineBody_quotes h.length_lt n done (by exact hafter),
        ih (of_append _ h) _ (by omega), List.reverse_append, List.reverse_replicate,
        List.append_assoc]

end IsVerbatim

/-- The texts that are written so can be. -/
theorem isVerbatim_of_isLiteral {cs : List Char} (h : isLiteral cs = true) : IsVerbatim cs := by
  rw [isLiteral, Bool.and_eq_true, Bool.and_eq_true, Bool.and_eq_true, List.all_eq_true,
    Bool.not_eq_true', bne_iff_ne] at h
  refine ⟨fun c hc ↦ ?_, h.1.2, h.2⟩
  have hc := h.1.1.2 c hc
  rw [Bool.or_eq_true, Bool.or_eq_true, Bool.not_eq_true', beq_iff_eq, beq_iff_eq] at hc
  rcases hc with (hcontrol | rfl) | hfeed
  · exact .inl (isForbidden_of_isControl_eq_false hcontrol)
  · exact .inl (by decide)
  · exact .inr hfeed

theorem ne_nil_of_isLiteral {cs : List Char} (h : isLiteral cs = true) : cs ≠ [] := by
  rintro rfl
  exact absurd h (by decide)

/-- On one line a text without single quotes stands between two of them for itself. -/
theorem literalBody_append {cs : List Char} (hallowed : ∀ c ∈ cs, isForbidden c = false)
    (hquote : '\'' ∉ cs) (rest : List Char) :
    literalBody (cs ++ '\'' :: rest) = .ok (String.ofList cs, rest) := by
  have hword : ∀ c ∈ cs, decide (c ≠ '\'') = true := fun c hc ↦
    decide_eq_true (ne_of_mem_of_not_mem hc hquote)
  have hend : ∀ c ∈ ('\'' :: rest).head?, decide (c ≠ '\'') = false := by
    rintro c ⟨⟩
    rfl
  have hnone : cs.any isForbidden = false :=
    List.any_eq_false.2 fun c hc ↦ Bool.eq_false_iff.1 (hallowed c hc)
  rw [literalBody, Text.takeWhile_word_append hword hend, Text.dropWhile_word_append hword hend,
    hnone]
  rfl

/-! ### Quoted texts -/

/-- A text that does not begin with three quotes is on one line. -/
theorem text?_eq_line? {cs : List Char} (hdouble : ¬['"', '"', '"'] <+: cs)
    (hsingle : ¬['\'', '\'', '\''] <+: cs) : text? cs = line? cs := by
  rw [text?]
  · rintro rest rfl
    exact hdouble (List.prefix_append _ rest)
  · rintro rest rfl
    exact hsingle (List.prefix_append _ rest)

/-- Three double quotes and a line feed open a text of several lines. -/
theorem text?_doubleLines (cs : List Char) :
    text? (List.replicate 3 '"' ++ '\n' :: cs) = some (multilineBody '"' (cs.length + 2) [] cs) :=
  rfl

/-- Three single quotes and a line feed do so too. -/
theorem text?_singleLines (cs : List Char) :
    text? (List.replicate 3 '\'' ++ '\n' :: cs) =
      some (multilineBody '\'' (cs.length + 2) [] cs) :=
  rfl

variable {cs rest : List Char}

/-- Three single quotes around a text on one line. -/
theorem text?_literal (h : IsVerbatim cs) (hlines : '\n' ∉ cs) (hne : cs ≠ [])
    (hrest : rest.head? ≠ some '\'') :
    text? (List.replicate 3 '\'' ++ (cs ++ (List.replicate 3 '\'' ++ rest))) =
      some (.ok (String.ofList cs, rest)) := by
  obtain ⟨c, more, rfl⟩ := List.exists_cons_of_ne_nil hne
  have hallowed : isForbidden c = false := (h.allowed c List.mem_cons_self).resolve_right
    fun heq ↦ hlines (heq ▸ List.mem_cons_self)
  have hopen : text? (List.replicate 3 '\'' ++ (c :: more ++ (List.replicate 3 '\'' ++ rest))) =
      some (multiline '\'' (c :: more ++ (List.replicate 3 '\'' ++ rest))) := rfl
  rw [hopen, multiline, List.cons_append, afterNewline?_of_isForbidden_eq_false hallowed,
    Option.getD_none, ← List.cons_append,
    h.multilineBody_append hrest [] (by rw [List.length_append]; omega)]
  rfl

/-- One single quote on either side. -/
theorem text?_literalLine (h : IsVerbatim cs) (hlines : '\n' ∉ cs) (hne : cs ≠ [])
    (hquote : '\'' ∉ cs) :
    text? ('\'' :: (cs ++ '\'' :: rest)) = some (.ok (String.ofList cs, rest)) := by
  have hallowed : ∀ c ∈ cs, isForbidden c = false := fun c hc ↦
    (h.allowed c hc).resolve_right fun heq ↦ hlines (heq ▸ hc)
  have hsingle : ¬['\'', '\'', '\''] <+: '\'' :: (cs ++ '\'' :: rest) := by
    obtain ⟨c, more, rfl⟩ := List.exists_cons_of_ne_nil hne
    intro hprefix
    have htwo := (List.cons_prefix_cons.1 (List.cons_prefix_cons.1 hprefix).2).1
    exact hquote (htwo ▸ List.mem_cons_self)
  rw [text?_eq_line? (fun h ↦ absurd (List.cons_prefix_cons.1 h).1 (by decide)) hsingle, line?,
    literalBody_append hallowed hquote]

/-- One double quote on either side. -/
theorem text?_basicLine (hrest : rest.head? ≠ some '"') :
    text? ('"' :: (cs.flatMap (escaped false) ++ '"' :: rest)) =
      some (.ok (String.ofList cs, rest)) := by
  have hdouble : ¬['"', '"', '"'] <+: '"' :: (cs.flatMap (escaped false) ++ '"' :: rest) := by
    intro hprefix
    have htwo := (List.cons_prefix_cons.1 hprefix).2
    cases cs with
    | nil =>
      obtain ⟨more, hmore⟩ := (List.cons_prefix_cons.1 htwo).2
      exact hrest (hmore ▸ rfl)
    | cons c cs =>
      obtain ⟨first, more, hspelled⟩ := List.exists_cons_of_ne_nil (escaped_ne_nil false c)
      rw [List.flatMap_cons, hspelled] at htwo
      have hfirst := (List.cons_prefix_cons.1 htwo).1
      exact (spelling_escaped false c).head?_ne (by rw [hspelled, ← hfirst]; rfl)
  rw [text?_eq_line? hdouble fun h ↦ absurd (List.cons_prefix_cons.1 h).1 (by decide), line?]
  exact congrArg some (basicBody_escaped cs rest (by rw [List.length_append]; omega))

/-- **A quoted text is read back**, and what follows it is left. -/
theorem text?_quoted (s : String) (hdouble : rest.head? ≠ some '"')
    (hsingle : rest.head? ≠ some '\'') :
    text? ((quoted s).toList ++ rest) = some (.ok (s, rest)) := by
  rw [quoted]
  dsimp only
  -- The five styles in turn: literal in lines, in three quotes and in one, then escaped in lines
  -- and on one line. In each the written text is cut into its quotes and what is between them.
  split_ifs with hliteral hlines hquote hlines
  · have htext : ("'''\n" ++ s ++ "'''").toList ++ rest =
        List.replicate 3 '\'' ++ '\n' :: (s.toList ++ (List.replicate 3 '\'' ++ rest)) := by
      simp
    rw [htext, text?_singleLines, (isVerbatim_of_isLiteral hliteral).multilineBody_append hsingle []
      (by rw [List.length_append]; omega), List.reverse_nil, List.nil_append, String.ofList_toList]
  · have htext : ("'''" ++ s ++ "'''").toList ++ rest =
        List.replicate 3 '\'' ++ (s.toList ++ (List.replicate 3 '\'' ++ rest)) := by
      simp
    rw [htext, text?_literal (isVerbatim_of_isLiteral hliteral) (by simpa using hlines)
      (ne_nil_of_isLiteral hliteral) hsingle, String.ofList_toList]
  · have htext : ("'" ++ s ++ "'").toList ++ rest = '\'' :: (s.toList ++ '\'' :: rest) := by
      simp
    rw [htext, text?_literalLine (isVerbatim_of_isLiteral hliteral) (by simpa using hlines)
      (ne_nil_of_isLiteral hliteral) (by simpa using hquote), String.ofList_toList]
  · have htext : ("\"\"\"\n" ++
        String.ofList (s.toList.flatMap (escaped (s.toList.contains '\n'))) ++
        "\"\"\"").toList ++ rest = List.replicate 3 '"' ++
          '\n' :: (s.toList.flatMap (escaped true) ++ (List.replicate 3 '"' ++ rest)) := by
      rw [hlines]
      simp
    rw [htext, text?_doubleLines, multilineBody_escaped hdouble
      (by rw [List.length_append]; omega), String.ofList_toList]
  · have htext : ("\"" ++ String.ofList (s.toList.flatMap (escaped (s.toList.contains '\n'))) ++
        "\"").toList ++ rest = '"' :: (s.toList.flatMap (escaped false) ++ '"' :: rest) := by
      rw [Bool.eq_false_iff.2 hlines]
      simp
    rw [htext, text?_basicLine hdouble, String.ofList_toList]

end ApiContract.Toml
