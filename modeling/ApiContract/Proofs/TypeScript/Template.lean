import ApiContract.Proofs.Text
import ApiContract.TypeScript.Printer

/-!
# Reading template literals

A template literal is read back as the texts and the code that it is made of, in turn: it begins and
ends with a text, and a substitution holds the code from its opening brace to the closing one that
belongs to it. Within texts a backslash, a backtick and a dollar sign may be escaped, and the first
two have to be; an opening brace begins a substitution only behind a dollar sign that is not
escaped.

## Main results

* `readFrom_escapeTemplate`: a text that was escaped is read back as it was, unless a brace follows
  that it could make the beginning of a substitution.
* `readFrom_code`: code without braces is read up to the brace that closes the substitution.
* `toList_replaceAll_eq_escapeTemplate`: to escape a text in one pass is to replace backslashes,
  backticks and beginnings of substitutions in it, in this order.

## Proof

The reader is a recursion on the characters, with the number of braces that are open inside a
substitution. Escaping looks at a character and the next one, as a dollar sign is escaped only in
front of a brace; so the case split of every induction is on whether the next character is a brace,
and escaping keeps a brace from the front of a text (`head?_escapeTemplate_append`).

The three replacements go over the text one after the other, and each could find what the one before
made. They do not: no replacement makes a dollar sign in front of a brace
(`replaceFrom_escapeCharacter`).
-/

namespace ApiContract.TypeScript

/-- A segment of a template literal. -/
inductive TemplateSegment where
  | text (value : List Char)
  /-- What stands in a substitution. -/
  | code (value : List Char)
  deriving DecidableEq, Repr

namespace TemplateSegment

/-- Characters in front of the first segment, as part of it. -/
def prepend (front : List Char) : List TemplateSegment → List TemplateSegment
  | [] => []
  | text value :: rest => text (front ++ value) :: rest
  | code value :: rest => code (front ++ value) :: rest

theorem prepend_nil (segments : List TemplateSegment) : prepend [] segments = segments := by
  rcases segments with - | ⟨_ | _, _⟩ <;> rfl

theorem prepend_prepend (front back : List Char) (segments : List TemplateSegment) :
    prepend front (prepend back segments) = prepend (front ++ back) segments := by
  rcases segments with - | ⟨_ | _, _⟩ <;> simp [prepend]

end TemplateSegment

open TemplateSegment

/-- The segments of what follows the first backtick of a literal, which ends with the last one.
Within a substitution, the first argument counts the braces that are open inside it. -/
def readFrom : Option Nat → List Char → Option (List TemplateSegment)
  | _, [] => none
  | none, ['\x60'] => some [.text []]
  | none, '\x60' :: _ => none
  | none, '\\' :: c :: rest =>
    if c = '\\' ∨ c = '\x60' ∨ c = '$' then (readFrom none rest).map (prepend [c]) else none
  | none, '$' :: '\x7b' :: rest => (readFrom (some 0) rest).map (.text [] :: ·)
  | none, c :: rest => (readFrom none rest).map (prepend [c])
  | some depth, '\x7b' :: rest => (readFrom (some (depth + 1)) rest).map (prepend ['\x7b'])
  | some 0, '\x7d' :: rest => (readFrom none rest).map (.code [] :: ·)
  | some (depth + 1), '\x7d' :: rest => (readFrom (some depth) rest).map (prepend ['\x7d'])
  | some depth, c :: rest => (readFrom (some depth) rest).map (prepend [c])

/-- The segments of a template literal, if the text is one. -/
def readTemplate? (literal : String) : Option (List TemplateSegment) :=
  match literal.toList with
  | '\x60' :: rest => readFrom none rest
  | _ => none

/-! ### Escaping by replacements -/

/-- A character of a template literal, where only single characters are escaped. -/
def escapeCharacter (c : Char) : List Char :=
  if c = '\\' then ['\\', '\\'] else if c = '\x60' then ['\\', '\x60'] else [c]

/-- Escaping single characters puts no brace in front. -/
theorem head?_flatMap_escapeCharacter (cs : List Char) (h : cs.head? ≠ some '\x7b') :
    (cs.flatMap escapeCharacter).head? ≠ some '\x7b' := by
  cases cs with
  | nil => exact nofun
  | cons c cs =>
    rw [List.flatMap_cons, escapeCharacter]
    split
    · simp
    · split
      · simp
      · simpa using h

/-- Where no substitution begins, the replacement leaves what a character was escaped to. -/
theorem replaceFrom_escapeCharacter {c : Char} {cs : List Char}
    (h : c = '$' → cs.head? ≠ some '\x7b') (n : Nat) :
    Text.replaceFrom ['$', '\x7b'] ['\\', '$', '\x7b']
        (n + ((c :: cs).flatMap escapeCharacter).length) ((c :: cs).flatMap escapeCharacter) =
      escapeCharacter c ++ Text.replaceFrom ['$', '\x7b'] ['\\', '$', '\x7b']
        (n + (cs.flatMap escapeCharacter).length) (cs.flatMap escapeCharacter) := by
  rw [List.flatMap_cons, escapeCharacter]
  split_ifs
  · exact (Text.replaceFrom_cons_of_ne (by decide)).trans
      (congrArg ('\\' :: ·) (Text.replaceFrom_cons_of_ne (by decide)))
  · exact (Text.replaceFrom_cons_of_ne (by decide)).trans
      (congrArg ('\\' :: ·) (Text.replaceFrom_cons_of_ne (by decide)))
  · refine Text.replaceFrom_of_not_isPrefix fun hbegin ↦ ?_
    obtain ⟨hdollar, later, hbrace⟩ := List.cons_prefix_cons.1 hbegin
    have hhead : (cs.flatMap escapeCharacter).head? = some '\x7b' :=
      (congrArg List.head? hbrace).symm
    exact head?_flatMap_escapeCharacter cs (h hdollar.symm) hhead

/-- Replacing the beginnings of substitutions escapes them, once characters are escaped. -/
theorem replaceFrom_flatMap_escapeCharacter (cs : List Char) (n : Nat) :
    Text.replaceFrom ['$', '\x7b'] ['\\', '$', '\x7b'] (n + (cs.flatMap escapeCharacter).length)
      (cs.flatMap escapeCharacter) = escapeTemplate cs := by
  fun_induction escapeTemplate cs generalizing n with
  | case1 cs ih =>
    rw [replaceFrom_escapeCharacter (fun h ↦ absurd h (by decide)), ih]
    rfl
  | case2 cs ih =>
    rw [replaceFrom_escapeCharacter (fun h ↦ absurd h (by decide)), ih]
    rfl
  | case3 cs ih =>
    have hcs : ('$' :: '\x7b' :: cs).flatMap escapeCharacter =
        ['$', '\x7b'] ++ cs.flatMap escapeCharacter := rfl
    -- Both characters are replaced in one step.
    have hsteps : n + (['$', '\x7b'] ++ cs.flatMap escapeCharacter).length =
        n + 1 + (cs.flatMap escapeCharacter).length + 1 := by
      rw [List.length_append, List.length_cons, List.length_singleton]
      omega
    rw [hcs, hsteps, Text.replaceFrom_append (List.cons_ne_nil _ _), ih]
    rfl
  | case4 c cs hescape hend hopen ih =>
    have hplain : escapeCharacter c = [c] := by
      rw [escapeCharacter, if_neg hescape, if_neg hend]
    have hnext : c = '$' → cs.head? ≠ some '\x7b' := by
      intro hdollar hhead
      obtain ⟨rest, rfl⟩ := List.head?_eq_some_iff.1 hhead
      exact hopen rest hdollar rfl
    rw [replaceFrom_escapeCharacter hnext, ih, hplain, List.singleton_append]
  | case5 => cases n <;> rfl

/-- **Escaping is three replacements, one after the other**: of backslashes, of backticks, and of
the beginnings of substitutions. -/
theorem toList_replaceAll_eq_escapeTemplate (s : String) :
    (Text.replaceAll (Text.replaceAll (Text.replaceAll s "\\" "\\\\") "\x60" "\\\x60") "$\x7b"
      "\\$\x7b").toList = escapeTemplate s.toList := by
  have hcharacters : (Text.replaceAll (Text.replaceAll s "\\" "\\\\") "\x60" "\\\x60").toList =
      s.toList.flatMap escapeCharacter := by
    rw [Text.toList_replaceAll_singleton (show "\x60".toList = ['\x60'] from rfl),
      Text.toList_replaceAll_singleton (show "\\".toList = ['\\'] from rfl), List.flatMap_assoc]
    refine congrArg (List.flatMap · s.toList) (funext fun c ↦ ?_)
    by_cases hc : c = '\\'
    · rw [if_pos hc, escapeCharacter, if_pos hc]
      rfl
    · rw [if_neg hc, List.flatMap_singleton, escapeCharacter, if_neg hc]
      rfl
  rw [Text.toList_replaceAll (by decide), hcharacters]
  have hescaped := replaceFrom_flatMap_escapeCharacter s.toList 0
  rwa [Nat.zero_add] at hescaped

/-! ### Texts -/

/-- A character that stands for itself. -/
theorem readFrom_text {c : Char} {rest : List Char} (hescape : c ≠ '\\') (hend : c ≠ '\x60')
    (hopen : c = '$' → rest.head? ≠ some '\x7b') :
    readFrom none (c :: rest) = (readFrom none rest).map (prepend [c]) := by
  rw [readFrom]
  · exact fun h _ ↦ hend h
  · exact hend
  · exact fun _ _ h _ ↦ hescape h
  · rintro _ rfl rfl
    exact hopen rfl rfl

/-- An escaped character stands for itself. -/
theorem readFrom_escaped {c : Char} (h : c = '\\' ∨ c = '\x60' ∨ c = '$') (rest : List Char) :
    readFrom none ('\\' :: c :: rest) = (readFrom none rest).map (prepend [c]) := by
  rw [readFrom, if_pos h]

/-- Escaping keeps an opening brace from the front of a text. -/
theorem head?_escapeTemplate_append {value rest : List Char} (hvalue : value.head? ≠ some '\x7b')
    (hrest : rest.head? ≠ some '\x7b') :
    (escapeTemplate value ++ rest).head? ≠ some '\x7b' := by
  fun_cases escapeTemplate value with
  | case1 => simp
  | case2 => simp
  | case3 => simp
  | case4 c value => simpa using hvalue
  | case5 => simpa using hrest

theorem map_prepend_map_prepend (front back : List Char) (found : Option (List TemplateSegment)) :
    (found.map (prepend back)).map (prepend front) = found.map (prepend (front ++ back)) := by
  rw [Option.map_map]
  exact congrArg (Option.map · found) (funext (prepend_prepend front back))

/-- **An escaped text is read back as it was**, unless a brace follows that it could make the
beginning of a substitution. -/
theorem readFrom_escapeTemplate (value : List Char) {rest : List Char}
    (hrest : rest.head? ≠ some '\x7b') :
    readFrom none (escapeTemplate value ++ rest) = (readFrom none rest).map (prepend value) := by
  fun_induction escapeTemplate value with
  | case1 value ih =>
    rw [List.cons_append, List.cons_append, readFrom_escaped (.inl rfl), ih,
      map_prepend_map_prepend]
    rfl
  | case2 value ih =>
    rw [List.cons_append, List.cons_append, readFrom_escaped (.inr (.inl rfl)), ih,
      map_prepend_map_prepend]
    rfl
  | case3 value ih =>
    rw [List.cons_append, List.cons_append, List.cons_append, readFrom_escaped (.inr (.inr rfl)),
      readFrom_text (by decide) (by decide) fun h ↦ absurd h (by decide), ih,
      map_prepend_map_prepend, map_prepend_map_prepend]
    rfl
  | case4 c value hescape hend hopen ih =>
    have hnext (hc : c = '$') : value.head? ≠ some '\x7b' := by
      rintro h
      obtain ⟨later, rfl⟩ := List.head?_eq_some_iff.1 h
      exact hopen later hc rfl
    rw [List.cons_append, readFrom_text hescape hend fun hc ↦
      head?_escapeTemplate_append (hnext hc) hrest, ih, map_prepend_map_prepend]
    rfl
  | case5 =>
    have hnil : (prepend [] : List TemplateSegment → List TemplateSegment) = id :=
      funext prepend_nil
    rw [List.nil_append, hnil, Option.map_id, id]

/-! ### Substitutions -/

/-- Code without braces is read up to the brace that closes the substitution. -/
theorem readFrom_code {code : List Char} (hopen : '\x7b' ∉ code) (hclose : '\x7d' ∉ code)
    (rest : List Char) :
    readFrom (some 0) (code ++ '\x7d' :: rest) = (readFrom none rest).map (.code code :: ·) := by
  induction code with
  | nil => rw [List.nil_append, readFrom]
  | cons c code ih =>
    obtain ⟨hc, hopen⟩ := not_or.1 (mt List.mem_cons.2 hopen)
    obtain ⟨hd, hclose⟩ := not_or.1 (mt List.mem_cons.2 hclose)
    rw [List.cons_append, readFrom, ih hopen hclose, Option.map_map]
    · rfl
    · exact fun h ↦ hc h.symm
    · exact fun _ h ↦ hd h.symm
    · exact fun _ _ h ↦ hd h.symm

end ApiContract.TypeScript
