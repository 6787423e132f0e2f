import ApiContract.Json.Printer
import ApiContract.Json.Reader
import ApiContract.Proofs.Text.Delimited
import Mathlib.Data.Set.Function

/-!
# Compact texts of values

A value is written in one line where a definition has a literal in it: a default, an example or the
entries of an enumeration. Two values that are written alike would be told apart by nobody; so this
module asks which values have one text.

## Main results

* `Json.NumbersIn.tellApart`: values are told apart by their texts, also with something behind the
  text that does not continue a number, if no two of the numbers in them have one text. That is the
  only assumption: strings, arrays and objects need none.
* `Json.lineFeed_not_mem_compact`: the text of a value is always a single line, so it may stand in a
  comment that ends with the line.

## Proof

What is written for a value tells the value. A string is read back from its text by the reader of
documents (`Json.readString_escape`), which settles quotes, escapes and control characters at once.
An array or object goes up to its own bracket: its entries are told apart one by one, as each ends
where a comma or the bracket stands (`eq_of_entries_append_eq`). What a text begins with tells the
kind of the value (`Json.exists_compact_eq_cons`), so values of different kinds never have one text.

The induction is on `NumbersIn`, whose constructors are those of values. Numbers are left to the
assumption, because the shortest text of a double is a matter of its own; the one thing that is used
of all of them is which characters they may hold (`Number.isChar_of_mem_render`), to see where a
number ends.
-/

namespace ApiContract

/-! ### Numbers -/

/-- A character that the text of a number may hold. -/
def Number.isChar (c : Char) : Bool := c.isDigit || c == '-' || c == '+' || c == '.' || c == 'e'

namespace Number

/-- The digits of a number may stand in a number. -/
theorem isChar_of_mem_toDigits {n : Nat} {c : Char} (h : c ∈ Nat.toDigits 10 n) :
    isChar c = true := by
  rw [isChar, Nat.isDigit_of_mem_toDigits (by decide) (by decide) h]
  rfl

/-- A natural number is written in such characters. -/
theorem isChar_of_mem_toString_nat {n : Nat} : ∀ c ∈ (toString n).toList, isChar c = true := by
  intro c hc
  refine isChar_of_mem_toDigits (n := n) ?_
  rwa [Nat.toString_eq_repr, Nat.toList_repr] at hc

theorem isChar_of_mem_renderDecimal (d : Decimal) :
    ∀ c ∈ (FloatLayout.json.renderDecimal d).toList, isChar c = true := by
  have hdigits : ∀ c ∈ Nat.toDigits 10 d.digits, isChar c = true :=
    fun _ ↦ isChar_of_mem_toDigits
  have hzeros (n : Nat) : ∀ c ∈ List.replicate n '0', isChar c = true := by
    intro c hc
    rw [List.eq_of_mem_replicate hc]
    rfl
  have htake (n : Nat) : ∀ c ∈ (Nat.toDigits 10 d.digits).take n, isChar c = true :=
    fun c hc ↦ hdigits c (List.mem_of_mem_take hc)
  have hdrop (n : Nat) : ∀ c ∈ (Nat.toDigits 10 d.digits).drop n, isChar c = true :=
    fun c hc ↦ hdigits c (List.mem_of_mem_drop hc)
  rw [FloatLayout.renderDecimal]
  dsimp only
  split
  · split
    · rw [String.toList_ofList]
      exact List.forall_mem_append.2
        ⟨List.forall_mem_append.2 ⟨List.all_eq_true.1 (by decide), hzeros _⟩, hdigits⟩
    · split
      · rw [String.toList_append, String.toList_ofList]
        exact List.forall_mem_append.2
          ⟨List.forall_mem_append.2 ⟨hdigits, hzeros _⟩, List.all_eq_true.1 (by decide)⟩
      · rw [String.toList_ofList]
        exact List.forall_mem_append.2
          ⟨htake _, List.forall_mem_cons.2 ⟨by decide, hdrop _⟩⟩
  · simp only [String.toList_append, String.toList_ofList, List.forall_mem_append]
    refine ⟨⟨⟨⟨htake _, ?_⟩, List.all_eq_true.1 (by decide)⟩, ?_⟩, isChar_of_mem_toString_nat⟩
    · split
      · exact nofun
      · exact List.forall_mem_cons.2 ⟨by decide, hdrop _⟩
    · split <;> exact List.all_eq_true.1 (by decide)

/-- **A number is written in digits, signs, points and `e`.** -/
theorem isChar_of_mem_render : ∀ n : Number, ∀ c ∈ n.render.toList, isChar c = true
  | .int (.ofNat n) => isChar_of_mem_toString_nat (n := n)
  | .int (.negSucc n) => by
    have htext : (Number.render (.int (.negSucc n))).toList = '-' :: (toString (n + 1)).toList := by
      show ("-" ++ (n + 1).repr).toList = _
      rw [String.toList_append]
      rfl
    rw [htext]
    exact List.forall_mem_cons.2 ⟨by decide, isChar_of_mem_toString_nat⟩
  | .float x => by
    rw [render, FloatLayout.render, String.toList_append]
    refine List.forall_mem_append.2 ⟨?_, ?_⟩
    · split <;> exact List.all_eq_true.1 (by decide)
    · split
      · exact List.all_eq_true.1 (by decide)
      · exact isChar_of_mem_renderDecimal _

/-- The text of a double is not empty. -/
theorem renderDecimal_ne_nil (d : Decimal) : (FloatLayout.json.renderDecimal d).toList ≠ [] := by
  rw [FloatLayout.renderDecimal]
  dsimp only
  split
  · split
    · simp
    · split
      · simp [FloatLayout.json]
      · simp
  · simp

/-- The text of a number is not empty. -/
theorem render_ne_nil : ∀ n : Number, n.render.toList ≠ []
  | .int (.ofNat n) => by
    show n.repr.toList ≠ []
    rw [Nat.toList_repr]
    exact Nat.toDigits_ne_nil
  | .int (.negSucc n) => by
    show ("-" ++ (n + 1).repr).toList ≠ []
    rw [String.toList_append]
    exact List.cons_ne_nil _ _
  | .float x => by
    rw [render, FloatLayout.render, String.toList_append]
    refine List.append_ne_nil_of_right_ne_nil _ ?_
    split
    · rw [String.toList_append]
      exact List.cons_ne_nil _ _
    · exact renderDecimal_ne_nil _

end Number

namespace Json

/-! ### Strings -/

/-- What a character is written as is read as that character. -/
theorem stringBody_escapeChar (n : Nat) (done : List Char) (c : Char) (rest : List Char) :
    stringBody (n + 1) done (escapeChar c ++ rest) = stringBody n (c :: done) rest := by
  have hhex : ∀ n < 32,
      Text.readNat? 16 ['0', '0', hexDigit (n / 16), hexDigit (n % 16)] = some n := by decide
  rw [escapeChar]
  split_ifs with hquote hescape hfeed hreturn htab hback hform hcontrol
  · subst hquote; rfl
  · subst hescape; rfl
  · subst hfeed; rfl
  · subst hreturn; rfl
  · subst htab; rfl
  · subst hback; rfl
  · subst hform; rfl
  · have hread : escape ('u' :: '0' :: '0' :: hexDigit (c.toNat / 16) :: hexDigit (c.toNat % 16) ::
        rest) = .ok (c, rest) := by
      rw [escape, unicodeEscape, hexEscape, hhex _ hcontrol]
      dsimp only
      rw [if_neg (by omega), if_neg (by omega), Char.ofNat_toNat]
    rw [List.cons_append, stringBody, if_neg (by decide), if_pos rfl]
    dsimp only [List.cons_append, List.nil_append]
    rw [hread]
  · rw [List.singleton_append, stringBody, if_neg hquote, if_neg hescape, if_neg hcontrol]

theorem escapeChar_ne_nil (c : Char) : escapeChar c ≠ [] := by
  rw [escapeChar]
  split_ifs <;> exact List.cons_ne_nil _ _

/-- A text that was quoted is read back, and what follows it is left. -/
theorem readString_escape (cs rest : List Char) :
    readString (cs.flatMap escapeChar ++ '"' :: rest) = .ok (String.ofList cs, rest) := by
  have hbody (done : List Char) {n : Nat} (hn : (cs.flatMap escapeChar).length < n) :
      stringBody n done (cs.flatMap escapeChar ++ '"' :: rest) =
        .ok (String.ofList (done.reverse ++ cs), rest) := by
    induction cs generalizing n done with
    | nil =>
      obtain ⟨n, rfl⟩ := Nat.exists_eq_add_of_lt hn
      rw [List.append_nil]
      rfl
    | cons c cs ih =>
      have hc : 0 < (escapeChar c).length := List.length_pos_iff.2 (escapeChar_ne_nil c)
      rw [List.flatMap_cons, List.length_append] at hn
      obtain ⟨n, rfl⟩ := Nat.exists_eq_add_of_lt hn
      rw [List.flatMap_cons, List.append_assoc, stringBody_escapeChar,
        ih (c :: done) (by omega), List.reverse_cons, List.append_assoc, List.singleton_append]
  refine hbody [] ?_
  rw [List.length_append, List.length_cons]
  omega

/-- Quoted texts are told apart, whatever follows them. -/
theorem tellApart_quote (s t : String) :
    Text.TellApart (fun s ↦ (quote s).toList) (fun _ ↦ True) s t := by
  intro r r' _ _ heq
  have hread (s : String) (r : List Char) :
      ∃ body, (quote s).toList ++ r = '"' :: body ∧ readString body = .ok (s, r) := by
    refine ⟨s.toList.flatMap escapeChar ++ '"' :: r, ?_, ?_⟩
    · rw [quote, String.toList_ofList, List.cons_append, List.append_assoc, List.singleton_append]
    · rw [readString_escape, String.ofList_toList]
  obtain ⟨body, hbody, hs⟩ := hread s r
  obtain ⟨body', hbody', ht⟩ := hread t r'
  have hsame : body = body' := (List.cons.inj (hbody.symm.trans (heq.trans hbody'))).2
  rw [hsame, ht] at hs
  obtain ⟨hst, hr⟩ := Prod.mk.inj (Except.ok.inj hs)
  exact ⟨hst.symm, hr.symm⟩

/-! ### Values -/

/-- The kinds of values. -/
inductive Kind where
  | null
  | bool
  | number
  | string
  | array
  | object

/-- The kind of a value. -/
def kind : Json → Kind
  | null => .null
  | bool _ => .bool
  | number _ => .number
  | string _ => .string
  | array _ => .array
  | object _ => .object

/-- The kind of the values whose texts begin with a character. -/
def kindOf? (c : Char) : Option Kind :=
  if Number.isChar c then some .number
  else if c = 'n' then some .null
  else if c = 't' ∨ c = 'f' then some .bool
  else if c = '"' then some .string
  else if c = '[' then some .array
  else if c = '\x7b' then some .object
  else none

/-- The text of a value begins with a character that tells its kind. -/
theorem exists_compact_eq_cons (v : Json) :
    ∃ c rest, v.compact.toList = c :: rest ∧ kindOf? c = some v.kind := by
  cases v with
  | null => exact ⟨'n', ['u', 'l', 'l'], rfl, rfl⟩
  | bool value =>
    cases value with
    | false => exact ⟨'f', ['a', 'l', 's', 'e'], rfl, rfl⟩
    | true => exact ⟨'t', ['r', 'u', 'e'], rfl, rfl⟩
  | number n =>
    obtain ⟨c, rest, htext⟩ := List.exists_cons_of_ne_nil n.render_ne_nil
    refine ⟨c, rest, by rw [compact, htext], ?_⟩
    rw [kindOf?, if_pos (n.isChar_of_mem_render c (htext ▸ List.mem_cons_self))]
    rfl
  | string s => exact ⟨'"', _, by rw [compact, quote, String.toList_ofList], rfl⟩
  | array items =>
    exact ⟨'[', _, by rw [compact, String.append_assoc, String.toList_append]; rfl, rfl⟩
  | object fields =>
    exact ⟨'\x7b', _, by rw [compact, String.append_assoc, String.toList_append]; rfl, rfl⟩

/-- Values with one text are of one kind. -/
theorem kind_eq_of_append_eq {v w : Json} {r s : List Char}
    (h : v.compact.toList ++ r = w.compact.toList ++ s) : v.kind = w.kind := by
  obtain ⟨c, rest, hv, hkind⟩ := exists_compact_eq_cons v
  obtain ⟨d, rest', hw, hkind'⟩ := exists_compact_eq_cons w
  rw [hv, hw, List.cons_append, List.cons_append] at h
  rw [(List.cons.inj h).1, hkind'] at hkind
  exact (Option.some.inj hkind).symm

/-- No value begins with a character that tells no kind. -/
theorem not_compact_isPrefix {c : Char} (hc : (kindOf? c).isNone) (v : Json) (rest : List Char) :
    ¬v.compact.toList <+: c :: rest := by
  obtain ⟨d, later, hv, hkind⟩ := exists_compact_eq_cons v
  rw [hv, List.cons_prefix_cons]
  rintro ⟨rfl, -⟩
  rw [hkind] at hc
  exact Bool.false_ne_true hc

/-- Items are written with commas between them. -/
theorem compactItems_eq_intercalate (items : List Json) :
    (compactItems items).toList = [','].intercalate (items.map fun item ↦ item.compact.toList) := by
  induction items with
  | nil => rfl
  | cons item rest ih =>
    cases rest with
    | nil => rw [compactItems, List.map_singleton, List.intercalate_singleton]
    | cons second rest =>
      rw [compactItems, String.toList_append, String.toList_append, ih, List.map_cons,
        List.map_cons, List.map_cons, List.intercalate_cons_cons]
      · rfl
      · exact List.cons_ne_nil _ _

/-- The text of a field. -/
def fieldText (field : String × Json) : List Char :=
  (quote field.1).toList ++ ':' :: field.2.compact.toList

/-- Fields are written with commas between them. -/
theorem compactFields_eq_intercalate (fields : List (String × Json)) :
    (compactFields fields).toList = [','].intercalate (fields.map fieldText) := by
  induction fields with
  | nil => rfl
  | cons field rest ih =>
    obtain ⟨key, value⟩ := field
    have hfield : (quote key ++ ":" ++ value.compact).toList = fieldText (key, value) := by
      rw [String.append_assoc, String.toList_append, String.toList_append]
      rfl
    cases rest with
    | nil => rw [compactFields, hfield, List.map_singleton, List.intercalate_singleton]
    | cons second rest =>
      rw [compactFields, String.toList_append, String.toList_append, hfield, ih, List.map_cons,
        List.map_cons, List.map_cons, List.intercalate_cons_cons]
      · rfl
      · exact List.cons_ne_nil _ _

/-- All numbers of a value are in a set. -/
inductive NumbersIn (numbers : Set Number) : Json → Prop
  | null : NumbersIn numbers .null
  | bool (value : Bool) : NumbersIn numbers (.bool value)
  | number {n : Number} (h : n ∈ numbers) : NumbersIn numbers (.number n)
  | string (s : String) : NumbersIn numbers (.string s)
  | array {items : List Json} (h : ∀ item ∈ items, NumbersIn numbers item) :
    NumbersIn numbers (.array items)
  | object {fields : List (String × Json)} (h : ∀ field ∈ fields, NumbersIn numbers field.2) :
    NumbersIn numbers (.object fields)

/-- What ends the text of a value: something that does not continue a number. -/
def EndsValue (rest : List Char) : Prop := ∀ c ∈ rest.head?, Number.isChar c = false

/-- Fields are told apart by their texts if their values are. -/
theorem tellApart_fieldText {x y : String × Json}
    (h : Text.TellApart (fun v : Json ↦ v.compact.toList) EndsValue x.2 y.2) :
    Text.TellApart fieldText EndsValue x y := by
  intro r s hr hs heq
  rw [fieldText, fieldText, List.append_assoc, List.append_assoc] at heq
  obtain ⟨hkey, hrest⟩ := tellApart_quote x.1 y.1 trivial trivial heq
  obtain ⟨hvalue, hrs⟩ := h hr hs (List.cons.inj hrest).2
  exact ⟨Prod.ext hkey hvalue, hrs⟩

theorem endsValue_cons {c : Char} (hc : Number.isChar c = false) (rest : List Char) :
    EndsValue (c :: rest) :=
  fun _ hd ↦ Option.some.inj hd ▸ hc

/-- Entries with commas between them are told apart by their texts up to the closing bracket. -/
theorem eq_of_entries_append_eq {α : Type} {text : α → List Char} {xs ys : List α} {close : Char}
    {r s : List Char} (hclose : Number.isChar close = false) (hcomma : ',' ≠ close)
    (hbegins : ∀ x rest, ¬text x <+: close :: rest)
    (h : ∀ x ∈ xs, ∀ y ∈ ys, Text.TellApart text EndsValue x y)
    (heq : [','].intercalate (xs.map text) ++ close :: r =
      [','].intercalate (ys.map text) ++ close :: s) : xs = ys ∧ r = s := by
  have hmore (rest : List Char) : ¬[','] <+: close :: rest := by
    rw [List.cons_prefix_cons]
    exact fun hbegin ↦ hcomma hbegin.1
  obtain ⟨hlists, hrest⟩ := Text.TellApart.intercalate_or_nil (endsValue_cons (by decide)) h
    (endsValue_cons hclose r) (endsValue_cons hclose s) (hmore r) (hmore s)
    (fun y _ ↦ hbegins y r) (fun x _ ↦ hbegins x s) heq
  exact ⟨hlists, (List.cons.inj hrest).2⟩

/-- What the text of an array is, with something behind it. -/
theorem array_append_eq (items : List Json) (rest : List Char) :
    (array items).compact.toList ++ rest =
      '[' :: ([','].intercalate (items.map fun v ↦ v.compact.toList) ++ ']' :: rest) := by
  rw [compact, String.toList_append, String.toList_append, compactItems_eq_intercalate,
    List.append_assoc]
  exact List.append_assoc ['['] _ _

/-- What the text of an object is, with something behind it. -/
theorem object_append_eq (fields : List (String × Json)) (rest : List Char) :
    (object fields).compact.toList ++ rest =
      '\x7b' :: ([','].intercalate (fields.map fieldText) ++ '\x7d' :: rest) := by
  rw [compact, String.toList_append, String.toList_append, compactFields_eq_intercalate,
    List.append_assoc]
  exact List.append_assoc ['\x7b'] _ _

/-- Values of different kinds are told apart by what their texts begin with. -/
theorem tellApart_of_kind {v w : Json}
    (h : v.kind = w.kind → Text.TellApart (fun v : Json ↦ v.compact.toList) EndsValue v w) :
    Text.TellApart (fun v : Json ↦ v.compact.toList) EndsValue v w :=
  fun _ _ hr hs heq ↦ h (kind_eq_of_append_eq heq) hr hs heq

/-- The two booleans are told apart by their texts. -/
theorem tellApart_bool (a b : Bool) :
    Text.TellApart (fun v : Json ↦ v.compact.toList) EndsValue (bool a) (bool b) := by
  intro r s _ _ heq
  cases a <;> cases b
  · exact ⟨rfl, List.append_cancel_left heq⟩
  · exact absurd (List.cons.inj heq).1 (by decide)
  · exact absurd (List.cons.inj heq).1 (by decide)
  · exact ⟨rfl, List.append_cancel_left heq⟩

/-- Arrays are told apart if their items are. -/
theorem tellApart_array {items items' : List Json}
    (h : ∀ item ∈ items, ∀ item' ∈ items',
      Text.TellApart (fun v : Json ↦ v.compact.toList) EndsValue item item') :
    Text.TellApart (fun v : Json ↦ v.compact.toList) EndsValue (array items) (array items') := by
  intro r s _ _ heq
  rw [array_append_eq, array_append_eq] at heq
  obtain ⟨hlist, hrs⟩ := eq_of_entries_append_eq (by decide) (by decide)
    (not_compact_isPrefix (by decide)) h (List.cons.inj heq).2
  exact ⟨congrArg Json.array hlist, hrs⟩

/-- Objects are told apart if the values of their fields are. -/
theorem tellApart_object {fields fields' : List (String × Json)}
    (h : ∀ field ∈ fields, ∀ field' ∈ fields',
      Text.TellApart (fun v : Json ↦ v.compact.toList) EndsValue field.2 field'.2) :
    Text.TellApart (fun v : Json ↦ v.compact.toList) EndsValue (object fields)
      (object fields') := by
  intro r s _ _ heq
  have hbegins (field : String × Json) (rest : List Char) :
      ¬fieldText field <+: '\x7d' :: rest := by
    rw [fieldText, quote, String.toList_ofList, List.cons_append, List.cons_prefix_cons]
    exact fun hbegin ↦ absurd hbegin.1 (by decide)
  rw [object_append_eq, object_append_eq] at heq
  obtain ⟨hlist, hrs⟩ := eq_of_entries_append_eq (by decide) (by decide) hbegins
    (fun field hfield field' hfield' ↦ tellApart_fieldText (h field hfield field' hfield'))
    (List.cons.inj heq).2
  exact ⟨congrArg Json.object hlist, hrs⟩

/-- **Values are told apart by their texts if their numbers are.** -/
theorem NumbersIn.tellApart {numbers : Set Number} (hnumbers : numbers.InjOn Number.render)
    {v w : Json} (hv : v.NumbersIn numbers) (hw : w.NumbersIn numbers) :
    Text.TellApart (fun v : Json ↦ v.compact.toList) EndsValue v w := by
  induction hv generalizing w with
  | null =>
    -- The first character tells the kinds apart; what is left are two values of one kind.
    refine tellApart_of_kind fun hkind ↦ ?_
    cases hw with
    | null => exact fun _ _ _ _ heq ↦ ⟨rfl, List.append_cancel_left heq⟩
    | _ => cases hkind
  | bool value =>
    refine tellApart_of_kind fun hkind ↦ ?_
    cases hw with
    | bool value' => exact tellApart_bool value value'
    | _ => cases hkind
  | number hn =>
    refine tellApart_of_kind fun hkind ↦ ?_
    cases hw with
    | number hn' =>
      intro r s hr hs heq
      obtain ⟨htext, hrs⟩ := Text.eq_of_word_append_eq (Number.isChar_of_mem_render _)
        (Number.isChar_of_mem_render _) hr hs heq
      exact ⟨congrArg Json.number (hnumbers hn hn' (String.toList_inj.1 htext)), hrs⟩
    | _ => cases hkind
  | string text =>
    refine tellApart_of_kind fun hkind ↦ ?_
    cases hw with
    | string text' =>
      intro r s _ _ heq
      obtain ⟨htext, hrs⟩ := tellApart_quote text text' trivial trivial heq
      exact ⟨congrArg Json.string htext, hrs⟩
    | _ => cases hkind
  | array _ ih =>
    refine tellApart_of_kind fun hkind ↦ ?_
    cases hw with
    | array hitems =>
      exact tellApart_array fun item hitem item' hitem' ↦ ih item hitem (hitems item' hitem')
    | _ => cases hkind
  | object _ ih =>
    refine tellApart_of_kind fun hkind ↦ ?_
    cases hw with
    | object hfields =>
      exact tellApart_object fun field hfield field' hfield' ↦
        ih field hfield (hfields field' hfield')
    | _ => cases hkind

/-! ### Line breaks -/

/-- A quoted text is a single line, as its line breaks are escaped. -/
theorem lineFeed_not_mem_quote (s : String) : '\n' ∉ (quote s).toList := by
  have hchar (c : Char) : '\n' ∉ escapeChar c := by
    have hhex : ∀ n < 16, hexDigit n ≠ '\n' := by decide
    rw [escapeChar]
    split_ifs with hquote hescape hfeed hreturn htab hback hform hcontrol
    · decide
    · decide
    · decide
    · decide
    · decide
    · decide
    · decide
    · simp only [List.mem_cons, List.not_mem_nil, or_false, not_or]
      exact ⟨by decide, by decide, by decide, by decide, (hhex _ (by omega)).symm,
        (hhex _ (by omega)).symm⟩
    · rw [List.mem_singleton]
      exact Ne.symm hfeed
  rw [quote, String.toList_ofList, List.mem_cons, List.mem_append, List.mem_flatMap,
    List.mem_singleton]
  rintro (h | ⟨c, -, h⟩ | h)
  · exact absurd h (by decide)
  · exact hchar c h
  · exact absurd h (by decide)

mutual

/-- The text of a value is a single line. -/
theorem lineFeed_not_mem_compact : ∀ v : Json, '\n' ∉ v.compact.toList
  | null => by decide
  | bool false => by decide
  | bool true => by decide
  | number n => fun h ↦ absurd (n.isChar_of_mem_render _ h) (by decide)
  | string s => lineFeed_not_mem_quote s
  | array items => by
    have hitems := lineFeed_not_mem_compactItems items
    simpa [compact] using hitems
  | object fields => by
    have hfields := lineFeed_not_mem_compactFields fields
    simpa [compact] using hfields

/-- Items are a single line. -/
theorem lineFeed_not_mem_compactItems : ∀ items : List Json, '\n' ∉ (compactItems items).toList
  | [] => by decide
  | item :: rest => by
    have hitem := lineFeed_not_mem_compact item
    have hrest := lineFeed_not_mem_compactItems rest
    cases rest with
    | nil => exact hitem
    | cons second rest => simpa [compactItems] using ⟨hitem, hrest⟩

/-- Fields are a single line. -/
theorem lineFeed_not_mem_compactFields :
    ∀ fields : List (String × Json), '\n' ∉ (compactFields fields).toList
  | [] => by decide
  | (key, value) :: rest => by
    have hkey := lineFeed_not_mem_quote key
    have hvalue := lineFeed_not_mem_compact value
    have hrest := lineFeed_not_mem_compactFields rest
    cases rest with
    | nil => simpa [compactFields] using ⟨hkey, hvalue⟩
    | cons second rest => simpa [compactFields, and_assoc] using ⟨hkey, hvalue, hrest⟩

end

end Json

end ApiContract
