import ApiContract.Proofs.Identifier
import ApiContract.Proofs.Json.Compact
import ApiContract.Proofs.TypeScript.TypeContents
import Mathlib.Algebra.BigOperators.Group.List.Basic

/-!
# Texts of types

The text of a type says what the type is, except for how its unions are nested: they have no
brackets, and a union in a union cannot be seen (`TypeExpr.MadeOf.print_flatten`).

## Main result

`TypeExpr.MadeOf.print_eq_iff`: two types have one text just if they are the same once their unions
are flattened. It is assumed that numbers are told apart by their texts, that names are such as
types can be declared under, that members have no comments, and that `null` is a keyword and no
value.

## Proof

What a type is is known by what its text begins with (`TypeExpr.MadeOf.formOf_append`) and by where
it ends: what may stand behind a type continues neither a name nor a number, a quoted text ends with
its own quote, and the members of an object type are indented further than the brace behind them. So
alternatives are told apart (`TypeExpr.MadeOf.alternativesApart`), by induction on how one of them
is made; the other one has the same form, since forms are read off the text. `Text.TellApart` is the
notion for all of this, with a condition on what may follow: an alternative is followed by a blank,
an angle bracket or a semicolon, a whole type by one of the latter two.

From alternatives to types it is a matter of lists with separators
(`TypeExpr.MadeOf.tellApart_of_parts`), and from members to object types one of lists without.

## Quoted property names

A property name is written plainly if it is an identifier and in quotes otherwise, so that a quote
or its absence tells which (`tellApart_propertyKey`); the mark of an optional member stands behind
the name either way.
-/

namespace ApiContract.TypeScript

/-! ### Nested unions -/

mutual

/-- A type in which no union is an alternative of another one: the alternatives of the inner union
stand in its place. -/
def TypeExpr.flatten : TypeExpr → TypeExpr
  | .keyword word => .keyword word
  | .literal value => .literal value
  | .named name => .named name
  | .generic name args => .generic name (typesFlatten args)
  | .array item => .array item.flatten
  | .record value => .record value.flatten
  | .object members => .object (membersFlatten members)
  | .union members => .union ((typesFlatten members).flatMap TypeExpr.parts)

/-- Several types, each without nested unions. -/
def typesFlatten : List TypeExpr → List TypeExpr
  | [] => []
  | type :: rest => type.flatten :: typesFlatten rest

/-- Members whose types have no nested unions. -/
def membersFlatten : List Member → List Member
  | [] => []
  | ⟨name, type, isOptional, doc⟩ :: rest =>
    ⟨name, type.flatten, isOptional, doc⟩ :: membersFlatten rest

end

/-- Types are flattened one by one. -/
theorem typesFlatten_eq_map (types : List TypeExpr) :
    typesFlatten types = types.map TypeExpr.flatten := by
  induction types with
  | nil => rfl
  | cons type rest ih => rw [typesFlatten, ih, List.map_cons]

/-- The member with a type that has no nested unions. -/
def Member.flatten (m : Member) : Member := { m with type := m.type.flatten }

/-- Members are flattened one by one. -/
theorem membersFlatten_eq_map (members : List Member) :
    membersFlatten members = members.map Member.flatten := by
  induction members with
  | nil => rfl
  | cons m rest ih =>
    obtain ⟨name, type, isOptional, doc⟩ := m
    rw [membersFlatten, ih]
    rfl

namespace TypeExpr

/-- The contents of types without nested unions. -/
def Contents.flat (c : Contents) : Contents :=
  { c with alternatives := {type | type.parts = [type]} }

namespace MadeOf

variable {c : Contents} {type : TypeExpr}

/-- The parts of a flat type are no unions. -/
theorem parts_flat (h : MadeOf c.flat type) : ∀ part ∈ type.parts, part.parts = [part] := by
  cases h with
  | union _ halternatives _ => exact halternatives
  | _ => exact List.forall_mem_singleton.2 rfl

/-- **A flattened type has no nested unions**, and is made of the same otherwise. -/
theorem flatten (h : MadeOf c type) : MadeOf c.flat type.flatten := by
  induction h with
  | keyword h => exact keyword h
  | literal h => exact literal h
  | named h => exact named h
  | array _ ih => exact array ih
  | record _ ih => exact record ih
  | object hne hdocs _ ih =>
    rw [TypeExpr.flatten, membersFlatten_eq_map]
    refine object (mt List.map_eq_nil_iff.1 hne) ?_ ?_
    · exact List.forall_mem_map.2 hdocs
    · exact List.forall_mem_map.2 ih
  | @union members hmany _ _ ih =>
    have hparts : ∀ type ∈ members, 0 < type.flatten.parts.length :=
      fun type htype ↦ List.length_pos_iff.2 (ih type htype).parts.1
    rw [TypeExpr.flatten, typesFlatten_eq_map, List.flatMap_map]
    refine union ?_ ?_ ?_
    · have hlength : members.length ≤ (members.flatMap fun type ↦ type.flatten.parts).length := by
        rw [List.length_flatMap, ← List.length_map fun type : TypeExpr ↦ type.flatten.parts.length]
        exact List.length_le_sum_of_one_le _ (List.forall_mem_map.2 hparts)
      exact hmany.trans hlength
    · intro part hpart
      obtain ⟨type, htype, hpart⟩ := List.mem_flatMap.1 hpart
      exact (ih type htype).parts_flat part hpart
    · intro part hpart
      obtain ⟨type, htype, hpart⟩ := List.mem_flatMap.1 hpart
      exact (ih type htype).parts.2 part hpart

end MadeOf

/-- A type is printed as its parts, with bars between them. -/
theorem toList_print_eq_intercalate (level : Nat) (type : TypeExpr) :
    (type.print level).toList =
      " | ".toList.intercalate (type.parts.map fun part ↦ (part.print level).toList) := by
  cases type with
  | union members =>
    rw [print_union, String.toList_intercalate, List.map_map]
    rfl
  | _ => exact (List.intercalate_singleton).symm

/-- Nested unions cannot be seen in a text. -/
theorem MadeOf.print_flatten {c : Contents} {type : TypeExpr} (h : MadeOf c type) (level : Nat) :
    type.flatten.print level = type.print level := by
  induction h generalizing level with
  | keyword | literal | named => rfl
  | array _ ih => rw [TypeExpr.flatten, print, ih, print]
  | record _ ih => rw [TypeExpr.flatten, print, ih, print]
  | @object members hne _ _ ih =>
    have hmember : ∀ m ∈ members, m.flatten.text (level + 1) = m.text (level + 1) := by
      intro m hm
      rw [Member.text, Member.signature, Member.flatten, ih m hm, Member.text, Member.signature]
    have hmembers : (printMembers (level + 1) (members.map Member.flatten)).toList =
        (printMembers (level + 1) members).toList := by
      rw [toList_printMembers, toList_printMembers, List.flatMap_map]
      exact List.flatMap_congr fun m hm ↦ congrArg String.toList (hmember m hm)
    rw [TypeExpr.flatten, membersFlatten_eq_map, print_object level (mt List.map_eq_nil_iff.1 hne),
      String.toList_inj.1 hmembers, print_object level hne]
  | @union members _ _ h ih =>
    have htype : ∀ type ∈ members,
        " | ".toList.intercalate (type.flatten.parts.map fun part ↦ (part.print level).toList) =
          (type.print level).toList := by
      intro type htype
      rw [← toList_print_eq_intercalate, ih type htype]
    have hne : ∀ type ∈ members,
        type.flatten.parts.map (fun part ↦ (part.print level).toList) ≠ [] :=
      fun type htype ↦ mt List.map_eq_nil_iff.1 (h type htype).flatten.parts.1
    rw [← String.toList_inj, TypeExpr.flatten, typesFlatten_eq_map, List.flatMap_map,
      toList_print_eq_intercalate, TypeExpr.parts, List.map_flatMap, Text.intercalate_flatMap hne,
      List.map_congr_left htype, toList_print_eq_intercalate, TypeExpr.parts]

end TypeExpr

/-! ### Property names -/

/-- Property names are told apart, with quotes or without, by what does not continue a plain one. -/
theorem tellApart_propertyKey (s t : String) :
    Text.TellApart (fun name ↦ (propertyKey name).toList)
      (fun rest ↦ ∀ c ∈ rest.head?, Identifier.isPlainChar c = false) s t := by
  have hplain {name : String} (h : Identifier.isPlainProperty name = true) :
      ∀ c ∈ name.toList, Identifier.isPlainChar c = true := by
    obtain ⟨c, rest, hname, hstart, hrest⟩ := Identifier.isPlainProperty_iff.1 h
    rw [hname]
    exact List.forall_mem_cons.2 ⟨Identifier.isPlainChar_of_isPlainStart hstart, hrest⟩
  have hquote {name other : String} (h : Identifier.isPlainProperty name = true)
      (r r' : List Char) : name.toList ++ r ≠ (Json.quote other).toList ++ r' := by
    obtain ⟨c, rest, hname, hstart, -⟩ := Identifier.isPlainProperty_iff.1 h
    rw [hname, Json.quote, String.toList_ofList]
    intro heq
    rw [(List.cons.inj heq).1] at hstart
    exact absurd hstart (by decide)
  intro r r' hr hr' heq
  simp only [propertyKey] at heq
  split at heq <;> split at heq
  · next hs ht =>
    obtain ⟨hname, hrest⟩ := Text.eq_of_word_append_eq (hplain hs) (hplain ht) hr hr' heq
    exact ⟨String.toList_inj.1 hname, hrest⟩
  · next hs ht => exact absurd heq (hquote hs r r')
  · next hs ht => exact absurd heq.symm (hquote ht r' r)
  · exact Json.tellApart_quote s t trivial trivial heq

/-! ### Forms of types -/

/-- A name that types can be declared under: a capital, and letters and digits behind it. -/
structure IsTypeName (name : String) : Prop where
  head : ∀ c ∈ name.toList.head?, c.isUpper = true
  ne_nil : name.toList ≠ []
  isAlphanum : ∀ c ∈ name.toList, c.isAlphanum = true

namespace TypeExpr

/-- The forms of types that are no unions. -/
inductive Form where
  | keyword
  | named
  | array
  | record
  | literal
  | object

/-- The form of a type, if it has one. -/
def form? : TypeExpr → Option Form
  | .keyword _ => some .keyword
  | .literal _ => some .literal
  | .named _ => some .named
  | .generic .. | .union _ => none
  | .array _ => some .array
  | .record _ => some .record
  | .object _ => some .object

/-- Whether a built-in type begins with the character. -/
def beginsKeyword (c : Char) : Bool := c == 's' || c == 'n' || c == 'b' || c == 'u'

/-- The form of the type whose text a text begins with. -/
def formOf : List Char → Form
  | [] => .literal
  | c :: rest =>
    if beginsKeyword c then .keyword
    else if c.isUpper then
      if ((c :: rest).dropWhile Char.isAlphanum).head? == some '<' then
        if c == 'A' then .array else .record
      else .named
    else if c == '\x7b' && rest.head? == some '\n' then .object
    else .literal

/-- What ends the text of an alternative of a union. -/
def EndsAlternative (rest : List Char) : Prop := ∀ c ∈ rest.head?, c = ' ' ∨ c = '>' ∨ c = ';'

/-- What ends the text of a type. -/
def EndsType (rest : List Char) : Prop := ∀ c ∈ rest.head?, c = '>' ∨ c = ';'

/-- What ends an alternative continues nothing else. -/
theorem EndsAlternative.head?_eq_false {rest : List Char} (h : EndsAlternative rest)
    {p : Char → Bool} (hp : p ' ' = false ∧ p '>' = false ∧ p ';' = false) :
    ∀ c ∈ rest.head?, p c = false := by
  intro c hc
  obtain ⟨hspace, hangle, hsemicolon⟩ := hp
  rcases h c hc with rfl | rfl | rfl
  · exact hspace
  · exact hangle
  · exact hsemicolon

/-- The contents of types that are told apart by their texts. -/
def Contents.plain (numbers : Set Number) : Contents where
  names := {name | IsTypeName name}
  values := {value | value.NumbersIn numbers ∧ value.isNull = false}
  docs := ∅
  alternatives := Set.univ

/-- No value begins with a capital. -/
theorem isUpper_eq_false_of_kindOf? {c : Char} {kind : Json.Kind}
    (h : Json.kindOf? c = some kind) : c.isUpper = false := by
  rw [Json.kindOf?] at h
  split_ifs at h with hnumber hnull hbool hstring harray hobject
  · simp only [Number.isChar, Bool.or_eq_true, beq_iff_eq] at hnumber
    rcases hnumber with (((hdigit | rfl) | rfl) | rfl) | rfl
    · rw [Bool.eq_false_iff]
      intro hupper
      delta Char.isDigit at hdigit
      delta Char.isUpper at hupper
      simp only [Bool.and_eq_true, decide_eq_true_eq] at hdigit hupper
      exact absurd (UInt32.le_trans hupper.1 hdigit.2) (by decide)
    · rfl
    · rfl
    · rfl
    · rfl
  · subst hnull; rfl
  · rcases hbool with rfl | rfl <;> rfl
  · subst hstring; rfl
  · subst harray; rfl
  · subst hobject; rfl

/-- Only `null` begins as a keyword does. -/
theorem beginsKeyword_eq_false_of_kindOf? {c : Char} {kind : Json.Kind}
    (h : Json.kindOf? c = some kind) (hkind : kind ≠ .null) : beginsKeyword c = false := by
  rw [Bool.eq_false_iff]
  intro hc
  simp only [beginsKeyword, Bool.or_eq_true, beq_iff_eq] at hc
  rcases hc with ((rfl | rfl) | rfl) | rfl
  · exact absurd h nofun
  · exact absurd (Option.some.inj h) hkind.symm
  · exact absurd h nofun
  · exact absurd h nofun

/-- The text of a value has no line feed behind a brace. -/
theorem not_brace_lineFeed {value : Json} {c : Char} {rest r : List Char}
    (htext : value.compact.toList = c :: rest) :
    (c == '\x7b' && (rest ++ r).head? == some '\n') = false := by
  rw [Bool.eq_false_iff, ne_eq, Bool.and_eq_true, beq_iff_eq, beq_iff_eq]
  rintro ⟨rfl, hfeed⟩
  cases rest with
  | nil =>
    obtain ⟨d, later, hvalue, hkind⟩ := Json.exists_compact_eq_cons value
    obtain ⟨rfl, -⟩ := List.cons.inj (hvalue.symm.trans htext)
    cases value with
    | object fields =>
      have hbrace := Json.object_append_eq fields []
      rw [List.append_nil, htext] at hbrace
      simp at hbrace
    | _ => exact absurd hkind nofun
  | cons d later =>
    obtain rfl := Option.some.inj hfeed
    refine Json.lineFeed_not_mem_compact value ?_
    rw [htext]
    exact List.mem_cons_of_mem _ List.mem_cons_self

/-- The text of a value is read as a literal. -/
theorem formOf_literal {value : Json} (h : value.isNull = false) (r : List Char) :
    formOf (value.compact.toList ++ r) = .literal := by
  have hnull : value.kind ≠ .null := by
    cases value with
    | null => exact absurd h nofun
    | _ => exact nofun
  obtain ⟨c, rest, htext, hkind⟩ := Json.exists_compact_eq_cons value
  rw [htext, List.cons_append, formOf, beginsKeyword_eq_false_of_kindOf? hkind hnull,
    isUpper_eq_false_of_kindOf? hkind, not_brace_lineFeed htext]
  rfl

/-- The name of a type is read as a name. -/
theorem formOf_named {name : String} (hname : IsTypeName name) {r : List Char}
    (hr : EndsAlternative r) : formOf (name.toList ++ r) = .named := by
  obtain ⟨c, rest, hchars⟩ := List.exists_cons_of_ne_nil hname.ne_nil
  have hupper : c.isUpper = true := hname.head c (by rw [hchars]; rfl)
  have hword : beginsKeyword c = false := by
    rw [Bool.eq_false_iff]
    intro hc
    simp only [beginsKeyword, Bool.or_eq_true, beq_iff_eq] at hc
    rcases hc with ((rfl | rfl) | rfl) | rfl <;> exact absurd hupper (by decide)
  have hends : (name.toList ++ r).dropWhile Char.isAlphanum = r :=
    Text.dropWhile_word_append hname.isAlphanum (hr.head?_eq_false (by decide))
  have hangle : (r.head? == some '<') = false := by
    rw [beq_eq_false_iff_ne]
    intro hhead
    exact absurd (hr '<' hhead) (by decide)
  rw [hchars, List.cons_append, formOf, hword, hupper, ← List.cons_append, ← hchars, hends, hangle]
  rfl

/-- The form of a type is that of its text, with whatever may stand behind it. -/
theorem MadeOf.formOf_append {numbers : Set Number} {type : TypeExpr}
    (h : MadeOf (Contents.plain numbers).flat type) (hone : type.parts = [type]) (level : Nat)
    {r : List Char} (hr : EndsAlternative r) :
    some (formOf ((type.print level).toList ++ r)) = type.form? := by
  cases h with
  | keyword hword =>
    simp only [keywords, List.mem_cons, List.not_mem_nil, or_false] at hword
    rcases hword with rfl | rfl | rfl | rfl | rfl <;> rw [print] <;> rfl
  | literal hvalue => exact congrArg some (formOf_literal hvalue.2 r)
  | named hname =>
    rw [print]
    exact congrArg some (formOf_named hname hr)
  | array _ =>
    rw [print, String.toList_append, String.toList_append, List.append_assoc, List.append_assoc]
    rfl
  | record _ =>
    rw [print, String.toList_append, String.toList_append, List.append_assoc, List.append_assoc]
    rfl
  | object hne _ _ =>
    rw [print_object level hne, String.append_assoc, String.append_assoc, String.toList_append,
      List.append_assoc]
    rfl
  | union hmany _ _ =>
    -- a union is not its own only alternative
    exact absurd (hmany.trans_eq (congrArg List.length hone)) (by simp)

/-! ### Telling types apart -/

/-- The characters of the text of a type. -/
def chars (level : Nat) (type : TypeExpr) : List Char := (type.print level).toList

theorem EndsType.endsAlternative {rest : List Char} (h : EndsType rest) : EndsAlternative rest :=
  fun c hc ↦ .inr (h c hc)

namespace MadeOf

variable {c : Contents} {x y : TypeExpr}

/-- A type is known by its alternatives. -/
theorem eq_of_parts (hx : MadeOf c x) (hy : MadeOf c y) (h : x.parts = y.parts) : x = y := by
  have hparts {type : TypeExpr} (htype : MadeOf c type) : type = .ofMembers type.parts := by
    cases htype with
    | @union members hmany _ _ =>
      match members with
      | _ :: _ :: _ => rfl
    | _ => rfl
  rw [hparts hx, h, ← hparts hy]

/-- Types are told apart if their alternatives are. -/
theorem tellApart_of_parts (hx : MadeOf c x) (hy : MadeOf c y) {level : Nat}
    (h : ∀ part ∈ x.parts, ∀ part' ∈ y.parts,
      Text.TellApart (chars level) EndsAlternative part part') :
    Text.TellApart (chars level) EndsType x y := by
  intro r s hr hs heq
  have hbar {rest : List Char} (hrest : EndsType rest) : ¬" | ".toList <+: rest := by
    rintro ⟨later, rfl⟩
    exact absurd (hrest ' ' rfl) (by decide)
  have hends (cs : List Char) : EndsAlternative (" | ".toList ++ cs) :=
    fun c hc ↦ .inl (Option.some.inj hc).symm
  rw [chars, chars, toList_print_eq_intercalate, toList_print_eq_intercalate] at heq
  obtain ⟨hparts, hrs⟩ := Text.TellApart.intercalate hends h hx.parts.1 hy.parts.1
    hr.endsAlternative hs.endsAlternative (hbar hr) (hbar hs) heq
  exact ⟨hx.eq_of_parts hy hparts, hrs⟩

end MadeOf

/-- The mark of an optional member is told apart from none up to the colon behind it. -/
theorem eq_of_mark_append_eq {a b : Bool} {r s : List Char}
    (heq : (if a then "?" else "").toList ++ (": ".toList ++ r) =
      (if b then "?" else "").toList ++ (": ".toList ++ s)) : a = b ∧ r = s := by
  cases a <;> cases b
  · exact ⟨rfl, List.append_cancel_left heq⟩
  · exact absurd (List.cons.inj heq).1 (by decide)
  · exact absurd (List.cons.inj heq).1 (by decide)
  · exact ⟨rfl, List.append_cancel_left (List.append_cancel_left heq)⟩

/-- Members without comments are told apart if their types are. -/
theorem tellApart_member {m m' : Member} {level : Nat} (hdoc : m.doc = none) (hdoc' : m'.doc = none)
    (h : Text.TellApart (chars level) EndsType m.type m'.type) :
    Text.TellApart (fun m : Member ↦ (m.text level).toList) (fun _ ↦ True) m m' := by
  intro r s _ _ heq
  have htext {m : Member} (hdoc : m.doc = none) (r : List Char) :
      (m.text level).toList ++ r = (pad level).toList ++ ((propertyKey m.name).toList ++
        ((if m.isOptional then "?" else "").toList ++ (": ".toList ++
          (chars level m.type ++ (";\n".toList ++ r))))) := by
    simp only [Member.text, Member.signature, hdoc, docComment?, String.empty_append,
      String.toList_append, List.append_assoc, chars]
  have hmark (isOptional : Bool) (rest : List Char) :
      ∀ c ∈ ((if isOptional then "?" else "").toList ++ (": ".toList ++ rest)).head?,
        Identifier.isPlainChar c = false := by
    cases isOptional <;> exact fun c hc ↦ Option.some.inj hc ▸ rfl
  have hend (rest : List Char) : EndsType (";\n".toList ++ rest) :=
    fun c hc ↦ .inr (Option.some.inj hc).symm
  beta_reduce at heq
  rw [htext hdoc, htext hdoc'] at heq
  -- The name, the mark and the type are taken off one after the other.
  obtain ⟨hname, heq⟩ := tellApart_propertyKey m.name m'.name (hmark _ _) (hmark _ _)
    (List.append_cancel_left heq)
  obtain ⟨hoptional, heq⟩ := eq_of_mark_append_eq heq
  obtain ⟨htype, heq⟩ := h (hend r) (hend s) heq
  have hmember (m : Member) (hdoc : m.doc = none) :
      m = ⟨m.name, m.type, m.isOptional, none⟩ := by
    obtain ⟨_, _, _, doc⟩ := m
    obtain rfl : doc = none := hdoc
    rfl
  refine ⟨?_, List.append_cancel_left heq⟩
  rw [hmember m hdoc, hmember m' hdoc', hname, htype, hoptional]

/-- A list of members is told apart from others up to the brace behind it. -/
theorem eq_of_members_append_eq {members members' : List Member} {level : Nat} {r s : List Char}
    (hdocs : ∀ m ∈ members, m.doc = none) (hdocs' : ∀ m ∈ members', m.doc = none)
    (h : ∀ m ∈ members, ∀ m' ∈ members',
      Text.TellApart (chars (level + 1)) EndsType m.type m'.type)
    (heq : (printMembers (level + 1) members).toList ++ ((pad level).toList ++ '\x7d' :: r) =
      (printMembers (level + 1) members').toList ++ ((pad level).toList ++ '\x7d' :: s)) :
    members = members' ∧ r = s := by
  have hpad : (pad (level + 1)).toList = (pad level).toList ++ [' ', ' '] := by
    rw [pad_add, String.toList_append]
    rfl
  -- a member is indented further than the brace
  have hbegins {m : Member} (hdoc : m.doc = none) (rest : List Char) :
      ¬(m.text (level + 1)).toList <+: (pad level).toList ++ '\x7d' :: rest := by
    rw [Member.text, hdoc, docComment?, String.empty_append, String.toList_append, hpad,
      List.append_assoc, List.prefix_append_right_inj, List.cons_append, List.cons_prefix_cons]
    exact fun hbegin ↦ absurd hbegin.1 (by decide)
  rw [toList_printMembers, toList_printMembers] at heq
  obtain ⟨hmembers, hrest⟩ := Text.TellApart.flatMap
    (fun m hm m' hm' ↦ tellApart_member (hdocs m hm) (hdocs' m' hm') (h m hm m' hm'))
    (fun m hm ↦ hbegins (hdocs' m hm) r) (fun m hm ↦ hbegins (hdocs m hm) s) heq
  exact ⟨hmembers, (List.cons.inj (List.append_cancel_left hrest)).2⟩

namespace MadeOf

variable {numbers : Set Number}

/-- Where there are no comments, members have none. -/
theorem doc_eq_none {c : Contents} (hc : c.docs = ∅) {members : List Member}
    (hdocs : ∀ m ∈ members, ∀ doc ∈ m.doc, doc ∈ c.docs) : ∀ m ∈ members, m.doc = none :=
  fun m hm ↦ Option.eq_none_iff_forall_not_mem.2 fun doc hdoc ↦
    Set.notMem_empty doc (hc ▸ hdocs m hm doc hdoc)

/-- Types of different forms are told apart by what their texts begin with. -/
theorem tellApart_of_form {x y : TypeExpr} (hx : MadeOf (Contents.plain numbers).flat x)
    (hy : MadeOf (Contents.plain numbers).flat y) (hone : x.parts = [x]) (hone' : y.parts = [y])
    {level : Nat}
    (h : x.form? = y.form? → Text.TellApart (chars level) EndsAlternative x y) :
    Text.TellApart (chars level) EndsAlternative x y := by
  intro r s hr hs heq
  refine h ?_ hr hs heq
  rw [← formOf_append hx hone level hr, ← formOf_append hy hone' level hs]
  exact congrArg (some ∘ formOf) heq

/-- Types that are words are told apart. -/
theorem tellApart_word {level : Nat} {f : String → TypeExpr} (hprint : ∀ w, (f w).print level = w)
    {v w : String} (hv : ∀ c ∈ v.toList, c.isAlphanum = true)
    (hw : ∀ c ∈ w.toList, c.isAlphanum = true) :
    Text.TellApart (chars level) EndsAlternative (f v) (f w) := by
  intro r s hr hs heq
  rw [chars, chars, hprint, hprint] at heq
  obtain ⟨hwords, hrs⟩ := Text.eq_of_word_append_eq hv hw (hr.head?_eq_false (by decide))
    (hs.head?_eq_false (by decide)) heq
  exact ⟨congrArg f (String.toList_inj.1 hwords), hrs⟩

/-- Types in angle brackets are told apart. -/
theorem tellApart_bracketed {level : Nat} {f : TypeExpr → TypeExpr} {opening : String}
    (hprint : ∀ type, (f type).print level = opening ++ type.print level ++ ">") {x y : TypeExpr}
    (h : Text.TellApart (chars level) EndsType x y) :
    Text.TellApart (chars level) EndsAlternative (f x) (f y) := by
  have hend (rest : List Char) : EndsType (">".toList ++ rest) :=
    fun c hc ↦ .inl (Option.some.inj hc).symm
  intro r s _ _ heq
  simp only [chars, hprint, String.toList_append, List.append_assoc] at heq
  obtain ⟨hinner, hrest⟩ := h (hend r) (hend s) (List.append_cancel_left heq)
  exact ⟨congrArg f hinner, List.append_cancel_left hrest⟩

/-- Object types without comments are told apart if the types of their members are. -/
theorem tellApart_object {level : Nat} {members members' : List Member} (hne : members ≠ [])
    (hne' : members' ≠ []) (hdocs : ∀ m ∈ members, m.doc = none)
    (hdocs' : ∀ m ∈ members', m.doc = none)
    (h : ∀ m ∈ members, ∀ m' ∈ members',
      Text.TellApart (chars (level + 1)) EndsType m.type m'.type) :
    Text.TellApart (chars level) EndsAlternative (.object members) (.object members') := by
  intro r s _ _ heq
  rw [chars, chars, print_object level hne, print_object level hne'] at heq
  simp only [String.toList_append, List.append_assoc] at heq
  obtain ⟨hmembers, hrs⟩ := eq_of_members_append_eq hdocs hdocs' h (List.append_cancel_left heq)
  exact ⟨congrArg TypeExpr.object hmembers, hrs⟩

/-- The alternatives of a type are told apart from all others. -/
def AlternativesApart (numbers : Set Number) (x : TypeExpr) : Prop :=
  ∀ part ∈ x.parts, ∀ {y : TypeExpr}, MadeOf (Contents.plain numbers).flat y → y.parts = [y] →
    ∀ level, Text.TellApart (chars level) EndsAlternative part y

/-- Types are told apart if the alternatives of one are from all others. -/
theorem AlternativesApart.tellApart {x y : TypeExpr} (h : AlternativesApart numbers x)
    (hx : MadeOf (Contents.plain numbers).flat x) (hy : MadeOf (Contents.plain numbers).flat y)
    (level : Nat) : Text.TellApart (chars level) EndsType x y :=
  hx.tellApart_of_parts hy fun part hpart part' hpart' ↦
    h part hpart (hy.parts.2 part' hpart') (hy.parts_flat part' hpart') level

/-- A type that is its own only alternative has to be told apart from those of its form. -/
theorem AlternativesApart.of_form {x : TypeExpr} (hx : MadeOf (Contents.plain numbers).flat x)
    (hone : x.parts = [x])
    (h : ∀ {y : TypeExpr}, MadeOf (Contents.plain numbers).flat y → x.form? = y.form? →
      ∀ level, Text.TellApart (chars level) EndsAlternative x y) : AlternativesApart numbers x := by
  intro part hpart y hy hy' level
  obtain rfl : part = x := List.mem_singleton.1 (hone ▸ hpart)
  exact tellApart_of_form hx hy hone hy' fun hform ↦ h hy hform level

/-- **Alternatives are told apart by their texts.** -/
theorem alternativesApart (hnumbers : numbers.InjOn Number.render) {x : TypeExpr}
    (hx : MadeOf (Contents.plain numbers).flat x) : AlternativesApart numbers x := by
  induction hx with
  | keyword h =>
    refine .of_form (keyword h) rfl fun hy hform level ↦ ?_
    cases hy with
    | keyword h' =>
      have halphanum : ∀ word ∈ keywords, word.toList.all Char.isAlphanum = true := by decide
      exact tellApart_word (fun _ ↦ by rw [print]) (List.all_eq_true.1 (halphanum _ h))
        (List.all_eq_true.1 (halphanum _ h'))
    | _ => cases hform
  | literal h =>
    refine .of_form (literal h) rfl fun hy hform level ↦ ?_
    cases hy with
    | literal h' =>
      intro r s hr hs heq
      rw [chars, chars, print, print] at heq
      obtain ⟨hvalues, hrs⟩ := h.1.tellApart hnumbers h'.1 (hr.head?_eq_false (by decide))
        (hs.head?_eq_false (by decide)) heq
      exact ⟨congrArg TypeExpr.literal hvalues, hrs⟩
    | _ => cases hform
  | named h =>
    refine .of_form (named h) rfl fun hy hform level ↦ ?_
    cases hy with
    | named h' => exact tellApart_word (fun _ ↦ by rw [print]) h.isAlphanum h'.isAlphanum
    | _ => cases hform
  | array h ih =>
    refine .of_form (array h) rfl fun hy hform level ↦ ?_
    cases hy with
    | array h' => exact tellApart_bracketed (fun _ ↦ by rw [print]) (ih.tellApart h h' level)
    | _ => cases hform
  | record h ih =>
    refine .of_form (record h) rfl fun hy hform level ↦ ?_
    cases hy with
    | record h' => exact tellApart_bracketed (fun _ ↦ by rw [print]) (ih.tellApart h h' level)
    | _ => cases hform
  | object hne hdocs h ih =>
    refine .of_form (object hne hdocs h) rfl fun hy hform level ↦ ?_
    cases hy with
    | object hne' hdocs' h' =>
      exact tellApart_object hne hne' (doc_eq_none rfl hdocs) (doc_eq_none rfl hdocs')
        fun m hm m' hm' ↦ (ih m hm).tellApart (h m hm) (h' m' hm') (level + 1)
    | _ => cases hform
  | union hmany halternatives h ih =>
    -- an alternative is no union itself, so it is its own only part
    intro part hpart
    refine ih part hpart part ?_
    rw [halternatives part hpart]
    exact List.mem_singleton_self part

/-- **A type is known by its text up to nested unions.** -/
theorem print_eq_iff (hnumbers : numbers.InjOn Number.render) {x y : TypeExpr}
    (hx : MadeOf (Contents.plain numbers) x) (hy : MadeOf (Contents.plain numbers) y)
    (level : Nat) : x.print level = y.print level ↔ x.flatten = y.flatten := by
  constructor
  · intro h
    have heq : chars level x.flatten ++ [] = chars level y.flatten ++ [] := by
      rw [chars, chars, hx.print_flatten, hy.print_flatten, h]
    have hend : EndsType [] := fun c hc ↦ absurd hc (Option.not_mem_none c)
    have hapart := hx.flatten.alternativesApart hnumbers
    exact (hapart.tellApart hx.flatten hy.flatten level hend hend heq).1
  · intro h
    rw [← hx.print_flatten, h, hy.print_flatten]

end MadeOf

end TypeExpr

end ApiContract.TypeScript
