import ApiContract.Proofs.Json.Compact
import ApiContract.Proofs.Json.DistinctKeys
import ApiContract.Proofs.Number
import ApiContract.Schema.Resolution

/-!
# The numbers of a document

A number of a document tree is an integer without bounds or a `Binary64` in any form. The documents
that are read hold fewer: their integers have sixty-four bits, with or without a sign, and their
doubles are numbers of the format (`Number.InRange`), so that no infinity and no "not a number" is
in a document, and none in a limit or a default that a contract states
(`DocumentSyntax.numbersIn_of_parse`).

## JSON

What a reader yields is stated by `Json.Yields`: of each reader of a part of a number it is proved
that what it reads is in range, from the last part to the first, in the order in which the readers
call each other. Digits are gathered only while they fit into sixty-four bits (`gather_lt`); a
number that is longer, or that has a fraction or an exponent, is a double that was multiplied or
divided by powers of ten (`isNormal_of_scale`). The readers of items and fields, which are given a
reader of values, yield whatever that reader does; so `yields_readValue` is an induction on the
nesting. Putting the fields of an object one by one, which drops repeated keys, brings no number
that was not there.

## YAML

A plain scalar is an integer, a float or a text, by its spelling. Its integers are refused beyond
sixty-four bits, and an infinite number or one that is none becomes `null` in the tree. Sequences
and mappings are read with a reader of nodes as above, anchors included: the node that an alias
stands for is read again, so the induction on the nesting covers it.

## Limits

What a schema states as a limit is a number of its fragment, taken as a double, and what it states
as a count is one that is written as a natural number. So of any part of a document the limits are
finite and the counts fit into sixty-four bits (`DocumentSyntax.statedConstraints_inRange`).
-/

namespace ApiContract

namespace Json

/-! ### Readers of numbers -/

/-- Whatever a reader reads has a property. -/
def Yields {α : Type} (read : Reader α) (p : α → Prop) : Prop :=
  ∀ ⦃cs value rest⦄, read cs = .ok (value, rest) → p value

theorem faultAt_ne_ok {α : Type} {fault : JsonFault} {cs : List Char} {r : α} :
    faultAt fault cs ≠ .ok r := nofun

theorem faultAtNext_ne_ok {α : Type} {fault : JsonFault} {cs : List Char} {r : α} :
    faultAtNext fault cs ≠ .ok r := nofun

/-- What digits are gathered to fits into sixty-four bits. -/
theorem gather_lt (cs : List Char) {significand : Nat} (h : significand < 2 ^ 64) :
    (gather significand cs).1 < 2 ^ 64 := by
  fun_induction gather significand cs with
  | case1 => exact h
  | case2 significand c rest next hmore final count after hgather ih =>
    rw [hgather] at ih
    exact ih (of_decide_eq_true (Bool.and_eq_true_iff.1 hmore).2)
  | case3 => exact h

/-- The divisors of a scaling are powers of ten, none of which is zero. -/
theorem isNormal_of_scale {n : Nat} {x y : Binary64} {exponent : Int} (hx : x.IsNormal)
    (h : scale n x exponent = some y) : y.IsNormal := by
  fun_induction scale n x exponent with
  | case1 => exact Option.some.inj h ▸ hx
  | case2 n x exponent hsmall power hup => exact Binary64.isNormal_of_mul? h
  | case3 n x exponent hsmall power hdown =>
    exact Binary64.isNormal_of_div? (Binary64.mantissa_ofNat_pow_ne_zero _ hsmall) h
  | case4 => exact Option.some.inj h ▸ hx
  | case5 => exact absurd h nofun
  | case6 n x exponent hlarge hzero hdown ih =>
    obtain ⟨z, hz, h⟩ := Option.bind_eq_some_iff.1 h
    have hpower := Binary64.mantissa_ofNat_pow_ne_zero 308 (Nat.le_refl _)
    exact ih z (Binary64.isNormal_of_div? hpower hz) h

/-- Gathered digits and an exponent make a double. -/
theorem yields_floatOf (negative : Bool) (significand : Nat) (exponent : Int) :
    Yields (floatOf negative significand exponent) Number.InRange := by
  intro cs number rest h
  rw [floatOf] at h
  split at h
  · exact absurd h faultAt_ne_ok
  · next x hscale =>
    have hx := isNormal_of_scale (Binary64.isNormal_ofNat significand) hscale
    obtain ⟨rfl, -⟩ := Prod.mk.inj (Except.ok.inj h)
    cases negative with
    | false => exact hx
    | true => exact hx.neg

/-- An exponent that is too large makes zero or none, according to its sign. -/
theorem yields_exponentDigits (negative small zero : Bool) (significand : Nat) (start : Int)
    (exponent : Nat) :
    Yields (exponentDigits negative small zero significand start exponent) Number.InRange := by
  intro cs number rest h
  fun_induction exponentDigits negative small zero significand start exponent cs with
  | case1 => exact yields_floatOf _ _ _ h
  | case2 => exact absurd h faultAt_ne_ok
  | case3 =>
    obtain ⟨rfl, -⟩ := Prod.mk.inj (Except.ok.inj h)
    exact Binary64.isNormal_zero negative
  | case4 exponent c more hdigit next hfits ih => exact ih h
  | case5 => exact yields_floatOf _ _ _ h

/-- An exponent, of either sign, makes a number in range. -/
theorem yields_exponentPart (negative : Bool) (significand : Nat) (start : Int) :
    Yields (exponentPart negative significand start) Number.InRange := by
  intro cs number rest h
  rw [exponentPart.eq_def] at h
  split at h
  split at h
  · exact absurd h faultAt_ne_ok
  · split at h
    · exact yields_exponentDigits _ _ _ _ _ _ h
    · exact absurd h faultAtNext_ne_ok

theorem yields_afterFraction (negative : Bool) (significand : Nat) (exponent : Int) :
    Yields (afterFraction negative significand exponent) Number.InRange := by
  intro cs number rest h
  rw [afterFraction.eq_def] at h
  split at h
  · exact yields_exponentPart _ _ _ h
  · exact yields_exponentPart _ _ _ h
  · exact yields_floatOf _ _ _ h

/-- A fraction lowers the exponent by its digits, as long as they are gathered. -/
theorem yields_fractionPart (negative : Bool) (significand : Nat) (exponent : Int) :
    Yields (fractionPart negative significand exponent) Number.InRange := by
  intro cs number rest h
  rw [fractionPart] at h
  split at h
  split at h
  · split_ifs at h
    · exact absurd h faultAt_ne_ok
    · exact yields_floatOf _ _ _ h
  · split_ifs at h
    · exact yields_afterFraction _ _ _ h
    · exact absurd h faultAtNext_ne_ok
    · exact yields_afterFraction _ _ _ h

/-- A number without fraction and exponent is an integer if sixty-four bits hold it. -/
theorem yields_afterWhole (negative : Bool) {significand : Nat} (hfits : significand < 2 ^ 64) :
    Yields (afterWhole negative significand) Number.InRange := by
  intro cs number rest h
  rw [afterWhole.eq_def] at h
  split at h
  · exact yields_fractionPart _ _ _ h
  · exact yields_exponentPart _ _ _ h
  · exact yields_exponentPart _ _ _ h
  · split_ifs at h with hpositive hlarge
    · obtain ⟨rfl, -⟩ := Prod.mk.inj (Except.ok.inj h)
      exact ⟨by omega, by exact_mod_cast hfits⟩
    · obtain ⟨rfl, -⟩ := Prod.mk.inj (Except.ok.inj h)
      exact (Binary64.isNormal_ofNat significand).neg
    · obtain ⟨rfl, -⟩ := Prod.mk.inj (Except.ok.inj h)
      have hsmall : significand ≤ 2 ^ 63 := not_lt.1 (not_or.1 hlarge).2
      exact ⟨by omega, by omega⟩

/-- **Every number that is read is in range.** -/
theorem yields_readNumber (negative : Bool) : Yields (readNumber negative) Number.InRange := by
  intro cs number rest h
  rw [readNumber.eq_def] at h
  split at h
  · exact absurd h faultAt_ne_ok
  · split at h
    · exact absurd h faultAtNext_ne_ok
    · exact yields_afterWhole _ (by decide) h
  · next c more _ =>
    have hfits : (gather 0 (c :: more)).1 < 2 ^ 64 := gather_lt _ (by decide)
    split at h
    · dsimp only at h
      split at h
      · split at h
        · exact yields_fractionPart _ _ _ h
        · exact yields_exponentPart _ _ _ h
        · exact yields_exponentPart _ _ _ h
        · exact yields_floatOf _ _ _ h
      · exact yields_afterWhole _ hfits h
    · exact absurd h faultAtNext_ne_ok

/-! ### Values -/

/-- A word stands for the value that it is read as. -/
theorem yields_word {value : Json} {p : Json → Prop} (h : p value) (expected : List Char) :
    Yields (word value expected) p := by
  intro cs read rest hread
  fun_induction word value expected cs with
  | case1 =>
    obtain ⟨rfl, -⟩ := Prod.mk.inj (Except.ok.inj hread)
    exact h
  | case2 => exact absurd hread faultAt_ne_ok
  | case3 expected more rest ih => exact ih hread
  | case4 => exact absurd hread faultAtNext_ne_ok

/-- An item and what is read behind it, wherever the item begins. -/
theorem forall_mem_of_nextItem {readItem : Reader Json} {readOthers : Reader (List Json)}
    {p : Json → Prop} (h : Yields readItem p)
    (hothers : Yields readOthers fun entries ↦ ∀ entry ∈ entries, p entry) {start : List Char}
    {r : List Json × List Char}
    (hread : (match readItem start with
      | .error e => .error e
      | .ok (item, after) =>
        match readOthers after with
        | .error e => .error e
        | .ok (others, final) => .ok (item :: others, final) :
      Except ReadError (List Json × List Char)) = .ok r) :
    ∀ entry ∈ r.1, p entry := by
  split at hread
  · cases hread
  · next hitem =>
    split at hread
    · cases hread
    · next hmore =>
      obtain rfl := Except.ok.inj hread
      exact List.forall_mem_cons.2 ⟨h hitem, hothers hmore⟩

/-- What is read from the items of an array is read by the reader of items. -/
theorem yields_items {readItem : Reader Json} {p : Json → Prop} (h : Yields readItem p)
    (bound : Nat) (first : Bool) :
    Yields (items readItem bound first) fun entries ↦ ∀ entry ∈ entries, p entry := by
  induction bound generalizing first with
  | zero => exact fun _ _ _ hread ↦ absurd hread faultAt_ne_ok
  | succ bound ih =>
    intro cs entries rest hread
    rw [items] at hread
    split at hread
    · exact absurd hread faultAt_ne_ok
    · obtain ⟨rfl, -⟩ := Prod.mk.inj (Except.ok.inj hread)
      exact List.forall_mem_nil _
    · dsimp only at hread
      split at hread
      · exact forall_mem_of_nextItem h (ih false) hread
      · split at hread
        · split at hread
          · exact absurd hread faultAt_ne_ok
          · exact absurd hread faultAtNext_ne_ok
          · exact forall_mem_of_nextItem h (ih false) hread
        · exact absurd hread faultAtNext_ne_ok

/-- A field and what is read behind it, wherever its key begins. -/
theorem forall_mem_of_nextField {readField : Reader Json}
    {readOthers : Reader (List (String × Json))} {p : Json → Prop} (h : Yields readField p)
    (hothers : Yields readOthers fun entries ↦ ∀ entry ∈ entries, p entry.2) {start : List Char}
    {r : List (String × Json) × List Char}
    (hread : (match readString start with
      | .error e => .error e
      | .ok (key, afterKey) =>
        match colon afterKey with
        | .error e => .error e
        | .ok start =>
          match readField start with
          | .error e => .error e
          | .ok (value, after) =>
            match readOthers after with
            | .error e => .error e
            | .ok (others, final) => .ok ((key, value) :: others, final) :
      Except ReadError (List (String × Json) × List Char)) = .ok r) :
    ∀ entry ∈ r.1, p entry.2 := by
  split at hread
  · cases hread
  · split at hread
    · cases hread
    · split at hread
      · cases hread
      · next hvalue =>
        split at hread
        · cases hread
        · next hmore =>
          obtain rfl := Except.ok.inj hread
          exact List.forall_mem_cons.2 ⟨h hvalue, hothers hmore⟩

/-- What is read from the fields of an object is read by the reader of values. -/
theorem yields_fields {readField : Reader Json} {p : Json → Prop} (h : Yields readField p)
    (bound : Nat) (first : Bool) :
    Yields (fields readField bound first) fun entries ↦ ∀ entry ∈ entries, p entry.2 := by
  induction bound generalizing first with
  | zero => exact fun _ _ _ hread ↦ absurd hread faultAt_ne_ok
  | succ bound ih =>
    intro cs entries rest hread
    rw [fields] at hread
    split at hread
    · exact absurd hread faultAt_ne_ok
    · obtain ⟨rfl, -⟩ := Prod.mk.inj (Except.ok.inj hread)
      exact List.forall_mem_nil _
    · dsimp only at hread
      split at hread
      · split at hread
        · exact forall_mem_of_nextField h (ih false) hread
        · exact absurd hread faultAtNext_ne_ok
      · split at hread
        · split at hread
          · exact absurd hread faultAt_ne_ok
          · exact forall_mem_of_nextField h (ih false) hread
          · exact absurd hread faultAtNext_ne_ok
          · exact absurd hread faultAtNext_ne_ok
        · exact absurd hread faultAtNext_ne_ok

/-- A number is a value whose number is in range. -/
theorem numbersIn_of_readNumber {negative : Bool} {start : List Char} {r : Json × List Char}
    (hread : (match readNumber negative start with
      | .error e => .error e
      | .ok (n, after) => .ok (.number n, after) : Except ReadError (Json × List Char)) = .ok r) :
    r.1.NumbersIn {n | n.InRange} := by
  split at hread
  · cases hread
  · next hn =>
    obtain rfl := Except.ok.inj hread
    exact .number (yields_readNumber negative hn)

/-- Every number of a value that is read is in range. -/
theorem yields_readValue (bound depth : Nat) :
    Yields (readValue bound depth) (NumbersIn {n | n.InRange}) := by
  induction depth with
  | zero => exact fun _ _ _ hread ↦ absurd hread faultAtNext_ne_ok
  | succ depth ih =>
    intro cs value rest hread
    rw [readValue] at hread
    split at hread
    · exact absurd hread faultAt_ne_ok
    · exact yields_word .null _ hread
    · exact yields_word (.bool true) _ hread
    · exact yields_word (.bool false) _ hread
    · split at hread
      · cases hread
      · obtain ⟨rfl, -⟩ := Prod.mk.inj (Except.ok.inj hread)
        exact .string _
    · split at hread
      · exact absurd hread faultAtNext_ne_ok
      · split at hread
        · cases hread
        · next hentries =>
          obtain ⟨rfl, -⟩ := Prod.mk.inj (Except.ok.inj hread)
          exact .array (yields_items ih _ _ hentries)
    · split at hread
      · exact absurd hread faultAtNext_ne_ok
      · split at hread
        · cases hread
        · next hentries =>
          obtain ⟨rfl, -⟩ := Prod.mk.inj (Except.ok.inj hread)
          exact .object (yields_fields ih _ _ hentries)
    · exact numbersIn_of_readNumber hread
    · split at hread
      · exact numbersIn_of_readNumber hread
      · exact absurd hread faultAtNext_ne_ok

/-- Every number of a text is in range. -/
theorem numbersIn_of_verbatim {text : String} {value : Json} (h : verbatim text = .ok value) :
    value.NumbersIn {n | n.InRange} := by
  rw [verbatim] at h
  split at h
  · next hread =>
    obtain rfl := Except.ok.inj h
    rw [readAll] at hread
    split at hread
    · exact absurd hread nofun
    · next hvalue =>
      split at hread
      · exact Except.ok.inj hread ▸ yields_readValue _ _ hvalue
      · exact absurd hread faultAtNext_ne_ok
  · exact absurd h nofun

/-! ### Repeated keys -/

variable {numbers : Set Number} {value : Json} {fields : List (String × Json)}

/-- Putting a field brings the numbers of its value. -/
theorem NumbersIn.putField (hfields : (Json.object fields).NumbersIn numbers)
    (hvalue : value.NumbersIn numbers) (name : String) :
    (Json.object (putField name value fields)).NumbersIn numbers := by
  cases hfields with
  | object hfields =>
    rw [putField_eq_putBy]
    refine .object fun entry hentry ↦ ?_
    rcases mem_of_mem_putBy hentry with rfl | hmem
    · exact hvalue
    · exact hfields entry hmem

mutual

/-- A tree has the same numbers, or fewer, once no key is repeated. -/
theorem NumbersIn.withoutRepeats :
    ∀ {value : Json}, value.NumbersIn numbers → value.withoutRepeats.NumbersIn numbers
  | .array _, .array h => .array (NumbersIn.itemsWithoutRepeats h)
  | .object _, .object h => NumbersIn.fieldsWithoutRepeats (.object (List.forall_mem_nil _)) h
  | .null, h | .bool _, h | .number _, h | .string _, h => h

theorem NumbersIn.itemsWithoutRepeats : ∀ {items : List Json},
    (∀ item ∈ items, item.NumbersIn numbers) →
      ∀ item ∈ Json.itemsWithoutRepeats items, item.NumbersIn numbers
  | [], h => h
  | _ :: _, h =>
    have ⟨hfirst, hrest⟩ := List.forall_mem_cons.1 h
    List.forall_mem_cons.2 ⟨hfirst.withoutRepeats, NumbersIn.itemsWithoutRepeats hrest⟩

theorem NumbersIn.fieldsWithoutRepeats {done : List (String × Json)}
    (hdone : (Json.object done).NumbersIn numbers) : ∀ {fields : List (String × Json)},
    (∀ field ∈ fields, field.2.NumbersIn numbers) →
      (Json.object (Json.fieldsWithoutRepeats done fields)).NumbersIn numbers
  | [], _ => hdone
  | (name, _) :: _, h =>
    have ⟨hfirst, hrest⟩ := List.forall_mem_cons.1 h
    NumbersIn.fieldsWithoutRepeats (hdone.putField hfirst.withoutRepeats name) hrest

end

/-- The numbers of a JSON document are in range. -/
theorem numbersIn_of_ofText {text : String} {doc : Json} (h : ofText text = .ok doc) :
    doc.NumbersIn {n | n.InRange} := by
  obtain ⟨tree, htree, rfl⟩ := Except.map_eq_ok_iff.1 h
  exact (numbersIn_of_verbatim htree).withoutRepeats

end Json

/-! ### YAML -/

namespace Yaml

namespace Value

variable {numbers : Set Number} {value : Value} {items : List Value}
  {entries : List (Value × Value)}

/-- The tree of a sequence has the numbers of its items. -/
theorem numbersIn_sequence (h : ∀ item ∈ items, item.toJson.NumbersIn numbers) :
    (sequence items).toJson.NumbersIn numbers := by
  refine .array ?_
  induction items with
  | nil => exact fun _ hitem ↦ absurd hitem List.not_mem_nil
  | cons item rest ih =>
    obtain ⟨hfirst, hrest⟩ := List.forall_mem_cons.1 h
    exact List.forall_mem_cons.2 ⟨hfirst, ih hrest⟩

/-- The tree of a mapping has the numbers of its values. -/
theorem numbersIn_entriesJson {done : List (String × Json)}
    (hdone : (Json.object done).NumbersIn numbers)
    (h : ∀ entry ∈ entries, entry.2.toJson.NumbersIn numbers) :
    (Json.object (entriesJson done entries)).NumbersIn numbers := by
  induction entries generalizing done with
  | nil => exact hdone
  | cons entry rest ih =>
    obtain ⟨hfirst, hrest⟩ := List.forall_mem_cons.1 h
    exact ih (hdone.putField hfirst entry.1.keyText) hrest

end Value

/-- The tree of the value has its numbers in range. -/
abbrev Value.InRange (value : Value) : Prop := value.toJson.NumbersIn {n | n.InRange}

/-- An integer is held by sixty-four bits, or its text is refused. -/
theorem inRange_of_integer? {cs : List Char} {i : Int} (h : integer? cs = .ok (some i)) :
    (Number.int i).InRange := by
  rw [integer?.eq_def] at h
  split at h
  · split_ifs at h with hfits
    · obtain rfl := Option.some.inj (Except.ok.inj h)
      exact ⟨by omega, by exact_mod_cast hfits⟩
    · exact absurd h nofun
  · split_ifs at h with hfits
    · obtain rfl := Option.some.inj (Except.ok.inj h)
      exact ⟨neg_le_neg (by exact_mod_cast hfits), by omega⟩
    · exact absurd h nofun
  · exact absurd h nofun

/-- Only the finite ones among the floats are numbers of the tree. -/
theorem inRange_of_float? {s : String} {x : FloatReading} (h : float? s = some x) :
    (Value.float x).InRange := by
  rw [float?] at h
  generalize (if s.toList.head? == some '+' then s.toList.drop 1 else s.toList) = unsigned at h
  split_ifs at h
  · exact Option.some.inj h ▸ .null
  · exact Option.some.inj h ▸ .null
  · exact Option.some.inj h ▸ .null
  · obtain ⟨value, hvalue, rfl⟩ := Option.map_eq_some_iff.1 h
    exact .number (FloatReading.isNormal_of_finite? hvalue)

/-- What a plain scalar stands for has its numbers in range. -/
theorem inRange_of_plainValue {s : String} {value : Value} (h : plainValue s = .ok value) :
    value.InRange := by
  rw [plainValue] at h
  split at h
  · exact Except.ok.inj h ▸ .null
  · split at h
    · exact Except.ok.inj h ▸ .bool _
    · obtain ⟨int?, hint, h⟩ := Except.bind_eq_ok_iff.1 h
      split at h
      · exact Except.ok.inj h ▸ .number (inRange_of_integer? hint)
      · split at h
        · next hfloat =>
          split at hfloat
          · exact absurd hfloat nofun
          · exact Except.ok.inj h ▸ inRange_of_float? hfloat
        · exact Except.ok.inj h ▸ .string s

/-- A tag changes no number. -/
theorem inRange_of_tagged {tag : Option String} {value final : Value} (hvalue : value.InRange)
    (h : tagged tag value = .ok final) : final.InRange := by
  rw [tagged.eq_def] at h
  split at h
  · exact absurd h nofun
  · exact Except.ok.inj h ▸ hvalue
  · exact Except.ok.inj h ▸ hvalue

/-- What a tag of the core schema makes of a scalar has its numbers in range. -/
theorem inRange_of_coreValue? {tag s : String} {read : Except Fault Value} {value : Value}
    (hrule : coreValue? tag s = some read) (h : read = .ok value) : value.InRange := by
  rw [coreValue?] at hrule
  dsimp only at hrule
  split_ifs at hrule <;> obtain rfl := Option.some.inj hrule
  · split at h
    · next hbool =>
      obtain ⟨b, -, rfl⟩ := Option.map_eq_some_iff.1 hbool
      exact Except.ok.inj h ▸ .bool b
    · exact absurd h nofun
  · obtain ⟨int?, hint, h⟩ := Except.bind_eq_ok_iff.1 h
    split at h
    · exact Except.ok.inj h ▸ .number (inRange_of_integer? hint)
    · exact absurd h nofun
  · split at h
    · next hfloat =>
      obtain ⟨x, hx, rfl⟩ := Option.map_eq_some_iff.1 hfloat
      exact Except.ok.inj h ▸ inRange_of_float? hx
    · exact absurd h nofun
  · exact Except.ok.inj h ▸ .null
  · exact absurd h nofun

/-- What a node without parts stands for has its numbers in range, tags or not. -/
theorem inRange_of_scalarValue {tag : Option String} {s : String} {isPlain : Bool} {value : Value}
    (h : scalarValue tag s isPlain = .ok value) : value.InRange := by
  have huntagged {value : Value}
      (h : (if isPlain then plainValue s else .ok (.text s)) = .ok value) : value.InRange := by
    split_ifs at h
    · exact inRange_of_plainValue h
    · exact Except.ok.inj h ▸ .string s
  rw [scalarValue.eq_def] at h
  split at h
  · exact huntagged h
  · split_ifs at h with hown hplain
    · obtain ⟨value, hvalue, h⟩ := Except.bind_eq_ok_iff.1 h
      exact inRange_of_tagged (inRange_of_plainValue hvalue) h
    · exact inRange_of_tagged (.string s) h
    · rcases hcore : coreValue? _ s with - | read
      · rw [hcore] at h
        exact Except.ok.inj h ▸ .string s
      · rw [hcore] at h
        exact inRange_of_coreValue? hcore h

namespace Document

variable {d : Document} {node : Nat → Nat → Except Fault (Reading Value)}

/-- The items of a sequence are read by the reader of nodes. -/
theorem inRange_of_items
    (hnode : ∀ {place jumps value ending}, node place jumps = .ok (value, ending) → value.InRange)
    {count place jumps : Nat} {before : List Value} {r : Reading (List Value)}
    (hbefore : ∀ item ∈ before, item.InRange) (h : d.items node count before place jumps = .ok r) :
    ∀ item ∈ r.1, item.InRange := by
  induction count generalizing before place jumps with
  | zero => exact absurd h nofun
  | succ count ih =>
    rw [items] at h
    split_ifs at h
    · obtain rfl := Except.ok.inj h
      exact fun item hitem ↦ hbefore item (List.mem_reverse.1 hitem)
    · obtain ⟨⟨value, ending⟩, hvalue, h⟩ := Except.bind_eq_ok_iff.1 h
      exact ih (List.forall_mem_cons.2 ⟨hnode hvalue, hbefore⟩) h

/-- The values of a mapping are read by the reader of nodes; its keys become texts. -/
theorem inRange_of_entries
    (hnode : ∀ {place jumps value ending}, node place jumps = .ok (value, ending) → value.InRange)
    {count place jumps : Nat} {before : List (Value × Value)} {r : Reading (List (Value × Value))}
    (hbefore : ∀ entry ∈ before, entry.2.InRange)
    (h : d.entries node count before place jumps = .ok r) : ∀ entry ∈ r.1, entry.2.InRange := by
  induction count generalizing before place jumps with
  | zero => exact absurd h nofun
  | succ count ih =>
    rw [entries] at h
    split_ifs at h
    · obtain rfl := Except.ok.inj h
      exact fun entry hentry ↦ hbefore entry (List.mem_reverse.1 hentry)
    · obtain ⟨⟨key, place, jumps⟩, -, h⟩ := Except.bind_eq_ok_iff.1 h
      dsimp only at h
      split_ifs at h
      · exact absurd h nofun
      · obtain ⟨⟨value, ending⟩, hvalue, h⟩ := Except.bind_eq_ok_iff.1 h
        exact ih (List.forall_mem_cons.2 ⟨hnode hvalue, hbefore⟩) h

/-- A node has its numbers in range if the rule for its scalars gives such. -/
theorem inRange_of_node (hscalar : ∀ {tag s isPlain value},
      d.scalar tag s isPlain = .ok value → value.InRange) {levels place jumps : Nat}
    {r : Reading Value} (h : d.node levels place jumps = .ok r) : r.1.InRange := by
  induction levels generalizing place jumps r with
  | zero =>
    rw [Document.node] at h
    obtain ⟨_, -, h⟩ := Except.bind_eq_ok_iff.1 h
    dsimp only at h
    split at h
    · obtain ⟨value, hvalue, h⟩ := Except.bind_eq_ok_iff.1 h
      exact Except.ok.inj h ▸ hscalar hvalue
    · exact absurd h nofun
  | succ levels ih =>
    rw [Document.node] at h
    obtain ⟨_, -, h⟩ := Except.bind_eq_ok_iff.1 h
    dsimp only at h
    split at h
    · obtain ⟨value, hvalue, h⟩ := Except.bind_eq_ok_iff.1 h
      exact Except.ok.inj h ▸ hscalar hvalue
    · obtain ⟨_, hitems, h⟩ := Except.bind_eq_ok_iff.1 h
      obtain ⟨value, hvalue, h⟩ := Except.bind_eq_ok_iff.1 h
      have hsequence := inRange_of_items (fun hnode ↦ ih hnode) (List.forall_mem_nil _) hitems
      exact Except.ok.inj h ▸ inRange_of_tagged (Value.numbersIn_sequence hsequence) hvalue
    · obtain ⟨_, hentries, h⟩ := Except.bind_eq_ok_iff.1 h
      obtain ⟨value, hvalue, h⟩ := Except.bind_eq_ok_iff.1 h
      have hmapping : (Value.mapping _).InRange :=
        Value.numbersIn_entriesJson (.object (List.forall_mem_nil _))
          (inRange_of_entries (fun hnode ↦ ih hnode) (List.forall_mem_nil _) hentries)
      exact Except.ok.inj h ▸ inRange_of_tagged hmapping hvalue
    · exact absurd h nofun

end Document

/-- The value of the events of a document has its numbers in range, an empty one included. -/
theorem inRange_of_ofEvents {events : List Event} {value : Value}
    (h : (Document.ofEvents scalarValue events >>= Document.value) = .ok value) :
    value.InRange := by
  obtain ⟨d, hd, h⟩ := Except.bind_eq_ok_iff.1 h
  obtain ⟨anchors, -, hd⟩ := Except.bind_eq_ok_iff.1 hd
  obtain rfl := Except.ok.inj hd
  rw [Document.value] at h
  split_ifs at h
  · exact Except.ok.inj h ▸ .null
  · obtain ⟨r, hr, h⟩ := Except.bind_eq_ok_iff.1 h
    exact Except.ok.inj h ▸ Document.inRange_of_node inRange_of_scalarValue hr

/-- The numbers of a YAML document are in range. -/
theorem numbersIn_of_ofText {text : String} {doc : Json} (h : ofText text = .ok doc) :
    doc.NumbersIn {n | n.InRange} := by
  rw [ofText.eq_def] at h
  split at h
  · next hread =>
    obtain rfl := Except.ok.inj h
    obtain ⟨_, -, hread⟩ := Except.bind_eq_ok_iff.1 hread
    obtain ⟨events, -, hread⟩ := Except.bind_eq_ok_iff.1 hread
    obtain ⟨value, hvalue, hread⟩ := Except.bind_eq_ok_iff.1 hread
    obtain rfl := Except.ok.inj hread
    rw [valueOfEvents] at hvalue
    split at hvalue
    · exact inRange_of_ofEvents hvalue
    · exact inRange_of_ofEvents hvalue
    · exact absurd hvalue nofun
  · exact absurd h nofun

end Yaml

/-- **The numbers of a document that was read are finite and within sixty-four bits.** -/
theorem DocumentSyntax.numbersIn_of_parse {stx : DocumentSyntax} {text : String} {doc : Json}
    (h : stx.parse text = .ok doc) : doc.NumbersIn {n | n.InRange} := by
  cases stx with
  | json => exact Json.numbersIn_of_ofText h
  | yaml => exact Yaml.numbersIn_of_ofText h
  | unknown =>
    unfold parse at h
    dsimp only at h
    split at h
    · next hread => exact Json.numbersIn_of_ofText (hread.trans h)
    · exact Yaml.numbersIn_of_ofText h

/-! ### Limits -/

namespace Json

variable {numbers : Set Number} {value part : Json}

/-- What is right below a value has only numbers of that value. -/
theorem NumbersIn.of_mem_parts (h : value.NumbersIn numbers) (hpart : part ∈ value.parts) :
    part.NumbersIn numbers := by
  cases h with
  | array hitems => exact hitems part hpart
  | object hfields =>
    obtain ⟨field, hfield, rfl⟩ := List.mem_map.1 hpart
    exact hfields field hfield
  | _ => exact absurd hpart List.not_mem_nil

/-- A part of a value has only numbers of that value. -/
theorem NumbersIn.of_hasPart (h : value.NumbersIn numbers) (hpart : value.HasPart part) :
    part.NumbersIn numbers := by
  obtain ⟨place, hplace⟩ := hpart
  induction place generalizing value with
  | nil => exact Option.some.inj hplace ▸ h
  | cons step rest ih =>
    obtain ⟨next, hstep, hrest⟩ := Option.bind_eq_some_iff.1 hplace
    exact ih (h.of_mem_parts (step?_mem_parts hstep)) hrest

end Json

namespace Number.InRange

variable {number : Number}

/-- An integer is rounded to a double, and a double is one already. -/
theorem isNormal_toBinary64 (h : number.InRange) : number.toBinary64.IsNormal := by
  cases number with
  | int i => exact Binary64.isNormal_ofInt i
  | float x => exact h

theorem lt_of_toNat? (h : number.InRange) {n : Nat} (hn : number.toNat? = some n) :
    n < 2 ^ 64 := by
  cases number with
  | int i =>
    rw [toNat?] at hn
    split_ifs at hn with hpositive
    obtain rfl := Option.some.inj hn
    have hbound : i < 2 ^ 64 := h.2
    omega
  | float x => cases hn

end Number.InRange

/-- The limits are finite doubles, and the counts have sixty-four bits. -/
structure Constraints.InRange (c : Constraints) : Prop where
  minLength : ∀ n ∈ c.minLength, n < 2 ^ 64
  maxLength : ∀ n ∈ c.maxLength, n < 2 ^ 64
  minimum : ∀ x ∈ c.minimum, x.IsNormal
  maximum : ∀ x ∈ c.maximum, x.IsNormal
  minItems : ∀ n ∈ c.minItems, n < 2 ^ 64
  maxItems : ∀ n ∈ c.maxItems, n < 2 ^ 64

namespace Schema

variable {fields : List (String × Json)}

/-- A number at a field is one of the numbers of the object. -/
theorem inRange_of_field? (h : (Json.object fields).NumbersIn {n | n.InRange}) {name : String}
    {number : Number} (hfield : (field? name fields).bind Json.asNumber? = some number) :
    number.InRange := by
  obtain ⟨value, hvalue, hnumber⟩ := Option.bind_eq_some_iff.1 hfield
  cases h.of_hasPart (.field? hvalue) with
  | number hrange => exact Option.some.inj hnumber ▸ hrange
  | _ => cases hnumber

/-- **The limits of an object whose numbers are in range are in range.** -/
theorem statedConstraints_inRange (h : (Json.object fields).NumbersIn {n | n.InRange}) :
    (statedConstraints fields).InRange := by
  have hnat (name : String) : ∀ n ∈ natAt? name fields, n < 2 ^ 64 := by
    intro n hn
    obtain ⟨number, hfield, hnumber⟩ := Option.bind_eq_some_iff.1 hn
    exact (inRange_of_field? h hfield).lt_of_toNat? hnumber
  have hfloat (name : String) : ∀ x ∈ floatAt? name fields, x.IsNormal := by
    intro x hx
    obtain ⟨number, hfield, rfl⟩ := Option.map_eq_some_iff.1 hx
    exact (inRange_of_field? h hfield).isNormal_toBinary64
  exact ⟨hnat _, hnat _, hfloat _, hfloat _, hnat _, hnat _⟩

end Schema

/-- **The limits that any part of a document states are finite, and its counts have sixty-four
bits.** -/
theorem DocumentSyntax.statedConstraints_inRange {stx : DocumentSyntax} {text : String} {doc : Json}
    (h : stx.parse text = .ok doc) {fields : List (String × Json)}
    (hpart : doc.HasPart (.object fields)) : (Schema.statedConstraints fields).InRange :=
  Schema.statedConstraints_inRange ((numbersIn_of_parse h).of_hasPart hpart)

end ApiContract
