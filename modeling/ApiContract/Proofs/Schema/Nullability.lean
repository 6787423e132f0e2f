import ApiContract.Proofs.Schema.Form

/-!
# Two ways to admit `null`

A schema says that `null` is admitted beside the values of its type by a keyword of its own
(`SaysNullable`) or by a list of types (`ListsNullType`). The two are meant to be the same.

## Main result

`Schema.nullable_spellings_iff`, for every type and every two schemas that agree but for these
keywords, in every document. At every depth up to the ceiling the node with the keyword is the one
with the list of types, with `null` admitted; and the two are the same exactly if the schema is not
composed of branches, or `null` is admitted for another reason.

## Composed schemas

The keyword is read whatever the form of the schema, the type only if the schema is not composed of
branches. So the two ways give nodes that are alike but for `null` itself
(`ofFields_eq_of_spellings`), and a composed schema with a list of types admits `null` only for
other reasons (`nullable_ofFields_iff`): it is among the values that it lists, or the schema is a
single branch that admits it. `null_ignored_address` is a choice between two formats where it is
lost.

## Proof

`AgreeBesideNull` gives that everything is read alike but the two keywords, one lemma for each
function that reads keywords. The conclusion is then one about nodes: two that are alike with `null`
admitted are the same if both admit it or neither does.
-/

namespace ApiContract

namespace Schema

/-- Two lists of fields agree but for the keywords that say whether `null` is admitted. -/
def AgreeBesideNull (left right : List (String × Json)) : Prop :=
  ∀ keyword ∉ ["type", "nullable"], field? keyword left = field? keyword right

/-- A schema has that type and says `nullable: true`. -/
structure SaysNullable (type : String) (fields : List (String × Json)) : Prop where
  type : field? "type" fields = some (.string type)
  nullable : field? "nullable" fields = some (.bool true)

/-- A schema has a list of that type and `null`. -/
structure ListsNullType (type : String) (fields : List (String × Json)) : Prop where
  type : field? "type" fields = some (.array [.string type, .string "null"]) ∨
    field? "type" fields = some (.array [.string "null", .string type])
  nullable : field? "nullable" fields = none

variable {type : String} {left right : List (String × Json)} {child : Json → Schema}

theorem SaysNullable.declaredType_eq (h : SaysNullable type left) :
    declaredType left = (some type, false) := by
  rw [declaredType, h.type]

/-- With the list, the type is the one beside `null`. -/
theorem ListsNullType.declaredType_eq (h : ListsNullType type right) (htype : type ≠ "null") :
    declaredType right = (some type, true) := by
  rw [declaredType]
  rcases h.type with hfield | hfield <;> simp [hfield, Json.asString?, htype]

namespace AgreeBesideNull

variable (h : AgreeBesideNull left right)
include h

theorem hasField_eq {keyword : String} (hkeyword : keyword ∉ ["type", "nullable"]) :
    hasField keyword left = hasField keyword right := by
  rw [hasField, hasField, h keyword hkeyword]

/-- Both are composed, or neither is. -/
theorem isComposed_iff : IsComposed left ↔ IsComposed right := by
  have hkeywords : ∀ keyword ∈ compositionKeywords, keyword ∉ ["type", "nullable"] := by decide
  refine exists_congr fun keyword ↦ and_congr_right fun hmem ↦ ?_
  rw [h keyword (hkeywords keyword hmem)]

theorem recordForm_eq : recordForm left = recordForm right := by
  simp only [recordForm, declaredRequired, h "properties" (by decide), h "required" (by decide),
    h "additionalProperties" (by decide)]

theorem impliedShape_eq : impliedShape left = impliedShape right := by
  simp only [impliedShape, h "enum" (by decide), h "const" (by decide)]

/-- With one type, both have one form. -/
theorem typedForm_eq (htype : (declaredType left).1 = (declaredType right).1) :
    typedForm left = typedForm right := by
  rw [typedForm, typedForm, htype, h.recordForm_eq, h.impliedShape_eq,
    h "items" (by decide), h.hasField_eq (by decide), h.hasField_eq (by decide)]

/-- With the same branches, both have one form. -/
theorem composedForm_eq (branches : List Json) :
    composedForm left branches = composedForm right branches := by
  unfold composedForm
  rw [h.recordForm_eq, h.hasField_eq (by decide), h.hasField_eq (by decide)]

/-- The form of a composed schema does not hang on its type. -/
theorem formOf_eq (hcomposed : IsComposed right) : formOf left = formOf right := by
  have hform : formOf left = formOf right ∨
      formOf right = .typed (typedForm right) (declaredType right).2 := by
    rw [formOf, formOf, h "allOf" (by decide), h "oneOf" (by decide), h "anyOf" (by decide)]
    split
    · exact .inl (h.composedForm_eq _)
    · split
      · exact .inl rfl
      · split
        · exact .inl rfl
        · exact .inr rfl
  exact hform.resolve_right (formOf_ne_typed_of_isComposed hcomposed _ _)

/-- On two nodes that are alike but for `null`, the keywords say the same but for `null`. -/
theorem annotate_eq (hleft : saysNullable left = true) {a b : Schema}
    (hnode : { a with nullable := true } = { b with nullable := true }) :
    annotate left a = { annotate right b with nullable := true } := by
  have hconstraints : statedConstraints left = statedConstraints right := by
    simp only [statedConstraints, natAt?, floatAt?, h "minLength" (by decide),
      h "maxLength" (by decide), h "pattern" (by decide), h "minimum" (by decide),
      h "maximum" (by decide), h "minItems" (by decide), h "maxItems" (by decide)]
  have hvalues (otherwise : List Json) :
      listedValues left otherwise = listedValues right otherwise := by
    simp only [listedValues, h "enum" (by decide), h "const" (by decide)]
  simp only [Schema.mk.injEq, true_and] at hnode
  obtain ⟨hshape, hformat, hdescription, henum, hname, hlimits⟩ := hnode
  simp only [annotate, hleft, hconstraints, hvalues, h "format" (by decide),
    h "description" (by decide), hshape, hformat, hdescription, henum, hname, hlimits,
    Bool.or_true, Bool.true_or]

end AgreeBesideNull

/-! ### The two ways -/

/-- Admitting `null` changes nothing if it is admitted. -/
theorem with_nullable_eq_self_iff {s : Schema} :
    { s with nullable := true } = s ↔ s.nullable = true := by
  cases s
  simp [eq_comm]

/-- **The two ways give nodes that are alike but for `null`.** -/
theorem ofFields_eq_of_spellings (hleft : SaysNullable type left)
    (hright : ListsNullType type right) (htype : type ≠ "null")
    (hbeside : AgreeBesideNull left right) (child : Json → Schema) :
    ofFields child left = { ofFields child right with nullable := true } := by
  have hsays : saysNullable left = true := by rw [saysNullable, hleft.nullable]
  rw [ofFields_eq, ofFields_eq]
  refine hbeside.annotate_eq hsays ?_
  by_cases hcomposed : IsComposed right
  · rw [hbeside.formOf_eq hcomposed]
  · have htyped : typedForm left = typedForm right := hbeside.typedForm_eq (by
      rw [hleft.declaredType_eq, hright.declaredType_eq htype])
    rw [formOf_of_not_isComposed hcomposed,
      formOf_of_not_isComposed fun hleft ↦ hcomposed (hbeside.isComposed_iff.1 hleft), htyped,
      Form.node, Form.node]

/-- **A list of types is read unless the schema is composed of branches.** A composed one admits
`null` if it is among the values that it lists, or if it is a single branch that admits it. -/
theorem nullable_ofFields_iff (hright : ListsNullType type right) (htype : type ≠ "null") :
    (ofFields child right).nullable = true ↔
      ¬IsComposed right ∨ listsNull right = true ∨
        ∃ branch, formOf right = .wrapped branch ∧ (child branch).nullable = true := by
  have hsays : saysNullable right = false := by rw [saysNullable, hright.nullable]
  have hnode : (ofFields child right).nullable =
      (((formOf right).node child).nullable || listsNull right) := by
    rw [ofFields_eq, annotate, hsays, Bool.or_false]
  rw [hnode, Bool.or_eq_true]
  by_cases hcomposed : IsComposed right
  · cases hform : formOf right with
    | wrapped branch => simp [hcomposed, Form.node, or_comm]
    | merged branches beside => simp [hcomposed, Form.node, mergeAllOf]
    | choice branches exclusive => simp [hcomposed, Form.node]
    | typed form nullable => exact absurd hform (formOf_ne_typed_of_isComposed hcomposed _ _)
  · refine iff_of_true (.inl ?_) (.inl hcomposed)
    rw [formOf_of_not_isComposed hcomposed, Form.node, hright.declaredType_eq htype]

/-- **The two ways to admit `null` give the same node unless a composed schema ignores the list of
types.** At every depth up to the ceiling the node with the keyword is the one with the list of
types, with `null` admitted; the two are the same exactly if the list is read, or if `null` is
admitted for another reason. -/
theorem nullable_spellings_iff (root : Json) {type : String} (htype : type ≠ "null")
    {left right : List (String × Json)} (hleft : SaysNullable type left)
    (hright : ListsNullType type right) (hbeside : AgreeBesideNull left right)
    (href : field? "$ref" right = none) (depth : Nat) :
    (depth ≤ maxResolveDepth → resolve root (.object left) depth =
      { resolve root (.object right) depth with nullable := true }) ∧
      (resolve root (.object left) depth = resolve root (.object right) depth ↔
        maxResolveDepth < depth ∨ ¬IsComposed right ∨ listsNull right = true ∨
          ∃ branch, formOf right = .wrapped branch ∧
            (resolve root branch (depth + 1)).nullable = true) := by
  by_cases hdepth : depth ≤ maxResolveDepth
  · have hrefLeft : field? "$ref" left = none := (hbeside _ (by decide)).trans href
    have hresolve {fields : List (String × Json)} (hnone : field? "$ref" fields = none) :
        resolve root (.object fields) depth =
          ofFields (fun part ↦ resolve root part (depth + 1)) fields :=
      resolve_eq_ofFields hdepth fun reference hsome ↦ absurd (hnone.symm.trans hsome) nofun
    have heq : resolve root (.object left) depth =
        { resolve root (.object right) depth with nullable := true } := by
      rw [hresolve hrefLeft, hresolve href]
      exact ofFields_eq_of_spellings hleft hright htype hbeside _
    refine ⟨fun _ ↦ heq, ?_⟩
    rw [heq, with_nullable_eq_self_iff, or_iff_right (Nat.not_lt.2 hdepth), hresolve href]
    exact nullable_ofFields_iff hright htype
  · -- past the ceiling both are the schema that admits anything
    have hany (value : Json) : resolve root value depth = any := by
      rw [resolve, show maxResolveDepth + 1 - depth = 0 by omega, resolveAt]
    refine ⟨fun hle ↦ absurd hle hdepth, ?_⟩
    rw [hany, hany]
    exact iff_of_true rfl (.inl (Nat.lt_of_not_le hdepth))

/-- A nullable note, by the keyword. -/
def markedNote : List (String × Json) :=
  [("type", .string "object"), ("nullable", .bool true),
    ("properties", .object [("text", .object [("type", .string "string")])])]

/-- The same note, by a list of types. -/
def listedNote : List (String × Json) :=
  [("properties", .object [("text", .object [("type", .string "string")])]),
    ("type", .array [.string "null", .string "object"])]

/-- A schema that is not composed reads both. -/
theorem nullable_spellings_iff_note :
    SaysNullable "object" markedNote ∧ ListsNullType "object" listedNote ∧
      AgreeBesideNull markedNote listedNote ∧
      resolve .null (.object markedNote) 3 = resolve .null (.object listedNote) 3 := by
  have hmarked : SaysNullable "object" markedNote := ⟨rfl, rfl⟩
  have hlisted : ListsNullType "object" listedNote := ⟨.inr rfl, rfl⟩
  have hbeside : AgreeBesideNull markedNote listedNote := fun keyword hkeyword ↦ by
    simp only [List.mem_cons, List.not_mem_nil, or_false, not_or] at hkeyword
    simp [markedNote, listedNote, field?, Ne.symm hkeyword.1, Ne.symm hkeyword.2]
  have hcomposed : ¬IsComposed listedNote := by
    simp [IsComposed, compositionKeywords, listedNote, field?]
  exact ⟨hmarked, hlisted, hbeside,
    (nullable_spellings_iff .null (by decide) hmarked hlisted hbeside rfl 3).2.2
      (.inr (.inl hcomposed))⟩

/-- A nullable address of one of two formats, by the keyword. -/
def markedAddress : List (String × Json) :=
  [("type", .string "string"), ("nullable", .bool true),
    ("oneOf", .array [.object [("type", .string "string"), ("format", .string "email")],
      .object [("type", .string "string"), ("format", .string "uri")]])]

/-- The same address, by a list of types. -/
def listedAddress : List (String × Json) :=
  [("type", .array [.string "string", .string "null"]),
    ("oneOf", .array [.object [("type", .string "string"), ("format", .string "email")],
      .object [("type", .string "string"), ("format", .string "uri")]])]

/-- A list of types beside `oneOf` does not admit `null`. -/
theorem null_ignored_address :
    SaysNullable "string" markedAddress ∧ ListsNullType "string" listedAddress ∧
      AgreeBesideNull markedAddress listedAddress ∧
      resolve .null (.object markedAddress) 0 ≠ resolve .null (.object listedAddress) 0 := by
  refine ⟨⟨rfl, rfl⟩, ⟨.inl rfl, rfl⟩, fun keyword hkeyword ↦ ?_, fun heq ↦ ?_⟩
  · simp only [List.mem_cons, List.not_mem_nil, or_false, not_or] at hkeyword
    simp [markedAddress, listedAddress, field?, Ne.symm hkeyword.1, Ne.symm hkeyword.2]
  · have hnullable := congrArg Schema.nullable heq
    exact absurd hnullable (by decide +kernel)

end Schema

end ApiContract
