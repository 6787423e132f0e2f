import ApiContract.Projection.Type
import ApiContract.Proofs.Identifier.Words
import ApiContract.Proofs.Spec.NamedReference
import ApiContract.Proofs.TypeScript.Indentation
import ApiContract.Proofs.TypeScript.TypeText

/-!
# Texts of the types of schemas

A type is declared as a text. This module carries what is known of the texts of types over to
schemas, whose types are made of the names, the listed values and the descriptions of the nodes that
are seen in them (`Schema.madeOf_toType`).

## Main results

* `Schema.print_toType_eq_iff`: without comments, and as far as numbers are told apart by their
  texts, the text of a type determines the type up to nested unions.
* `Schema.print_toType_eq_replaceAll`: whatever the schema is, its type is printed at a level by
  putting the indentation of the level behind the line breaks.

## Contents

Both follow from statements about types that are made of some contents: names, values, comments and
alternatives of unions. `Schema.ShowsOnly` says that what a schema shows is among the contents, and
the induction that its type is made of them goes along the projection. For the first result the
names have to be identifiers, since a name that is none could be read as several; for the second no
condition is needed, as line breaks stand where the printer puts them and nowhere else.

## Nested unions

A union in a union is printed without parentheses, and so are the alternatives of the outer one;
which of them were in a union of their own cannot be told, and need not be, since it is the same
type. `TypeExpr.flatten` takes such unions apart. The two schemas at the end are nested differently
and have one text.
-/

namespace ApiContract

open TypeScript

/-! ### What the type of a schema is made of -/

/-- What a schema shows is among some contents. -/
structure Schema.ShowsOnly (c : TypeExpr.Contents) (s : Schema) : Prop where
  name : ∀ node, s.Shows node → ∀ name ∈ node.refName, typeName name ∈ c.names
  value : ∀ node, s.Shows node → ∀ value ∈ listed node.enumValues, value ∈ c.values
  doc : ∀ node, s.Shows node → ∀ doc ∈ node.description, doc ∈ c.docs

namespace Schema

variable {c : TypeExpr.Contents}

/-- What is seen in less shows less. -/
theorem ShowsOnly.of_shows {s t : Schema} (h : s.ShowsOnly c)
    (hshows : ∀ node, t.Shows node → s.Shows node) : t.ShowsOnly c where
  name node hnode := h.name node (hshows node hnode)
  value node hnode := h.value node (hshows node hnode)
  doc node hnode := h.doc node (hshows node hnode)

/-- Adding `null` needs no further contents. -/
theorem madeOf_typeOrNull (hall : ∀ type, type ∈ c.alternatives) (nullable : Bool) {type : TypeExpr}
    (h : type.MadeOf c) : (typeOrNull nullable type).MadeOf c := by
  cases nullable with
  | true => exact h.orNull hall
  | false => exact h

mutual

/-- The type of a schema is made of what the schema shows. -/
theorem madeOf_toType (hall : ∀ type, type ∈ c.alternatives) :
    ∀ s : Schema, s.ShowsOnly c → s.toType.MadeOf c
  | ⟨shape, _, nullable, _, enumValues, refName, _⟩, h => by
    cases refName with
    | some name =>
      rw [toType]
      exact madeOf_typeOrNull hall nullable (.named (h.name _ (.self _) name rfl))
    | none =>
      have hvalues := h.value _ (.self _)
      -- listed values come before the shape
      cases hlisted : listed enumValues with
      | nil =>
        simp only [toType, hlisted]
        exact madeOf_typeOrNull hall nullable (madeOf_shapeType hall shape _ rfl rfl h)
      | cons value rest =>
        simp only [toType, hlisted]
        refine madeOf_typeOrNull hall nullable
          (.ofMembers (List.cons_ne_nil _ _) (fun type _ ↦ hall type) ?_)
        refine List.forall_mem_map.2 fun v hv ↦ .literal (hvalues v ?_)
        rwa [hlisted]

theorem madeOf_shapeType (hall : ∀ type, type ∈ c.alternatives) :
    ∀ (shape : Shape) (s : Schema), s.refName = none → s.shape = shape → s.ShowsOnly c →
      (shapeType shape).MadeOf c
  | .any, _, _, _, _ => .keyword (by decide)
  | .string, _, _, _, _ => .keyword (by decide)
  | .integer, _, _, _, _ => .keyword (by decide)
  | .number, _, _, _, _ => .keyword (by decide)
  | .boolean, _, _, _, _ => .keyword (by decide)
  | .array items, _, hname, hshape, h =>
    .array (madeOf_toType hall items (h.of_shows fun _ ↦ .items hname hshape))
  | .object [] _ none, _, _, _, _ => .record (.keyword (by decide))
  | .object [] _ (some additional), _, hname, hshape, h =>
    .record (madeOf_toType hall additional (h.of_shows fun _ ↦ .additional hname hshape))
  | .object (⟨name, schema⟩ :: rest) required _, _, hname, hshape, h => by
    have hproperties : ∀ p ∈ ⟨name, schema⟩ :: rest, p.schema.ShowsOnly c :=
      fun p hp ↦ h.of_shows fun _ ↦ .property hname hshape hp
    obtain ⟨hdocs, htypes⟩ := madeOf_propertyMembers hall required _ hproperties
    rw [shapeType]
    refine .object ?_ hdocs htypes
    rw [propertyMembers]
    exact List.cons_ne_nil _ _
  | .union [] _, _, _, _, _ => .keyword (by decide)
  | .union (variant :: rest) _, _, hname, hshape, h => by
    have hvariants : ∀ v ∈ variant :: rest, v.ShowsOnly c :=
      fun v hv ↦ h.of_shows fun _ ↦ .variant hname hshape hv
    refine .ofMembers ?_ (fun type _ ↦ hall type) (madeOf_variantTypes hall _ hvariants)
    rw [variantTypes]
    exact List.cons_ne_nil _ _

theorem madeOf_propertyMembers (hall : ∀ type, type ∈ c.alternatives) (required : NameSet) :
    ∀ properties : List Property, (∀ p ∈ properties, p.schema.ShowsOnly c) →
      (∀ m ∈ propertyMembers required properties, ∀ doc ∈ m.doc, doc ∈ c.docs) ∧
        ∀ m ∈ propertyMembers required properties, m.type.MadeOf c
  | [], _ => ⟨nofun, nofun⟩
  | ⟨name, schema⟩ :: rest, h => by
    obtain ⟨hschema, hrest⟩ := List.forall_mem_cons.1 h
    obtain ⟨hdocs, htypes⟩ := madeOf_propertyMembers hall required rest hrest
    rw [propertyMembers]
    exact ⟨List.forall_mem_cons.2 ⟨hschema.doc _ (.self _), hdocs⟩,
      List.forall_mem_cons.2 ⟨madeOf_toType hall schema hschema, htypes⟩⟩

theorem madeOf_variantTypes (hall : ∀ type, type ∈ c.alternatives) :
    ∀ variants : List Schema, (∀ v ∈ variants, v.ShowsOnly c) →
      ∀ type ∈ variantTypes variants, type.MadeOf c
  | [], _ => nofun
  | variant :: rest, h => by
    obtain ⟨hvariant, hrest⟩ := List.forall_mem_cons.1 h
    rw [variantTypes]
    exact List.forall_mem_cons.2
      ⟨madeOf_toType hall variant hvariant, madeOf_variantTypes hall rest hrest⟩

end

/-! ### Names of types -/

theorem toList_typeName (name : String) :
    (typeName name).toList = Identifier.pascalChars name.toList := by
  rw [typeName, Identifier.pascalCase, String.toList_ofList]

theorem isAlphanum_of_mem_typeName {name : String} {c : Char} (h : c ∈ (typeName name).toList) :
    c.isAlphanum = true :=
  Identifier.isAlphanum_of_mem_pascalChars (toList_typeName name ▸ h)

/-- A type whose name is an identifier begins with a capital. -/
theorem isTypeName_typeName {name : String}
    (h : Identifier.isPlainProperty (typeName name) = true) : IsTypeName (typeName name) := by
  obtain ⟨c, rest, hchars, hstart, -⟩ := Identifier.isPlainProperty_iff.1 h
  have hc : c.isAlphanum = true := isAlphanum_of_mem_typeName (hchars ▸ List.mem_cons_self)
  have hupper : c.isUpper = true := by
    have hhead := Identifier.head?_pascalChars name.toList
    rw [← toList_typeName, hchars, List.head?_cons] at hhead
    obtain ⟨d, -, rfl⟩ := Option.map_eq_some_iff.1 hhead.symm
    rwa [Identifier.isPlainStart_eq_isAlpha hc, Char.isAlpha_toUpper,
      ← Char.isUpper_toUpper] at hstart
  refine ⟨?_, hchars ▸ List.cons_ne_nil c rest, fun _ ↦ isAlphanum_of_mem_typeName⟩
  rw [hchars]
  exact fun d hd ↦ Option.some.inj hd ▸ hupper

/-! ### Types and their texts -/

/-- A node has no comment, a name that makes an identifier if it has one, and lists values whose
numbers are in a set. -/
structure IsPlain (numbers : Set Number) (node : Schema) : Prop where
  description : node.description = none
  identifier : ∀ name ∈ node.refName, Identifier.isPlainProperty (typeName name) = true
  value : ∀ value ∈ listed node.enumValues, value.NumbersIn numbers

/-- Plain nodes show plain contents. -/
theorem showsOnly_plain {numbers : Set Number} {s : Schema}
    (h : ∀ node, s.Shows node → node.IsPlain numbers) : s.ShowsOnly (.plain numbers) where
  name node hnode name hname := isTypeName_typeName ((h node hnode).identifier name hname)
  value node hnode value hvalue :=
    ⟨(h node hnode).value value hvalue, Bool.not_eq_true' _ ▸ (List.mem_filter.1 hvalue).2⟩
  doc node hnode doc hdoc := by
    rw [(h node hnode).description] at hdoc
    exact absurd hdoc (Option.not_mem_none doc)

/-- **The text of a type determines the type**, up to nested unions: what is between the
alternatives of a union, the quotes of a property name and the brackets of a type cannot be taken
for anything else. -/
theorem print_toType_eq_iff {numbers : Set Number} (hnumbers : numbers.InjOn Number.render)
    {s t : Schema} (hs : ∀ node, s.Shows node → node.IsPlain numbers)
    (ht : ∀ node, t.Shows node → node.IsPlain numbers) (level : Nat) :
    s.toType.print level = t.toType.print level ↔ s.toType.flatten = t.toType.flatten :=
  TypeExpr.MadeOf.print_eq_iff hnumbers (madeOf_toType Set.mem_univ s (showsOnly_plain hs))
    (madeOf_toType Set.mem_univ t (showsOnly_plain ht)) level

/-- A reference, listed values and another reference, with the first two in a union of their own. -/
def firstTwoNested : Schema :=
  let pair : Schema :=
    { shape := .union [{ shape := .any, refName := some "order-item" },
        { shape := .any, enumValues := [.string "a | b", .null, .number (.int 10)] }] true }
  { shape := .union [pair, { shape := .any, refName := some "Status" }] true }

/-- The same with the last two in a union of their own. -/
def lastTwoNested : Schema :=
  let pair : Schema :=
    { shape := .union [{ shape := .any, enumValues := [.string "a | b", .null, .number (.int 10)] },
        { shape := .any, refName := some "Status" }] true }
  { shape := .union [{ shape := .any, refName := some "order-item" }, pair] true }

section Shown

variable {p : Schema → Prop}

/-- A schema without children shows itself alone. -/
theorem forall_shows_of_any {s : Schema} (hshape : s.shape = .any) (h : p s) :
    ∀ node, s.Shows node → p node := by
  intro node hnode
  cases hnode with
  | self => exact h
  | items _ hother _ | property _ hother _ _ | additional _ hother _ | variant _ hother _ _ =>
    exact absurd (hshape.symm.trans hother) nofun

/-- A union of two shows itself and what the two show. -/
theorem forall_shows_of_pair {first second : Schema} {exclusive : Bool}
    (h : p { shape := .union [first, second] exclusive })
    (hfirst : ∀ node, first.Shows node → p node) (hsecond : ∀ node, second.Shows node → p node) :
    ∀ node, Schema.Shows { shape := .union [first, second] exclusive } node → p node := by
  intro node hnode
  cases hnode with
  | self => exact h
  | items _ hother _ | property _ hother _ _ | additional _ hother _ => exact absurd hother nofun
  | variant _ hshape hmem hnode =>
    obtain ⟨rfl, -⟩ := Shape.union.inj hshape
    rcases List.mem_cons.1 hmem with rfl | hmem
    · exact hfirst node hnode
    · exact hsecond node (List.mem_singleton.1 hmem ▸ hnode)

end Shown

/-- The unions are nested in different ways, and the texts are the same. -/
theorem print_toType_eq_iff_nested :
    Set.InjOn Number.render {.int 1, .int 10} ∧
    (∀ node, firstTwoNested.Shows node → node.IsPlain {.int 1, .int 10}) ∧
    (∀ node, lastTwoNested.Shows node → node.IsPlain {.int 1, .int 10}) ∧
    firstTwoNested.toType ≠ lastTwoNested.toType ∧
    firstTwoNested.toType.print 0 = lastTwoNested.toType.print 0 ∧
    firstTwoNested.toType.flatten = lastTwoNested.toType.flatten := by
  have hnumbers : Set.InjOn Number.render {.int 1, .int 10} := Set.injOn_pair.2 (by decide)
  have hreference (name : String) (h : Identifier.isPlainProperty (typeName name) = true) :
      ∀ node, Schema.Shows { shape := .any, refName := some name } node →
        node.IsPlain {.int 1, .int 10} :=
    forall_shows_of_any rfl ⟨rfl, fun _ hname ↦ Option.some.inj hname ▸ h, nofun⟩
  have hitem := hreference "order-item" (by decide +kernel)
  have hstatus := hreference "Status" (by decide +kernel)
  have hvalues : ∀ node, Schema.Shows
      { shape := .any, enumValues := [.string "a | b", .null, .number (.int 10)] } node →
        node.IsPlain {.int 1, .int 10} := by
    refine forall_shows_of_any rfl ⟨rfl, nofun, ?_⟩
    exact List.forall_mem_cons.2 ⟨.string _, List.forall_mem_singleton.2 (.number (.inr rfl))⟩
  have hpair {first second : Schema}
      (hfirst : ∀ node, first.Shows node → node.IsPlain {.int 1, .int 10})
      (hsecond : ∀ node, second.Shows node → node.IsPlain {.int 1, .int 10}) :
      ∀ node, Schema.Shows { shape := .union [first, second] true } node →
        node.IsPlain {.int 1, .int 10} :=
    forall_shows_of_pair ⟨rfl, nofun, nofun⟩ hfirst hsecond
  have hfirst := hpair (hpair hitem hvalues) hstatus
  have hlast := hpair hitem (hpair hvalues hstatus)
  have hprint : firstTwoNested.toType.print 0 = lastTwoNested.toType.print 0 := by decide +kernel
  exact ⟨hnumbers, hfirst, hlast, nofun, hprint,
    (print_toType_eq_iff hnumbers hfirst hlast 0).1 hprint⟩

/-- **A type is indented by the spaces behind its line breaks alone.** -/
theorem print_toType_eq_replaceAll (s : Schema) (level : Nat) :
    s.toType.print level =
      Text.replaceAll (s.toType.print 0) "\n"
        ("\n" ++ String.ofList (List.replicate (2 * level) ' ')) := by
  have hmade : s.toType.MadeOf
      { names := {name | '\n' ∉ name.toList}, values := Set.univ, docs := Set.univ
        alternatives := Set.univ } := by
    refine madeOf_toType Set.mem_univ s
      ⟨fun _ _ name _ hmem ↦ ?_, fun _ _ _ _ ↦ trivial, fun _ _ _ _ ↦ trivial⟩
    exact absurd (isAlphanum_of_mem_typeName hmem) (by decide)
  exact (hmade.indented_print (fun _ ↦ id) 0).symm

end Schema

end ApiContract
